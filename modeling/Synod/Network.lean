import Synod.Connection
import Synod.Node

/-! Nodes that reach each other over a network. Each listens at its address until it is stopped. A host
without a route reaches nobody, not even itself. -/

namespace Synod

structure Host (α : Type) where
  address : String
  node : Node α
  listening : Bool

structure Network (α : Type) where
  hosts : List (Host α)
  /-- Whether there is a way from host to host. -/
  routed : Bool

namespace Network

variable {α : Type} [Wire α]

def refusal (routed : Bool) : TransportError :=
  .ofStream (if routed then .connectionRefused else .networkUnreachable)

/-- Open a connection to an address. Gives the place of the host behind it. -/
def connect (n : Network α) (address : String) : Except TransportError Nat :=
  match n.hosts.findIdx? fun host => host.address = address && host.listening with
  | some place => if n.routed then .ok place else .error (refusal false)
  | none => .error (refusal n.routed)

def handleAt (peers : Peers (Network α) α) (place : Nat) (request : Request α) (n : Network α) :
    Response α × Network α :=
  match n.hosts[place]? with
  | none => (.accepted ⟨false⟩, n)
  | some host =>
    let handled := host.node.handle peers request n
    (handled.response, { handled.world with hosts := handled.world.hosts.set place { host with node := handled.node } })

def send (peers : Peers (Network α) α) (address : String) (request : Request α) (n : Network α) :
    Reply (Response α) × Network α :=
  match n.connect address with
  | .error error => (.error error, n)
  | .ok place => Connection.exchange (handleAt peers place) request n

/-- Peers as a proposer needs them: its requests go to acceptors, which ask nobody. -/
def acceptors : Peers (Network α) α := ⟨send (.failing .unreachable)⟩

def call (n : Network α) (address : String) (request : Request α) : Reply (Response α) × Network α :=
  send acceptors address request n

/-- Stop the host at a place. What its acceptor remembers stays. -/
def stop (n : Network α) (place : Nat) : Network α :=
  { n with hosts := n.hosts.modify place fun host => { host with listening := false } }

/-- Nodes with the numbers from one on, each of which lists the addresses of all. -/
def ofAddresses (addresses : List String) (routed : Bool) : Network α :=
  let host (address : String) (place : Nat) : Host α :=
    ⟨address, .ofConfig ⟨(place + 1).toUInt64, address, addresses, Config.defaultTimeout, Config.defaultLogLevel⟩, true⟩
  ⟨addresses.zipIdx.map fun (address, place) => host address place, routed⟩

end Network

end Synod
