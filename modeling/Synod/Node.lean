import Synod.Config
import Synod.Round
import Synod.Acceptor

/-! A node of a cluster: an acceptor of its own, and a proposer whose links lead to all acceptors. The own
acceptor is reached in the process, and the others by requests to their addresses. -/

namespace Synod

inductive Way where
  | own
  | remote (address : String)
deriving DecidableEq, Repr

structure Node (α : Type) where
  id : UInt64
  acceptor : Acceptor α
  mint : Mint
  ways : List Way
deriving Repr

/-- How requests to addresses are answered, and what becomes of the world beyond the node. -/
structure Peers (σ α : Type) where
  call : String → Request α → σ → Reply (Response α) × σ

def Peers.failing {σ α : Type} (error : String → TransportError) : Peers σ α :=
  ⟨fun address _ world => (.error (error address), world)⟩

namespace Response

variable {α : Type}

def toPromise : Reply (Response α) → Reply (Promise α)
  | .ok (.promise reply) => .ok reply
  | .ok _ => .error (.unexpectedReply "prepare")
  | .error error => .error error

def toAccepted : Reply (Response α) → Reply Accepted
  | .ok (.accepted reply) => .ok reply
  | .ok _ => .error (.unexpectedReply "accept")
  | .error error => .error error

def toProposeReply : Reply (Response α) → Reply ProposeReply
  | .ok (.proposed reply) => .ok reply
  | .ok _ => .error (.unexpectedReply "propose")
  | .error error => .error error

end Response

namespace Node

variable {σ α ρ : Type}

def endpoint (n : Node α) : Way → String
  | .own => n.acceptor.endpoint
  | .remote address => address

/-- The own part of a phase: an answer for each way that leads to the own acceptor, and for each other
one the address that is still to be asked. -/
def askOwn (visit : Visit α ρ) : List Way → Acceptor α → List (ρ ⊕ String) × List Event × Acceptor α
  | [], acceptor => ([], [], acceptor)
  | .own :: ways, acceptor =>
    let (reply, after) := visit.answer acceptor
    let (answers, events, last) := askOwn visit ways after
    (.inl reply :: answers, visit.event acceptor :: events, last)
  | .remote address :: ways, acceptor =>
    let (answers, events, last) := askOwn visit ways acceptor
    (.inr address :: answers, events, last)

/-- The remote part of a phase, which asks the addresses in order. -/
def askOthers (ask : String → σ → Reply ρ × σ) : List (ρ ⊕ String) → σ → List (Reply ρ) × σ
  | [], world => ([], world)
  | .inl reply :: rest, world =>
    let (replies, world) := askOthers ask rest world
    (.ok reply :: replies, world)
  | .inr address :: rest, world =>
    let (reply, world) := ask address world
    let (replies, world) := askOthers ask rest world
    (reply :: replies, world)

/-- A phase over all ways. The own acceptor answers before any request is under way. -/
def phase (visit : Visit α ρ) (ask : String → σ → Reply ρ × σ) (ways : List Way) (world : Acceptor α × σ) :
    Round.Answers (Acceptor α × σ) ρ :=
  let (answers, events, acceptor) := askOwn visit ways world.1
  let (replies, beyond) := askOthers ask answers world.2
  ⟨replies, events, (acceptor, beyond)⟩

def channel (n : Node α) (peers : Peers σ α) : Round.Channel (Acceptor α × σ) α where
  endpoints := n.ways.map n.endpoint
  prepare ballot :=
    phase (.prepare ballot)
      (fun address world =>
        let (response, world) := peers.call address (.prepare ballot) world
        (Response.toPromise response, world))
      n.ways
  accept ballot value :=
    phase (.accept ballot value)
      (fun address world =>
        let (response, world) := peers.call address (.accept ballot value) world
        (Response.toAccepted response, world))
      n.ways

/-- What a node does with a request: its response, what it says, and the node and the world after it. -/
structure Handled (σ α : Type) where
  response : Response α
  events : List Event
  node : Node α
  world : σ

/-- Handle a request. Requests to the acceptor go there, and a client's request starts a round. -/
def handle (n : Node α) (peers : Peers σ α) (request : Request α) (world : σ) : Handled σ α :=
  match request with
  | .prepare ballot =>
    let (promise, acceptor) := n.acceptor.prepare ballot
    ⟨.promise promise, [n.acceptor.prepareEvent ballot], { n with acceptor }, world⟩
  | .accept ballot value =>
    let (accepted, acceptor) := n.acceptor.accept ballot value
    ⟨.accepted accepted, [n.acceptor.acceptEvent ballot value], { n with acceptor }, world⟩
  | .propose expected payload =>
    let (ballot, mint) := n.mint.next
    let (report, acceptor, world) :=
      Round.run n.mint.nodeId ballot (n.channel peers) (compareAndSet expected payload) (n.acceptor, world)
    ⟨.proposed (.ofResult report.outcome), report.events, { n with acceptor, mint }, world⟩

/-- A new node. Of the listed acceptors, the one at the node's own address is its own. -/
def ofConfig (c : Config) : Node α :=
  ⟨c.nodeId, .fresh c.nodeId, .fresh c.nodeId,
    c.acceptors.map fun address => if address = c.listen then .own else .remote address⟩

def joined (n : Node α) : Event := .clusterJoined n.id n.ways.length (majority n.ways.length)

end Node

end Synod
