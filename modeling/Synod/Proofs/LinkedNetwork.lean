import Synod.Network
import Synod.Proofs.ConnectionExchange
import Synod.Proofs.NodePhase

/-! Rounds over a network of which some nodes are linked in the process. Where every body fits a frame, a round does
not tell a connection from a call: it hears the same replies and leaves the same network. -/

namespace Synod

variable {α : Type}

def Request.demand? : Request α → Option (Demand α)
  | prepare ballot => some (.prepare ballot)
  | accept ballot value => some (.accept ballot value)
  | propose .. => none

private theorem Demand.demand?_request (demand : Demand α) : demand.request.demand? = some demand := by
  cases demand <;> rfl

/-- A round makes of its channel only one phase of each kind. -/
theorem Round.run_congr {σ : Type} {channel channel' : Channel σ α} {ballot : Ballot} {transform : Transform α}
    {world : σ} (endpoints : channel'.endpoints = channel.endpoints)
    (prepared : channel'.prepare ballot world = channel.prepare ballot world)
    (accepted : ∀ draft, Round.draft transform (channel.prepare ballot world).replies = .ok draft →
      channel'.accept ballot draft.next (channel.prepare ballot world).world =
        channel.accept ballot draft.next (channel.prepare ballot world).world) (node : UInt64) :
    run node ballot channel' transform world = run node ballot channel transform world := by
  simp only [run, endpoints, prepared]
  cases drafted : draft transform (channel.prepare ballot world).replies with
  | error error => rfl
  | ok draft => simp only [accepted draft drafted]

namespace Network

/-- Hand a demand to the acceptor of the host at an address, as a call in the process. Where nobody listens there is no
acceptor to be had, in the process or otherwise. -/
def hand (address : String) (demand : Demand α) (n : Network α) : Reply (Response α) × Network α :=
  match n.connect address with
  | .error error => (.error error, n)
  | .ok place =>
    match n.hosts[place]? with
    | none => (.error (.unreachable address), n)
    | some host =>
      let (response, acceptor) := host.node.acceptor.answer demand
      (.ok response, { n with hosts := n.hosts.set place { host with node.acceptor := acceptor } })

variable {n : Network α} {address : String} {place : Nat} {host : Host α} (demand : Demand α)

private theorem connect_ok (connected : n.connect address = .ok place) : ∃ host, n.hosts[place]? = some host := by
  unfold connect at connected
  split at connected
  next found =>
    split at connected
    · cases connected
      obtain ⟨inside, _⟩ := List.findIdx?_eq_some_iff_getElem.1 found
      exact ⟨_, List.getElem?_eq_getElem inside⟩
    · cases connected
  · cases connected

private theorem hand_ok (connected : n.connect address = .ok place) (found : n.hosts[place]? = some host) :
    n.hand address demand =
      (.ok (host.node.acceptor.answer demand).1,
        { n with hosts := n.hosts.set place { host with node.acceptor := (host.node.acceptor.answer demand).2 } }) := by
  simp only [hand, connected, found]

theorem hand_answered {demand : Demand α} {response : Response α}
    (answered : (n.hand address demand).1 = .ok response) :
    ∃ acceptor : Acceptor α, response = (acceptor.answer demand).1 := by
  unfold hand at answered
  split at answered
  · cases answered
  · split at answered
    · cases answered
    next host _ =>
      cases answered
      exact ⟨host.node.acceptor, rfl⟩

/-- A host meets a demand as its acceptor does, whoever its peers are. -/
theorem handleAt_demand (found : n.hosts[place]? = some host) (peers : Peers (Network α) α) :
    handleAt peers place demand.request n =
      ((host.node.acceptor.answer demand).1,
        { n with hosts := n.hosts.set place { host with node.acceptor := (host.node.acceptor.answer demand).2 } }) := by
  cases demand <;> simp [handleAt, found, Node.handle, Demand.request, Acceptor.answer]

variable [Wire α]

def linked (near : String → Bool) : Peers (Network α) α where
  call address request n :=
    match request.demand? with
    | some demand => if near address then n.hand address demand else acceptors.call address request n
    | none => acceptors.call address request n

private theorem acceptors_call (payload : Wire.Faithful α 0) (sent : Frame.Fits demand.request)
    (back : ∀ response, (n.hand address demand).1 = .ok response → Frame.Fits response) :
    acceptors.call address demand.request n = n.hand address demand := by
  cases connected : n.connect address with
  | error error => simp only [acceptors, send, hand, connected]
  | ok place =>
    obtain ⟨host, found⟩ := connect_ok connected
    have handled := handleAt_demand demand found (.failing .unreachable)
    have handed := hand_ok demand connected found
    have fits : Frame.Fits (handleAt (.failing .unreachable) place demand.request n).1 := by
      rw [handled]
      exact back _ (congrArg Prod.fst handed)
    simp only [acceptors, send, connected]
    rw [Connection.exchange_fits payload sent fits, handled, handed]

theorem linked_call (payload : Wire.Faithful α 0) (near : String → Bool) (sent : Frame.Fits demand.request)
    (back : ∀ response, (n.hand address demand).1 = .ok response → Frame.Fits response) :
    (linked near).call address demand.request n = n.hand address demand := by
  simp only [linked, demand.demand?_request]
  split
  · rfl
  · exact acceptors_call demand payload sent back

private theorem linked_nowhere : (linked fun _ => false : Peers (Network α) α) = acceptors := by
  unfold linked acceptors
  congr
  funext address request n
  cases request <;> rfl

def inProcess : Peers (Network α) α := linked fun _ => true

private theorem inProcess_call : (inProcess (α := α)).call address demand.request n = n.hand address demand := by
  simp only [inProcess, linked, demand.demand?_request, if_true]

/-- The bodies of a round all fit: those of its requests, and those of the promises that come over its links. The
answers to accept requests are always short. -/
structure Fitting (proposer : Node α) (ballot : Ballot) (transform : Transform α) (world : Acceptor α × Network α) :
    Prop where
  asked : Frame.Fits (Request.prepare ballot : Request α)
  promised : ∀ (place : Nat) address promise, proposer.ways[place]? = some (.remote address) →
    ((proposer.channel inProcess).prepare ballot world).replies[place]? = some (.ok promise) →
      Frame.Fits (Response.promise promise)
  drafted : ∀ draft,
    Round.draft transform ((proposer.channel inProcess).prepare ballot world).replies = .ok draft →
      Frame.Fits (Request.accept ballot draft.next)

private theorem fits_accepted (accepted : Accepted) : Frame.Fits (Response.accepted accepted : Response α) := by
  obtain ⟨ok⟩ := accepted
  have spelled : Wire.toJson (Response.accepted ⟨ok⟩ : Response α) =
      .object [("type", .string "accepted"), ("ok", .bool ok)] := rfl
  simp only [Frame.Fits, Wire.encode, spelled]
  cases ok <;> decide

section

variable {proposer : Node α} {ballot : Ballot} {transform : Transform α} {world : Acceptor α × Network α}
  (payload : Wire.Faithful α 0) (near : String → Bool)

include payload

theorem prepare_linked (fits : Fitting proposer ballot transform world) :
    (proposer.channel (linked near)).prepare ballot world = (proposer.channel inProcess).prepare ballot world := by
  apply Node.phase_congr
  intro place address beyond way heard
  have called : inProcess.call address (.prepare ballot) beyond = beyond.hand address (.prepare ballot) :=
    inProcess_call (.prepare ballot)
  have handed : (linked near).call address (.prepare ballot) beyond = beyond.hand address (.prepare ballot) := by
    apply linked_call (.prepare ballot) payload near fits.asked
    intro response answered
    obtain ⟨acceptor, rfl⟩ := hand_answered answered
    apply fits.promised place address (acceptor.prepare ballot).1 way
    have promise : Response.toPromise (inProcess.call address (.prepare ballot) beyond).1 =
        .ok (acceptor.prepare ballot).1 := by
      rw [called, answered]
      rfl
    exact heard.trans (congrArg some promise)
  simp only [handed, called]

theorem accept_linked (fits : Fitting proposer ballot transform world) {draft : Round.Draft α}
    (drafted : Round.draft transform ((proposer.channel inProcess).prepare ballot world).replies = .ok draft)
    (world' : Acceptor α × Network α) :
    (proposer.channel (linked near)).accept ballot draft.next world' =
      (proposer.channel inProcess).accept ballot draft.next world' := by
  apply Node.phase_congr
  intro place address beyond _ _
  have called : inProcess.call address (.accept ballot draft.next) beyond =
      beyond.hand address (.accept ballot draft.next) := inProcess_call (.accept ballot draft.next)
  have handed : (linked near).call address (.accept ballot draft.next) beyond =
      beyond.hand address (.accept ballot draft.next) := by
    apply linked_call (.accept ballot draft.next) payload near (fits.drafted draft drafted)
    intro response answered
    obtain ⟨acceptor, rfl⟩ := hand_answered answered
    exact fits_accepted _
  simp only [handed, called]

theorem run_linked (fits : Fitting proposer ballot transform world) (id : UInt64) :
    Round.run id ballot (proposer.channel (linked near)) transform world =
      Round.run id ballot (proposer.channel inProcess) transform world := by
  have endpoints : (proposer.channel (linked near)).endpoints = (proposer.channel inProcess).endpoints := rfl
  refine Round.run_congr endpoints (prepare_linked payload near fits) ?_ id
  exact fun draft drafted => accept_linked payload near fits drafted _

end

end Network

namespace Node

def proposes {σ : Type} (peers : Peers σ α) (expected : Option UInt64) (payload : α) (world : Node α × σ) :
    Except ProposeError UInt64 :=
  let (n, beyond) := world
  (Round.run n.mint.nodeId n.mint.next.1 (n.channel peers) (compareAndSet expected payload) (n.acceptor, beyond)).1.outcome

/-- Nothing tells a connection from a call as long as every body fits a frame. Every request brings the client the very
answer that the node gives and leaves the node as that answer does: a request to an acceptor is answered by the acceptor,
and a client's request by how the round of the node's proposer ended. And a round hears the same, ends the same and
leaves the same acceptors, whichever of them are linked in the process. -/
theorem connections_transparent {σ : Type} (node : Node String) (peers : Peers σ String) (world : σ) :
    (∀ demands : List (Demand String), (∀ demand ∈ demands, Frame.Fits demand.request) →
        (∀ response ∈ (node.acceptor.serve demands).1, Frame.Fits response) →
      (serveAll (called peers) (demands.map Demand.request) (node, world)).1 = (node.acceptor.serve demands).1.map .ok ∧
        ∀ place, (serveAll (called peers) ((demands.take place).map Demand.request) (node, world)).2 =
          ({ node with acceptor := (node.acceptor.serve (demands.take place)).2 }, world)) ∧
      (∀ requests : List (Request String), (∀ request ∈ requests, Frame.Fits request) →
          (∀ response ∈ (serveAll (answer peers) requests (node, world)).1, Frame.Fits response) →
        (serveAll (called peers) requests (node, world)).1 =
            (serveAll (answer peers) requests (node, world)).1.map .ok ∧
          (∀ place, (serveAll (called peers) (requests.take place) (node, world)).2 =
            (serveAll (answer peers) (requests.take place) (node, world)).2) ∧
          ∀ (place : Nat) expected payload, requests[place]? = some (.propose expected payload) →
            (serveAll (called peers) requests (node, world)).1[place]? = some (.ok (.proposed (.ofResult
              (proposes peers expected payload (serveAll (answer peers) (requests.take place) (node, world)).2))))) ∧
      ∀ (ballot : Ballot) (transform : Transform String) (world : Acceptor String × Network String),
        Network.Fitting node ballot transform world → ∀ near,
          Round.run node.mint.nodeId ballot (node.channel Network.acceptors) transform world =
            Round.run node.mint.nodeId ballot (node.channel (Network.linked near)) transform world := by
  have payload := Wire.faithful_string
  refine ⟨?_, ?_, ?_⟩
  · intro demands sent back
    have sent : ∀ request ∈ demands.map Demand.request, Frame.Fits request := by
      intro request member
      obtain ⟨demand, among, rfl⟩ := List.mem_map.1 member
      exact sent demand among
    have direct := serveAll_demands peers demands node world
    have back : ∀ response ∈ (serveAll (answer peers) (demands.map Demand.request) (node, world)).1,
        Frame.Fits response := by
      rwa [direct]
    refine ⟨?_, fun place => ?_⟩
    · rw [serveAll_called payload sent back, direct]
    · have after := serveAll_called_take payload sent back place
      rw [← List.map_take, serveAll_demands] at after
      exact after
  · intro requests sent back
    refine ⟨?_, serveAll_called_take payload sent back, ?_⟩
    · rw [serveAll_called payload sent back]
    · intro place expected content asked
      rw [serveAll_called payload sent back, List.getElem?_map, serveAll_reply _ _ asked]
      rfl
  · intro ballot transform world fits near
    have connected := Network.run_linked payload (fun _ => false) fits node.mint.nodeId
    rw [Network.linked_nowhere] at connected
    rw [connected, Network.run_linked payload near fits]

/-- The first round of a cluster of three commits over connections as it does in one process. -/
theorem connections_transparent_of_three :
    let network : Network String := .ofAddresses ["a", "b", "c"] true
    let node : Node String := .ofConfig ⟨1, "a", ["a", "b", "c"], 1000, "info"⟩
    let demands : List (Demand String) := [.prepare ⟨1, 1⟩, .accept ⟨1, 1⟩ ⟨"x", 0⟩, .prepare ⟨2, 2⟩]
    (serveAll (called Network.inProcess) (demands.map Demand.request) (node, network)).1 =
        [.ok (.promise (.granted none)), .ok (.accepted ⟨true⟩), .ok (.promise (.granted (some ⟨⟨1, 1⟩, ⟨"x", 0⟩⟩)))] ∧
      (serveAll (called Network.inProcess) [.propose none "x"] (node, network)).1 = [.ok (.proposed ⟨true, some 0⟩)] ∧
      (Round.run 1 ⟨1, 1⟩ (node.channel Network.acceptors) (compareAndSet none "x") (node.acceptor, network)).1.outcome =
        .ok 0 := by
  intro network node demands
  obtain ⟨demanded, requested, rounds⟩ := connections_transparent node Network.inProcess network
  have fits : Network.Fitting node ⟨1, 1⟩ (compareAndSet none "x") (node.acceptor, network) := by
    refine ⟨by decide, ?_, ?_⟩
    · intro place address promise _ heard
      have replies : ((node.channel Network.inProcess).prepare ⟨1, 1⟩ (node.acceptor, network)).replies =
        List.replicate 3 (.ok (.granted none)) := rfl
      rw [replies] at heard
      cases List.eq_of_mem_replicate (List.mem_of_getElem? heard)
      decide
    · intro draft drafted
      have first : Round.draft (compareAndSet none "x")
          ((node.channel Network.inProcess).prepare ⟨1, 1⟩ (node.acceptor, network)).replies =
            .ok ⟨none, ⟨"x", 0⟩⟩ := by decide +kernel
      rw [first] at drafted
      cases drafted
      decide
  refine ⟨?_, ?_, ?_⟩
  · exact (demanded demands (by decide) (by decide +kernel)).1
  · exact (requested [.propose none "x"] (by decide) (by decide +kernel)).1.trans (by decide +kernel)
  · have connected := rounds ⟨1, 1⟩ (compareAndSet none "x") (node.acceptor, network) fits fun _ => true
    have outcome := congrArg (·.1.outcome) connected
    exact outcome.trans (by decide +kernel)

end Node

end Synod
