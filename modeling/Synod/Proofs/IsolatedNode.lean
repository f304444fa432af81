import Mathlib.Data.List.Nodup
import Synod.Proofs.ClusterDescription
import Synod.Proofs.NodePhase
import Synod.Proofs.RoundOutcome

/-! A node that can reach nobody but itself. It has at most one vote, which is no majority of a cluster with other
members, so its rounds end in the prepare phase and nothing that it proposes is ever accepted. -/

namespace Synod

variable {σ α ρ : Type}

def Peers.Unreachable (peers : Peers σ α) : Prop :=
  ∀ address request world, ∃ error, (peers.call address request world).1 = .error error

namespace Node

private theorem askOthers_granted {ask : String → σ → Reply ρ × σ} (agrees : ρ → Bool) (answers : List (ρ ⊕ String))
    (world : σ) (fails : ∀ address world, ∃ error, (ask address world).1 = .error error) :
    (askOthers ask answers world).1.countP (Reply.granted agrees) ≤ answers.countP Sum.isLeft := by
  induction answers generalizing world with
  | nil => exact Nat.le_refl _
  | cons answer answers ih =>
    cases answer with
    | inl reply =>
      have rest := ih world
      simp only [askOthers, List.countP_cons, Sum.isLeft_inl, if_true]
      split <;> omega
    | inr address =>
      obtain ⟨error, failed⟩ := fails address world
      have rest := ih (ask address world).2
      simpa [askOthers, List.countP_cons, failed, Reply.granted] using rest

variable {n : Node α} {peers : Peers σ α}

private theorem channel_prepare_length (ballot : Ballot) (world : Acceptor α × σ) :
    ((n.channel peers).prepare ballot world).replies.length = n.ways.length :=
  phase_length ..

theorem channel_prepare_accepted (ballot : Ballot) (world : Acceptor α × σ) :
    ((n.channel peers).prepare ballot world).world.1.record.accepted = world.1.record.accepted :=
  askOwn_kept (.prepare ballot) n.ways world.1 (·.record.accepted) fun a => Record.prepare_accepted a.record ballot

/-- With no peer in reach, no more than the own acceptor can promise. -/
theorem channel_prepare_granted (unreachable : peers.Unreachable) (ballot : Ballot) (world : Acceptor α × σ) :
    (tally (·.ok) ((n.channel peers).prepare ballot world).replies).granted ≤ n.ways.count .own := by
  rw [(tally_counts _ _).granted, ← askOwn_answered (.prepare ballot) n.ways world.1]
  apply askOthers_granted
  intro address world
  obtain ⟨error, failed⟩ := unreachable address (.prepare ballot) world
  exact ⟨error, by simp only [failed, Response.toPromise]⟩

variable {world : σ}

private theorem handle_ways (request : Request α) : (n.handle peers request world).node.ways = n.ways := by
  cases request <;> rfl

theorem handle_propose_minority (minority : n.ways.count .own < majority n.ways.length)
    (unreachable : peers.Unreachable) (expected : Option UInt64) (payload : α) :
    (n.handle peers (.propose expected payload) world).response = .proposed ⟨false, none⟩ ∧
      (n.handle peers (.propose expected payload) world).node.acceptor.record.accepted = n.acceptor.record.accepted := by
  have few : (tally (·.ok) ((n.channel peers).prepare n.mint.next.1 (n.acceptor, world)).replies).granted <
      majority ((n.channel peers).prepare n.mint.next.1 (n.acceptor, world)).replies.length := by
    rw [channel_prepare_length]
    exact Nat.lt_of_le_of_lt (channel_prepare_granted unreachable _ _) minority
  have drafted := Round.draft_unpromised (compareAndSet expected payload) few
  simp only [handle, Round.run, drafted]
  exact ⟨rfl, channel_prepare_accepted _ _⟩

/-- Of the requests that such a node serves, only a granted accept request changes what it accepted. -/
theorem handle_minority (minority : n.ways.count .own < majority n.ways.length) (unreachable : peers.Unreachable)
    (request : Request α) : let handled := n.handle peers request world
    handled.node.acceptor.record.accepted = n.acceptor.record.accepted ∨
      ∃ ballot value, request = .accept ballot value ∧ handled.response = .accepted ⟨true⟩ ∧
        handled.node.acceptor.record.accepted = some ⟨ballot, value⟩ := by
  cases request with
  | prepare ballot => exact .inl (Record.prepare_accepted n.acceptor.record ballot)
  | accept ballot value =>
    by_cases reached : n.acceptor.record.promised ≤ ballot
    · refine .inr ⟨ballot, value, rfl, ?_⟩
      simp only [handle, Acceptor.accept, Record.accept_reached reached, and_self]
    · refine .inl ?_
      simp only [handle, Acceptor.accept, Record.accept_stale (not_le.1 reached)]
  | propose expected payload => exact .inl (handle_propose_minority minority unreachable expected payload).2

private theorem serveAll_ways (requests : List (Request α)) (world : Node α × σ) :
    (serveAll (answer peers) requests world).2.1.ways = world.1.ways := by
  induction requests generalizing world with
  | nil => rfl
  | cons request rest ih => exact (ih _).trans (handle_ways request)

private theorem ofConfig_own (c : Config) : (ofConfig c : Node α).ways.count .own = c.acceptors.count c.listen := by
  simp only [ofConfig]
  induction c.acceptors with
  | nil => rfl
  | cons address rest ih => by_cases same : address = c.listen <;> simp [same, ih]

theorem ofConfig_minority {c : Config} (distinct : c.acceptors.Nodup) (others : c.acceptors ≠ [c.listen]) :
    (ofConfig c : Node α).ways.count .own < majority (ofConfig c : Node α).ways.length := by
  have once := List.nodup_iff_count_le_one.1 distinct c.listen
  rw [ofConfig_own, ofConfig, List.length_map, majority]
  cases listed : c.acceptors with
  | nil => simp
  | cons address rest =>
    cases rest with
    | nil =>
      have foreign : address ≠ c.listen := by
        rintro rfl
        exact others listed
      simp [foreign]
    | cons =>
      rw [listed] at once
      simp only [List.length_cons]
      omega

/-- A node of a cluster with other members has one link for each listed acceptor, in order, and at most one of them is
to itself. So while it reaches no other node, it refuses whatever it is asked to propose and learns of no state, and
what it has accepted changes by the accept requests that it grants and by nothing else. -/
theorem isolated_never_commits {text : String} {c : Config} (parsed : Config.parse text = .ok c)
    (others : c.acceptors ≠ [c.listen]) {peers : Peers σ α} (unreachable : peers.Unreachable)
    (requests : List (Request α)) (world : σ) :
    let node : Node α := ofConfig c
    let replies := (serveAll (answer peers) requests (node, world)).1
    let accepted place := (serveAll (answer peers) (requests.take place) (node, world)).2.1.acceptor.record.accepted
    (∃ document rest, Yaml.documents text = .ok (document :: rest) ∧
        document.get Config.Field.listen.key = .string c.listen ∧
        document.get Config.Field.acceptors.key = .sequence (c.acceptors.map .string)) ∧
      (node.ways.length = c.acceptors.length ∧
        (∀ (place : Nat) address, c.acceptors[place]? = some address → ∃ way, node.ways[place]? = some way ∧
          (way = .own ↔ address = c.listen) ∧ (address ≠ c.listen → way = .remote address)) ∧
        node.ways.count .own ≤ 1) ∧
      (∀ (place : Nat) expected payload, requests[place]? = some (.propose expected payload) →
        replies[place]? = some (.proposed ⟨false, none⟩) ∧ accepted (place + 1) = accepted place) ∧
      ∀ (place : Nat) request, requests[place]? = some request → accepted (place + 1) = accepted place ∨
        ∃ ballot value, request = .accept ballot value ∧ replies[place]? = some (.accepted ⟨true⟩) ∧
          accepted (place + 1) = some ⟨ballot, value⟩ := by
  intro node replies accepted
  obtain ⟨document, rest, read, describes⟩ := Config.describes_of_parse parsed
  have minority (place : Nat) :
      let served := (serveAll (answer peers) (requests.take place) (node, world)).2.1
      served.ways.count .own < majority served.ways.length := by
    intro served
    have same : served.ways = node.ways := serveAll_ways _ _
    rw [same]
    exact ofConfig_minority describes.distinct others
  refine ⟨⟨document, rest, read, describes.listen.get_eq, describes.acceptors.get_eq⟩, ⟨List.length_map _, ?_, ?_⟩, ?_, ?_⟩
  · intro place address listed
    refine ⟨if address = c.listen then .own else .remote address, ?_, ?_⟩
    · simp only [node, ofConfig, List.getElem?_map, listed, Option.map_some]
    · by_cases same : address = c.listen <;> simp [same]
  · rw [ofConfig_own]
    exact List.nodup_iff_count_le_one.1 describes.distinct c.listen
  · intro place expected payload sent
    obtain ⟨refused, kept⟩ := handle_propose_minority (minority place) unreachable expected payload
    refine ⟨?_, ?_⟩
    · rw [serveAll_reply _ _ sent]
      exact congrArg some refused
    · simp only [accepted, serveAll_next _ _ sent]
      exact kept
  · intro place request sent
    simp only [accepted, replies, serveAll_next _ _ sent, serveAll_reply _ _ sent, Option.some.injEq]
    exact handle_minority (minority place) unreachable request

/-- One of two members accepts what it is sent, and yet it can commit nothing of its own. -/
theorem isolated_never_commits_of_two :
    let text := "node_id: 1\nlisten: \"a:1\"\nacceptors: [\"a:1\", \"b:1\"]\n"
    let peers : Peers Unit String := .failing .unreachable
    ∃ c, Config.parse text = .ok c ∧ c.acceptors ≠ [c.listen] ∧ peers.Unreachable ∧
      let (replies, node, _) := serveAll (answer peers) [.accept ⟨0, 2⟩ ⟨"x", 0⟩, .propose (some 0) "y"] (ofConfig c, ())
      replies[1]? = some (.proposed ⟨false, none⟩) ∧ node.acceptor.record.accepted = some ⟨⟨0, 2⟩, ⟨"x", 0⟩⟩ := by
  intro text peers
  have parsed : Config.parse text = .ok ⟨1, "a:1", ["a:1", "b:1"], 1000, "info"⟩ := by decide +kernel
  have others : ["a:1", "b:1"] ≠ ["a:1"] := by decide
  have unreachable : peers.Unreachable := fun address _ _ => ⟨.unreachable address, rfl⟩
  obtain ⟨_, _, proposed, _⟩ :=
    isolated_never_commits parsed others unreachable [.accept ⟨0, 2⟩ ⟨"x", 0⟩, .propose (some 0) "y"] ()
  obtain ⟨refused, kept⟩ := proposed 1 (some 0) "y" rfl
  exact ⟨_, parsed, others, unreachable, refused, kept.trans rfl⟩

end Node

end Synod
