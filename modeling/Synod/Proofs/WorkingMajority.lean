import Mathlib.Data.Finset.Card
import Mathlib.Data.List.Basic
import Synod.Proofs.FaultFreePhase
import Synod.Proofs.RecordSteps
import Synod.Proofs.RoundOutcome

/-! A majority of acceptors that are heard is enough. Whatever becomes of the other calls, and whatever is made up in
their place, a round whose ballot is above the marks of such a majority is granted by all of it in both phases. -/

namespace Synod

variable {α ρ σ : Type}

private theorem card_le_countP {ι : Type} {items : List ι} {test : ι → Bool} {places : Finset Nat} (place : ι → Nat)
    (covered : ∀ one ∈ places, ∃ item ∈ items, place item = one ∧ test item = true) :
    places.card ≤ items.countP test := by
  have inside : places ⊆ ((items.filter test).map place).toFinset := by
    intro one member
    obtain ⟨item, among, rfl, passed⟩ := covered one member
    exact List.mem_toFinset.2 (List.mem_map_of_mem (List.mem_filter.2 ⟨among, passed⟩))
  calc places.card
    _ ≤ ((items.filter test).map place).toFinset.card := Finset.card_le_card inside
    _ ≤ ((items.filter test).map place).length := List.toFinset_card_le _
    _ = items.countP test := by rw [List.length_map, List.countP_eq_length_filter]

/-- A draft whose promises are many enough depends on what the transform writes and on nothing else. -/
theorem Round.draft_write {transform : Transform α} {replies : List (Reply (Promise α))} {payload : α}
    (many : (tally Promise.ok replies).HasMajority replies.length)
    (writes : transform (resolve replies) = .write payload) :
    draft transform replies = match Value.successor (resolve replies) payload with
      | none => .error (.stateExhausted 0xFFFFFFFFFFFFFFFF)
      | some next => .ok ⟨resolve replies, next⟩ := by
  simp only [draft, if_pos many, writes]
  cases advanced : Value.successor (resolve replies) payload with
  | none => simp only [Value.successor_eq_none.1 advanced, Option.getD_some]
  | some next => rfl

private theorem Value.successor_payload {current : Option (Value α)} {payload : α} {next : Value α}
    (advanced : Value.successor current payload = some next) : next.payload = payload := by
  cases current with
  | none => cases advanced; rfl
  | some value =>
    simp only [Value.successor] at advanced
    split at advanced
    · cases advanced
    · cases advanced; rfl

/-- A channel that carries out the phases of a round with these calls, in worlds that hold these acceptors. What becomes
of the calls of the accept phase may depend on the value that they carry. -/
structure Round.Channel.Carries (channel : Round.Channel σ α) (acceptors : σ → List (Acceptor α)) (ballot : Ballot)
    (world : σ) (prepares : List (Call (Promise α))) (accepts : Value α → List (Call Accepted)) : Prop where
  promises : (channel.prepare ballot world).replies =
    (Delivery.phase (.prepare ballot) prepares (acceptors world)).replies
  prepared : acceptors (channel.prepare ballot world).world =
    (Delivery.phase (.prepare ballot) prepares (acceptors world)).world
  accepteds : ∀ value, (channel.accept ballot value (channel.prepare ballot world).world).replies =
    (Delivery.phase (.accept ballot value) (accepts value) (acceptors (channel.prepare ballot world).world)).replies
  accepted : ∀ value, acceptors (channel.accept ballot value (channel.prepare ballot world).world).world =
    (Delivery.phase (.accept ballot value) (accepts value) (acceptors (channel.prepare ballot world).world)).world

/-- The links of a cluster place the calls of a round, those of the accept phase after those of the prepare phase. -/
theorem Cluster.carries (c : Cluster α) (places : List Nat) (ballot : Ballot) :
    (c.channel places).Carries (·.acceptors) ballot c (dial Link.prepare places c.links).1
      fun _ => (dial Link.accept places (dial Link.prepare places c.links).2).1 :=
  ⟨rfl, rfl, fun _ => rfl, fun _ => rfl⟩

namespace Delivery

/-- No acceptor hears of two of these calls, and each working acceptor hears of one and is heard. -/
structure Answering (working : Finset Nat) (calls : List (Call ρ)) (acceptors : List (Acceptor α)) : Prop where
  apart : (hearers calls).Nodup
  answered : ∀ place ∈ working, ∃ call ∈ calls, call.acceptor = place ∧ call.fate = .answered
  held : ∀ place ∈ working, place < acceptors.length

def Unfenced (working : Finset Nat) (ballot : Ballot) (acceptors : List (Acceptor α)) : Prop :=
  ∀ place ∈ working, ∀ acceptor, acceptors[place]? = some acceptor → acceptor.record.promised < ballot

variable {working : Finset Nat} {calls : List (Call ρ)} {acceptors : List (Acceptor α)} {visit : Visit α ρ}

theorem Answering.reply (heard : Answering working calls acceptors) (visit : Visit α ρ) {place : Nat}
    (member : place ∈ working) : ∃ call ∈ calls, call.acceptor = place ∧ ∃ acceptor, acceptors[place]? = some acceptor ∧
      (deliver visit call acceptors).1 = .ok (visit.answer acceptor).1 := by
  obtain ⟨call, among, rfl, answered⟩ := heard.answered place member
  have found := List.getElem?_eq_getElem (heard.held call.acceptor member)
  exact ⟨call, among, rfl, _, found, deliver_answered answered found⟩

theorem Answering.world (heard : Answering working calls acceptors) (visit : Visit α ρ) {place : Nat}
    (member : place ∈ working) :
    (phase visit calls acceptors).world[place]? = acceptors[place]?.map fun acceptor => (visit.answer acceptor).2 := by
  obtain ⟨call, among, rfl, answered⟩ := heard.answered place member
  have hears : call.acceptor ∈ hearers calls :=
    List.mem_map_of_mem (List.mem_filter.2 ⟨among, by rw [Call.heard, answered]⟩)
  obtain ⟨_, _, world⟩ := phase_apart visit acceptors heard.apart
  rw [world, if_pos hears]

theorem Answering.phase_length (heard : Answering working calls acceptors) (visit : Visit α ρ) :
    (phase visit calls acceptors).replies.length = calls.length := by
  rw [(phase_apart visit acceptors heard.apart).1, List.length_map]

/-- Calls for which the working acceptors are there still find them after a phase. -/
theorem Answering.later {τ : Type} {others : List (Call τ)} (heard : Answering working calls acceptors)
    (heard' : Answering working others acceptors) (visit : Visit α ρ) :
    Answering working others (phase visit calls acceptors).world := by
  obtain ⟨_, size, _⟩ := phase_apart visit acceptors heard.apart
  exact ⟨heard'.apart, heard'.answered, size ▸ heard'.held⟩

/-- If all working acceptors agree, there are at least as many votes for the request as there are of them. -/
theorem Answering.granted (heard : Answering working calls acceptors) {agrees : ρ → Bool}
    (agree : ∀ place ∈ working, ∀ acceptor, acceptors[place]? = some acceptor →
      agrees (visit.answer acceptor).1 = true) :
    working.card ≤ (tally agrees (phase visit calls acceptors).replies).granted := by
  obtain ⟨replies, _, _⟩ := phase_apart visit acceptors heard.apart
  rw [(tally_counts agrees _).granted, replies, List.countP_map]
  apply card_le_countP Call.acceptor
  intro place member
  obtain ⟨call, among, same, acceptor, found, reply⟩ := heard.reply visit member
  refine ⟨call, among, same, ?_⟩
  rw [Function.comp_apply, reply]
  exact agree place member acceptor found

section

variable {prepares : List (Call (Promise α))} {ballot : Ballot}

theorem Answering.promised (heard : Answering working prepares acceptors)
    (unfenced : Unfenced working ballot acceptors) :
    working.card ≤ (tally Promise.ok (phase (.prepare ballot) prepares acceptors).replies).granted := by
  apply heard.granted
  intro place member acceptor found
  exact (acceptor.record.prepare_granted ballot).2 (unfenced place member acceptor found)

theorem Answering.marked (heard : Answering working prepares acceptors) (unfenced : Unfenced working ballot acceptors)
    {place : Nat} (member : place ∈ working) : ∃ acceptor, acceptors[place]? = some acceptor ∧
      (phase (.prepare ballot) prepares acceptors).world[place]? =
        some { acceptor with record.promised := ballot } := by
  have found := List.getElem?_eq_getElem (heard.held place member)
  refine ⟨_, found, ?_⟩
  rw [heard.world (.prepare ballot) member, found, Option.map_some]
  have granted := Record.prepare_above (unfenced place member _ found)
  simp only [Visit.prepare, Acceptor.prepare, granted]

/-- The working acceptors promised the ballot, so they take it with any value. -/
theorem Answering.accepted {accepts : List (Call Accepted)} (heard : Answering working prepares acceptors)
    (heard' : Answering working accepts acceptors) (unfenced : Unfenced working ballot acceptors) (value : Value α) :
    let prepared := (phase (.prepare ballot) prepares acceptors).world
    working.card ≤ (tally Accepted.ok (phase (.accept ballot value) accepts prepared).replies).granted ∧
      ∀ place ∈ working, (phase (.accept ballot value) accepts prepared).world[place]?.map (·.record) =
        some ⟨ballot, some ⟨ballot, value⟩⟩ := by
  intro prepared
  have later : Answering working accepts prepared := heard.later heard' (.prepare ballot)
  have reached (place : Nat) (member : place ∈ working) :
      ∃ acceptor, prepared[place]? = some acceptor ∧
        acceptor.record.accept ballot value = (⟨true⟩, ⟨ballot, some ⟨ballot, value⟩⟩) := by
    obtain ⟨acceptor, _, marked⟩ := heard.marked unfenced member
    exact ⟨_, marked, Record.accept_reached (le_refl ballot) value⟩
  constructor
  · apply later.granted
    intro place member acceptor found
    obtain ⟨_, found', taken⟩ := reached place member
    cases found.symm.trans found'
    exact congrArg (·.1.ok) taken
  · intro place member
    obtain ⟨acceptor, found, taken⟩ := reached place member
    rw [later.world (.accept ballot value) member, found]
    exact congrArg (some ·.2) taken

/-- A round over such calls goes on to its accept phase as its draft says, and is never short of votes there. -/
theorem Answering.run {channel : Round.Channel σ α} {view : σ → List (Acceptor α)} {world : σ}
    {accepts : Value α → List (Call Accepted)} (carries : channel.Carries view ballot world prepares accepts)
    (heard : Answering working prepares (view world)) (heard' : ∀ value, Answering working (accepts value) (view world))
    (same : ∀ value, (accepts value).length = prepares.length) (many : majority prepares.length ≤ working.card)
    (unfenced : Unfenced working ballot (view world)) (node : UInt64) (transform : Transform α) :
    let promises := (channel.prepare ballot world).replies
    let ended := Round.run node ballot channel transform world
    (tally Promise.ok promises).HasMajority promises.length ∧
      match Round.draft transform promises with
      | .error error => ended.1.outcome = .error error
      | .ok draft => ended.1.outcome = .ok draft.next.state ∧
          ∀ place ∈ working, (view ended.2)[place]?.map (·.record) = some ⟨ballot, some ⟨ballot, draft.next⟩⟩ := by
  intro promises ended
  have size := heard.phase_length (.prepare ballot)
  refine ⟨?_, ?_⟩
  · rw [Tally.HasMajority, show promises = _ from carries.promises, size]
    exact many.trans (heard.promised unfenced)
  cases drafted : Round.draft transform promises with
  | error error => simp only [ended, Round.run, promises, drafted]
  | ok draft =>
    obtain ⟨granted, taken⟩ := heard.accepted (heard' draft.next) unfenced draft.next
    have size' := (heard.later (heard' draft.next) (.prepare ballot)).phase_length (.accept ballot draft.next)
    have accepteds := carries.accepteds draft.next
    have after := carries.accepted draft.next
    rw [carries.prepared] at accepteds after
    have enough : (tally Accepted.ok
        (channel.accept ballot draft.next (channel.prepare ballot world).world).replies).HasMajority
        (channel.accept ballot draft.next (channel.prepare ballot world).world).replies.length := by
      rw [Tally.HasMajority, accepteds, size', same]
      exact many.trans granted
    have committed : Round.conclude draft
        (channel.accept ballot draft.next (channel.prepare ballot world).world).replies = .ok draft.next.state :=
      if_pos enough
    simp only [ended, Round.run, promises, drafted]
    exact ⟨committed, after ▸ taken⟩

/-- What a working acceptor holds is among the reports, so the round resolves nothing older. -/
theorem Answering.resolved (heard : Answering working prepares acceptors) (unfenced : Unfenced working ballot acceptors)
    {place : Nat} (member : place ∈ working) {acceptor : Acceptor α} (found : acceptors[place]? = some acceptor)
    {held : Proposal α} (holds : acceptor.record.accepted = some held) :
    ∃ top, Round.highest (phase (.prepare ballot) prepares acceptors).replies = some top ∧
      held.ballot ≤ top.ballot := by
  obtain ⟨call, among, _, acceptor', found', reply⟩ := heard.reply (.prepare ballot) member
  cases found.symm.trans found'
  have granted := Record.prepare_above (unfenced place member acceptor found)
  have promised : Except.ok (Promise.granted (some held)) ∈ (phase (.prepare ballot) prepares acceptors).replies := by
    rw [(phase_apart _ acceptors heard.apart).1]
    refine List.mem_map.2 ⟨call, among, reply.trans ?_⟩
    rw [← holds]
    exact congrArg (fun answer => Except.ok answer.1) granted
  have reported : held ∈ Round.reports (phase (.prepare ballot) prepares acceptors).replies :=
    Round.mem_reports.2 ⟨_, promised, rfl, Promise.accepted?_granted _⟩
  obtain ⟨top, resolved, _, above⟩ := Round.highest_of_mem reported
  exact ⟨top, resolved, above⟩

end

section

variable {channel : Round.Channel σ α} {view : σ → List (Acceptor α)} {ballot : Ballot} {world : σ}
  {prepares : List (Call (Promise α))} {accepts : Value α → List (Call Accepted)}

/-- A round over such calls whose transform writes has one of two ends, and the state it resolved tells which. -/
theorem Answering.ends (carries : channel.Carries view ballot world prepares accepts)
    (heard : Answering working prepares (view world)) (heard' : ∀ value, Answering working (accepts value) (view world))
    (same : ∀ value, (accepts value).length = prepares.length) (many : majority prepares.length ≤ working.card)
    (unfenced : Unfenced working ballot (view world)) (node : UInt64) {transform : Transform α} {payload : α}
    (writes : transform (Round.resolve (channel.prepare ballot world).replies) = .write payload) :
    let current := Round.resolve (channel.prepare ballot world).replies
    let ended := Round.run node ballot channel transform world
    current.map (·.state) = some 0xFFFFFFFFFFFFFFFF ∧
        ended.1.outcome = .error (.stateExhausted 0xFFFFFFFFFFFFFFFF) ∨
      current.map (·.state) ≠ some 0xFFFFFFFFFFFFFFFF ∧ ∃ state, ended.1.outcome = .ok state ∧
        state.toNat = (current.map fun value => value.state.toNat + 1).getD 0 ∧
        ∀ place ∈ working, (view ended.2)[place]?.map (·.record) = some ⟨ballot, some ⟨ballot, ⟨payload, state⟩⟩⟩ := by
  intro current ended
  obtain ⟨granted, goes⟩ := heard.run carries heard' same many unfenced node transform
  rw [Round.draft_write granted writes] at goes
  cases advanced : Value.successor current payload with
  | none =>
    simp only [current] at advanced
    simp only [advanced] at goes
    exact .inl ⟨Value.successor_eq_none.1 advanced, goes⟩
  | some next =>
    have notLast : current.map (·.state) ≠ some 0xFFFFFFFFFFFFFFFF := by
      intro last
      cases advanced.symm.trans (Value.successor_eq_none.2 last)
    have state := Value.successor_state advanced
    have written : (⟨payload, next.state⟩ : Value α) = next := by rw [← Value.successor_payload advanced]
    simp only [current] at advanced
    simp only [advanced] at goes
    obtain ⟨outcome, taken⟩ := goes
    exact .inr ⟨notLast, next.state, outcome, state, by rwa [written]⟩

/-- As long as a majority of the acceptors is heard in both phases, a round whose ballot is above their marks is never
short of votes. It commits what its transform writes, unless the state that it resolved is the last one, and leaves its
proposal with every acceptor of that majority. What the rest of the links do, lose or make up does not matter, except
that a made-up promise may be what the round resolves; but it never resolves less than the majority holds. -/
theorem heard_majority_commits (carries : channel.Carries view ballot world prepares accepts)
    (heard : Answering working prepares (view world)) (heard' : ∀ value, Answering working (accepts value) (view world))
    (same : ∀ value, (accepts value).length = prepares.length) (many : prepares.length / 2 + 1 ≤ working.card)
    (unfenced : Unfenced working ballot (view world)) (node : UInt64) (transform : Transform α) {payload : α}
    (writes : transform (Round.resolve (channel.prepare ballot world).replies) = .write payload) :
    let promises := (channel.prepare ballot world).replies
    let current := Round.resolve promises
    let ended := Round.run node ballot channel transform world
    (∀ phase granted needed state, ended.1.outcome ≠ .error (.quorumUnavailable phase granted needed state)) ∧
      (∀ last, ended.1.outcome = .error (.stateExhausted last) ↔
        current.map (·.state) = some 0xFFFFFFFFFFFFFFFF ∧ last = 0xFFFFFFFFFFFFFFFF) ∧
      (current.map (·.state) ≠ some 0xFFFFFFFFFFFFFFFF → ∃ state, ended.1.outcome = .ok state ∧
        state.toNat = (current.map fun value => value.state.toNat + 1).getD 0 ∧
        ∀ place ∈ working, (view ended.2)[place]?.map (·.record) = some ⟨ballot, some ⟨ballot, ⟨payload, state⟩⟩⟩) ∧
      ∀ place ∈ working, ∀ acceptor held, (view world)[place]? = some acceptor → acceptor.record.accepted = some held →
        ∃ top, Round.highest promises = some top ∧ current = some top.value ∧ held.ballot ≤ top.ballot := by
  intro promises current ended
  have ends := heard.ends carries heard' same many unfenced node writes
  refine ⟨?_, ?_, ?_, ?_⟩
  · intro phase granted needed state missing
    rcases ends with ⟨_, outcome⟩ | ⟨_, _, outcome, _⟩ <;> cases outcome.symm.trans missing
  · intro state
    rcases ends with ⟨last, outcome⟩ | ⟨notLast, _, outcome, _⟩
    · constructor
      · intro exhausted
        cases outcome.symm.trans exhausted
        exact ⟨last, rfl⟩
      · rintro ⟨_, rfl⟩
        exact outcome
    · refine ⟨fun exhausted => ?_, fun ⟨last, _⟩ => absurd last notLast⟩
      cases outcome.symm.trans exhausted
  · intro notLast
    rcases ends with ⟨last, _⟩ | ⟨_, committed⟩
    · exact absurd last notLast
    · exact committed
  · intro place member acceptor held found holds
    obtain ⟨top, resolved, above⟩ := heard.resolved unfenced member found holds
    rw [← carries.promises] at resolved
    exact ⟨top, resolved, congrArg (Option.map Proposal.value) resolved, above⟩

/-- The links of a cluster of five. The promise that was made up is the highest one, and the round writes behind it. -/
theorem heard_majority_commits_three_of_five :
    let c : Cluster String :=
      ⟨[⟨0, ⟨⟨3, 1⟩, some ⟨⟨3, 1⟩, ⟨"old", 4⟩⟩⟩⟩, ⟨1, ⟨⟨9, 9⟩, none⟩⟩, .fresh 2,
          ⟨3, ⟨⟨2, 2⟩, some ⟨⟨1, 1⟩, ⟨"older", 3⟩⟩⟩⟩, ⟨4, ⟨⟨1, 1⟩, none⟩⟩],
        [⟨"a", 0, .direct⟩,
          ⟨"b", 1, .canned [.ok (.granted (some ⟨⟨8, 8⟩, ⟨"made up", 6⟩⟩))] [.error (.unreachable "b")]⟩,
          ⟨"c", 2, .simulated ⟨(0, 0), .never, false, mkStdGen 7⟩⟩, ⟨"d", 3, .direct⟩,
          ⟨"e", 4, .faulty [.loseReply] [.refuse]⟩]⟩
    let places := [4, 0, 2, 1, 3]
    let ended := Round.run 1 ⟨5, 1⟩ (c.channel places) (fun _ => .write "new") c
    Unfenced {0, 2, 3} ⟨5, 1⟩ c.acceptors ∧ ended.1.outcome = .ok 7 ∧
      ∀ place ∈ ({0, 2, 3} : Finset Nat),
        ended.2.acceptors[place]?.map (·.record) = some ⟨⟨5, 1⟩, some ⟨⟨5, 1⟩, ⟨"new", 7⟩⟩⟩ := by
  intro c places ended
  have carries := c.carries places ⟨5, 1⟩
  have heard : Answering {0, 2, 3} (Cluster.dial Link.prepare places c.links).1 c.acceptors :=
    ⟨by decide, by decide, by decide⟩
  have heard' : Answering {0, 2, 3}
      (Cluster.dial Link.accept places (Cluster.dial Link.prepare places c.links).2).1 c.acceptors :=
    ⟨by decide, by decide, by decide⟩
  have unfenced : Unfenced {0, 2, 3} ⟨5, 1⟩ c.acceptors := by
    intro place member acceptor found
    simp only [Finset.mem_insert, Finset.mem_singleton] at member
    rcases member with rfl | rfl | rfl <;> cases found <;> decide
  have resolved : Round.resolve ((c.channel places).prepare ⟨5, 1⟩ c).replies = some ⟨"made up", 6⟩ := by
    rw [carries.promises, (phase_apart _ c.acceptors heard.apart).1]
    decide
  have same : (Cluster.dial Link.accept places (Cluster.dial Link.prepare places c.links).2).1.length =
      (Cluster.dial Link.prepare places c.links).1.length := by decide
  have many : (Cluster.dial Link.prepare places c.links).1.length / 2 + 1 ≤ ({0, 2, 3} : Finset Nat).card := by decide
  obtain ⟨_, _, commits, _⟩ :=
    heard_majority_commits carries heard (fun _ => heard') (fun _ => same) many unfenced 1 (fun _ => .write "new") rfl
  rw [resolved] at commits
  obtain ⟨state, outcome, number, taken⟩ := commits (by decide)
  have seven : state = 7 := UInt64.toNat_inj.1 number
  subst seven
  exact ⟨unfenced, outcome, taken⟩

end

end Delivery

end Synod
