import Mathlib.Order.Bounds.Basic
import Synod.Proofs.FaultFreePhase
import Synod.Proofs.RecordSteps
import Synod.Proofs.RoundDecision

/-! A cluster without faults, used by one caller at a time, is one register. Callers whose ballots come too late are
turned away and change nothing; every other call reads and writes the register as if there were no acceptors. -/

namespace Synod

variable {α : Type}

/-- One register, and the ballots of all calls to it, whatever became of them. -/
structure Register (α : Type) where
  content : Option (Value α)
  ballots : List Ballot

structure Answer (α : Type) where
  ballot : Ballot
  seen : Option (Option (Value α))
  outcome : Except ProposeError UInt64
deriving DecidableEq

namespace Register

def empty : Register α := ⟨none, []⟩

def update (transform : Transform α) (content : Option (Value α)) : Except ProposeError UInt64 × Option (Value α) :=
  match transform content, content with
  | .abort, _ => (.error (.conflict (content.map (·.state))), content)
  | .write payload, none => (.ok 0, some ⟨payload, 0⟩)
  | .write payload, some value =>
    if value.state = 0xFFFFFFFFFFFFFFFF then (.error (.stateExhausted value.state), content)
    else (.ok (value.state + 1), some ⟨payload, value.state + 1⟩)

/-- A call is served if its ballot is above those of all calls before it, and turned away if not. -/
def call (acceptors : Nat) (ballot : Ballot) (transform : Transform α) (r : Register α) : Answer α × Register α :=
  if ∀ earlier ∈ r.ballots, earlier < ballot then
    let (outcome, content) := update transform r.content
    (⟨ballot, some r.content, outcome⟩, ⟨content, r.ballots ++ [ballot]⟩)
  else
    (⟨ballot, none, .error (.quorumUnavailable .prepare 0 (acceptors / 2 + 1) none)⟩, ⟨r.content, r.ballots ++ [ballot]⟩)

def serve (acceptors : Nat) : List (Nat × Transform α) → List Mint → Register α → List (Answer α) × Register α
  | [], _, r => ([], r)
  | (caller, transform) :: rest, mints, r =>
    match mints[caller]? with
    | none => serve acceptors rest mints r
    | some mint =>
      let (answer, r) := r.call acceptors mint.next.1 transform
      let (answers, r) := serve acceptors rest (mints.set caller mint.next.2) r
      (answer :: answers, r)

end Register

structure Session (α : Type) where
  cluster : Cluster α
  proposers : List Proposer

namespace Session

def serve : List (Nat × Transform α) → Session α → List (Round.Report α) × Session α
  | [], s => ([], s)
  | (caller, transform) :: rest, s =>
    match s.proposers[caller]? with
    | none => serve rest s
    | some proposer =>
      let (report, proposer, cluster) := s.cluster.propose proposer transform
      let (reports, s) := serve rest ⟨cluster, s.proposers.set caller proposer⟩
      (report :: reports, s)

end Session

def Round.Report.answer (r : Round.Report α) : Answer α := ⟨r.ballot, r.seen, r.outcome⟩

private theorem Register.call_ballots (acceptors : Nat) (ballot : Ballot) (transform : Transform α) (r : Register α) :
    (r.call acceptors ballot transform).1.ballot = ballot ∧
      (r.call acceptors ballot transform).2.ballots = r.ballots ++ [ballot] := by
  rw [Register.call]
  split <;> exact ⟨rfl, rfl⟩

private theorem Register.serve_ballots (acceptors : Nat) (calls : List (Nat × Transform α)) (mints : List Mint)
    (r : Register α) : (Register.serve acceptors calls mints r).2.ballots =
      r.ballots ++ (Register.serve acceptors calls mints r).1.map (·.ballot) := by
  induction calls generalizing mints r with
  | nil => simp [serve]
  | cons call rest ih =>
    obtain ⟨caller, transform⟩ := call
    simp only [serve]
    split
    · exact ih mints r
    next mint _ =>
      obtain ⟨answered, called⟩ := call_ballots acceptors mint.next.1 transform r
      rw [ih, called, List.map_cons, answered, List.append_assoc, List.singleton_append]

namespace Round

private theorem tally_replicate {ρ : Type} {agrees : ρ → Bool} (reply : ρ) (count : Nat) :
    tally agrees (List.replicate count (.ok reply)) =
      if agrees reply = true then ⟨count, 0, 0⟩ else ⟨0, count, 0⟩ := by
  rw [tally, Tally.ofVotes_eq, List.map_replicate, Reply.vote]
  split <;> simp [List.count_replicate]

private theorem majority_replicate {ρ : Type} (agrees : ρ → Bool) {reply : ρ} {count : Nat} (several : 0 < count)
    (agreed : agrees reply = true) : (tally agrees (List.replicate count (.ok reply))).HasMajority count := by
  rw [tally_replicate, if_pos agreed]
  simp only [Tally.HasMajority, majority]
  omega

private theorem resolve_replicate {count : Nat} (several : 0 < count) (accepted : Option (Proposal α)) :
    resolve (List.replicate count (.ok (.granted accepted))) = accepted.map (·.value) := by
  have reported : reports (List.replicate count (.ok (.granted accepted))) =
      (List.replicate count accepted).filterMap id := by
    rw [reports, ← List.map_replicate (f := fun accepted => Except.ok (Promise.granted accepted)), List.filterMap_map]
    refine List.filterMap_congr fun accepted _ => ?_
    exact Promise.accepted?_granted accepted
  rw [resolve]
  congr 1
  cases accepted with
  | none =>
    rw [highest_eq_none, reported]
    simp
  | some proposal =>
    have member : proposal ∈ reports (List.replicate count (.ok (.granted (some proposal)))) := by
      rw [reported]
      simp [Nat.ne_of_gt several]
    obtain ⟨top, found, reportedTop, _⟩ := highest_of_mem member
    rw [found]
    rw [reported] at reportedTop
    rw [Option.some_inj]
    exact (by simpa using reportedTop : _ ∧ top = proposal).2

theorem draft_refused (transform : Transform α) (count : Nat) :
    draft transform (List.replicate count (.ok .rejected)) =
      .error (.quorumUnavailable .prepare 0 (majority count) none) := by
  have votes : tally Promise.ok (List.replicate count (.ok (.rejected : Promise α))) = ⟨0, count, 0⟩ :=
    tally_replicate _ count
  have missing : ¬ Tally.HasMajority ⟨0, count, 0⟩ count := by simp [Tally.HasMajority, majority]
  simp only [draft, List.length_replicate, votes, if_neg missing]

/-- If every link reports the same content, the round either ends there or goes on with the register's next value. -/
theorem draft_granted {count : Nat} (several : 0 < count) (transform : Transform α) (accepted : Option (Proposal α)) :
    (∃ error, draft transform (List.replicate count (.ok (.granted accepted))) = .error error ∧
        Register.update transform (accepted.map (·.value)) = (.error error, accepted.map (·.value))) ∨
      ∃ next, draft transform (List.replicate count (.ok (.granted accepted))) = .ok ⟨accepted.map (·.value), next⟩ ∧
        Register.update transform (accepted.map (·.value)) = (.ok next.state, some next) := by
  have granted := majority_replicate Promise.ok several (rfl : (Promise.granted accepted).ok = true)
  simp only [draft, List.length_replicate, if_pos granted, resolve_replicate several]
  generalize accepted.map (·.value) = content
  cases content with
  | none =>
    cases chosen : transform none with
    | abort => exact .inl ⟨.conflict none, by simp [Register.update, chosen]⟩
    | write payload => exact .inr ⟨⟨payload, 0⟩, by simp [Register.update, Value.successor, chosen]⟩
  | some value =>
    cases chosen : transform (some value) with
    | abort => exact .inl ⟨.conflict (some value.state), by simp [Register.update, chosen]⟩
    | write payload =>
      by_cases last : value.state = 0xFFFFFFFFFFFFFFFF
      · exact .inl ⟨.stateExhausted value.state, by simp [Register.update, Value.successor, chosen, last]⟩
      · exact .inr ⟨⟨payload, value.state + 1⟩, by simp [Register.update, Value.successor, chosen, last]⟩

end Round

namespace Cluster.Uniform

variable {c : Cluster α} {size : Nat} {record : Record α} {p : Proposer}

theorem prepared (uniform : c.Uniform size record) (uses : p.links.Perm (List.range size)) (ballot : Ballot) :
    ((c.channel p.links).prepare ballot c).replies = List.replicate size (.ok (record.prepare ballot).1) ∧
      ((c.channel p.links).prepare ballot c).world.Uniform size (record.prepare ballot).2 :=
  uniform.phase (fun _ => rfl) Link.prepare_answers uses

/-- The channel of a round is opened before its prepare phase, and used after it. -/
theorem accepted (uniform : c.Uniform size record) (uses : p.links.Perm (List.range size)) (ballot : Ballot)
    (value : Value α) (opened : Cluster α) :
    ((opened.channel p.links).accept ballot value c).replies = List.replicate size (.ok (record.accept ballot value).1) ∧
      ((opened.channel p.links).accept ballot value c).world.Uniform size (record.accept ballot value).2 :=
  uniform.phase (fun _ => rfl) Link.accept_answers uses

theorem propose_stale (uniform : c.Uniform size record) (uses : p.links.Perm (List.range size))
    (stale : p.mint.next.1 ≤ record.promised) (transform : Transform α) : (c.propose p transform).1.answer =
        ⟨p.mint.next.1, none, .error (.quorumUnavailable .prepare 0 (majority size) none)⟩ ∧
      (c.propose p transform).2.1 = { p with mint := p.mint.next.2 } ∧
      (c.propose p transform).2.2.Uniform size record := by
  obtain ⟨replies, kept⟩ := uniform.prepared uses p.mint.next.1
  rw [Record.prepare_stale stale] at replies kept
  have refused := Round.draft_refused transform size
  have missing : ¬ (tally Promise.ok (List.replicate size (.ok (.rejected : Promise α)))).HasMajority size := by
    simp [Round.tally_replicate, Promise.rejected, Tally.HasMajority, majority]
  rw [← replies] at refused
  simp only [Cluster.propose, Round.run, refused]
  refine ⟨?_, trivial, kept⟩
  simp [Round.Report.answer, Round.Report.seen, replies, missing]

theorem propose_above (uniform : c.Uniform size record) (several : 0 < size) (uses : p.links.Perm (List.range size))
    (above : record.promised < p.mint.next.1) (transform : Transform α) : (c.propose p transform).1.answer =
        ⟨p.mint.next.1, some (record.accepted.map (·.value)),
          (Register.update transform (record.accepted.map (·.value))).1⟩ ∧
      (c.propose p transform).2.1 = { p with mint := p.mint.next.2 } ∧
      ∃ record', (c.propose p transform).2.2.Uniform size record' ∧ record'.promised = p.mint.next.1 ∧
        record'.accepted.map (·.value) = (Register.update transform (record.accepted.map (·.value))).2 := by
  obtain ⟨replies, kept⟩ := uniform.prepared uses p.mint.next.1
  rw [Record.prepare_above above] at replies kept
  have granted := Round.majority_replicate Promise.ok several (rfl : (Promise.granted record.accepted).ok = true)
  have seen := Round.resolve_replicate several record.accepted
  rcases Round.draft_granted several transform record.accepted with ⟨error, drafted, updated⟩ | ⟨next, drafted, updated⟩
  · rw [← replies] at drafted
    simp only [Cluster.propose, Round.run, drafted, updated]
    refine ⟨?_, trivial, _, kept, rfl, rfl⟩
    simp [Round.Report.answer, Round.Report.seen, replies, granted, seen]
  · rw [← replies] at drafted
    obtain ⟨replies', kept'⟩ := kept.accepted uses p.mint.next.1 next c
    rw [Record.accept_reached (by exact le_refl _)] at replies' kept'
    have granted' := Round.majority_replicate Accepted.ok several (rfl : (Accepted.mk true).ok = true)
    have committed : Round.conclude ⟨record.accepted.map (·.value), next⟩ (List.replicate size (.ok ⟨true⟩)) =
        .ok next.state := by
      simp only [Round.conclude, List.length_replicate, if_pos granted']
    simp only [Cluster.propose, Round.run, drafted, updated]
    refine ⟨?_, trivial, _, kept', rfl, rfl⟩
    simp [Round.Report.answer, Round.Report.seen, replies, replies', granted, seen, committed]

end Cluster.Uniform

namespace Session

/-- A session that stands where a register stands. Before the first call every proposer still has to mint its first
ballot, which is above the mark of an empty record. -/
structure Realizes (s : Session α) (size : Nat) (r : Register α) : Prop where
  uses : ∀ p ∈ s.proposers, p.links.Perm (List.range size)
  unused : r.ballots = [] → ∀ p ∈ s.proposers, p.mint.round = 0
  records : ∃ record, s.cluster.Uniform size record ∧ record.accepted.map (·.value) = r.content ∧
    IsGreatest {minted | minted ∈ .zero :: r.ballots} record.promised

variable {s : Session α} {size : Nat} {r : Register α}

theorem Realizes.initial (empty : s.cluster.Uniform size .empty)
    (fresh : ∀ p ∈ s.proposers, p.mint.round = 0 ∧ p.links.Perm (List.range size)) : s.Realizes size .empty :=
  ⟨fun p member => (fresh p member).2, fun _ p member => (fresh p member).1, .empty, empty, rfl,
    by simp [Register.empty, Record.empty]⟩

private theorem greatest_append {ballots : List Ballot} {promised : Ballot}
    (greatest : IsGreatest {minted | minted ∈ .zero :: ballots} promised) (ballot : Ballot) :
    IsGreatest {minted | minted ∈ .zero :: (ballots ++ [ballot])} (max promised ballot) := by
  have same : {minted | minted ∈ .zero :: (ballots ++ [ballot])} = insert ballot {minted | minted ∈ .zero :: ballots} := by
    ext minted
    simp only [Set.mem_ofPred_eq, Set.mem_insert_iff, List.mem_cons, List.mem_append, List.not_mem_nil, or_false]
    tauto
  rw [same, max_comm]
  exact greatest.insert ballot

theorem Realizes.served_iff (stands : s.Realizes size r) {p : Proposer} (member : p ∈ s.proposers) {promised : Ballot}
    (greatest : IsGreatest {minted | minted ∈ .zero :: r.ballots} promised) :
    (∀ earlier ∈ r.ballots, earlier < p.mint.next.1) ↔ promised < p.mint.next.1 := by
  constructor
  · intro above
    rcases List.mem_cons.1 greatest.1 with rfl | called
    · cases ballots : r.ballots with
      | nil =>
        -- Nobody has called yet. The mark is still zero, and every proposer begins above it.
        have first : p.mint.next.1 = ⟨1, p.mint.nodeId⟩ := by simp [Mint.next, stands.unused ballots p member]
        rw [first]
        exact .inl (by decide : (0 : UInt64) < 1)
      | cons earlier rest =>
        have lowest : .zero ≤ earlier := Ballot.le_iff_rank.2 (Nat.zero_le _)
        exact lt_of_le_of_lt lowest (above earlier (by simp [ballots]))
    · exact above promised called
  · intro above earlier called
    exact lt_of_le_of_lt (greatest.2 (List.mem_cons_of_mem _ called)) above

theorem Realizes.call (stands : s.Realizes size r) (several : 0 < size) {caller : Nat} {p : Proposer}
    (found : s.proposers[caller]? = some p) (transform : Transform α) :
    (s.cluster.propose p transform).1.answer = (r.call size p.mint.next.1 transform).1 ∧
      (s.cluster.propose p transform).2.1 = { p with mint := p.mint.next.2 } ∧
      Realizes ⟨(s.cluster.propose p transform).2.2, s.proposers.set caller { p with mint := p.mint.next.2 }⟩ size
        (r.call size p.mint.next.1 transform).2 := by
  have member := List.mem_of_getElem? found
  obtain ⟨record, uniform, content, greatest⟩ := stands.records
  have uses : ∀ other ∈ s.proposers.set caller { p with mint := p.mint.next.2 }, other.links.Perm (List.range size) := by
    intro other among
    rcases List.mem_or_eq_of_mem_set among with among | rfl
    · exact stands.uses other among
    · exact stands.uses p member
  have greatest' := greatest_append greatest p.mint.next.1
  by_cases above : record.promised < p.mint.next.1
  · obtain ⟨answered, minted, record', uniform', promised, content'⟩ :=
      uniform.propose_above several (stands.uses p member) above transform
    rw [content] at answered content'
    rw [max_eq_right (le_of_lt above)] at greatest'
    rw [Register.call, if_pos ((stands.served_iff member greatest).2 above)]
    exact ⟨answered, minted, uses, by simp, record', uniform', content', promised ▸ greatest'⟩
  · obtain ⟨answered, minted, uniform'⟩ := uniform.propose_stale (stands.uses p member) (not_lt.1 above) transform
    rw [max_eq_left (not_lt.1 above)] at greatest'
    rw [Register.call, if_neg fun late => above ((stands.served_iff member greatest).1 late)]
    exact ⟨answered, minted, uses, by simp, record, uniform', content, greatest'⟩

theorem Realizes.serve (stands : s.Realizes size r) (several : 0 < size) (calls : List (Nat × Transform α)) :
    (Session.serve calls s).1.map (·.answer) = (Register.serve size calls (s.proposers.map (·.mint)) r).1 ∧
      (Session.serve calls s).2.Realizes size (Register.serve size calls (s.proposers.map (·.mint)) r).2 := by
  induction calls generalizing s r with
  | nil => exact ⟨rfl, stands⟩
  | cons call rest ih =>
    obtain ⟨caller, transform⟩ := call
    simp only [Session.serve, Register.serve, List.getElem?_map]
    cases found : s.proposers[caller]? with
    | none => exact ih stands
    | some p =>
      obtain ⟨answered, minted, stands'⟩ := stands.call several found transform
      obtain ⟨answers, after⟩ := ih stands'
      simp only [Option.map_some, minted]
      rw [List.map_set] at answers after
      exact ⟨by rw [List.map_cons, answered, answers], after⟩

/-- Calls made one after another to a cluster without faults are answered as one register answers them, and behind
them every acceptor keeps the content of that register and the highest ballot of all calls. -/
theorem calls_refine_register (s : Session α) (size : Nat) (several : 0 < size) (empty : s.cluster.Uniform size .empty)
    (fresh : ∀ p ∈ s.proposers, p.mint.round = 0 ∧ p.links.Perm (List.range size)) (calls : List (Nat × Transform α)) :
    let after := Session.serve calls s
    let register := Register.serve size calls (s.proposers.map (·.mint)) .empty
    after.1.map (·.answer) = register.1 ∧
      ∃ record, after.2.cluster.Uniform size record ∧ record.accepted.map (·.value) = register.2.content ∧
        IsGreatest {minted | minted ∈ .zero :: after.1.map (·.ballot)} record.promised := by
  intro after register
  obtain ⟨answers, _, _, record, uniform, content, greatest⟩ := (Realizes.initial empty fresh).serve several calls
  have ballots : register.2.ballots = after.1.map (·.ballot) := by
    rw [Register.serve_ballots, ← answers, List.map_map]
    rfl
  exact ⟨answers, record, uniform, content, ballots ▸ greatest⟩

/-- Two proposers list the same links in different orders. The second call comes too late, the third reads the first. -/
theorem calls_refine_register_fenced :
    let links : List (Link String) :=
      [⟨"a", 0, .direct⟩, ⟨"b", 2, .simulated ⟨(1, 5), .never, false, mkStdGen 7⟩⟩, ⟨"c", 1, .direct⟩]
    let s : Session String := ⟨⟨[.fresh 1, .fresh 2, .fresh 3], links⟩, [⟨.fresh 1, [0, 1, 2]⟩, ⟨.fresh 2, [2, 0, 1]⟩]⟩
    let calls := [(1, compareAndSet none "first"), (0, compareAndSet none "late"), (0, compareAndSet (some 0) "second")]
    (Session.serve calls s).1.map (·.answer) =
        [⟨⟨1, 2⟩, some none, .ok 0⟩, ⟨⟨1, 1⟩, none, .error (.quorumUnavailable .prepare 0 2 none)⟩,
          ⟨⟨2, 1⟩, some (some ⟨"first", 0⟩), .ok 1⟩] ∧
      ∃ record, (Session.serve calls s).2.cluster.Uniform 3 record ∧
        record.accepted.map (·.value) = some ⟨"second", 1⟩ := by
  intro links s calls
  have empty : s.cluster.Uniform 3 .empty := by
    refine ⟨?_, by decide, rfl, ?_⟩
    · simp [s, links, Link.FaultFree]
    · simp [s, Acceptor.fresh]
  have fresh : ∀ p ∈ s.proposers, p.mint.round = 0 ∧ p.links.Perm (List.range 3) := by
    simp only [s, List.forall_mem_cons]
    exact ⟨⟨rfl, by decide⟩, ⟨rfl, by decide⟩, nofun⟩
  obtain ⟨answers, record, uniform, content, _⟩ := calls_refine_register s 3 (by decide) empty fresh calls
  exact ⟨answers, record, uniform, content⟩

end Session

end Synod
