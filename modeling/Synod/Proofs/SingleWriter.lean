import Synod.Proofs.Elections

/-! One writer for each ballot. Proposers may share a node number, and one that comes back starts to count
again, so a ballot may be minted several times. What keeps its writes apart is that promises need a ballot
strictly above the mark: a second round of the same ballot finds no majority that is still free to promise. -/

namespace Synod.System

variable {α : Type}

theorem Valid.accepted_elected {s : System α} (valid : Valid s) {acceptor : Nat} {record : Record α}
    {proposal : Proposal α} (held : s.records[acceptor]? = some record) (accepted : record.accepted = some proposal) :
    ∃ round a draft, s.Entered round a draft ∧ a.Elected ∧ proposal = ⟨a.ballot, draft.next⟩ := by
  obtain ⟨_, round, a, draft, entered, same⟩ := valid.consistent.written held accepted
  exact ⟨round, a, draft, entered, valid.elected entered, same⟩

theorem Valid.accepted_agree {s : System α} (valid : Valid s) {acceptor acceptor' : Nat} {record record' : Record α}
    {proposal proposal' : Proposal α} (held : s.records[acceptor]? = some record)
    (held' : s.records[acceptor']? = some record') (accepted : record.accepted = some proposal)
    (accepted' : record'.accepted = some proposal') (same : proposal.ballot = proposal'.ballot) :
    proposal = proposal' := by
  obtain ⟨_, _, wrote⟩ := valid.consistent.written held accepted
  obtain ⟨_, _, wrote'⟩ := valid.consistent.written held' accepted'
  exact (valid.wrote_once wrote wrote' same).2

theorem Valid.reports_agree {s : System α} (valid : Valid s) {attempt : Nat} {a : Attempt α}
    (begun : s.attempts[attempt]? = some a) : ∀ first ∈ Round.reports a.heard, ∀ second ∈ Round.reports a.heard,
      first.ballot = second.ballot → first = second := by
  intro first reported second reported' same
  obtain ⟨_, _, wrote⟩ := valid.report_wrote begun reported
  obtain ⟨_, _, wrote'⟩ := valid.report_wrote begun reported'
  exact (valid.wrote_once wrote wrote' same).2

/-- Rounds of one ballot are never elected twice, and only elected rounds write. So equal accepted ballots
mean equal values everywhere, every accepted ballot belongs to an elected round, promises of one round that report
one ballot report one value, and a round resolves the value of the greatest of these ballots, whatever the order of
its links. -/
theorem one_writer_per_ballot (acceptors : Nat) (routes : List Route) (actions : List (Action α)) :
    let s := (System.initial acceptors routes).run actions
    (∀ (first second : Nat) (a b : Attempt α), s.attempts[first]? = some a → s.attempts[second]? = some b →
      a.Elected → b.Elected → a.ballot = b.ballot → first = second) ∧
    (∀ round a draft, s.Entered round a draft → a.Elected) ∧
    (∀ (first second : Nat) (record record' : Record α) (proposal proposal' : Proposal α),
      s.records[first]? = some record → s.records[second]? = some record' → record.accepted = some proposal →
      record'.accepted = some proposal' → proposal.ballot = proposal'.ballot → proposal.value = proposal'.value) ∧
    (∀ (acceptor : Nat) (record : Record α) (proposal : Proposal α),
      s.records[acceptor]? = some record → record.accepted = some proposal →
      ∃ round a draft, s.Entered round a draft ∧ a.Elected ∧ proposal = ⟨a.ballot, draft.next⟩) ∧
    (∀ (round : Nat) (a : Attempt α) replies, s.attempts[round]? = some a → replies.Perm a.heard →
      Round.highest replies = Round.highest a.heard) ∧
    (∀ (round : Nat) (a : Attempt α) ballot value value', s.attempts[round]? = some a →
      .ok ⟨true, some ballot, some value⟩ ∈ a.heard → .ok ⟨true, some ballot, some value'⟩ ∈ a.heard →
      value = value') ∧
    (∀ (round : Nat) (a : Attempt α) replies ballot value, s.attempts[round]? = some a → replies.Perm a.heard →
      .ok ⟨true, some ballot, some value⟩ ∈ a.heard →
      (∀ other value', .ok ⟨true, some other, some value'⟩ ∈ a.heard → other ≤ ballot) →
      Round.highest replies = some ⟨ballot, value⟩) := by
  intro s
  have valid : Valid s := (Valid.initial acceptors routes).run actions
  refine ⟨?_, ?_, ?_, ?_, ?_, ?_, ?_⟩
  · intro first second a b begun begun' elected elected' same
    exact valid.elected_once begun begun' elected elected' same
  · intro round a draft entered
    exact valid.elected entered
  · intro first second record record' proposal proposal' held held' accepted accepted' same
    rw [valid.accepted_agree held held' accepted accepted' same]
  · intro acceptor record proposal held accepted
    exact valid.accepted_elected held accepted
  · intro round a replies begun order
    exact Round.highest_perm order (valid.reports_agree begun)
  · intro round a ballot value value' begun reported reported'
    have agree := valid.reports_agree begun ⟨ballot, value⟩ (Round.mem_reports_iff.2 reported)
      ⟨ballot, value'⟩ (Round.mem_reports_iff.2 reported') rfl
    exact congrArg Proposal.value agree
  · intro round a replies ballot value begun order reported bound
    have member : ⟨ballot, value⟩ ∈ Round.reports a.heard := Round.mem_reports_iff.2 reported
    rw [Round.highest_perm order (valid.reports_agree begun)]
    refine Round.highest_of_top member ?_ ?_
    · intro other heard
      exact bound other.ballot other.value (Round.mem_reports_iff.1 heard)
    · intro other heard same
      exact valid.reports_agree begun other heard _ member same

/-- Two proposers under one node number mint the same first ballot; the second round comes too late at two acceptors. -/
example :
    ((System.initial (α := String) 3 [⟨"a", 0⟩, ⟨"b", 1⟩, ⟨"c", 2⟩]).run
      [.join 7, .join 7, .start 0 (compareAndSet none "first"), .start 1 (compareAndSet none "second"),
        .prepare 0 0, .prepare 1 2, .prepare 0 1, .prepare 1 1, .prepare 1 0, .prepare 0 2,
        .resolve 0 fun _ => none, .resolve 1 fun _ => none]).attempts.map (fun a => (a.ballot, decide a.Elected)) =
      [(⟨1, 7⟩, true), (⟨1, 7⟩, false)] := by rfl

end Synod.System
