import Mathlib.Data.List.Basic
import Synod.Proofs.BallotOrder
import Synod.Round

/-! What a round makes of the replies it heard. The prepare phase resolves a reported proposal of the highest
ballot, and a round has one of five ends: too few promises, a transform that gives up, a register at its last
state, too few accepts, or a committed state. -/

namespace Synod

theorem Value.successor_state {α : Type} {current : Option (Value α)} {payload : α} {next : Value α}
    (advanced : Value.successor current payload = some next) :
    next.state.toNat = (current.map fun value => value.state.toNat + 1).getD 0 := by
  cases current with
  | none => cases advanced; rfl
  | some value =>
    simp only [Value.successor] at advanced
    split at advanced
    · cases advanced
    · next notLast =>
      cases advanced
      have room : value.state.toNat ≠ 0xFFFFFFFFFFFFFFFF := fun last => notLast (UInt64.toNat_inj.1 last)
      have bound := value.state.toNat_lt
      simp only [UInt64.toNat_add]
      change (value.state.toNat + 1) % 2 ^ 64 = value.state.toNat + 1
      omega

/-- Only the last state has no successor. -/
theorem Value.successor_eq_none {α : Type} {current : Option (Value α)} {payload : α} :
    Value.successor current payload = none ↔ current.map (·.state) = some 0xFFFFFFFFFFFFFFFF := by
  cases current with
  | none => simp [Value.successor]
  | some value => simp [Value.successor]

namespace Round

variable {α : Type}

def reports (replies : List (Reply (Promise α))) : List (Proposal α) := replies.filterMap reported?

theorem mem_reports {replies : List (Reply (Promise α))} {proposal : Proposal α} :
    proposal ∈ reports replies ↔
      ∃ promise, .ok promise ∈ replies ∧ promise.ok = true ∧ promise.accepted? = some proposal := by
  simp only [reports, List.mem_filterMap]
  constructor
  · rintro ⟨reply, member, found⟩
    cases reply with
    | error error => cases found
    | ok promise =>
      simp only [reported?] at found
      split at found
      · next granted => exact ⟨promise, member, granted, found⟩
      · cases found
  · rintro ⟨promise, member, granted, found⟩
    exact ⟨.ok promise, member, by simpa [reported?, granted] using found⟩

theorem mem_reports_iff {replies : List (Reply (Promise α))} {proposal : Proposal α} :
    proposal ∈ reports replies ↔ .ok ⟨true, some proposal.ballot, some proposal.value⟩ ∈ replies := by
  rw [mem_reports]
  constructor
  · rintro ⟨⟨ok, ballot, value⟩, member, granted, found⟩
    cases granted
    cases ballot <;> cases value <;> cases found
    exact member
  · intro member
    exact ⟨_, member, rfl, rfl⟩

private theorem fold_higher (proposals : List (Proposal α)) (best : Proposal α) :
    ∃ top ∈ best :: proposals, proposals.foldl higher (some best) = some top ∧
      ∀ proposal ∈ best :: proposals, proposal.ballot ≤ top.ballot := by
  induction proposals generalizing best with
  | nil => exact ⟨best, by simp, rfl, by simp⟩
  | cons proposal rest ih =>
    by_cases above : best.ballot < proposal.ballot
    · obtain ⟨top, member, folded, bound⟩ := ih proposal
      refine ⟨top, List.mem_cons_of_mem _ member, by simpa [higher, above] using folded, ?_⟩
      have first := bound proposal (by simp)
      intro other found
      rcases List.mem_cons.1 found with rfl | found
      · exact le_trans (le_of_lt above) first
      · exact bound other found
    · obtain ⟨top, member, folded, bound⟩ := ih best
      have first := bound best (by simp)
      refine ⟨top, ?_, by simpa [higher, above] using folded, ?_⟩
      · rcases List.mem_cons.1 member with rfl | member
        · simp
        · simp [member]
      · intro other found
        simp only [List.mem_cons] at found
        rcases found with rfl | rfl | found
        · exact first
        · exact le_trans (not_lt.1 above) first
        · exact bound other (by simp [found])

theorem highest_eq_none {replies : List (Reply (Promise α))} : highest replies = none ↔ reports replies = [] := by
  unfold highest
  change (reports replies).foldl higher none = none ↔ _
  cases reports replies with
  | nil => simp
  | cons first rest =>
    obtain ⟨top, _, folded, _⟩ := fold_higher rest first
    simp [higher, folded]

/-- The resolved proposal was reported, and none of a higher ballot was. -/
theorem highest_eq_some {replies : List (Reply (Promise α))} {top : Proposal α} (found : highest replies = some top) :
    top ∈ reports replies ∧ ∀ proposal ∈ reports replies, proposal.ballot ≤ top.ballot := by
  change (reports replies).foldl higher none = some top at found
  cases reported : reports replies with
  | nil => simp [reported] at found
  | cons first rest =>
    obtain ⟨best, member, folded, bound⟩ := fold_higher rest first
    rw [reported, List.foldl_cons] at found
    obtain rfl : best = top := Option.some.inj (folded.symm.trans found)
    exact ⟨member, bound⟩

theorem highest_of_mem {replies : List (Reply (Promise α))} {proposal : Proposal α}
    (member : proposal ∈ reports replies) :
    ∃ top, highest replies = some top ∧ top ∈ reports replies ∧ proposal.ballot ≤ top.ballot := by
  cases found : highest replies with
  | none => rw [highest_eq_none.1 found] at member; cases member
  | some top =>
    obtain ⟨reported, bound⟩ := highest_eq_some found
    exact ⟨top, rfl, reported, bound proposal member⟩

/-- A proposal of a ballot that no other reaches is resolved, where one ballot has one proposal. -/
theorem highest_of_top {replies : List (Reply (Promise α))} {proposal : Proposal α}
    (member : proposal ∈ reports replies) (bound : ∀ other ∈ reports replies, other.ballot ≤ proposal.ballot)
    (unique : ∀ other ∈ reports replies, other.ballot = proposal.ballot → other = proposal) :
    highest replies = some proposal := by
  obtain ⟨top, found, reported, above⟩ := highest_of_mem member
  rw [found, unique top reported (le_antisymm (bound top reported) above)]

/-- If a ballot never stands for two values, the resolved proposal does not depend on the order of the links. -/
theorem highest_perm {replies others : List (Reply (Promise α))} (order : others.Perm replies)
    (unique : ∀ first ∈ reports replies, ∀ second ∈ reports replies, first.ballot = second.ballot → first = second) :
    highest others = highest replies := by
  have same : (reports others).Perm (reports replies) := order.filterMap _
  cases found : highest replies with
  | none =>
    rw [highest_eq_none] at found ⊢
    exact List.Perm.eq_nil (found ▸ same)
  | some top =>
    obtain ⟨member, bound⟩ := highest_eq_some found
    obtain ⟨top', found', member', above⟩ := highest_of_mem (same.mem_iff.2 member)
    have below := bound top' (same.mem_iff.1 member')
    rw [found', unique top' (same.mem_iff.1 member') top member (le_antisymm below above)]

variable {transform : Transform α} {replies : List (Reply (Promise α))}

theorem draft_ok {draft : Draft α} (drafted : Round.draft transform replies = .ok draft) :
    (tally (·.ok) replies).HasMajority replies.length ∧ draft.current = resolve replies ∧
      ∃ payload, transform (resolve replies) = .write payload ∧
        Value.successor (resolve replies) payload = some draft.next := by
  simp only [Round.draft] at drafted
  split at drafted
  next granted =>
    split at drafted
    · cases drafted
    next payload write =>
      split at drafted
      · cases drafted
      next next advanced =>
        cases drafted
        exact ⟨granted, rfl, payload, write, advanced⟩
  next => cases drafted

theorem draft_unpromised (transform : Transform α) {replies : List (Reply (Promise α))}
    (few : (tally (·.ok) replies).granted < majority replies.length) : draft transform replies =
      .error (.quorumUnavailable .prepare (tally (·.ok) replies).granted (majority replies.length) none) :=
  if_neg (Nat.not_le.2 few)

theorem draft_error {error : ProposeError} (refused : Round.draft transform replies = .error error) :
    (¬ (tally (·.ok) replies).HasMajority replies.length ∧
        error = .quorumUnavailable .prepare (tally (·.ok) replies).granted (majority replies.length) none) ∨
      (tally (·.ok) replies).HasMajority replies.length ∧
        (transform (resolve replies) = .abort ∧ error = .conflict ((resolve replies).map (·.state)) ∨
          (resolve replies).map (·.state) = some 0xFFFFFFFFFFFFFFFF ∧ error = .stateExhausted 0xFFFFFFFFFFFFFFFF) := by
  simp only [Round.draft] at refused
  split at refused
  next granted =>
    refine .inr ⟨granted, ?_⟩
    split at refused
    next abort => cases refused; exact .inl ⟨abort, rfl⟩
    next payload write =>
      split at refused
      next exhausted =>
        cases refused
        have last := Value.successor_eq_none.1 exhausted
        exact .inr ⟨last, by rw [last]; rfl⟩
      · cases refused
  next missing => cases refused; exact .inl ⟨missing, rfl⟩

theorem conclude_ok {draft : Draft α} {replies : List (Reply Accepted)} {state : UInt64}
    (committed : conclude draft replies = .ok state) :
    (tally (·.ok) replies).HasMajority replies.length ∧ state = draft.next.state := by
  simp only [conclude] at committed
  split at committed
  next granted => cases committed; exact ⟨granted, rfl⟩
  next => cases committed

theorem conclude_error {draft : Draft α} {replies : List (Reply Accepted)} {error : ProposeError}
    (refused : conclude draft replies = .error error) : ¬ (tally (·.ok) replies).HasMajority replies.length ∧
      error = .quorumUnavailable .accept (tally (·.ok) replies).granted (majority replies.length)
        (draft.current.map (·.state)) := by
  simp only [conclude] at refused
  split at refused
  next => cases refused
  next missing => cases refused; exact ⟨missing, rfl⟩

end Round

end Synod
