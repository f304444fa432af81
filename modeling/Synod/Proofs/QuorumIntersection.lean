import Mathlib.Data.List.Basic
import Synod.Quorum
import Synod.Round

/-! Two majorities of one row of links have a link in common. Votes are compared link by link and not
acceptor by acceptor, so this holds also where several links lead to one acceptor. -/

namespace Synod

/-- Two rows that hold a vote more often than they have places hold it at one place. -/
theorem common_place {first second : List Vote} {vote : Vote} (same : first.length = second.length)
    (many : first.length < first.count vote + second.count vote) :
    ∃ place : Nat, first[place]? = some vote ∧ second[place]? = some vote := by
  induction first generalizing second with
  | nil =>
    obtain rfl : second = [] := List.eq_nil_of_length_eq_zero same.symm
    simp at many
  | cons left first ih =>
    obtain ⟨right, second, rfl⟩ := List.exists_cons_of_length_eq_add_one same.symm
    by_cases both : left = vote ∧ right = vote
    · obtain ⟨rfl, rfl⟩ := both
      exact ⟨0, rfl, rfl⟩
    · -- At most one of the two heads is the vote, so the tails still hold it too often.
      have heads : (if left = vote then 1 else 0) + (if right = vote then 1 else 0) ≤ 1 := by
        split
        · next head =>
          have other : right ≠ vote := fun head' => both ⟨head, head'⟩
          simp [other]
        · split <;> omega
      simp only [List.length_cons, List.count_cons, beq_iff_eq] at same many
      have many' : first.length < first.count vote + second.count vote := by omega
      obtain ⟨place, held, held'⟩ := ih (Nat.succ.inj same) many'
      exact ⟨place + 1, held, held'⟩

/-- A value that stands wherever another stands in a row of the same length stands there at least as often. -/
theorem count_le_count {β γ : Type} [BEq β] [LawfulBEq β] [BEq γ] [LawfulBEq γ] {first : List β} {second : List γ}
    {left : β} {right : γ} (same : first.length = second.length)
    (implies : ∀ place : Nat, first[place]? = some left → second[place]? = some right) :
    first.count left ≤ second.count right := by
  induction first generalizing second with
  | nil => exact Nat.zero_le _
  | cons head first ih =>
    obtain ⟨head', second, rfl⟩ := List.exists_cons_of_length_eq_add_one same.symm
    have rest := ih (Nat.succ.inj same) fun place => implies (place + 1)
    have heads : head = left → head' = right := fun equal => Option.some.inj (implies 0 (congrArg some equal))
    rw [List.count_cons, List.count_cons]
    split
    next equal => rw [if_pos (beq_iff_eq.2 (heads (eq_of_beq equal)))]; omega
    · omega

theorem Tally.majorities_meet {first second : List Vote} (same : first.length = second.length)
    (left : (Tally.ofVotes first).HasMajority first.length) (right : (Tally.ofVotes second).HasMajority second.length) :
    ∃ place : Nat, first[place]? = some .grant ∧ second[place]? = some .grant := by
  apply common_place same
  rw [Tally.ofVotes_eq] at left right
  simp only [Tally.HasMajority, majority] at left right
  omega

variable {ρ τ : Type}

theorem Reply.vote_grant {agrees : ρ → Bool} {reply : Reply ρ} :
    reply.vote agrees = .grant ↔ ∃ answer, reply = .ok answer ∧ agrees answer = true := by
  cases reply with
  | ok answer => simp [Reply.vote]
  | error error => simp [Reply.vote]

/-- Where two phases over the same links both had a majority, some link was granted both. -/
theorem tallies_meet {agrees : ρ → Bool} {agrees' : τ → Bool} {first : List (Reply ρ)} {second : List (Reply τ)}
    (same : first.length = second.length) (left : (tally agrees first).HasMajority first.length)
    (right : (tally agrees' second).HasMajority second.length) :
    ∃ (link : Nat) (answer : ρ) (answer' : τ), first[link]? = some (.ok answer) ∧ agrees answer = true ∧
      second[link]? = some (.ok answer') ∧ agrees' answer' = true := by
  have rows : (first.map (Reply.vote agrees)).length = (second.map (Reply.vote agrees')).length := by simpa using same
  obtain ⟨link, granted, granted'⟩ :=
    Tally.majorities_meet rows (by simpa [tally] using left) (by simpa [tally] using right)
  rw [List.getElem?_map, Option.map_eq_some_iff] at granted granted'
  obtain ⟨reply, found, vote⟩ := granted
  obtain ⟨reply', found', vote'⟩ := granted'
  obtain ⟨answer, rfl, agreed⟩ := Reply.vote_grant.1 vote
  obtain ⟨answer', rfl, agreed'⟩ := Reply.vote_grant.1 vote'
  exact ⟨link, answer, answer', found, agreed, found', agreed'⟩

theorem not_majority_nil {agrees : ρ → Bool} : ¬ (tally agrees []).HasMajority 0 := by
  simp [tally, Tally.ofVotes, Tally.HasMajority, majority]

end Synod
