import Mathlib.Algebra.Group.Nat.Defs
import Mathlib.Data.List.Basic
import Mathlib.Order.Defs.LinearOrder
import Synod.Ballot

/-! Ballots are linearly ordered: two different ballots are never equally high. This is what makes the
highest ballot of some promises a single one. -/

namespace Synod.Ballot

instance : LinearOrder Ballot where
  le_refl ballot := le_iff_rank.2 (Nat.le_refl _)
  le_trans first middle last := by simp only [le_iff_rank]; omega
  le_antisymm first second := by
    intro left right
    rw [le_iff_rank] at left right
    exact rank_inj.1 (Nat.le_antisymm left right)
  le_total first second := by simp only [le_iff_rank]; omega
  lt_iff_le_not_ge first second := by simp only [lt_iff_rank, le_iff_rank]; omega
  toDecidableEq := inferInstance
  toDecidableLE := inferInstance
  toDecidableLT := inferInstance
  compare_eq_compareOfLessAndEq first second := by
    change (if first < second then Ordering.lt else if second < first then .gt else .eq) = _
    unfold compareOfLessAndEq
    split
    · rfl
    · next notBelow =>
      rw [lt_iff_rank] at notBelow
      simp only [lt_iff_rank, ← rank_inj]
      split <;> split <;> first | rfl | omega

theorem lt_of_round {first second : Ballot} (before : first.round.toNat < second.round.toNat) : first < second :=
  .inl (UInt64.lt_iff_toNat_lt.2 before)

end Synod.Ballot

namespace Synod.Mint

theorem next_round {m : Mint} (room : m.round.toNat + 1 < 2 ^ 64) :
    m.next.1.round.toNat = m.round.toNat + 1 ∧ m.next.2.round.toNat = m.round.toNat + 1 := by
  have sum : (m.round + 1).toNat = (m.round.toNat + 1) % 2 ^ 64 := UInt64.toNat_add _ _
  rw [Nat.mod_eq_of_lt room] at sum
  exact ⟨sum, sum⟩

/-- The counter is a word, so the ballots of a mint come back once it has gone round. -/
theorem take_getElem? (m : Mint) (count place : Nat) :
    (m.take count)[place]? = if place < count then some ⟨m.round + .ofNat (place + 1), m.nodeId⟩ else none := by
  induction count generalizing m place with
  | zero => simp [take]
  | succ count ih =>
    cases place with
    | zero => simp [take, next]
    | succ place =>
      rw [take, List.getElem?_cons_succ, ih]
      have round : m.round + 1 + .ofNat (place + 1) = m.round + .ofNat (place + 1 + 1) := by
        rw [UInt64.ofNat_add (place + 1), UInt64.add_assoc, UInt64.add_comm 1]
        rfl
      simp only [next, round, Nat.succ_lt_succ_iff]

theorem take_length (m : Mint) (count : Nat) : (m.take count).length = count := by
  induction count generalizing m with
  | zero => rfl
  | succ count ih => simp [take, ih]

theorem take_getElem {m : Mint} {count place : Nat} (inside : place < (m.take count).length) :
    (m.take count)[place] = ⟨m.round + .ofNat (place + 1), m.nodeId⟩ := by
  have found := take_getElem? m count place
  rw [List.getElem?_eq_getElem inside, if_pos (take_length m count ▸ inside)] at found
  exact Option.some.inj found

theorem take_increasing {m : Mint} {count : Nat} (room : m.round.toNat + count < 2 ^ 64) :
    (m.take count).Pairwise (· < ·) := by
  rw [List.pairwise_iff_getElem]
  intro early late inside inside' order
  rw [take_getElem, take_getElem]
  rw [take_length] at inside inside'
  apply Ballot.lt_of_round
  simp only [UInt64.toNat_add, UInt64.toNat_ofNat']
  omega

theorem take_nodup {m : Mint} {count : Nat} (few : count ≤ 2 ^ 64) : (m.take count).Nodup := by
  rw [List.Nodup, List.pairwise_iff_getElem]
  intro early late inside inside' order same
  rw [take_getElem, take_getElem] at same
  rw [take_length] at inside inside'
  have rounds := congrArg (·.round.toNat) same
  simp only [UInt64.toNat_add, UInt64.toNat_ofNat'] at rounds
  omega

/-- Proposers of different nodes never share a ballot. -/
theorem take_disjoint {m m' : Mint} (apart : m.nodeId ≠ m'.nodeId) (count count' : Nat) :
    (m.take count).Disjoint (m'.take count') := by
  have node {m : Mint} {count : Nat} {ballot : Ballot} (minted : ballot ∈ m.take count) : ballot.nodeId = m.nodeId := by
    obtain ⟨place, inside, rfl⟩ := List.mem_iff_getElem.1 minted
    rw [take_getElem]
  intro ballot minted minted'
  exact apart ((node minted).symm.trans (node minted'))

end Synod.Mint
