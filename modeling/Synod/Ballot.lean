/-! Ballots, the numbers that put rounds in order. A ballot is a round counter together with
the number of the node that minted it; the round counts first. Both parts are 64-bit words,
and `Ballot.rank` is the one number that carries the same order. -/

namespace Synod

/-- The number of a round: the counter of its proposer, and the proposer's node. -/
structure Ballot where
  round : UInt64
  nodeId : UInt64
deriving DecidableEq, Repr, Inhabited

namespace Ballot

/-- Below every ballot that a proposer mints before its counter wraps; an acceptor starts with it. -/
def zero : Ballot := ⟨0, 0⟩

def rank (b : Ballot) : Nat := b.round.toNat * UInt64.size + b.nodeId.toNat

/-- Rounds are compared first, and nodes decide between equal rounds. -/
instance : LT Ballot where
  lt a b := a.round < b.round ∨ a.round = b.round ∧ a.nodeId < b.nodeId

instance : LE Ballot where
  le a b := ¬ b < a

instance (a b : Ballot) : Decidable (a < b) :=
  inferInstanceAs (Decidable (a.round < b.round ∨ a.round = b.round ∧ a.nodeId < b.nodeId))

instance (a b : Ballot) : Decidable (a ≤ b) :=
  inferInstanceAs (Decidable (¬ b < a))

instance : Ord Ballot where
  compare a b := if a < b then .lt else if b < a then .gt else .eq

instance : Max Ballot where
  max a b := if a ≤ b then b else a

instance : Min Ballot where
  min a b := if a ≤ b then a else b

theorem lt_iff_rank {a b : Ballot} : a < b ↔ a.rank < b.rank := by
  change (a.round < b.round ∨ a.round = b.round ∧ a.nodeId < b.nodeId) ↔ _
  have left := a.nodeId.toNat_lt
  have right := b.nodeId.toNat_lt
  rw [UInt64.lt_iff_toNat_lt, UInt64.lt_iff_toNat_lt, ← UInt64.toNat_inj]
  simp only [rank, UInt64.size]
  omega

theorem le_iff_rank {a b : Ballot} : a ≤ b ↔ a.rank ≤ b.rank := by
  change ¬ b < a ↔ _
  rw [lt_iff_rank]
  omega

theorem rank_inj {a b : Ballot} : a.rank = b.rank ↔ a = b := by
  constructor
  · intro same
    have left := a.nodeId.toNat_lt
    have right := b.nodeId.toNat_lt
    simp only [rank, UInt64.size] at same
    have rounds : a.round = b.round := UInt64.toNat_inj.1 (by omega)
    have nodes : a.nodeId = b.nodeId := UInt64.toNat_inj.1 (by omega)
    cases a; cases b; simp_all
  · rintro rfl; rfl

/-- A ballot reads as its round and its node with a point between them. -/
def text (b : Ballot) : String := toString b.round ++ "." ++ toString b.nodeId

end Ballot

/-- The source of a proposer's ballots: its node and the number of rounds begun so far. -/
structure Mint where
  nodeId : UInt64
  round : UInt64
deriving DecidableEq, Repr

namespace Mint

def fresh (nodeId : UInt64) : Mint := ⟨nodeId, 0⟩

/-- Mint the next ballot. The counter is a word and wraps, so ballots increase strictly
for as long as a proposer begins fewer than `2 ^ 64` rounds. -/
def next (m : Mint) : Ballot × Mint := (⟨m.round + 1, m.nodeId⟩, ⟨m.nodeId, m.round + 1⟩)

/-- The first ballots of a mint, in the order in which it gives them out. -/
def take (m : Mint) : Nat → List Ballot
  | 0 => []
  | count + 1 => m.next.1 :: m.next.2.take count

end Mint

end Synod
