import Synod.Acceptor
import Synod.Proofs.BallotOrder

/-! What a request does to an acceptor's record. Both kinds of request raise the mark to their ballot if
they are granted and leave it alone if they are refused, so the mark never falls. -/

namespace Synod.Record

variable {α : Type} (record : Record α) (ballot : Ballot) (value : Value α)

theorem prepare_granted : (record.prepare ballot).1.ok = true ↔ record.promised < ballot := by
  unfold prepare
  split
  · next stale => simpa [Promise.rejected] using stale
  · next above => simpa [Promise.granted] using above

theorem accept_granted : (record.accept ballot value).1 = ⟨true⟩ ↔ record.promised ≤ ballot := by
  unfold accept
  split
  · next stale => simpa using stale
  · next reached => simpa using reached

theorem prepare_above {record : Record α} {ballot : Ballot} (above : record.promised < ballot) :
    record.prepare ballot = (.granted record.accepted, { record with promised := ballot }) :=
  if_neg (not_le.2 above)

theorem prepare_stale {record : Record α} {ballot : Ballot} (stale : ballot ≤ record.promised) :
    record.prepare ballot = (.rejected, record) := if_pos stale

theorem accept_reached {record : Record α} {ballot : Ballot} (reached : record.promised ≤ ballot) (value : Value α) :
    record.accept ballot value = (⟨true⟩, ⟨ballot, some ⟨ballot, value⟩⟩) := if_neg (not_lt.2 reached)

theorem accept_stale {record : Record α} {ballot : Ballot} (stale : ballot < record.promised) (value : Value α) :
    record.accept ballot value = (⟨false⟩, record) := if_pos stale

/-- A granted promise reports what the record holds, and a refusal reports nothing. -/
theorem prepare_reported :
    (record.prepare ballot).1.accepted? = if record.promised < ballot then record.accepted else none := by
  unfold prepare
  split
  · next stale => rw [if_neg (not_lt.2 stale)]; rfl
  · next above => rw [if_pos (not_le.1 above)]; exact Promise.accepted?_granted _

@[simp] theorem prepare_accepted : (record.prepare ballot).2.accepted = record.accepted := by
  unfold prepare
  split <;> rfl

@[simp] theorem prepare_promised : (record.prepare ballot).2.promised = max record.promised ballot := by
  unfold prepare
  split
  · next stale => exact (max_eq_left stale).symm
  · next above => exact (max_eq_right (le_of_lt (not_le.1 above))).symm

theorem accept_accepted : (record.accept ballot value).2.accepted =
    if record.promised ≤ ballot then some ⟨ballot, value⟩ else record.accepted := by
  unfold accept
  split
  · next stale => rw [if_neg (not_le.2 stale)]
  · next reached => rw [if_pos (not_lt.1 reached)]

@[simp] theorem accept_promised : (record.accept ballot value).2.promised = max record.promised ballot := by
  unfold accept
  split
  · next stale => exact (max_eq_left (le_of_lt stale)).symm
  · next reached => exact (max_eq_right (not_lt.1 reached)).symm

theorem prepare_rises : record.promised ≤ (record.prepare ballot).2.promised := by
  rw [prepare_promised]
  exact le_max_left _ _

theorem accept_rises : record.promised ≤ (record.accept ballot value).2.promised := by
  rw [accept_promised]
  exact le_max_left _ _

theorem accept_holds {record : Record α} {proposal : Proposal α} (accepted : record.accepted = some proposal)
    (below : proposal.ballot ≤ record.promised) (ballot : Ballot) (value : Value α) :
    ∃ current, (record.accept ballot value).2.accepted = some current ∧ proposal.ballot ≤ current.ballot := by
  rw [accept_accepted]
  split
  next reached => exact ⟨_, rfl, le_trans below reached⟩
  · exact ⟨proposal, accepted, le_refl _⟩

end Synod.Record
