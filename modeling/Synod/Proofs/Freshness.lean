import Synod.Proofs.WriteChain

/-! Committed states in real time. Ballots are not minted in the order of time, so a round that starts after a
commit may have a lower ballot. Such a round is fenced off: the acceptors that took the committed write promise
nothing at or below its ballot any more, and without one of them there is no majority. -/

namespace Synod

variable {α : Type}

namespace Attempt

def seen (a : Attempt α) : Option (Option (Value α)) := if a.Elected then some (Round.resolve a.heard) else none

variable {links : Nat} {a : Attempt α}

/-- Without a majority of promises a round ends in its prepare phase, and the transform is not asked. -/
theorem Sound.unelected (sound : a.Sound links) (ended : a.preparing = false) (unelected : ¬ a.Elected) :
    a.seen = none ∧ ∃ granted needed, a.outcome = some (.error (.quorumUnavailable .prepare granted needed none)) := by
  refine ⟨if_neg unelected, ?_⟩
  cases drafted : a.draft with
  | some draft => exact (unelected (sound.elected drafted)).elim
  | none =>
    cases finished : a.outcome with
    | none => simp [preparing, drafted, finished] at ended
    | some outcome =>
      obtain ⟨error, rfl, refused⟩ := sound.refused outcome drafted finished
      rcases Round.draft_error refused with ⟨_, rfl⟩ | ⟨majority, _⟩
      · exact ⟨_, _, rfl⟩
      · exact (unelected majority).elim

theorem Sound.error_current (sound : a.Sound links) (elected : a.Elected) {error : ProposeError}
    (failed : a.outcome = some (.error error)) : error.currentState = (Round.resolve a.heard).map (·.state) := by
  cases drafted : a.draft with
  | none =>
    obtain ⟨error', same, refused⟩ := sound.refused _ drafted failed
    cases same
    rcases Round.draft_error refused with ⟨missing, _⟩ | ⟨_, ⟨_, rfl⟩ | ⟨last, rfl⟩⟩
    · exact (missing elected).elim
    · rfl
    · exact last.symm
  | some draft =>
    obtain ⟨replies, _, concluded⟩ := sound.concluded draft _ drafted failed
    rw [(Round.conclude_error concluded).2, ← (Round.draft_ok (sound.drafted draft drafted)).2.1]
    rfl

end Attempt

namespace System

/-- A promise that was granted in a run was there before, or its ballot is above the mark of that time. -/
theorem run_promised (s : System α) (actions : List (Action α)) {attempt route acceptor : Nat} {ballot : Ballot}
    {promise : Promise α} (told : (s.run actions).Promised attempt route acceptor ballot promise)
    (granted : promise.ok = true) :
    s.Promised attempt route acceptor ballot promise ∨
      ∀ record, s.records[acceptor]? = some record → record.promised < ballot := by
  induction actions generalizing s with
  | nil => exact .inl told
  | cons action rest ih =>
    have move := s.step_move action
    rcases ih (s.step action) told with told | above
    · cases move.effect with
      | quiet records silent => exact .inl (silent.promised _ _ _ _ _ told)
      | accept attempt held wrote records promised took => exact .inl (promised _ _ _ _ _ told)
      | @promise _ _ _ _ record held records promised took =>
        rcases promised _ _ _ _ _ told with told | ⟨-, -, rfl, rfl, rfl⟩
        · exact .inl told
        · refine .inr fun current found => ?_
          obtain rfl : record = current := Option.some.inj (held.symm.trans found)
          exact (record.prepare_granted _).1 granted
    · refine .inr fun record held => ?_
      obtain ⟨current, found, rises⟩ := move.grows.records acceptor record held
      exact lt_of_le_of_lt rises (above current found)

variable {s : System α} {early late : Nat} {a b : Attempt α} {state : UInt64}

def threeRoutes : List Route := [⟨"a", 0⟩, ⟨"b", 1⟩, ⟨"c", 2⟩]

end System

end Synod
