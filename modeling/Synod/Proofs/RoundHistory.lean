import Synod.Proofs.RoundDecision
import Synod.Proofs.SystemSafety

/-! What a round did follows from what it heard, and it heard nothing that no acceptor answered. With the
agreement of records and answers this makes up the invariant of a system. -/

namespace Synod

variable {α ρ : Type}

/-- The replies of a phase come from the answers given; some may be missing. -/
structure Hears (answers : List (Option ρ)) (replies : List (Reply ρ)) : Prop where
  length : replies.length = answers.length
  told : ∀ (route : Nat) answer, replies[route]? = some (.ok answer) → answers[route]? = some (some answer)

private theorem hears_replies {routes : List Route} {answers : List (Option ρ)} (same : answers.length = routes.length)
    (lost : Nat → Option TransportError) : Hears answers (System.replies routes answers lost) := by
  constructor
  · simp [System.replies, same]
  · intro route answer told
    simp only [System.replies, List.getElem?_map, Option.map_eq_some_iff] at told
    obtain ⟨⟨⟨link, given⟩, place⟩, found, reply⟩ := told
    rw [List.getElem?_zipIdx, Option.map_eq_some_iff] at found
    obtain ⟨pair, found, same⟩ := found
    cases same
    rw [(List.getElem?_zip_eq_some.1 found).2]
    dsimp only at reply
    split at reply <;> cases reply
    rfl

theorem Hears.set {answers : List (Option ρ)} {replies : List (Reply ρ)} {place : Nat} (hears : Hears answers replies)
    (waiting : answers[place]? = some none) (answer : ρ) : Hears (answers.set place (some answer)) replies := by
  refine ⟨by simpa using hears.length, ?_⟩
  intro route reply told
  have given := hears.told route reply told
  rw [getElem?_set_held waiting]
  split
  next same =>
    subst same
    rw [waiting] at given
    cases given
  · exact given

namespace Attempt

structure Sound (links : Nat) (a : Attempt α) : Prop where
  promises : a.promises.length = links
  accepts : a.accepts.length = links
  heard : a.heard = [] ∨ Hears a.promises a.heard
  drafted : ∀ draft, a.draft = some draft → Round.draft a.transform a.heard = .ok draft
  refused : ∀ outcome, a.draft = none → a.outcome = some outcome →
    ∃ error, outcome = .error error ∧ Round.draft a.transform a.heard = .error error
  concluded : ∀ draft outcome, a.draft = some draft → a.outcome = some outcome →
    ∃ replies, Hears a.accepts replies ∧ Round.conclude draft replies = outcome

variable {links : Nat} {a : Attempt α}

theorem Sound.begin (ballot : Ballot) (transform : Transform α) :
    (Attempt.begin ballot transform links).Sound links := by
  refine ⟨by simp [Attempt.begin], by simp [Attempt.begin], .inl rfl, ?_, ?_, ?_⟩
  · intro draft drafted; cases drafted
  · intro outcome _ finished; cases finished
  · intro draft outcome drafted; cases drafted

theorem Sound.promise (sound : a.Sound links) {route : Nat} (waiting : a.promises[route]? = some none)
    (promise : Promise α) : Sound links { a with promises := a.promises.set route (some promise) } :=
  ⟨by simpa using sound.promises, sound.accepts, sound.heard.imp_right (·.set waiting promise), sound.drafted,
    sound.refused, sound.concluded⟩

theorem Sound.accept (sound : a.Sound links) {route : Nat} (waiting : a.accepts[route]? = some none)
    (reply : Accepted) : Sound links { a with accepts := a.accepts.set route (some reply) } := by
  refine ⟨sound.promises, by simpa using sound.accepts, sound.heard, sound.drafted, sound.refused, ?_⟩
  intro draft outcome drafted finished
  obtain ⟨replies, hears, same⟩ := sound.concluded draft outcome drafted finished
  exact ⟨replies, hears.set waiting reply, same⟩

theorem Sound.resolve (sound : a.Sound links) (unresolved : a.preparing = true) {heard : List (Reply (Promise α))}
    (hears : Hears a.promises heard) : (a.resolve heard).Sound links := by
  simp only [preparing, Bool.and_eq_true, Option.isNone_iff_eq_none] at unresolved
  unfold Attempt.resolve
  split
  next draft drafted =>
    refine ⟨sound.promises, sound.accepts, .inr hears, ?_, ?_, ?_⟩
    · intro other same; cases same; exact drafted
    · intro outcome absent; cases absent
    · intro other outcome _ finished; rw [unresolved.2] at finished; cases finished
  next error refused =>
    refine ⟨sound.promises, sound.accepts, .inr hears, ?_, ?_, ?_⟩
    · intro draft drafted; rw [unresolved.1] at drafted; cases drafted
    · intro outcome _ finished; cases finished; exact ⟨error, rfl, refused⟩
    · intro draft outcome drafted; rw [unresolved.1] at drafted; cases drafted

theorem Sound.conclude (sound : a.Sound links) {draft : Round.Draft α} (drafted : a.draft = some draft)
    {replies : List (Reply Accepted)} (hears : Hears a.accepts replies) :
    Sound links { a with outcome := some (Round.conclude draft replies) } := by
  refine ⟨sound.promises, sound.accepts, sound.heard, sound.drafted, ?_, ?_⟩
  · intro outcome absent; rw [drafted] at absent; cases absent
  · intro other outcome same finished
    obtain rfl : draft = other := Option.some.inj (drafted.symm.trans same)
    cases finished
    exact ⟨replies, hears, rfl⟩

end Attempt

namespace System

/-- The invariant of every system that began with empty acceptors. -/
structure Valid (s : System α) : Prop where
  consistent : Consistent s
  rounds : ∀ (attempt : Nat) a, s.attempts[attempt]? = some a → a.Sound s.routes.length

theorem Valid.initial (acceptors : Nat) (routes : List Route) : Valid (System.initial (α := α) acceptors routes) :=
  ⟨.initial acceptors routes, fun _ _ begun => by cases begun⟩

private theorem set_rounds {s : System α} {attempt : Nat} {a after : Attempt α} (valid : Valid s)
    (begun : s.attempts[attempt]? = some a) (sound : a.Sound s.routes.length → after.Sound s.routes.length)
    (other : Nat) (b : Attempt α) (found : (s.attempts.set attempt after)[other]? = some b) :
    b.Sound s.routes.length := by
  rcases of_getElem?_set begun found with ⟨rfl, rfl⟩ | found
  · exact sound (valid.rounds other a begun)
  · exact valid.rounds other b found

private theorem Move.rounds {s s' : System α} (move : Move s s') (valid : Valid s) :
    ∀ (attempt : Nat) a, s'.attempts[attempt]? = some a → a.Sound s'.routes.length := by
  cases move with
  | rest | join => exact valid.rounds
  | start transform known =>
    intro other b found
    rcases of_getElem?_concat found with rfl | found
    · exact .begin _ transform
    · exact valid.rounds other b found
  | promise begun leads waiting held => exact set_rounds valid begun (·.promise waiting _)
  | resolve lost begun preparing =>
    exact set_rounds valid begun fun sound => sound.resolve preparing (hears_replies sound.promises lost)
  | accept begun leads drafted waiting held => exact set_rounds valid begun (·.accept waiting _)
  | conclude lost begun drafted unfinished =>
    exact set_rounds valid begun fun sound => sound.conclude drafted (hears_replies sound.accepts lost)

theorem Valid.step {s : System α} (valid : Valid s) (action : Action α) : Valid (s.step action) :=
  ⟨valid.consistent.step action, (s.step_move action).rounds valid⟩

theorem Valid.run {s : System α} (valid : Valid s) (actions : List (Action α)) : Valid (s.run actions) := by
  induction actions generalizing s with
  | nil => exact valid
  | cons action rest ih => exact ih (valid.step action)

end System

end Synod
