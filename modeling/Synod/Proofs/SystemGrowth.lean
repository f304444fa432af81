import Synod.Proofs.SystemSteps

/-! What stays true of a system whatever happens next. Rounds keep their ballots, answers, drafts and
outcomes, and the marks of the acceptors only rise. -/

namespace Synod

variable {α : Type}

/-- A round keeps all that it was told and all that it decided. -/
structure Attempt.Grows (before after : Attempt α) : Prop where
  ballot : after.ballot = before.ballot
  transform : after.transform = before.transform
  promises : ∀ (route : Nat) promise, before.promises[route]? = some (some promise) →
    after.promises[route]? = some (some promise)
  accepts : ∀ (route : Nat) reply, before.accepts[route]? = some (some reply) →
    after.accepts[route]? = some (some reply)
  heard : before.preparing = false → after.heard = before.heard
  draft : before.preparing = false → after.draft = before.draft
  outcome : ∀ outcome, before.outcome = some outcome → after.outcome = some outcome

namespace Attempt

theorem not_preparing_of_draft {a : Attempt α} {draft : Round.Draft α} (drafted : a.draft = some draft) :
    a.preparing = false := by simp [preparing, drafted]

private theorem not_preparing_of_outcome {a : Attempt α} {outcome : Except ProposeError UInt64}
    (finished : a.outcome = some outcome) : a.preparing = false := by simp [preparing, finished]

theorem Grows.refl (a : Attempt α) : a.Grows a :=
  ⟨rfl, rfl, fun _ _ told => told, fun _ _ told => told, fun _ => rfl, fun _ => rfl, fun _ same => same⟩

theorem Grows.ended {before after : Attempt α} (growth : before.Grows after) (ended : before.preparing = false) :
    after.preparing = false := by
  have draft := growth.draft ended
  cases finished : before.outcome with
  | some outcome => exact not_preparing_of_outcome (growth.outcome outcome finished)
  | none =>
    simp only [preparing, finished, Option.isNone_none, Bool.and_true] at ended
    simp [preparing, draft, ended]

theorem Grows.trans {before middle after : Attempt α} (first : before.Grows middle) (last : middle.Grows after) :
    before.Grows after where
  ballot := last.ballot.trans first.ballot
  transform := last.transform.trans first.transform
  promises route promise told := last.promises route promise (first.promises route promise told)
  accepts route reply told := last.accepts route reply (first.accepts route reply told)
  heard ended := (last.heard (first.ended ended)).trans (first.heard ended)
  draft ended := (last.draft (first.ended ended)).trans (first.draft ended)
  outcome outcome same := last.outcome outcome (first.outcome outcome same)

private theorem answers_kept {ρ : Type} {answers : List (Option ρ)} {route : Nat}
    (waiting : answers[route]? = some none) (answer : ρ) (other : Nat) (reply : ρ) (told : answers[other]? = some (some reply)) :
    (answers.set route (some answer))[other]? = some (some reply) := by
  rw [getElem?_set_held waiting]
  split
  next same =>
    subst same
    rw [waiting] at told
    cases told
  · exact told

private theorem grows_promise {a : Attempt α} {route : Nat} (waiting : a.promises[route]? = some none)
    (promise : Promise α) : a.Grows { a with promises := a.promises.set route (some promise) } :=
  ⟨rfl, rfl, answers_kept waiting promise, fun _ _ told => told, fun _ => rfl, fun _ => rfl, fun _ same => same⟩

private theorem grows_accept {a : Attempt α} {route : Nat} (waiting : a.accepts[route]? = some none)
    (reply : Accepted) : a.Grows { a with accepts := a.accepts.set route (some reply) } :=
  ⟨rfl, rfl, fun _ _ told => told, answers_kept waiting reply, fun _ => rfl, fun _ => rfl, fun _ same => same⟩

/-- The end of the prepare phase touches nothing but what was heard and what follows from it. -/
theorem resolve_keeps (a : Attempt α) (heard : List (Reply (Promise α))) :
    (a.resolve heard).ballot = a.ballot ∧ (a.resolve heard).transform = a.transform ∧
      (a.resolve heard).promises = a.promises ∧ (a.resolve heard).accepts = a.accepts ∧
      (a.resolve heard).heard = heard := by
  unfold resolve
  split <;> exact ⟨rfl, rfl, rfl, rfl, rfl⟩

private theorem grows_resolve {a : Attempt α} (preparing : a.preparing = true) (heard : List (Reply (Promise α))) :
    a.Grows (a.resolve heard) := by
  obtain ⟨ballot, transform, promises, accepts, _⟩ := a.resolve_keeps heard
  refine ⟨ballot, transform, ?_, ?_, ?_, ?_, ?_⟩
  · rw [promises]; exact fun _ _ told => told
  · rw [accepts]; exact fun _ _ told => told
  · intro ended; rw [preparing] at ended; cases ended
  · intro ended; rw [preparing] at ended; cases ended
  · intro outcome finished
    rw [not_preparing_of_outcome finished] at preparing
    cases preparing

private theorem grows_conclude {a : Attempt α} (unfinished : a.outcome = none) (outcome : Except ProposeError UInt64) :
    a.Grows { a with outcome := some outcome } := by
  refine ⟨rfl, rfl, fun _ _ told => told, fun _ _ told => told, fun _ => rfl, fun _ => rfl, ?_⟩
  intro _ finished
  rw [unfinished] at finished
  cases finished

end Attempt

namespace System

structure Grows (before after : System α) : Prop where
  routes : after.routes = before.routes
  records : ∀ (acceptor : Nat) record, before.records[acceptor]? = some record →
    ∃ current, after.records[acceptor]? = some current ∧ record.promised ≤ current.promised
  attempts : ∀ (attempt : Nat) a, before.attempts[attempt]? = some a →
    ∃ current, after.attempts[attempt]? = some current ∧ a.Grows current

theorem Grows.refl (s : System α) : Grows s s :=
  ⟨rfl, fun _ record held => ⟨record, held, le_refl _⟩, fun _ a begun => ⟨a, begun, .refl a⟩⟩

theorem Grows.trans {before middle after : System α} (first : Grows before middle) (last : Grows middle after) :
    Grows before after := by
  refine ⟨last.routes.trans first.routes, ?_, ?_⟩
  · intro acceptor record held
    obtain ⟨current, held, rises⟩ := first.records acceptor record held
    obtain ⟨final, held, rises'⟩ := last.records acceptor current held
    exact ⟨final, held, le_trans rises rises'⟩
  · intro attempt a begun
    obtain ⟨current, begun, growth⟩ := first.attempts attempt a begun
    obtain ⟨final, begun, growth'⟩ := last.attempts attempt current begun
    exact ⟨final, begun, growth.trans growth'⟩

private theorem set_attempts {s : System α} {attempt : Nat} {a after : Attempt α}
    (begun : s.attempts[attempt]? = some a) (growth : a.Grows after) (other : Nat) (b : Attempt α)
    (found : s.attempts[other]? = some b) :
    ∃ current, (s.attempts.set attempt after)[other]? = some current ∧ b.Grows current := by
  rw [getElem?_set_held begun]
  split
  next same =>
    subst same
    obtain rfl : a = b := Option.some.inj (begun.symm.trans found)
    exact ⟨after, rfl, growth⟩
  · exact ⟨b, found, .refl b⟩

private theorem set_records {s : System α} {acceptor : Nat} {record after : Record α}
    (held : s.records[acceptor]? = some record) (rises : record.promised ≤ after.promised) (other : Nat) (r : Record α)
    (found : s.records[other]? = some r) :
    ∃ current, (s.records.set acceptor after)[other]? = some current ∧ r.promised ≤ current.promised := by
  rw [getElem?_set_held held]
  split
  next same =>
    subst same
    obtain rfl : record = r := Option.some.inj (held.symm.trans found)
    exact ⟨after, rfl, rises⟩
  · exact ⟨r, found, le_refl _⟩

theorem Move.grows {s s' : System α} (move : Move s s') : Grows s s' := by
  cases move with
  | rest => exact .refl s
  | join => exact ⟨rfl, (Grows.refl s).records, (Grows.refl s).attempts⟩
  | start transform known =>
    refine ⟨rfl, (Grows.refl s).records, ?_⟩
    intro attempt a begun
    exact ⟨a, by rw [List.getElem?_append_left (List.getElem?_eq_some_iff.1 begun).1]; exact begun, .refl a⟩
  | promise begun leads waiting held =>
    exact ⟨rfl, set_records held (Record.prepare_rises _ _), set_attempts begun (Attempt.grows_promise waiting _)⟩
  | resolve lost begun preparing =>
    exact ⟨rfl, (Grows.refl s).records, set_attempts begun (Attempt.grows_resolve preparing _)⟩
  | accept begun leads drafted waiting held =>
    exact ⟨rfl, set_records held (Record.accept_rises _ _ _), set_attempts begun (Attempt.grows_accept waiting _)⟩
  | conclude lost begun drafted unfinished =>
    exact ⟨rfl, (Grows.refl s).records, set_attempts begun (Attempt.grows_conclude unfinished _)⟩

theorem run_grows (s : System α) (actions : List (Action α)) : Grows s (s.run actions) := by
  induction actions generalizing s with
  | nil => exact .refl s
  | cons action rest ih => exact (s.step_move action).grows.trans (ih (s.step action))

theorem run_append (s : System α) (before after : List (Action α)) :
    s.run (before ++ after) = (s.run before).run after := List.foldl_append

end System

end Synod
