import Mathlib.Data.List.Basic
import Synod.Proofs.RecordSteps
import Synod.System

/-! What one action can do to a system. The changes are listed once, as `Move`; what outside observers can
tell of them is that rounds only gain answers, that marks only rise, and that at most one acceptor acts. -/

namespace Synod

variable {α ρ : Type}

theorem getElem?_set_held {β : Type} {items : List β} {place : Nat} {old : β} (held : items[place]? = some old)
    (new : β) (other : Nat) : (items.set place new)[other]? = if place = other then some new else items[other]? := by
  have inside := (List.getElem?_eq_some_iff.1 held).1
  rw [List.getElem?_set, if_pos inside]

/-- Whatever stands in the list afterwards is the new value in its place or stood there before. -/
theorem of_getElem?_set {β : Type} {items : List β} {place other : Nat} {old new item : β}
    (held : items[place]? = some old) (found : (items.set place new)[other]? = some item) :
    other = place ∧ item = new ∨ items[other]? = some item := by
  rw [getElem?_set_held held] at found
  split at found
  next same => cases found; exact .inl ⟨same.symm, rfl⟩
  · exact .inr found

theorem of_getElem?_concat {β : Type} {items : List β} {last item : β} {place : Nat}
    (found : (items ++ [last])[place]? = some item) : item = last ∨ items[place]? = some item := by
  rw [List.getElem?_append] at found
  split at found
  · exact .inr found
  · exact .inl (List.mem_singleton.1 (List.mem_of_getElem? found))

namespace System

inductive Move (s : System α) : System α → Prop where
  | rest : Move s s
  | join (nodeId : UInt64) : Move s { s with mints := s.mints ++ [.fresh nodeId] }
  | start {proposer : Nat} {mint : Mint} (transform : Transform α) (known : s.mints[proposer]? = some mint) :
      Move s { s with
        mints := s.mints.set proposer mint.next.2
        attempts := s.attempts ++ [.begin mint.next.1 transform s.routes.length] }
  | promise {attempt route : Nat} {a : Attempt α} {link : Route} {record : Record α}
      (begun : s.attempts[attempt]? = some a) (leads : s.routes[route]? = some link)
      (waiting : a.promises[route]? = some none) (held : s.records[link.acceptor]? = some record) :
      Move s { s with
        records := s.records.set link.acceptor (record.prepare a.ballot).2
        attempts := s.attempts.set attempt
          { a with promises := a.promises.set route (some (record.prepare a.ballot).1) } }
  | resolve {attempt : Nat} {a : Attempt α} (lost : Nat → Option TransportError)
      (begun : s.attempts[attempt]? = some a) (preparing : a.preparing = true) :
      Move s { s with attempts := s.attempts.set attempt (a.resolve (replies s.routes a.promises lost)) }
  | accept {attempt route : Nat} {a : Attempt α} {link : Route} {draft : Round.Draft α} {record : Record α}
      (begun : s.attempts[attempt]? = some a) (leads : s.routes[route]? = some link)
      (drafted : a.draft = some draft) (waiting : a.accepts[route]? = some none)
      (held : s.records[link.acceptor]? = some record) :
      Move s { s with
        records := s.records.set link.acceptor (record.accept a.ballot draft.next).2
        attempts := s.attempts.set attempt
          { a with accepts := a.accepts.set route (some (record.accept a.ballot draft.next).1) } }
  | conclude {attempt : Nat} {a : Attempt α} {draft : Round.Draft α} (lost : Nat → Option TransportError)
      (begun : s.attempts[attempt]? = some a) (drafted : a.draft = some draft) (unfinished : a.outcome = none) :
      Move s { s with
        attempts := s.attempts.set attempt
          { a with outcome := some (Round.conclude draft (replies s.routes a.accepts lost)) } }

theorem step_move (s : System α) (action : Action α) : Move s (s.step action) := by
  cases action with
  | join nodeId => exact .join nodeId
  | start proposer transform =>
    simp only [step]
    split
    · exact .rest
    next mint known => exact .start transform known
  | prepare attempt route =>
    simp only [step, arrivePrepare]
    split
    next a link begun leads =>
      split
      next record waiting held => exact .promise begun leads waiting held
      · exact .rest
    · exact .rest
  | resolve attempt lost =>
    simp only [step]
    split
    · exact .rest
    next a begun =>
      split
      next preparing => exact .resolve lost begun preparing
      · exact .rest
  | accept attempt route =>
    simp only [step, arriveAccept]
    split
    next a link begun leads =>
      split
      next draft record drafted waiting held => exact .accept begun leads drafted waiting held
      · exact .rest
    · exact .rest
  | conclude attempt lost =>
    simp only [step]
    split
    · exact .rest
    next a begun =>
      split
      next draft drafted unfinished => exact .conclude lost begun drafted unfinished
      · exact .rest

end System

end Synod
