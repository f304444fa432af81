import Synod.Proofs.NodeRequests

/-! The phases of a node's rounds. The own acceptor answers before anything is asked of other addresses, and those are
asked one after another in the order of the links. -/

namespace Synod.Node

variable {σ α ρ : Type}

section

variable (visit : Visit α ρ) (ways : List Way) (acceptor : Acceptor α)

private theorem askOwn_length : (askOwn visit ways acceptor).1.length = ways.length := by
  induction ways generalizing acceptor with
  | nil => rfl
  | cons way ways ih => cases way <;> simp [askOwn, ih]

theorem askOwn_answered : (askOwn visit ways acceptor).1.countP Sum.isLeft = ways.count .own := by
  induction ways generalizing acceptor with
  | nil => rfl
  | cons way ways ih => cases way <;> simp [askOwn, List.countP_cons, ih]

private theorem askOwn_remote {place : Nat} {address : String}
    (left : (askOwn visit ways acceptor).1[place]? = some (.inr address)) : ways[place]? = some (.remote address) := by
  induction ways generalizing acceptor place with
  | nil => cases left
  | cons way ways ih =>
    cases way with
    | own =>
      cases place with
      | zero => cases left
      | succ place => exact ih _ left
    | remote other =>
      cases place with
      | zero => cases left; rfl
      | succ place => exact ih _ left

/-- What a visit leaves alone is left alone by all visits of a phase. -/
theorem askOwn_kept {β : Type} (view : Acceptor α → β) (kept : ∀ a, view (visit.answer a).2 = view a) :
    view (askOwn visit ways acceptor).2.2 = view acceptor := by
  induction ways generalizing acceptor with
  | nil => rfl
  | cons way ways ih =>
    cases way with
    | own => exact (ih _).trans (kept _)
    | remote address => exact ih _

end

def settle (ask : String → σ → Reply ρ × σ) : ρ ⊕ String → σ → Reply ρ × σ
  | .inl reply, world => (.ok reply, world)
  | .inr address, world => ask address world

variable (ask : String → σ → Reply ρ × σ)

private theorem askOthers_eq (answers : List (ρ ⊕ String)) (world : σ) :
    askOthers ask answers world = serveAll (settle ask) answers world := by
  induction answers generalizing world with
  | nil => rfl
  | cons answer answers ih => cases answer <;> simp [askOthers, serveAll, settle, ih]

variable (visit : Visit α ρ) (ways : List Way) (world : Acceptor α × σ)

theorem phase_length : (phase visit ask ways world).replies.length = ways.length := by
  simp only [phase, askOthers_eq, serveAll_length, askOwn_length]

variable {ask visit ways world}

/-- Only what is asked of the other addresses depends on the way in which they are asked. -/
theorem phase_congr {ask' : String → σ → Reply ρ × σ} (agree : ∀ (place : Nat) address beyond,
      ways[place]? = some (.remote address) →
        (phase visit ask ways world).replies[place]? = some (ask address beyond).1 →
          ask' address beyond = ask address beyond) :
    phase visit ask' ways world = phase visit ask ways world := by
  have same : serveAll (settle ask') (askOwn visit ways world.1).1 world.2 =
      serveAll (settle ask) (askOwn visit ways world.1).1 world.2 := by
    apply serveAll_congr
    intro place answer found
    cases answer with
    | inl reply => rfl
    | inr address =>
      apply agree place address _ (askOwn_remote visit ways world.1 found)
      simp only [phase, askOthers_eq]
      exact serveAll_reply _ _ found
  simp only [phase, askOthers_eq, same]

end Synod.Node
