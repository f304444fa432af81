/-! The content of the register and how a round changes it. Every committed value carries a
state, which counts the writes before it. A `Transform` looks at the content that the prepare
phase resolved and either chooses the next payload or gives up. -/

namespace Synod

/-- A payload and the number of writes that came before it. -/
structure Value (α : Type) where
  payload : α
  state : UInt64
deriving DecidableEq, Repr, Inhabited

/-- The value that replaces `current`: state zero in an empty register, else one state further.
The last state has no successor. -/
def Value.successor {α : Type} (current : Option (Value α)) (payload : α) : Option (Value α) :=
  match current with
  | none => some ⟨payload, 0⟩
  | some value => if value.state = 0xFFFFFFFFFFFFFFFF then none else some ⟨payload, value.state + 1⟩

inductive Change (α : Type) where
  | write (payload : α)
  | abort
deriving DecidableEq, Repr

/-- A rule that chooses the change from the content of the register. -/
abbrev Transform (α : Type) := Option (Value α) → Change α

/-- Write `payload` if the register is empty or stands at the expected state. -/
def compareAndSet {α : Type} (expected : Option UInt64) (payload : α) : Transform α
  | none => .write payload
  | some value => if expected = some value.state then .write payload else .abort

end Synod
