import Synod.Json.Reader
import Synod.Json.Scan

/-! How types are written as JSON and read back. A value is read either straight from the tokens of
a text, where the first fault in the order of the text counts, or from a JSON value that was read
before, where only its shape can be wrong. -/

namespace Synod

open Json (Token)

class Wire (α : Type) where
  toJson : α → Json
  /-- Read from tokens, with at most so many containers inside each other. -/
  read : Nat → List Token → Except Fault (α × List Token)
  ofJson? : Json → Option α
  /-- What a member of this type stands for where it is left out. -/
  absent : Option α

namespace Wire

def readScalar {α : Type} (pick : Json → Option α) : List Token → Except Fault (α × List Token)
  | [] => .error .truncated
  | .openObject :: _ | .openArray :: _ => .error .mismatched
  | token :: rest =>
    match Json.scalar token with
    | .error fault => .error fault
    | .ok json =>
      match pick json with
      | some value => .ok (value, rest)
      | none => .error .mismatched

/-- A type without containers, by its values among the JSON values. -/
@[reducible] def ofScalar {α : Type} (toJson : α → Json) (ofJson? : Json → Option α) : Wire α :=
  ⟨toJson, fun _ => readScalar ofJson?, ofJson?, none⟩

def bool? : Json → Option Bool
  | .bool value => some value
  | _ => none

def string? : Json → Option String
  | .string value => some value
  | _ => none

/-- A whole number from zero up to, and not including, the bound. -/
def natural? (bound : Nat) : Json → Option Nat
  | .number (.whole value) => if 0 ≤ value ∧ value < bound then some value.toNat else none
  | _ => none

instance : Wire Bool := ofScalar .bool bool?

instance : Wire String := ofScalar .string string?

instance : Wire UInt64 :=
  ofScalar (fun value => .number (.whole value.toNat)) fun json => (natural? UInt64.size json).map UInt64.ofNat

instance : Wire UInt32 :=
  ofScalar (fun value => .number (.whole value.toNat)) fun json => (natural? UInt32.size json).map UInt32.ofNat

/-- Nothing is written as null, and a member that is left out counts as nothing. -/
instance {α : Type} [Wire α] : Wire (Option α) where
  toJson
    | none => .null
    | some value => toJson value
  read
    | _, .null :: rest => .ok (none, rest)
    | room, tokens => (read room tokens).map fun (value, rest) => (some value, rest)
  ofJson?
    | .null => some none
    | json => (ofJson? json).map some
  absent := some none

/-- Any JSON value, with the members of its objects in the order of their names. -/
instance : Wire Json where
  toJson := Json.sorted
  read room tokens := (Json.read room tokens).map fun (json, rest) => (json.sorted, rest)
  ofJson? json := some json.sorted
  absent := none

/-- The containers that a text may have inside each other. -/
def depthLimit : Nat := 127

def encode {α : Type} [Wire α] (value : α) : List UInt8 := (toJson value).bytes

def decode (α : Type) [Wire α] (text : List UInt8) : Except Fault α :=
  match read depthLimit (Json.scan text) with
  | .error fault => .error fault
  | .ok (value, []) => .ok value
  | .ok (_, _ :: _) => .error .malformed

end Wire

end Synod
