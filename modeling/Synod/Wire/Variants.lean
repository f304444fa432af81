import Synod.Wire.Members

/-! Types of several kinds of record. The kind is named by a member `type` that stands first where
the value is written. It may stand anywhere where the value is read, so the other members are kept
as JSON values until the object ends. -/

namespace Synod.Wire

open Json (Token)

/-- One kind of record: its name, and the values that JSON content of this kind stands for. -/
structure Variant (α : Type) where
  name : String
  ofMembers? : List (String × Json) → Option α
  ofItems? : List Json → Option α

def tagName : String := "type"

namespace Variant

variable {α β σ : Type}

/-- The kind of values that are made from records with these members. -/
def ofRecord (name : String) (members : Members β σ) (make : β → α) : Variant α :=
  ⟨name, fun json => (members.ofMembers? json).map make, fun items => (members.ofItems? items).map make⟩

def find? (variants : List (Variant α)) (name : String) : Option (Variant α) :=
  variants.find? fun variant => variant.name = name

end Variant

def taggedJson {β σ : Type} (name : String) (members : Members β σ) (content : β) : Json :=
  .object ((tagName, .string name) :: members.toMembers content)

/-- What was read of an object: its kind, and its other members, last member first. -/
structure Tagged (α : Type) where
  variant : Option (Variant α)
  members : List (String × Json)

namespace Tagged

variable {α : Type}

def readTag (variants : List (Variant α)) : List Token → Except Fault (Variant α × List Token) :=
  readScalar fun json => (string? json).bind (Variant.find? variants)

/-- Read the value of a member after its name. The kind is looked up at once, and its name may not
come twice. -/
def readMember (variants : List (Variant α)) (room : Nat) (name : String) (t : Tagged α) (tokens : List Token) :
    Except Fault (Tagged α × List Token) :=
  if name = tagName then
    match t.variant with
    | some _ => .error .mismatched
    | none => do
      let (variant, rest) ← readTag variants (← colon tokens)
      return ({ t with variant := some variant }, rest)
  else do
    let (json, rest) ← Json.read room (← colon tokens)
    return ({ t with members := (name, json) :: t.members }, rest)

def close (t : Tagged α) (rest : List Token) : Except Fault (α × List Token) :=
  match t.variant with
  | none => .error .mismatched
  | some variant =>
    match variant.ofMembers? t.members.reverse with
    | some value => .ok (value, rest)
    | none => .error .mismatched

/-- Read an array whose first item names the kind and whose others are the members in order. -/
def readItems (variants : List (Variant α)) (room : Nat) (tokens : List Token) : Except Fault (α × List Token) := do
  let (variant, rest) ← readTag variants (← Members.nextItem true tokens)
  let (items, rest) ← Json.build room [.array []] .more rest
  match items with
  | .array items =>
    match variant.ofItems? items with
    | some value => return (value, rest)
    | none => .error .mismatched
  | _ => .error .mismatched

def read (variants : List (Variant α)) (room : Nat) : List Token → Except Fault (α × List Token)
  | .openObject :: rest =>
    match room with
    | 0 => .error .malformed
    | room + 1 => do
      let (t, rest) ← readObject (readMember variants room) (rest.length + 1) true ⟨none, []⟩ rest
      t.close rest
  | .openArray :: rest =>
    match room with
    | 0 => .error .malformed
    | room + 1 => readItems variants room rest
  | tokens => readScalar (fun _ => none) tokens

/-- Split the member that names the kind from the others; it must come exactly once. -/
def ofMembers? (variants : List (Variant α)) (members : List (String × Json)) : Option α :=
  match members.filter fun member => member.1 = tagName with
  | [(_, json)] =>
    ((string? json).bind (Variant.find? variants)).bind fun variant =>
      variant.ofMembers? (members.filter fun member => member.1 ≠ tagName)
  | _ => none

def ofJson? (variants : List (Variant α)) : Json → Option α
  | .object members => ofMembers? variants members
  | .array (tag :: items) =>
    ((string? tag).bind (Variant.find? variants)).bind fun variant => variant.ofItems? items
  | _ => none

@[reducible] def wire (variants : List (Variant α)) (toJson : α → Json) : Wire α where
  toJson := toJson
  read := read variants
  ofJson? := ofJson? variants
  absent := none

end Tagged

end Synod.Wire
