import Synod.Wire.Basic

/-! Records. A `Members` lists the names and types of a record's members, together with the type of
the places that hold them while an object is read. The record is written as an object with its members
in this order. It is read from an object with its members in any order and others among them, or from
an array with its members in this order and no others. -/

namespace Synod.Wire

open Json (Token)

inductive Members : Type → Type → Type 1 where
  | one {α : Type} (name : String) (wire : Wire α) : Members α (Option α)
  | cons {α β σ : Type} (name : String) (wire : Wire α) (rest : Members β σ) : Members (α × β) (Option α × σ)

def colon : List Token → Except Fault (List Token)
  | [] => .error .truncated
  | .colon :: rest => .ok rest
  | _ :: _ => .error .malformed

/-- Read the members of an object from where its first name or its end must stand, with what was gathered
from them so far. Every member takes more than one token, so the number of tokens is fuel enough. -/
def readObject {σ : Type} (member : String → σ → List Token → Except Fault (σ × List Token)) :
    Nat → Bool → σ → List Token → Except Fault (σ × List Token)
  | 0, _, _, _ | _, _, _, [] => .error .truncated
  | _ + 1, _, gathered, .closeObject :: rest => .ok (gathered, rest)
  | fuel + 1, true, gathered, token :: rest => do
    let (gathered, rest) ← member (← Json.memberName token) gathered rest
    readObject member fuel false gathered rest
  | _ + 1, false, _, [.comma] => .error .truncated
  | fuel + 1, false, gathered, .comma :: token :: rest => do
    let (gathered, rest) ← member (← Json.memberName token) gathered rest
    readObject member fuel false gathered rest
  | _ + 1, false, _, _ :: _ => .error .malformed

namespace Members

def empty : {α σ : Type} → Members α σ → σ
  | _, _, one .. => none
  | _, _, cons _ _ rest => (none, rest.empty)

/-- The record, if every member was brought or may be left out. -/
def complete : {α σ : Type} → Members α σ → σ → Option α
  | _, _, one _ wire, slot => slot.or wire.absent
  | _, _, cons _ wire rest, (slot, slots) =>
    match slot.or wire.absent, rest.complete slots with
    | some value, some record => some (value, record)
    | _, _ => none

def toMembers : {α σ : Type} → Members α σ → α → List (String × Json)
  | _, _, one name wire, value => [(name, wire.toJson value)]
  | _, _, cons name wire rest, (value, record) => (name, wire.toJson value) :: rest.toMembers record

/-- Read the value of a member after its name. A name that came before is refused at once, and the
value of a name that the record does not have is passed over. -/
def readMember (room : Nat) (name : String) :
    {α σ : Type} → Members α σ → σ → List Token → Except Fault (σ × List Token)
  | _, _, one own wire, slot, tokens =>
    if name = own then
      match slot with
      | some _ => .error .mismatched
      | none => do
        let (value, rest) ← wire.read room (← colon tokens)
        return (some value, rest)
    else do
      return (slot, ← Json.skip (← colon tokens))
  | _, _, cons own wire rest, (slot, slots), tokens =>
    if name = own then
      match slot with
      | some _ => .error .mismatched
      | none => do
        let (value, left) ← wire.read room (← colon tokens)
        return ((some value, slots), left)
    else do
      let (slots, left) ← rest.readMember room name slots tokens
      return ((slot, slots), left)

def close {α σ : Type} (m : Members α σ) (slots : σ) (rest : List Token) : Except Fault (α × List Token) :=
  match m.complete slots with
  | some record => .ok (record, rest)
  | none => .error .mismatched

/-- Go to the next item of an array, which must not end yet. -/
def nextItem (first : Bool) : List Token → Except Fault (List Token)
  | [] => .error .truncated
  | .closeArray :: _ => .error .mismatched
  | .comma :: rest => if first then .error .malformed else .ok rest
  | token :: rest => if first then .ok (token :: rest) else .error .malformed

def closeItems : List Token → Except Fault (List Token)
  | [] => .error .truncated
  | .closeArray :: rest => .ok rest
  | _ :: _ => .error .malformed

def readItems (room : Nat) : {α σ : Type} → Members α σ → Bool → List Token → Except Fault (α × List Token)
  | _, _, one _ wire, first, tokens => do
    let (value, rest) ← wire.read room (← nextItem first tokens)
    return (value, ← closeItems rest)
  | _, _, cons _ wire more, first, tokens => do
    let (value, rest) ← wire.read room (← nextItem first tokens)
    let (record, rest) ← more.readItems room false rest
    return ((value, record), rest)

def read {α σ : Type} (m : Members α σ) (room : Nat) : List Token → Except Fault (α × List Token)
  | .openObject :: rest =>
    match room with
    | 0 => .error .malformed
    | room + 1 => do
      let (slots, rest) ← readObject (m.readMember room) (rest.length + 1) true m.empty rest
      m.close slots rest
  | .openArray :: rest =>
    match room with
    | 0 => .error .malformed
    | room + 1 => m.readItems room true rest
  | tokens => readScalar (fun _ => none) tokens

/-- Put a member into its place. A name that came before is refused. -/
def put? (name : String) (json : Json) : {α σ : Type} → Members α σ → σ → Option σ
  | _, _, one own wire, slot =>
    if name = own then
      match slot with
      | some _ => none
      | none => (wire.ofJson? json).map some
    else some slot
  | _, _, cons own wire rest, (slot, slots) =>
    if name = own then
      match slot with
      | some _ => none
      | none => (wire.ofJson? json).map fun value => (some value, slots)
    else (rest.put? name json slots).map fun slots => (slot, slots)

def ofMembers? {α σ : Type} (m : Members α σ) (members : List (String × Json)) : Option α :=
  (members.foldlM (fun slots (name, json) => m.put? name json slots) m.empty).bind m.complete

def ofItems? : {α σ : Type} → Members α σ → List Json → Option α
  | _, _, one _ wire, [item] => wire.ofJson? item
  | _, _, cons _ wire rest, item :: items =>
    match wire.ofJson? item, rest.ofItems? items with
    | some value, some record => some (value, record)
    | _, _ => none
  | _, _, _, _ => none

def ofJson? {α σ : Type} (m : Members α σ) : Json → Option α
  | .object members => m.ofMembers? members
  | .array items => m.ofItems? items
  | _ => none

/-- A type whose values are records with these members. -/
@[reducible] def wire {α β σ : Type} (m : Members β σ) (record : α → β) (ofRecord : β → α) : Wire α where
  toJson value := .object (m.toMembers (record value))
  read room tokens := (m.read room tokens).map fun (value, rest) => (ofRecord value, rest)
  ofJson? json := (m.ofJson? json).map ofRecord
  absent := none

end Members

end Synod.Wire
