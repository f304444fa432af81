import Synod.Json.Token

/-! Taking values off a list of tokens. `Json.read` builds a value and allows only so many
containers inside each other; `Json.skip` passes over one and allows any number. Both keep the open
containers on a stack and look at one token at a time. -/

namespace Synod.Json

/-- The value of a token that stands for one by itself. Those who want another kind of value still
meet the faults of the text first. -/
def scalar : Token → Except Fault Json
  | .null => .ok .null
  | .bool value => .ok (.bool value)
  | .number (some value) => .ok (.number value)
  | .string (some value) => .ok (.string value)
  | .broken fault _ | .brokenString fault _ => .error fault
  | _ => .error .malformed

def memberName : Token → Except Fault String
  | .string (some name) => .ok name
  | .brokenString fault _ => .error fault
  | _ => .error .malformed

inductive Await where
  | value
  /-- A value or the end of an empty array. -/
  | firstItem
  /-- A name or the end of an empty object. -/
  | firstName
  | name
  | colon
  /-- A comma or the end of the innermost container. -/
  | more
deriving DecidableEq, Repr

/-- An open container, with its content so far, last part first. -/
inductive Container where
  | array (items : List Json)
  | object (members : List (String × Json)) (name : String)

def Container.push : Container → Json → Container
  | array items, json => array (json :: items)
  | object members name, json => object ((name, json) :: members) name

def Container.close : Container → Json
  | array items => .array items.reverse
  | object members _ => .object members.reverse

/-- Read on. The room is the number of containers that may still be opened. -/
def build : Nat → List Container → Await → List Token → Except Fault (Json × List Token)
  | _, _, _, [] => .error .truncated
  | 0, _, .value, .openArray :: _ | 0, _, .firstItem, .openArray :: _
  | 0, _, .value, .openObject :: _ | 0, _, .firstItem, .openObject :: _ => .error .malformed
  | room + 1, stack, .value, .openArray :: rest | room + 1, stack, .firstItem, .openArray :: rest =>
    build room (.array [] :: stack) .firstItem rest
  | room + 1, stack, .value, .openObject :: rest | room + 1, stack, .firstItem, .openObject :: rest =>
    build room (.object [] "" :: stack) .firstName rest
  | room, .array items :: stack, .firstItem, .closeArray :: rest
  | room, .array items :: stack, .more, .closeArray :: rest =>
    match stack with
    | [] => .ok ((Container.array items).close, rest)
    | container :: outer => build (room + 1) (container.push (Container.array items).close :: outer) .more rest
  | room, .object members name :: stack, .firstName, .closeObject :: rest
  | room, .object members name :: stack, .more, .closeObject :: rest =>
    match stack with
    | [] => .ok ((Container.object members name).close, rest)
    | container :: outer => build (room + 1) (container.push (Container.object members name).close :: outer) .more rest
  | room, .array items :: stack, .more, .comma :: rest => build room (.array items :: stack) .value rest
  | room, .object members name :: stack, .more, .comma :: rest =>
    build room (.object members name :: stack) .name rest
  | _, _, .more, _ :: _ => .error .malformed
  | room, .object members name :: stack, .colon, .colon :: rest =>
    build room (.object members name :: stack) .value rest
  | _, _, .colon, _ :: _ => .error .malformed
  | room, .object members _ :: stack, .firstName, token :: rest | room, .object members _ :: stack, .name, token :: rest =>
    match memberName token with
    | .ok name => build room (.object members name :: stack) .colon rest
    | .error fault => .error fault
  | _, _, .firstName, _ :: _ | _, _, .name, _ :: _ => .error .malformed
  | room, stack, .value, token :: rest | room, stack, .firstItem, token :: rest =>
    match scalar token with
    | .error fault => .error fault
    | .ok json =>
      match stack with
      | [] => .ok (json, rest)
      | container :: outer => build room (container.push json :: outer) .more rest

/-- Read one value with at most `room` containers inside each other. -/
def read (room : Nat) (tokens : List Token) : Except Fault (Json × List Token) := build room [] .value tokens

def passed : Token → Except Fault Unit
  | .null | .bool _ | .number _ | .string _ => .ok ()
  | .broken _ fault | .brokenString _ fault => .error fault
  | _ => .error .malformed

def passedName : Token → Except Fault Unit
  | .string _ => .ok ()
  | .brokenString _ fault => .error fault
  | _ => .error .malformed

/-- Pass on. The stack tells of each open container whether it is an object. -/
def pass : List Bool → Await → List Token → Except Fault (List Token)
  | _, _, [] => .error .truncated
  | stack, .value, .openArray :: rest | stack, .firstItem, .openArray :: rest => pass (false :: stack) .firstItem rest
  | stack, .value, .openObject :: rest | stack, .firstItem, .openObject :: rest => pass (true :: stack) .firstName rest
  | false :: stack, .firstItem, .closeArray :: rest | false :: stack, .more, .closeArray :: rest
  | true :: stack, .firstName, .closeObject :: rest | true :: stack, .more, .closeObject :: rest =>
    match stack with
    | [] => .ok rest
    | outer => pass outer .more rest
  | false :: stack, .more, .comma :: rest => pass (false :: stack) .value rest
  | true :: stack, .more, .comma :: rest => pass (true :: stack) .name rest
  | _, .more, _ :: _ => .error .malformed
  | stack, .colon, .colon :: rest => pass stack .value rest
  | _, .colon, _ :: _ => .error .malformed
  | stack, .firstName, token :: rest | stack, .name, token :: rest =>
    match passedName token with
    | .ok _ => pass stack .colon rest
    | .error fault => .error fault
  | stack, .value, token :: rest | stack, .firstItem, token :: rest =>
    match passed token with
    | .error fault => .error fault
    | .ok _ =>
      match stack with
      | [] => .ok rest
      | outer => pass outer .more rest

def skip (tokens : List Token) : Except Fault (List Token) := pass [] .value tokens

end Synod.Json
