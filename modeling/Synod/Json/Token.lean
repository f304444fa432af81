import Synod.Json.Number

/-! The tokens of JSON text. A token stands for a piece of text that a reader can either take or
pass over; where the two differ, as with strings whose escapes name no character, the token
remembers it. `Json.tokens` spells a value out, and `Json.bytes` is its compact text. -/

namespace Synod.Json

inductive Token where
  | openObject
  | closeObject
  | openArray
  | closeArray
  | colon
  | comma
  | null
  | bool (value : Bool)
  /-- A number; none if it is beyond the range of binary fractions. -/
  | number (value : Option Number)
  /-- A closed string; none if its content is not text, which matters only to those who read it. -/
  | string (value : Option String)
  /-- Text that begins no value or a word or number that breaks off. The first fault is met by those
  who read the token, the second by those who pass over it. Nothing follows. -/
  | broken (read skipped : Fault)
  /-- A string that breaks off, with the faults as in `broken`. -/
  | brokenString (read skipped : Fault)
deriving Repr, Inhabited

def hexDigit (n : UInt8) : UInt8 := if n < 10 then 48 + n else 87 + n

/-- How one byte of a string is written. Only quotes, backslashes and control characters change. -/
def escape (byte : UInt8) : List UInt8 :=
  if byte = 34 then [92, 34]
  else if byte = 92 then [92, 92]
  else if 32 ≤ byte then [byte]
  else if byte = 8 then [92, 98]
  else if byte = 12 then [92, 102]
  else if byte = 10 then [92, 110]
  else if byte = 13 then [92, 114]
  else if byte = 9 then [92, 116]
  else [92, 117, 48, 48, hexDigit (byte >>> 4), hexDigit (byte &&& 15)]

def bytesOf (text : String) : List UInt8 := text.toByteArray.data.toList

def quoted (text : String) : List UInt8 := 34 :: ((bytesOf text).flatMap escape ++ [34])

/-- The text of a token. Tokens that hold no value have none. -/
def Token.bytes : Token → List UInt8
  | openObject => [123]
  | closeObject => [125]
  | openArray => [91]
  | closeArray => [93]
  | colon => [58]
  | comma => [44]
  | null => [110, 117, 108, 108]
  | bool true => [116, 114, 117, 101]
  | bool false => [102, 97, 108, 115, 101]
  | number (some value) => value.bytes
  | string (some value) => quoted value
  | number none | string none | broken .. | brokenString .. => []

mutual

/-- Put the tokens of a value before those that follow, last token first. -/
def pushTokens : Json → List Token → List Token
  | .null, acc => .null :: acc
  | .bool value, acc => .bool value :: acc
  | .number value, acc => .number (some value) :: acc
  | .string value, acc => .string (some value) :: acc
  | .array items, acc => .closeArray :: pushItems items true (.openArray :: acc)
  | .object members, acc => .closeObject :: pushMembers members true (.openObject :: acc)

def pushItems : List Json → Bool → List Token → List Token
  | [], _, acc => acc
  | item :: rest, true, acc => pushItems rest false (pushTokens item acc)
  | item :: rest, false, acc => pushItems rest false (pushTokens item (.comma :: acc))

def pushMembers : List (String × Json) → Bool → List Token → List Token
  | [], _, acc => acc
  | (name, value) :: rest, true, acc =>
    pushMembers rest false (pushTokens value (.colon :: .string (some name) :: acc))
  | (name, value) :: rest, false, acc =>
    pushMembers rest false (pushTokens value (.colon :: .string (some name) :: .comma :: acc))

end

def tokens (json : Json) : List Token := (pushTokens json []).reverse

def bytes (json : Json) : List UInt8 := json.tokens.flatMap Token.bytes

end Synod.Json
