import Synod.Json.Token

/-! Reading tokens off JSON text. The scanner looks at one byte at a time and keeps in its `Mode`
what it has seen of the current token; `scan` folds it over the text. Tokens are found one after
another whatever the text means, so a reader that stops early never depends on what follows. -/

namespace Synod.Json

inductive NumberStage where
  | sign
  | zero
  | whole
  | point
  | fraction
  | mark
  | markSign
  | power
deriving DecidableEq, Repr

namespace NumberStage

/-- The stage after one more byte, if the byte belongs to the number. -/
def next (stage : NumberStage) (byte : UInt8) : Option NumberStage :=
  let digit := 48 ≤ byte && byte ≤ 57
  let point := byte = 46
  let mark := byte = 101 || byte = 69
  match stage with
  | sign => if byte = 48 then some zero else if digit then some whole else none
  | zero => if point then some .point else if mark then some .mark else none
  | whole => if digit then some whole else if point then some .point else if mark then some .mark else none
  | .point => if digit then some fraction else none
  | fraction => if digit then some fraction else if mark then some .mark else none
  | .mark => if digit then some power else if byte = 43 || byte = 45 then some markSign else none
  | markSign => if digit then some power else none
  | power => if digit then some power else none

/-- Whether a number may end here before `byte`. No digit follows a leading zero. -/
def endsBefore (stage : NumberStage) (byte : UInt8) : Bool :=
  match stage with
  | zero => !(48 ≤ byte && byte ≤ 57)
  | whole | fraction | power => true
  | _ => false

/-- Whether a number may end here with the text. -/
def complete : NumberStage → Bool
  | zero | whole | fraction | power => true
  | _ => false

end NumberStage

/-- What an escape in a string waits for. A pair of escapes may name one character, so the second
one remembers the first half. -/
inductive EscapeStage where
  | none
  | letter
  | hex (left : Nat) (code : Nat) (valid : Bool) (half : Option Nat)
  | pairStart (half : Nat)
  | pairLetter (half : Nat)
deriving DecidableEq, Repr

inductive Mode where
  | between
  /-- In a word, with the bytes that must follow. -/
  | word (left : List UInt8) (token : Token)
  /-- In a number, with its bytes so far, last byte first. -/
  | number (stage : NumberStage) (bytes : List UInt8)
  /-- In a string, with its content so far, last byte first, and whether the content is still text. -/
  | string (bytes : List UInt8) (stage : EscapeStage) (sound : Bool)
  | stopped
deriving Repr

def numberToken (reversed : List UInt8) : Token :=
  .number (Number.Parts.ofBytes reversed.reverse).value?

def stringToken (reversed : List UInt8) (sound : Bool) : Token :=
  .string (if sound then String.fromUTF8? ⟨reversed.reverse.toArray⟩ else none)

def isBlank (byte : UInt8) : Bool := byte = 32 || byte = 10 || byte = 13 || byte = 9

def hexValue? (byte : UInt8) : Option Nat :=
  if 48 ≤ byte && byte ≤ 57 then some (byte.toNat - 48)
  else if 97 ≤ byte && byte ≤ 102 then some (byte.toNat - 87)
  else if 65 ≤ byte && byte ≤ 70 then some (byte.toNat - 55)
  else none

def letterValue? (byte : UInt8) : Option UInt8 :=
  if byte = 34 || byte = 92 || byte = 47 then some byte
  else if byte = 98 then some 8
  else if byte = 102 then some 12
  else if byte = 110 then some 10
  else if byte = 114 then some 13
  else if byte = 116 then some 9
  else none

def pushCode (code : Nat) (bytes : List UInt8) : List UInt8 :=
  (String.utf8EncodeChar (Char.ofNat code)).reverse ++ bytes

/-- What a code of four digits does to a string. Codes from `D800` up to `DFFF` are halves of pairs. -/
def closeCode (code : Nat) (half : Option Nat) (bytes : List UInt8) (sound : Bool) : Mode :=
  match half with
  | some first =>
    if 0xDC00 ≤ code ∧ code ≤ 0xDFFF then
      .string (pushCode (0x10000 + (first - 0xD800) * 1024 + (code - 0xDC00)) bytes) .none sound
    else .string bytes .none false
  | none =>
    if 0xDC00 ≤ code ∧ code ≤ 0xDFFF then .string bytes .none false
    else if 0xD800 ≤ code ∧ code ≤ 0xDBFF then .string bytes (.pairStart code) sound
    else .string (pushCode code bytes) .none sound

/-- A string that no reader can get past. -/
def refuseString : Mode × List Token := (.stopped, [.brokenString .malformed .malformed])

def plainByte (bytes : List UInt8) (sound : Bool) (byte : UInt8) : Mode × List Token :=
  if byte = 34 then (.between, [stringToken bytes sound])
  else if byte = 92 then (.string bytes .letter sound, [])
  else if byte < 32 then refuseString
  else (.string (byte :: bytes) .none sound, [])

def letterByte (bytes : List UInt8) (sound : Bool) (byte : UInt8) : Mode × List Token :=
  if byte = 117 then (.string bytes (.hex 4 0 true none) sound, [])
  else match letterValue? byte with
    | some value => (.string (value :: bytes) .none sound, [])
    | none => refuseString

def stringByte (bytes : List UInt8) (sound : Bool) (byte : UInt8) : EscapeStage → Mode × List Token
  | .none => plainByte bytes sound byte
  | .letter => letterByte bytes sound byte
  | .hex left code valid half =>
    let value := hexValue? byte
    let valid := valid && value.isSome
    let code := code * 16 + value.getD 0
    if 1 < left then (.string bytes (.hex (left - 1) code valid half) sound, [])
    else if valid then (closeCode code half bytes sound, [])
    else refuseString
  | .pairStart half =>
    if byte = 92 then (.string bytes (.pairLetter half) sound, []) else plainByte bytes false byte
  | .pairLetter half =>
    if byte = 117 then (.string bytes (.hex 4 0 true (some half)) sound, []) else letterByte bytes false byte

def startByte (byte : UInt8) : Mode × List Token :=
  if isBlank byte then (.between, [])
  else if byte = 123 then (.between, [.openObject])
  else if byte = 125 then (.between, [.closeObject])
  else if byte = 91 then (.between, [.openArray])
  else if byte = 93 then (.between, [.closeArray])
  else if byte = 58 then (.between, [.colon])
  else if byte = 44 then (.between, [.comma])
  else if byte = 34 then (.string [] .none true, [])
  else if byte = 110 then (.word [117, 108, 108] .null, [])
  else if byte = 116 then (.word [114, 117, 101] (.bool true), [])
  else if byte = 102 then (.word [97, 108, 115, 101] (.bool false), [])
  else if byte = 45 then (.number .sign [45], [])
  else if byte = 48 then (.number .zero [48], [])
  else if 49 ≤ byte && byte ≤ 57 then (.number .whole [byte], [])
  else (.stopped, [.broken .malformed .malformed])

/-- One byte of text: the mode after it and the tokens that it ends, first token first. -/
def Mode.step (mode : Mode) (byte : UInt8) : Mode × List Token :=
  match mode with
  | between => startByte byte
  | word [] token =>
    let (mode, tokens) := startByte byte
    (mode, token :: tokens)
  | word (expected :: left) token =>
    if byte ≠ expected then (stopped, [.broken .malformed .malformed])
    else if left.isEmpty then (between, [token])
    else (word left token, [])
  | number stage bytes =>
    match stage.next byte with
    | some stage => (number stage (byte :: bytes), [])
    | none =>
      if stage.endsBefore byte then
        let (mode, tokens) := startByte byte
        (mode, numberToken bytes :: tokens)
      else (stopped, [.broken .malformed .malformed])
  | string bytes stage sound => stringByte bytes sound byte stage
  | stopped => (stopped, [])

def Mode.finish : Mode → List Token
  | between | stopped => []
  | word [] token => [token]
  | word _ _ => [.broken .truncated .truncated]
  | number stage bytes => if stage.complete then [numberToken bytes] else [.broken .truncated .malformed]
  | string _ _ sound => [.brokenString (if sound then .truncated else .malformed) .truncated]

/-- Scan on from a mode, with the tokens so far, last token first. -/
def scanFrom (mode : Mode) (found : List Token) : List UInt8 → List Token
  | [] => found.reverse ++ mode.finish
  | byte :: rest =>
    let (mode, tokens) := mode.step byte
    scanFrom mode (tokens.reverse ++ found) rest

def scan (text : List UInt8) : List Token := scanFrom .between [] text

end Synod.Json
