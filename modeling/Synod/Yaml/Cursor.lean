/-! A place in a YAML text. The cursor counts lines and columns, because indentation carries structure.
Past the end every character reads as NUL, and a NUL in the text ends it. -/

namespace Synod.Yaml

structure Error where
  reason : String
deriving DecidableEq, Repr

abbrev Result := Except Error

def refuse {α : Type} (reason : String) : Result α := .error ⟨reason⟩

/-! Classes of characters. -/

def isEnd (c : Char) : Bool := c = '\x00'

def isBreak (c : Char) : Bool := c = '\n' || c = '\r'

def isBreakOrEnd (c : Char) : Bool := isBreak c || isEnd c

def isBlank (c : Char) : Bool := c = ' ' || c = '\t'

def isGap (c : Char) : Bool := isBlank c || isBreakOrEnd c

/-- Characters of names: ASCII letters and digits, the underscore and the hyphen. -/
def isNameChar (c : Char) : Bool := c.isAlphanum || c = '_' || c = '-'

/-- Characters that structure flow collections. -/
def isFlowMark (c : Char) : Bool := c = ',' || c = '[' || c = ']' || c = '{' || c = '}'

def hexValue? (c : Char) : Option Nat :=
  if c.isDigit then some (c.toNat - 48)
  else if 'a' ≤ c ∧ c ≤ 'f' then some (c.toNat - 87)
  else if 'A' ≤ c ∧ c ≤ 'F' then some (c.toNat - 55)
  else none

/-- What is left of a text, and how far in it begins. -/
structure Cursor where
  rest : List Char
  index : Nat
  line : Nat
  column : Nat
deriving Repr

namespace Cursor

def ofText (text : String) : Cursor := ⟨text.toList, 0, 0, 0⟩

def peek (c : Cursor) : Char := c.rest.headD '\x00'

def peekAt (c : Cursor) (offset : Nat) : Char := c.rest.getD offset '\x00'

/-- Go past one character. Only a line feed begins a new line. -/
def next (c : Cursor) : Cursor :=
  if c.peek = '\n' then ⟨c.rest.tail, c.index + 1, c.line + 1, 0⟩
  else ⟨c.rest.tail, c.index + 1, c.line, c.column + 1⟩

def skip (c : Cursor) : Nat → Cursor
  | 0 => c
  | count + 1 => c.next.skip count

def skipBreak (c : Cursor) : Cursor :=
  if c.peek = '\r' && c.peekAt 1 = '\n' then c.skip 2
  else if isBreak c.peek then c.next
  else c

def span (c : Cursor) (test : Char → Bool) : List Char := c.rest.takeWhile test

def skipWhile (c : Cursor) (test : Char → Bool) : Cursor := c.skip (c.span test).length

def atMarker (c : Cursor) (mark : Char) : Bool :=
  c.column = 0 && c.peek = mark && c.peekAt 1 = mark && c.peekAt 2 = mark && isGap (c.peekAt 3)

/-- Whether a marker stands here that begins or ends a document. -/
def atDocument (c : Cursor) : Bool := c.atMarker '-' || c.atMarker '.'

/-- Go to the end of a line on which nothing but a comment may follow, and past its break. -/
def finishLine (c : Cursor) (reason : String) : Result Cursor :=
  let c := c.skipWhile isBlank
  let c := if c.peek = '#' then c.skipWhile fun x => !isBreakOrEnd x else c
  if isBreakOrEnd c.peek then .ok c.skipBreak else refuse reason

end Cursor

end Synod.Yaml
