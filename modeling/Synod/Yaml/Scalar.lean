import Synod.Yaml.Cursor

/-! Scalars in their four spellings: plain, in single quotes, in double quotes, and as indented blocks.
All fold line breaks alike: one break between words is a space, and of more the first is dropped. -/

namespace Synod.Yaml

structure Gap where
  /-- Blanks before the first break, last one first. -/
  blanks : List Char
  breaks : Nat
  /-- Whether an escaped break came first, which leaves no space behind. -/
  escaped : Bool
deriving Repr

namespace Gap

def empty : Gap := ⟨[], 0, false⟩

def isBroken (g : Gap) : Bool := g.escaped || 0 < g.breaks

/-- What a gap leaves of itself, last character first. -/
def fold (g : Gap) : List Char :=
  if g.escaped then .replicate g.breaks '\n'
  else
    match g.breaks with
    | 0 => g.blanks
    | 1 => [' ']
    | more + 2 => .replicate (more + 1) '\n'

/-- Read space. Where an indentation is given, no tab may stand before it in a new line. -/
def read (indent : Option Int) : Nat → Gap → Cursor → Result (Gap × Cursor)
  | 0, g, c => .ok (g, c)
  | fuel + 1, g, c =>
    if isBlank c.peek then
      let misplaced := g.isBroken && c.peek = '\t' && (indent.map fun least => decide ((c.column : Int) < least)).getD false
      if misplaced then refuse "a tab stands where indentation is expected"
      else read indent fuel (if g.isBroken then g else { g with blanks := c.peek :: g.blanks }) c.next
    else if isBreak c.peek then read indent fuel { g with breaks := g.breaks + 1 } c.skipBreak
    else .ok (g, c)

end Gap

/-! Plain scalars. -/

def endsPlain (inFlow : Bool) (here after : Char) : Bool :=
  isGap here || (here = ':' && (isGap after || (inFlow && isFlowMark after))) || (inFlow && isFlowMark here)

def plainWord (inFlow : Bool) : List Char → Nat
  | [] => 0
  | here :: rest => if endsPlain inFlow here (rest.headD '\x00') then 0 else plainWord inFlow rest + 1

/-- Read on in a plain scalar, with its text so far, last character first, and the space before the next
word. Also tells whether the scalar was left on a line of which it has no part. -/
def readPlain (inFlow : Bool) (indent : Int) : Nat → List Char → Gap → Cursor → Result (List Char × Bool × Cursor)
  | 0, text, g, c => .ok (text, g.isBroken, c)
  | fuel + 1, text, g, c =>
    if c.atDocument || c.peek = '#' then .ok (text, g.isBroken, c)
    else
      let length := plainWord inFlow c.rest
      let text := if length = 0 then text else (c.rest.take length).reverse ++ g.fold ++ text
      let g := if length = 0 then g else .empty
      let c := c.skip length
      if isBlank c.peek || isBreak c.peek then do
        let (g, c) ← g.read (some indent) (c.rest.length + 1) c
        if !inFlow && (c.column : Int) < indent then .ok (text, g.isBroken, c)
        else readPlain inFlow indent fuel text g c
      else .ok (text, g.isBroken, c)

/-! Quoted scalars. -/

def escaped? : Char → Option Char
  | '0' => some '\x00'
  | 'a' => some '\x07'
  | 'b' => some '\x08'
  | 't' | '\t' => some '\t'
  | 'n' => some '\n'
  | 'v' => some '\x0b'
  | 'f' => some '\x0c'
  | 'r' => some '\r'
  | 'e' => some '\x1b'
  | ' ' => some ' '
  | '"' => some '"'
  | '\'' => some '\''
  | '\\' => some '\\'
  | 'N' => some '\u0085'
  | '_' => some '\u00a0'
  | 'L' => some '\u2028'
  | 'P' => some '\u2029'
  | _ => none

def codeLength? : Char → Option Nat
  | 'x' => some 2
  | 'u' => some 4
  | 'U' => some 8
  | _ => none

def hexNumber? (digits : List Char) : Option Nat :=
  digits.foldlM (fun value digit => (hexValue? digit).map (value * 16 + ·)) 0

def charOf? (code : Nat) : Option Char :=
  if code < 0xD800 ∨ 0xDFFF < code ∧ code < 0x110000 then some (Char.ofNat code) else none

def readEscape (c : Cursor) : Result (Char × Cursor) :=
  match escaped? c.peek, codeLength? c.peek with
  | some char, _ => .ok (char, c.next)
  | none, none => refuse "unknown escape character"
  | none, some length =>
    let digits := c.next.rest.take length
    match (if digits.length = length then hexNumber? digits else none).bind charOf? with
    | some char => .ok (char, c.skip (length + 1))
    | none => refuse "an escape names no character"

/-- Read on in a word of a quoted scalar. Tells whether it ended with an escaped break. -/
def readQuotedWord (single : Bool) : Nat → List Char → Cursor → Result (List Char × Bool × Cursor)
  | 0, text, c => .ok (text, false, c)
  | fuel + 1, text, c =>
    if isGap c.peek then .ok (text, false, c)
    else if single then
      if c.peek = '\'' then
        if c.peekAt 1 = '\'' then readQuotedWord single fuel ('\'' :: text) (c.skip 2)
        else .ok (text, false, c)
      else readQuotedWord single fuel (c.peek :: text) c.next
    else if c.peek = '"' then .ok (text, false, c)
    else if c.peek = '\\' then
      if isBreak (c.peekAt 1) then .ok (text, true, c.next.skipBreak)
      else do
        let (char, c) ← readEscape c.next
        readQuotedWord single fuel (char :: text) c
    else readQuotedWord single fuel (c.peek :: text) c.next

/-- Read on in a quoted scalar up to and past its closing quote. -/
def readQuoted (single : Bool) : Nat → List Char → Cursor → Result (List Char × Cursor)
  | 0, _, _ => refuse "a quoted scalar is not closed"
  | fuel + 1, text, c =>
    if c.atDocument then refuse "a document marker stands in a quoted scalar"
    else if isEnd c.peek then refuse "a quoted scalar is not closed"
    else do
      let (text, escaped, c) ← readQuotedWord single (c.rest.length + 1) text c
      if c.peek = (if single then '\'' else '"') then
        return (text, c.next)
      let (g, c) ← { Gap.empty with escaped }.read none (c.rest.length + 1) c
      readQuoted single fuel (g.fold ++ text) c

/-! Block scalars. -/

/-- What becomes of the line breaks at the end of a block. -/
inductive Chomping where
  | strip
  | clip
  | keep
deriving DecidableEq, Repr

/-- Read the chomping and the indentation that a block announces, in either order. -/
def blockHeader (c : Cursor) : Result (Chomping × Option Nat × Cursor) :=
  let chomping? (x : Char) : Option Chomping := if x = '+' then some .keep else if x = '-' then some .strip else none
  let indent (c : Cursor) : Result (Option Nat × Cursor) :=
    if c.peek = '0' then refuse "a block has no indentation"
    else if c.peek.isDigit then .ok (some (c.peek.toNat - 48), c.next)
    else .ok (none, c)
  match chomping? c.peek with
  | some chomping => do
    let (digits, c) ← indent c.next
    return (chomping, digits, c)
  | none => do
    let (digits, c) ← indent c
    match digits, chomping? c.peek with
    | some _, some chomping => return (chomping, digits, c.next)
    | _, _ => return (.clip, digits, c)

/-- Read empty lines and indentation. Where the indentation is not known, gives the deepest one met. -/
def blockBreaks (indent : Option Nat) : Nat → Nat → Nat → Cursor → Result (Nat × Nat × Cursor)
  | 0, breaks, deepest, c => .ok (breaks, deepest, c)
  | fuel + 1, breaks, deepest, c =>
    let spaces := (c.span (· = ' ')).length
    let c := c.skip (match indent with
      | none => spaces
      | some wanted => min spaces (wanted - c.column))
    let deepest := max deepest c.column
    let inMargin := match indent with
      | none => true
      | some wanted => c.column < wanted
    if inMargin && c.peek = '\t' then refuse "a tab stands where indentation is expected"
    else if isBreak c.peek then blockBreaks indent fuel (breaks + 1) deepest c.skipBreak
    else .ok (breaks, deepest, c)

/-- A block that is being read: its text, last character first, the break that ends its last line and
the empty lines after that, and whether its last line begins with a blank. -/
structure BlockText where
  text : List Char
  lineEnded : Bool
  emptyLines : Nat
  indented : Bool

namespace BlockText

/-- The break before a line that is about to be added. -/
def join (b : BlockText) (literal : Bool) (blank : Bool) : List Char :=
  let ending : List Char :=
    if !b.lineEnded then []
    else if !literal && !b.indented && !blank then (if b.emptyLines = 0 then [' '] else [])
    else ['\n']
  .replicate b.emptyLines '\n' ++ ending ++ b.text

def chomp (b : BlockText) (chomping : Chomping) : List Char :=
  let ending : List Char := if b.lineEnded then ['\n'] else []
  match chomping with
  | .strip => b.text
  | .clip => ending ++ b.text
  | .keep => .replicate b.emptyLines '\n' ++ ending ++ b.text

end BlockText

def readBlockLines (literal : Bool) (indent : Nat) : Nat → BlockText → Cursor → Result (BlockText × Cursor)
  | 0, b, c => .ok (b, c)
  | fuel + 1, b, c =>
    if c.column ≠ indent ∨ isEnd c.peek then .ok (b, c)
    else
      let blank := isBlank c.peek
      let line := c.span fun x => !isBreakOrEnd x
      let text := line.reverse ++ b.join literal blank
      let c := c.skip line.length
      if isEnd c.peek then .ok (⟨text, false, 0, blank⟩, c)
      else do
        let (breaks, _, c) ← blockBreaks (some indent) (c.rest.length + 1) 0 0 c.skipBreak
        readBlockLines literal indent fuel ⟨text, true, breaks, blank⟩ c

/-- Read a block scalar after its mark, inside a collection of the given indentation. -/
def readBlock (literal : Bool) (parent : Int) (c : Cursor) : Result (List Char × Cursor) := do
  let (chomping, announced, c) ← blockHeader c
  let c ← c.finishLine "a block does not begin on a new line"
  let known := announced.map fun more => if 0 ≤ parent then parent.toNat + more else more
  let (breaks, deepest, c) ← blockBreaks known (c.rest.length + 1) 0 0 c
  let indent := known.getD (max deepest (max (parent + 1).toNat 1))
  let (b, c) ← readBlockLines literal indent (c.rest.length + 1) ⟨[], false, breaks, false⟩ c
  return (b.chomp chomping, c)

end Synod.Yaml
