import Synod.Yaml.Scalar

/-! Tokens of YAML text. Some are written and some follow from indentation. A key without a mark of its
own is recognised only at its colon, so the scanner remembers where a key may have begun and puts the
tokens for it in afterwards. -/

namespace Synod.Yaml

inductive Token where
  | streamEnd
  | directive
  | documentStart
  | documentEnd
  | blockSequenceStart
  | blockMappingStart
  | blockEnd
  | flowSequenceStart
  | flowSequenceEnd
  | flowMappingStart
  | flowMappingEnd
  | blockEntry
  | flowEntry
  | key
  | value
  | anchor (name : String)
  | reference (name : String)
  | tag (handle suffix : String)
  | scalar (plain : Bool) (text : String)
deriving DecidableEq, Repr, Inhabited

/-- A place where a key may have begun. -/
structure KeyStart where
  possible : Bool
  /-- Whether anything but a key would break the indentation here. -/
  required : Bool
  /-- The number of tokens before the key. -/
  token : Nat
  index : Nat
  line : Nat
  column : Nat
deriving Repr

namespace KeyStart

def none : KeyStart := ⟨false, false, 0, 0, 0, 0⟩

/-- The farthest that a key may be from its colon. -/
def reach : Nat := 1024

end KeyStart

structure Scanner where
  cursor : Cursor
  tokens : Array Token
  keyAllowed : Bool
  /-- A possible key for each open flow collection, innermost first, and one for the blocks around them. -/
  keys : List KeyStart
  /-- The indentation of the innermost block, and those of the blocks around it. -/
  indent : Int
  indents : List Int
  /-- Where a colon may follow a quoted key at once. -/
  adjacent : Nat
deriving Repr

namespace Scanner

def ofText (text : String) : Scanner := ⟨.ofText text, #[], true, [.none], -1, [], 0⟩

def flowDepth (s : Scanner) : Nat := s.keys.length - 1

def inFlow (s : Scanner) : Bool := 0 < s.flowDepth

/-- The most flow collections that may be open at once. -/
def flowLimit : Nat := 255

def emit (s : Scanner) (token : Token) : Scanner := { s with tokens := s.tokens.push token }

def allowKey (s : Scanner) (keyAllowed : Bool) : Scanner := { s with keyAllowed }

def takeMark (s : Scanner) (length : Nat) (token : Token) : Scanner :=
  { s with cursor := s.cursor.skip length, tokens := s.tokens.push token }

/-- Open a block at a column if it is deeper than the present one. Its token goes in at a place among
the tokens. -/
def openBlock (s : Scanner) (column place : Nat) (token : Token) : Scanner :=
  if s.inFlow || (column : Int) ≤ s.indent then s
  else
    { s with
      indent := column
      indents := s.indent :: s.indents
      tokens := s.tokens.insertIdxIfInBounds place token }

def closeBlocks (s : Scanner) (column : Int) : Scanner :=
  if s.inFlow then s
  else
    let inner := (s.indent :: s.indents).takeWhile (column < ·)
    let outer := (s.indent :: s.indents).dropWhile (column < ·)
    { s with
      tokens := s.tokens ++ Array.replicate inner.length Token.blockEnd
      indent := outer.headD (-1)
      indents := outer.tail }

def dropKey (s : Scanner) : Result Scanner :=
  match s.keys with
  | [] => .ok s
  | key :: outer =>
    if key.possible && key.required then refuse "a key is expected"
    else .ok { s with keys := { key with possible := false } :: outer }

def noteKey (s : Scanner) : Result Scanner :=
  if s.keyAllowed then do
    let s ← s.dropKey
    let c := s.cursor
    let key : KeyStart := ⟨true, s.inFlow && s.indent = c.column, s.tokens.size, c.index, c.line, c.column⟩
    return { s with keys := key :: s.keys.tail }
  else .ok s

/-- Give up keys that are too long, or not on one line. -/
def expireKeys (s : Scanner) : Result Scanner := do
  let keys ← s.keys.mapM fun key =>
    if key.possible && (key.line < s.cursor.line || key.index + KeyStart.reach < s.cursor.index) then
      if key.required then refuse "a key has no colon" else .ok { key with possible := false }
    else .ok key
  return { s with keys }

def skipSpace (s : Scanner) : Nat → Scanner
  | 0 => s
  | fuel + 1 =>
    let c := s.cursor
    if c.peek = ' ' || (c.peek = '\t' && (s.inFlow || !s.keyAllowed)) then
      skipSpace { s with cursor := c.next } fuel
    else if isBreak c.peek then
      skipSpace { s with cursor := c.skipBreak, keyAllowed := s.keyAllowed || !s.inFlow } fuel
    else if c.peek = '#' then
      skipSpace { s with cursor := c.skipWhile fun x => !isBreakOrEnd x } fuel
    else s

/-! Directives and tags. -/

def versionNumber (c : Cursor) : Result Cursor :=
  let length := (c.span Char.isDigit).length
  if length = 0 then refuse "a version lacks a number"
  else if 9 < length then refuse "a version is too long"
  else .ok (c.skip length)

/-- The octets of an escaped character in a tag, read as one number. -/
def uriOctets : Nat → Nat → Cursor → Result (Nat × Cursor)
  | 0, code, c => .ok (code, c)
  | left + 1, code, c =>
    match hexValue? (c.peekAt 1), hexValue? (c.peekAt 2) with
    | some high, some low =>
      let octet := high * 16 + low
      if c.peek ≠ '%' then refuse "a tag lacks an octet"
      else if octet / 64 ≠ 2 then refuse "a tag has a wrong octet"
      else uriOctets left (code * 256 + octet) (c.skip 3)
    | _, _ => refuse "a tag lacks an octet"

def uriEscape (c : Cursor) : Result (Char × Cursor) :=
  match hexValue? (c.peekAt 1), hexValue? (c.peekAt 2) with
  | some high, some low => do
    let octet := high * 16 + low
    let more ←
      if octet < 128 then .ok 0
      else if octet / 32 = 6 then .ok 1
      else if octet / 16 = 14 then .ok 2
      else if octet / 8 = 30 then .ok 3
      else refuse "a tag has a wrong octet"
    let (code, c) ← uriOctets more octet (c.skip 3)
    match charOf? code with
    | some char => .ok (char, c)
    | none => refuse "a tag escape names no character"
  | _, _ => refuse "a tag lacks an octet"

def isUriChar (c : Char) : Bool := isNameChar c || ";/?:@&=+$,.!~*'()[]%".contains c

/-- Read the rest of a tag, last character first. -/
def uriRest : Nat → List Char → Cursor → Result (List Char × Cursor)
  | 0, text, c => .ok (text, c)
  | fuel + 1, text, c =>
    if c.peek = '%' then do
      let (char, c) ← uriEscape c
      uriRest fuel (char :: text) c
    else if isUriChar c.peek then uriRest fuel (c.peek :: text) c.next
    else .ok (text, c)

/-- Read a tag that may begin with a head read before, whose mark is left out. -/
def uri (head : List Char) (c : Cursor) : Result (String × Cursor) := do
  let (text, after) ← uriRest (c.rest.length + 1) (head.drop 1).reverse c
  if head.isEmpty && after.index = c.index then refuse "a tag is empty"
  else .ok (String.ofList text.reverse, after)

/-- Read a handle with its marks. In a directive the second mark must not lack, unless there is no name. -/
def tagHandle (inDirective : Bool) (c : Cursor) : Result (List Char × Cursor) :=
  if c.peek ≠ '!' then refuse "a tag begins with no mark"
  else
    let name := c.next.span isNameChar
    let c := c.skip (name.length + 1)
    if c.peek = '!' then .ok ('!' :: name ++ ['!'], c.next)
    else if inDirective && !name.isEmpty then refuse "a tag handle has no second mark"
    else .ok ('!' :: name, c)

/-- Read a tag up to its end: one in angle brackets, one with a handle, or one that begins with a lone mark. -/
def tagText (c : Cursor) : Result (Token × Cursor) :=
  if c.peekAt 1 = '<' then do
    let (suffix, c) ← uri [] (c.skip 2)
    if c.peek = '>' then .ok (.tag "" suffix, c.next) else refuse "a tag is not closed"
  else do
    let (handle, c) ← tagHandle false c
    if 2 ≤ handle.length && handle.getLast? = some '!' then
      let (suffix, c) ← uri [] c
      return (.tag (String.ofList handle) suffix, c)
    else
      let (suffix, c) ← uri handle c
      return (if suffix.isEmpty then .tag "" "!" else .tag "!" suffix, c)

def readTag (c : Cursor) : Result (Token × Cursor) := do
  let (token, c) ← tagText c
  if isGap c.peek then .ok (token, c) else refuse "a tag runs into other text"

/-- Read a directive. Directives are checked, and change nothing. -/
def readDirective (c : Cursor) : Result Cursor := do
  let name := c.next.span isNameChar
  let c := c.skip (name.length + 1)
  if name.isEmpty then refuse "a directive has no name"
  else if !isGap c.peek then refuse "the name of a directive runs into other text"
  else
    let c ←
      if name = "YAML".toList then do
        let c ← versionNumber (c.skipWhile isBlank)
        if c.peek = '.' then versionNumber c.next else refuse "a version lacks a point"
      else if name = "TAG".toList then do
        let (_, c) ← tagHandle true (c.skipWhile isBlank)
        let (_, c) ← uri [] (c.skipWhile isBlank)
        if isGap c.peek then .ok c else refuse "a tag runs into other text"
      else .ok (c.skipWhile fun x => !isBreakOrEnd x)
    c.finishLine "a directive runs into other text"

def readName (c : Cursor) : Result (String × Cursor) :=
  let name := c.next.span isNameChar
  let c := c.skip (name.length + 1)
  if name.isEmpty || !(isGap c.peek || "?:,]\x7d%@`".contains c.peek) then refuse "an anchor has no proper name"
  else .ok (String.ofList name, c)

/-! One token after another. -/

/-- The end of the text, which also ends its last line. -/
def fetchEnd (s : Scanner) : Result Scanner := do
  let s ← (s.closeBlocks (-1)).dropKey
  return (s.allowKey false).emit .streamEnd

/-- A line of its own, outside all blocks. -/
def fetchAtMargin (s : Scanner) (take : Scanner → Result Scanner) : Result Scanner := do
  let s ← (s.closeBlocks (-1)).dropKey
  take (s.allowKey false)

def fetchFlowStart (s : Scanner) (token : Token) : Result Scanner := do
  let s ← s.noteKey
  if s.flowDepth < flowLimit then .ok (({ s with keys := .none :: s.keys }.allowKey true).takeMark 1 token)
  else refuse "too many collections inside each other"

def fetchFlowEnd (s : Scanner) (token : Token) : Result Scanner := do
  let s ← s.dropKey
  let s := if s.inFlow then { s with keys := s.keys.tail } else s
  return (s.allowKey false).takeMark 1 token

def fetchFlowEntry (s : Scanner) : Result Scanner := do
  let s ← s.dropKey
  return (s.allowKey true).takeMark 1 .flowEntry

def fetchBlockEntry (s : Scanner) : Result Scanner := do
  if s.inFlow then refuse "a block entry stands in a flow collection"
  else if !s.keyAllowed then refuse "a block entry is not allowed here"
  else
    let s ← (s.openBlock s.cursor.column s.tokens.size .blockSequenceStart).dropKey
    return (s.allowKey true).takeMark 1 .blockEntry

def fetchKey (s : Scanner) : Result Scanner := do
  if !s.inFlow && !s.keyAllowed then refuse "a key is not allowed here"
  else
    let s ← (s.openBlock s.cursor.column s.tokens.size .blockMappingStart).dropKey
    return (s.allowKey (!s.inFlow)).takeMark 1 .key

def fetchValue (s : Scanner) : Result Scanner :=
  match s.keys with
  | key :: outer =>
    if key.possible then
      let s := { s with
        tokens := s.tokens.insertIdxIfInBounds key.token .key
        keys := { key with possible := false } :: outer }
      .ok (((s.openBlock key.column key.token .blockMappingStart).allowKey false).takeMark 1 .value)
    else if !s.inFlow && !s.keyAllowed then refuse "a value is not allowed here"
    else
      .ok (((s.openBlock s.cursor.column s.tokens.size .blockMappingStart).allowKey (!s.inFlow)).takeMark 1 .value)
  | [] => refuse "a value is not allowed here"

/-- A token that may begin a key, after which none may begin at once. -/
def fetchKeyLike (s : Scanner) (read : Cursor → Result (Token × Cursor)) : Result Scanner := do
  let s ← s.noteKey
  let (token, cursor) ← read s.cursor
  return ({ s with cursor }.allowKey false).emit token

def fetchBlockScalar (s : Scanner) (literal : Bool) : Result Scanner := do
  let s ← s.noteKey
  let (text, cursor) ← readBlock literal s.indent s.cursor.next
  return ({ s with cursor }.allowKey true).emit (.scalar false (String.ofList text.reverse))

def fetchQuoted (s : Scanner) (single : Bool) : Result Scanner := do
  let s ← s.noteKey
  let (text, cursor) ← readQuoted single (s.cursor.rest.length + 1) [] s.cursor.next
  return ({ s with cursor, adjacent := cursor.index }.allowKey false).emit (.scalar false (String.ofList text.reverse))

def fetchPlain (s : Scanner) : Result Scanner := do
  let s ← s.noteKey
  let (text, broken, cursor) ← readPlain s.inFlow (s.indent + 1) (s.cursor.rest.length + 1) [] .empty s.cursor
  return ({ s with cursor }.allowKey broken).emit (.scalar true (String.ofList text.reverse))

def fetchHere (s : Scanner) : Result Scanner :=
  let c := s.cursor
  let here := c.peek
  let after := c.peekAt 1
  if c.column = 0 && here = '%' then
    s.fetchAtMargin fun s => do
      let cursor ← readDirective s.cursor
      return { s with cursor }.emit .directive
  else if c.atMarker '-' then s.fetchAtMargin fun s => .ok (s.takeMark 3 .documentStart)
  else if c.atMarker '.' then s.fetchAtMargin fun s => .ok (s.takeMark 3 .documentEnd)
  else if here = '[' then s.fetchFlowStart .flowSequenceStart
  else if here = '{' then s.fetchFlowStart .flowMappingStart
  else if here = ']' then s.fetchFlowEnd .flowSequenceEnd
  else if here = '}' then s.fetchFlowEnd .flowMappingEnd
  else if here = ',' then s.fetchFlowEntry
  else if here = '-' && isGap after then s.fetchBlockEntry
  else if here = '?' && isGap after then s.fetchKey
  else if here = ':' && (isGap after || (s.inFlow && (isFlowMark after || c.index = s.adjacent))) then s.fetchValue
  else if here = '*' then
    s.fetchKeyLike fun c => do
      let (name, c) ← readName c
      return (.reference name, c)
  else if here = '&' then
    s.fetchKeyLike fun c => do
      let (name, c) ← readName c
      return (.anchor name, c)
  else if here = '!' then s.fetchKeyLike readTag
  else if here = '|' && !s.inFlow then s.fetchBlockScalar true
  else if here = '>' && !s.inFlow then s.fetchBlockScalar false
  else if here = '\'' then s.fetchQuoted true
  else if here = '"' then s.fetchQuoted false
  else if here = '%' || here = '@' || here = '`' then refuse "a character is reserved"
  else s.fetchPlain

/-- Take tokens up to the end of the text. Each takes at least one character. -/
def run : Nat → Scanner → Result (Array Token)
  | 0, s => .ok s.tokens
  | fuel + 1, s => do
    let s ← (s.skipSpace (s.cursor.rest.length + 1)).expireKeys
    let s := s.closeBlocks s.cursor.column
    if isEnd s.cursor.peek then
      let s ← s.fetchEnd
      return s.tokens
    else
      let s ← s.fetchHere
      run fuel s

end Scanner

def Token.scan (text : String) : Result (List Token) := do
  let s := Scanner.ofText text
  let tokens ← s.run (s.cursor.rest.length + 1)
  return tokens.toList

end Synod.Yaml
