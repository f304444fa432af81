import Synod.Yaml.Token

/-! Documents of YAML text. A node is read from the tokens by descending into it; names of anchors are
noted where they are written, and what they stand for once the node is complete. -/

namespace Synod.Yaml

/-- A number, a text or another thing that a document holds. A bad node is one that cannot stand for
anything: a scalar that belies its tag, or a reference from inside the node that it names. -/
inductive Node where
  | null
  | bool (value : Bool)
  | integer (value : Int)
  | real (text : String)
  | string (text : String)
  | sequence (items : List Node)
  | mapping (entries : List (Node × Node))
  | bad
deriving Repr, Inhabited

/-! What plain scalars stand for. -/

/-- The digits of a number after an optional sign. -/
private def splitSign (text : List Char) : Bool × List Char :=
  match text with
  | '-' :: rest => (true, rest)
  | '+' :: rest => (false, rest)
  | _ => (false, text)

/-- A whole number in some base that fits a signed word of 64 bits. -/
def wholeNumber? (base : Nat) (text : List Char) : Option Int :=
  let (negative, digits) := splitSign text
  let digit? (c : Char) : Option Nat := (hexValue? c).bind fun value => if value < base then some value else none
  if digits.isEmpty then none
  else
    (digits.foldlM (fun value c => (digit? c).map (value * base + ·)) 0).bind fun size =>
      let value : Int := if negative then -size else size
      if -0x8000000000000000 ≤ value ∧ value < 0x8000000000000000 then some value else none

/-- Whether digits around an optional point follow, with at least one digit among them, and then an
optional exponent. -/
private def isDecimal (text : List Char) : Bool :=
  let whole := text.takeWhile Char.isDigit
  let rest := text.dropWhile Char.isDigit
  let fraction := if rest.head? = some '.' then rest.tail.takeWhile Char.isDigit else []
  let tail := if rest.head? = some '.' then rest.tail.dropWhile Char.isDigit else rest
  let exponent := match tail with
    | [] => true
    | mark :: power =>
      let digits := (splitSign power).2
      (mark = 'e' || mark = 'E') && !digits.isEmpty && digits.all Char.isDigit
  !(whole.isEmpty && fraction.isEmpty) && exponent

/-- Whether a text spells a real number: digits with a point or an exponent, infinity, or no number. -/
def isReal (text : String) : Bool :=
  let infinities := [".inf", ".Inf", ".INF"]
  let signless := (splitSign text.toList).2
  let word := String.ofList (signless.map Char.toLower)
  infinities.contains (String.ofList signless) || [".nan", ".NAN"].contains text ||
    ["inf", "infinity", "nan"].contains word || isDecimal signless

namespace Node

/-- What a plain scalar stands for by its looks. -/
def ofPlain (text : String) : Node :=
  let based? (mark : Char) (base : Nat) : Option Int :=
    match text.toList with
    | '0' :: second :: digits => if second = mark then wholeNumber? base digits else none
    | _ => none
  let signed? : Option Int :=
    match text.toList with
    | '+' :: digits => wholeNumber? 10 digits
    | _ => none
  match (based? 'x' 16).or ((based? 'o' 8).or signed?) with
  | some value => integer value
  | none =>
    if text = "~" || text = "null" then null
    else if text = "true" then bool true
    else if text = "false" then bool false
    else
      match wholeNumber? 10 text.toList with
      | some value => integer value
      | none => if isReal text then real text else string text

/-- What a plain scalar stands for under a tag of the standard kind. -/
def ofTagged (kind text : String) : Node :=
  match kind with
  | "bool" => if text = "true" then bool true else if text = "false" then bool false else bad
  | "int" => (wholeNumber? 10 text.toList).elim bad integer
  | "float" => if isReal text then real text else bad
  | "null" => if text = "~" || text = "null" then null else bad
  | _ => string text

/-- What a scalar stands for. Only plain scalars can be more than text. -/
def ofScalar (plain : Bool) (tag : Option (String × String)) (text : String) : Node :=
  if !plain then string text
  else
    match tag with
    | none => ofPlain text
    | some ("!!", kind) => ofTagged kind text
    | some _ => string text

/-- Nothing, where a node might have been written. -/
def omitted : Node := ofPlain "~"

/-- The mapping of keys and values that follow each other. A bad node is no key, and is passed over where
a key is due. -/
def pairUp : List Node → List (Node × Node)
  | [] => []
  | bad :: rest => pairUp rest
  | key :: value :: rest => (key, value) :: pairUp rest
  | [_] => []

/-- The value under a name in a mapping, the last one if the name comes several times. -/
def get (node : Node) (name : String) : Node :=
  let named : Node × Node → Bool
    | (string text, _) => text = name
    | _ => false
  match node with
  | mapping entries => ((entries.reverse.find? named).map (·.2)).getD bad
  | _ => bad

end Node

/-- What is left to read, and the anchors so far. Names lead to numbers, the latest first, and numbers to
the nodes that are complete. -/
structure Reading where
  tokens : List Token
  names : List (String × Nat)
  nodes : List (Nat × Node)
  next : Nat

abbrev Reader := StateT Reading Result

namespace Reader

def fail {α : Type} (reason : String) : Reader α := fun _ => refuse reason

def peek : Reader Token := do
  match (← get).tokens with
  | token :: _ => return token
  | [] => fail "the text ends early"

def drop : Reader Unit := modify fun s => { s with tokens := s.tokens.tail }

def anchor (name : String) : Reader Nat := do
  let s ← get
  set { s with names := (name, s.next) :: s.names, next := s.next + 1 }
  return s.next

/-- Note the node that an anchor stands for. -/
def complete (number : Option Nat) (node : Node) : Reader Node := do
  match number with
  | none => return node
  | some number =>
    modify fun s => { s with nodes := (number, node) :: s.nodes }
    return node

def lookUp (name : String) : Reader Node := do
  let s ← get
  match s.names.lookup name with
  | none => fail "a reference to an unknown anchor"
  | some number => return (s.nodes.lookup number).getD .bad

/-- The anchor and the tag of a node, in either order. -/
def properties : Reader (Option Nat × Option (String × String)) := do
  match ← peek with
  | .anchor name =>
    drop
    let number ← anchor name
    match ← peek with
    | .tag handle suffix =>
      drop
      return (some number, some (handle, suffix))
    | _ => return (some number, none)
  | .tag handle suffix =>
    drop
    match ← peek with
    | .anchor name =>
      drop
      return (some (← anchor name), some (handle, suffix))
    | _ => return (none, some (handle, suffix))
  | _ => return (none, none)

def isNext (tokens : List Token) : Reader Bool := return tokens.contains (← peek)

mutual

/-- Read a node. Outside flow collections it may be a block, and as part of a mapping a sequence that is
not indented further. Every level of the descent takes some fuel. -/
def node (block indentless : Bool) : Nat → Reader Node
  | 0 => fail "the nodes are too deep"
  | fuel + 1 => do
    match ← peek with
    | .reference name =>
      drop
      lookUp name
    | _ =>
      let (number, tag) ← properties
      match ← peek with
      | .blockEntry =>
        if indentless then complete number (.sequence (← looseItems fuel))
        else bare number tag
      | .scalar plain text =>
        drop
        complete number (.ofScalar plain tag text)
      | .flowSequenceStart =>
        drop
        complete number (.sequence (← flowItems true fuel))
      | .flowMappingStart =>
        drop
        complete number (.mapping (Node.pairUp (← flowEntries true fuel)))
      | .blockSequenceStart =>
        if block then
          drop
          complete number (.sequence (← blockItems fuel))
        else bare number tag
      | .blockMappingStart =>
        if block then
          drop
          complete number (.mapping (Node.pairUp (← blockEntries fuel)))
        else bare number tag
      | _ => bare number tag

/-- A node that is nothing but its properties, of which it must have one. -/
def bare (number : Option Nat) (tag : Option (String × String)) : Reader Node :=
  if number.isSome || tag.isSome then complete number (.ofScalar true tag "")
  else fail "a node is expected"

/-- A node, unless one of some tokens shows that it is left out. -/
def nodeBefore (ends : List Token) (block indentless : Bool) : Nat → Reader Node
  | 0 => fail "the nodes are too deep"
  | fuel + 1 => do
    if ← isNext ends then return .omitted
    else node block indentless fuel

def blockItems : Nat → Reader (List Node)
  | 0 => fail "the nodes are too deep"
  | fuel + 1 => do
    match ← peek with
    | .blockEnd =>
      drop
      return []
    | .blockEntry =>
      drop
      let item ← nodeBefore [.blockEntry, .blockEnd] true false fuel
      return item :: (← blockItems fuel)
    | _ => fail "a block entry is expected"

/-- The items of a sequence that is not indented further than the mapping around it. -/
def looseItems : Nat → Reader (List Node)
  | 0 => fail "the nodes are too deep"
  | fuel + 1 => do
    match ← peek with
    | .blockEntry =>
      drop
      let item ← nodeBefore [.blockEntry, .key, .value, .blockEnd] true false fuel
      return item :: (← looseItems fuel)
    | _ => return []

def blockEntries : Nat → Reader (List Node)
  | 0 => fail "the nodes are too deep"
  | fuel + 1 => do
    let ends : List Token := [.key, .value, .blockEnd]
    match ← peek with
    | .blockEnd =>
      drop
      return []
    | .key =>
      drop
      let key ← nodeBefore ends true true fuel
      let value ← valueBefore ends true true fuel
      return key :: value :: (← blockEntries fuel)
    | .value =>
      let value ← valueBefore ends true true fuel
      return .omitted :: value :: (← blockEntries fuel)
    | _ => fail "a key is expected"

/-- The value after a key, if there is one. -/
def valueBefore (ends : List Token) (block indentless : Bool) : Nat → Reader Node
  | 0 => fail "the nodes are too deep"
  | fuel + 1 => do
    match ← peek with
    | .value =>
      drop
      nodeBefore ends block indentless fuel
    | _ => return .omitted

def flowEntries (first : Bool) : Nat → Reader (List Node)
  | 0 => fail "the nodes are too deep"
  | fuel + 1 => do
    if ← isNext [.flowMappingEnd] then
      drop
      return []
    else
      if !first then
        if ← isNext [.flowEntry] then drop
        else fail "a comma is expected"
      match ← peek with
      | .flowMappingEnd =>
        drop
        return []
      | .key =>
        drop
        let key ← nodeBefore [.value, .flowEntry, .flowMappingEnd] false false fuel
        let value ← valueBefore [.flowEntry, .flowMappingEnd] false false fuel
        return key :: value :: (← flowEntries false fuel)
      | .value =>
        let value ← valueBefore [.flowEntry, .flowMappingEnd] false false fuel
        return .omitted :: value :: (← flowEntries false fuel)
      | _ =>
        let key ← node false false fuel
        return key :: .omitted :: (← flowEntries false fuel)

/-- The items of a flow sequence. A key in it begins a mapping of one entry. -/
def flowItems (first : Bool) : Nat → Reader (List Node)
  | 0 => fail "the nodes are too deep"
  | fuel + 1 => do
    if ← isNext [.flowSequenceEnd] then
      drop
      return []
    else
      if !first then
        if ← isNext [.flowEntry] then drop
        else fail "a comma is expected"
      match ← peek with
      | .flowSequenceEnd =>
        drop
        return []
      | .key =>
        drop
        let entry ← singleEntry fuel
        return .mapping (Node.pairUp entry) :: (← flowItems false fuel)
      | _ =>
        let item ← node false false fuel
        return item :: (← flowItems false fuel)

/-- The key and the value of a mapping inside a flow sequence. A mark that shows that the key is left out
is taken with it. -/
def singleEntry : Nat → Reader (List Node)
  | 0 => fail "the nodes are too deep"
  | fuel + 1 => do
    let key ←
      if ← isNext [.value, .flowEntry, .flowSequenceEnd] then
        drop
        pure .omitted
      else node false false fuel
    match ← peek with
    | .value =>
      drop
      let value ← nodeBefore [.flowEntry, .flowSequenceEnd] false false fuel
      return [key, value]
    | _ => return [key, .omitted]

end

/-- Pass over a token as often as it comes. -/
def dropAll (token : Token) : Nat → Reader Unit
  | 0 => return
  | fuel + 1 => do
    if ← isNext [token] then
      drop
      dropAll token fuel

/-- Read the documents. Only the first may lack the marker that begins it. Anchors belong to one document. -/
def documents (depth : Nat) (first : Bool) : Nat → Reader (List Node)
  | 0 => fail "the text ends early"
  | fuel + 1 => do
    if !first then dropAll .documentEnd depth
    if ← isNext [.streamEnd] then return []
    else
      let implicit := first && !(← isNext [.directive, .documentStart])
      if !implicit then
        dropAll .directive depth
        if ← isNext [.documentStart] then drop
        else fail "the beginning of a document is expected"
      modify fun s => { s with names := [] }
      let document ←
        if implicit then node true false depth
        else nodeBefore [.directive, .documentStart, .documentEnd, .streamEnd] true false depth
      if ← isNext [.documentEnd] then drop
      return document :: (← documents depth false fuel)

end Reader

def documents (text : String) : Result (List Node) := do
  let tokens ← Token.scan text
  let fuel := 4 * tokens.length + 8
  let (nodes, _) ← (Reader.documents fuel true fuel).run ⟨tokens, [], [], 0⟩
  return nodes

end Synod.Yaml
