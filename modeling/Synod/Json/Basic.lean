/-! JSON values. Numbers keep the two kinds that readers distinguish: whole numbers that fit a
64-bit word, and binary fractions, which are held by their bit pattern. Objects keep their members
in the order of the text, repeated names included. -/

namespace Synod

inductive Json.Number where
  | whole (value : Int)
  | float (bits : UInt64)
deriving DecidableEq, Repr, Inhabited

inductive Json where
  | null
  | bool (value : Bool)
  | number (value : Json.Number)
  | string (value : String)
  | array (items : List Json)
  | object (members : List (String × Json))
deriving Repr, Inhabited

namespace Json

/-- Keep the last of neighbouring members of one name. -/
private def lastOfEach : List (String × Json) → List (String × Json) → List (String × Json)
  | [], kept => kept.reverse
  | member :: rest, [] => lastOfEach rest [member]
  | member :: rest, top :: kept =>
    if member.1 = top.1 then lastOfEach rest (member :: kept) else lastOfEach rest (member :: top :: kept)

mutual

/-- The same value with the members of every object in the order of their names. Of members that
share a name the last one stays. -/
def sorted : Json → Json
  | array items => array (sortedItems items [])
  | object members => object (lastOfEach ((sortedMembers members []).mergeSort fun a b => decide (a.1 ≤ b.1)) [])
  | scalar => scalar

private def sortedItems : List Json → List Json → List Json
  | [], done => done.reverse
  | item :: rest, done => sortedItems rest (sorted item :: done)

private def sortedMembers : List (String × Json) → List (String × Json) → List (String × Json)
  | [], done => done.reverse
  | (name, value) :: rest, done => sortedMembers rest ((name, sorted value) :: done)

end

end Json

end Synod
