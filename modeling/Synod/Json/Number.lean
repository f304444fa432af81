import Synod.Decimal.Shortest
import Synod.Fault
import Synod.Json.Basic

/-! Numbers in JSON text. Whole numbers are kept exactly while they fit a 64-bit word; all others
become binary fractions. A significand is collected until the next digit would overflow a word, and
the power of ten is applied to it with at most one rounding for each table entry used. -/

namespace Synod.Json.Number

/-- Where fractions are written without an exponent: from `0.00001` up to, and not including, `10 ^ 16`. -/
def layout : Decimal.Layout := ⟨-5, 16, 1⟩

def fractionText (bits : UInt64) : String :=
  let sign := if bits >>> 63 = 1 then "-" else ""
  if bits <<< 1 = 0 then sign ++ "0.0"
  else sign ++ layout.write (Decimal.Interval.ofBits bits).shortest

def ascii (text : String) : List UInt8 := text.toByteArray.data.toList

def bytes : Number → List UInt8
  | whole value => ascii (toString value)
  | float bits => ascii (fractionText bits)

/-- The parts of a number's text, each with its digits in order. -/
structure Parts where
  negative : Bool
  whole : List Nat
  fraction : List Nat
  /-- The sign and the digits of the exponent, where one is written. -/
  exponent : Option (Bool × List Nat)
  /-- Whether the text has a point or an exponent. -/
  broken : Bool
deriving Repr

def isDigit (byte : UInt8) : Bool := 48 ≤ byte && byte ≤ 57

def digits (bytes : List UInt8) : List Nat := bytes.map fun byte => byte.toNat - 48

def Parts.ofBytes (bytes : List UInt8) : Parts :=
  let negative := bytes.head? = some 45
  let unsigned := if negative then bytes.drop 1 else bytes
  let whole := unsigned.takeWhile isDigit
  let rest := unsigned.dropWhile isDigit
  let fraction := if rest.head? = some 46 then (rest.drop 1).takeWhile isDigit else []
  let tail := if rest.head? = some 46 then (rest.drop 1).dropWhile isDigit else rest
  let exponent := match tail with
    | _ :: 43 :: power => some (false, digits power)
    | _ :: 45 :: power => some (true, digits power)
    | _ :: power => some (false, digits power)
    | [] => none
  ⟨negative, digits whole, digits fraction, exponent, !rest.isEmpty⟩

/-- Append digits to a significand while it fits a word. Gives the significand and the digits left over. -/
def collect : Nat → List Nat → Nat × List Nat
  | significand, [] => (significand, [])
  | significand, digit :: rest =>
    if significand * 10 + digit < UInt64.size then collect (significand * 10 + digit) rest
    else (significand, digit :: rest)

/-- Divide by a power of ten beyond the greatest one that a fraction can hold, a table entry at a time. -/
private def divide (f : Float) (power : Nat) : Float :=
  if power ≤ 308 then f / Float.ofScientific 1 false power
  else if f == 0 then f
  else divide (f / Float.ofScientific 1 false 308) (power - 308)
termination_by power

/-- The fraction `significand * 10 ^ power`, if it is within range. -/
def scale (significand : Nat) (power : Int) : Option Float :=
  let f := significand.toUInt64.toFloat
  if power < 0 then some (divide f power.natAbs)
  else if power.toNat ≤ 308 then
    let scaled := f * Float.ofScientific 1 false power.toNat
    if scaled.isInf then none else some scaled
  else if f == 0 then some f
  else none

/-- Exponents beyond this bound are not added up. -/
def exponentLimit : Nat := 0x7FFFFFFF

def Parts.fraction? (p : Parts) : Option Float :=
  let (head, ignored) := collect 0 p.whole
  let (significand, unused) := collect head p.fraction
  let power : Int := ignored.length - (p.fraction.length - unused.length : Nat)
  match p.exponent with
  | none => scale significand power
  | some (negative, digits) =>
    let exponent := digits.foldl (fun value digit => min (value * 10 + digit) (exponentLimit + 1)) 0
    if exponentLimit < exponent then
      if significand ≠ 0 ∧ ¬ negative then none else some 0
    else if negative then scale significand (max (power - exponent) (-exponentLimit - 1))
    else scale significand (min (power + exponent) exponentLimit)

/-- The number that the parts stand for. Negative zero and whole numbers too long for a word are
fractions; fractions out of range have no value. -/
def Parts.value? (p : Parts) : Option Number :=
  let fraction := p.fraction?.map fun f => Number.float (if p.negative then -f else f).toBits
  if p.broken then fraction
  else
    match collect 0 p.whole with
    | (value, []) =>
      if ¬ p.negative then some (.whole value)
      else if 0 < value ∧ value ≤ 0x8000000000000000 then some (.whole (-value))
      else fraction
    | _ => fraction

end Synod.Json.Number
