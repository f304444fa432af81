/-! The shortest decimal of a binary fraction. A 64-bit pattern stands for a rational number, and
every real in an interval around it rounds to the same pattern. The coarsest decimal grid with a
point in that interval gives the fewest digits, and of its points the nearest one is taken. -/

namespace Synod.Decimal

/-- A decimal: `digits` scaled by a power of ten. -/
structure Scaled where
  digits : Nat
  exponent : Int
deriving DecidableEq, Repr

/-- A positive binary fraction and the interval of reals that round to it, over one denominator. -/
structure Interval where
  low : Nat
  value : Nat
  high : Nat
  denominator : Nat
  closed : Bool
deriving DecidableEq, Repr

namespace Interval

/-- The interval of a finite nonzero pattern, its sign left aside. Below the least fraction of a
binade the neighbours lie twice as dense. -/
def ofBits (bits : UInt64) : Interval :=
  let field := (bits >>> 52).toNat % 2048
  let fraction := bits.toNat % 0x10000000000000
  let mantissa := if field = 0 then fraction else 0x10000000000000 + fraction
  let binary : Int := (if field = 0 then 1 else field) - 1075
  let below := if fraction = 0 ∧ 1 < field then 1 else 2
  let scale := if 2 ≤ binary then Nat.pow 2 (binary - 2).toNat else 1
  { low := (4 * mantissa - below) * scale
    value := 4 * mantissa * scale
    high := (4 * mantissa + 2) * scale
    denominator := if 2 ≤ binary then 1 else Nat.pow 2 (2 - binary).toNat
    closed := mantissa % 2 = 0 }

/-- The point of the grid of step `10 ^ exponent` in the interval that is nearest to the value; the
even one of two equally near. -/
def nearest? (i : Interval) (exponent : Int) : Option Nat :=
  let unit := i.denominator * Nat.pow 10 exponent.toNat
  let scale := Nat.pow 10 (-exponent).toNat
  let value := i.value * scale
  let inside (point : Nat) : Bool :=
    if i.closed then i.low * scale ≤ point * unit && point * unit ≤ i.high * scale
    else i.low * scale < point * unit && point * unit < i.high * scale
  let down := value / unit
  let belowGap := value - down * unit
  let aboveGap := (down + 1) * unit - value
  match inside down, inside (down + 1) with
  | false, false => none
  | true, false => some down
  | false, true => some (down + 1)
  | true, true =>
    if belowGap < aboveGap then some down
    else if aboveGap < belowGap then some (down + 1)
    else if down % 2 = 0 then some down
    else some (down + 1)

def refine (i : Interval) (exponent : Int) : Nat → Scaled
  | 0 => ⟨i.value * Nat.pow 10 (-exponent).toNat / (i.denominator * Nat.pow 10 exponent.toNat), exponent⟩
  | grids + 1 =>
    match i.nearest? exponent with
    | some digits => ⟨digits, exponent⟩
    | none => i.refine (exponent - 1) grids

/-- The shortest decimal in the interval. The search starts at a power of ten above the value, and
seventeen digits always suffice. -/
def shortest (i : Interval) : Scaled :=
  let binary : Int := (Nat.log2 i.value : Int) - Nat.log2 i.denominator
  i.refine (binary * 30103 / 100000 + 2) 22

end Interval

/-- How decimals are laid out: which powers of ten are written without an exponent, and how many
places such a number has at least. -/
structure Layout where
  leastPositional : Int
  leastScientific : Int
  places : Nat
deriving DecidableEq, Repr

/-- Digits of a decimal in a layout. Whole numbers get a point and zeros up to the least places. -/
def Layout.write (layout : Layout) (d : Scaled) : String :=
  let digits := toString d.digits
  let power : Int := d.exponent + digits.length - 1
  if layout.leastPositional ≤ power ∧ power < layout.leastScientific then
    if 0 ≤ d.exponent then
      digits ++ "".pushn '0' d.exponent.toNat ++ "." ++ "".pushn '0' layout.places
    else if 0 ≤ power then
      let whole := (power + 1).toNat
      String.ofList (digits.toList.take whole) ++ "." ++ String.ofList (digits.toList.drop whole)
    else
      "0." ++ "".pushn '0' (-power - 1).toNat ++ digits
  else
    let rest := digits.toList.drop 1
    let fraction := if rest.isEmpty then "" else "." ++ String.ofList rest
    let sign := if power < 0 then "-" else "+"
    String.ofList (digits.toList.take 1) ++ fraction ++ "e" ++ sign ++ toString power.natAbs

end Synod.Decimal
