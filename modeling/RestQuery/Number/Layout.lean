import RestQuery.Number.Binary64

/-! The fewest decimal digits that still lie nearest to a binary number. The numbers that
round to it form an interval, which holds its ends when the significand is even. Decimal
grids are tried from coarse to fine: on the first grid that meets the interval the point
nearest to the number is taken. -/
namespace RestQuery.Number

inductive Tie where
  | up
  | even
  deriving DecidableEq, Repr

namespace Shortest

/-- A positive number and the interval around it, over one denominator. -/
structure Interval where
  low : Nat
  value : Nat
  high : Nat
  denominator : Nat
  closed : Bool

/-- The numbers that round to `significand * 2 ^ exponent`. Below a power of two the
neighbours are twice as dense. -/
def interval (significand : Nat) (exponent : Int) : Interval :=
  let below := if significand = Binary64.leastFull ∧ exponent ≠ Binary64.leastExponent then 1 else 2
  let up := twoTo (exponent - 2).toNat
  let down := twoTo (2 - exponent).toNat
  ⟨(4 * significand - below) * up, 4 * significand * up, (4 * significand + 2) * up, down,
    significand % 2 == 0⟩

def leadingExponent (numerator denominator : Nat) : Int :=
  if denominator ≤ numerator then ((ofNat (numerator / denominator)).length : Int) - 1
  else -((ofNat ((denominator - 1) / numerator)).length : Int)

/-- The point nearest to the number among the two around it on the grid of multiples of
`10 ^ power`, if it lies in the interval. -/
def onGrid? (tie : Tie) (i : Interval) (power : Int) : Option Nat :=
  let fine := tenTo (-power).toNat
  let unit := i.denominator * tenTo power.toNat
  let inside (point : Nat) : Bool :=
    if i.closed then i.low * fine ≤ point * unit && point * unit ≤ i.high * fine
    else i.low * fine < point * unit && point * unit < i.high * fine
  let floor := i.value * fine / unit
  let rest := i.value * fine % unit
  let upper := unit < 2 * rest || (unit == 2 * rest && (tie == .up || floor % 2 == 1))
  match inside floor, inside (floor + 1) with
  | true, true => some (if upper then floor + 1 else floor)
  | true, false => some floor
  | false, true => some (floor + 1)
  | false, false => none

def search (tie : Tie) (i : Interval) : Nat → Int → Nat × Int
  | 0, power => (i.value * tenTo (-power).toNat / (i.denominator * tenTo power.toNat), power)
  | grids + 1, power =>
    match onGrid? tie i power with
    | some point => (point, power)
    | none => search tie i grids (power - 1)

end Shortest

/-- Digits and the power of ten they count, for a positive binary number. Seventeen digits
always suffice. -/
def shortest (tie : Tie) (significand : Nat) (exponent : Int) : Nat × Int :=
  let i := Shortest.interval significand exponent
  Shortest.search tie i 17 (Shortest.leadingExponent i.value i.denominator)

example : shortest .even 7205759403792794 (-56) = (1, -1) := by decide +kernel
example : shortest .even 1 (-1074) = (5, -324) := by decide +kernel
example : shortest .even 4503599627370497 (-2) = (11258999068426242, -1) := by decide +kernel
example : shortest .up 4503599627370497 (-2) = (11258999068426243, -1) := by decide +kernel

/-! Layouts of binary numbers as text: where an exponent is written, whether an integral
value keeps its fraction, and what stands for values that are not finite. -/

/-- How numbers are laid out. `positional` tells for which exponents of the first digit
the number is written without a power of ten. The infinities have a text for either sign. -/
structure Layout where
  tie : Tie
  positional : Int → Bool
  keepsFraction : Bool
  infinite : (negative : Bool) → Text
  nan : Text

namespace Layout

/-- The digits without zeros at the end; one digit always stays. -/
def significant (digits : Text) : Text :=
  match (digits.reverse.dropWhile (· == '0')).reverse with
  | [] => ['0']
  | kept => kept

def zeros (count : Int) : Text := List.replicate count.toNat '0'

/-- The digits around the point, where `lead` is the exponent of the first one. -/
def writePositional (keepsFraction : Bool) (digits : Text) (lead : Int) : Text :=
  if lead < 0 then '0' :: '.' :: (zeros (-lead - 1) ++ digits)
  else
    let whole := (lead + 1).toNat
    match digits.drop whole with
    | [] => digits ++ zeros (lead + 1 - digits.length) ++ if keepsFraction then ".0".toList else []
    | fraction => digits.take whole ++ '.' :: fraction

/-- One digit, the others after a point, and the exponent with its sign. -/
def writePower (digits : Text) (lead : Int) : Text :=
  let mantissa := match digits with
    | first :: more :: others => first :: '.' :: more :: others
    | digits => digits
  mantissa ++ 'e' :: (if lead < 0 then ofInt lead else '+' :: ofInt lead)

def signed (negative : Bool) (text : Text) : Text := if negative then '-' :: text else text

def write (layout : Layout) : Binary64 → Text
  | .nan => layout.nan
  | .infinite negative => layout.infinite negative
  | .finite negative significand exponent =>
    let (point, power) :=
      if significand = 0 then (0, 0) else shortest layout.tie significand exponent
    let digits := ofNat point
    let lead := power + digits.length - 1
    signed negative <|
      if layout.positional lead then
        writePositional layout.keepsFraction (significant digits) lead
      else writePower (significant digits) lead

end Layout
end RestQuery.Number
