import RestQuery.Text.Basic

/-! Whole numbers in decimal: writing, and reading back with or without a sign. -/
namespace RestQuery.Number

def ofNat (n : Nat) : Text := Nat.toDigits 10 n

def ofInt : Int → Text
  | .ofNat n => ofNat n
  | .negSucc n => '-' :: ofNat (n + 1)

/-- The whole numbers that 64 bits with a sign hold. -/
def InRange (n : Int) : Prop := -9223372036854775808 ≤ n ∧ n ≤ 9223372036854775807

instance : DecidablePred InRange := fun _ => inferInstanceAs (Decidable (_ ∧ _))

def twoTo (exponent : Nat) : Nat := Nat.pow 2 exponent

def tenTo (exponent : Nat) : Nat := Nat.pow 10 exponent

/-- The value of a text that is nothing but digits, at least one. -/
def readNat? (text : Text) : Option Nat :=
  if text ≠ [] ∧ text.all Char.isDigit then some (Nat.ofDigitChars 10 text 0) else none

theorem ofNat_ne_nil (n : Nat) : ofNat n ≠ [] := Nat.toDigits_ne_nil

theorem isDigit_of_mem_ofNat (member : c ∈ ofNat n) : c.isDigit = true :=
  Nat.isDigit_of_mem_toDigits (b := 10) (by decide) (by decide) member

theorem readNat?_ofNat (n : Nat) : readNat? (ofNat n) = some n := by
  have digits : (ofNat n).all Char.isDigit = true :=
    List.all_eq_true.mpr fun _ member => isDigit_of_mem_ofNat member
  simp only [readNat?, digits, ofNat_ne_nil, ne_eq, not_false_eq_true, and_self, if_true]
  simp [ofNat, Nat.ofDigitChars_ten_toDigits]

/-- Whether a leading minus sign was read, and the text after an optional sign. -/
def readSign : Text → Bool × Text
  | '-' :: rest => (true, rest)
  | '+' :: rest => (false, rest)
  | text => (false, text)

def readInt? (text : Text) : Option Int :=
  let (negative, digits) := readSign text
  (readNat? digits).map fun n => if negative then -(n : Int) else n

theorem readInt?_ofInt (n : Int) : readInt? (ofInt n) = some n := by
  cases n with
  | ofNat n =>
    have unsigned : readSign (ofNat n) = (false, ofNat n) := by
      have digits (c : Char) (member : c ∈ ofNat n) : c.isDigit = true := isDigit_of_mem_ofNat member
      unfold readSign
      split
      · next rest same => exact absurd (digits '-' (by simp [same])) (by decide)
      · next rest same => exact absurd (digits '+' (by simp [same])) (by decide)
      · rfl
    simp [readInt?, ofInt, unsigned, readNat?_ofNat]
  | negSucc n =>
    have signed : readSign ('-' :: ofNat (n + 1)) = (true, ofNat (n + 1)) := rfl
    simp only [readInt?, ofInt, signed, readNat?_ofNat, if_true]
    rfl

/-- As `readNat?`, after an optional plus sign. -/
def readUnsigned? : Text → Option Nat
  | '+' :: rest => readNat? rest
  | text => readNat? text

example : readInt? "-012".toList = some (-12) := by decide
example : readInt? "+".toList = none := by decide
example : readUnsigned? "-0".toList = none := by decide

/-! Decimal numerals: an optional sign, digits with at most one point among or around
them, and an optional power of ten. They are read exactly. -/

/-- The value `coefficient * 10 ^ exponent`, with a sign that zero has too. -/
structure Decimal where
  negative : Bool
  coefficient : Nat
  exponent : Int
  deriving DecidableEq, Repr

namespace Decimal

/-- The power of ten at the end of a numeral: nothing, or a mark and a whole number. -/
def readPower? : Text → Option Int
  | [] => some 0
  | c :: rest => if c = 'e' ∨ c = 'E' then readInt? rest else none

def read? (text : Text) : Option Decimal :=
  let (negative, unsigned) := readSign text
  let whole := unsigned.takeWhile Char.isDigit
  let (fraction, rest) := match unsigned.dropWhile Char.isDigit with
    | '.' :: more => (more.takeWhile Char.isDigit, more.dropWhile Char.isDigit)
    | rest => ([], rest)
  let digits := whole ++ fraction
  if digits = [] then none
  else (readPower? rest).map fun power =>
    ⟨negative, Nat.ofDigitChars 10 digits 0, power - fraction.length⟩

example : read? "-1.50e3".toList = some ⟨true, 150, 1⟩ := by decide
example : read? ".5".toList = some ⟨false, 5, -1⟩ := by decide
example : read? "5.".toList = some ⟨false, 5, 0⟩ := by decide
example : read? ".".toList = none := by decide
example : read? "1e".toList = none := by decide

end Decimal

/-! Binary floating-point numbers of 64 bits, and the nearest one to a decimal numeral.
Infinity and what is no number are read from their names, in letters of either case.
A number is kept as its exact value, so that all arithmetic on it is on whole numbers. -/

/-- A finite number is `significand * 2 ^ exponent`. The significand has 53 bits unless the
exponent is the least one. -/
inductive Binary64 where
  | finite (negative : Bool) (significand : Nat) (exponent : Int)
  | infinite (negative : Bool)
  | nan
  deriving DecidableEq, Repr

namespace Binary64

def leastExponent : Int := -1074
def greatestExponent : Int := 971

def leastFull : Nat := 4503599627370496

def isFinite : Binary64 → Bool
  | .finite .. => true
  | _ => false

/-- The whole number nearest to a quotient; a half goes to the even neighbour. -/
def roundQuotient (numerator denominator : Nat) : Nat :=
  let floor := numerator / denominator
  let rest := numerator % denominator
  if 2 * rest < denominator then floor
  else if denominator < 2 * rest then floor + 1
  else if floor % 2 = 0 then floor else floor + 1

/-- A number with the given significand and exponent, infinite beyond the greatest one. -/
def pack (negative : Bool) (significand : Nat) (exponent : Int) : Binary64 :=
  if greatestExponent < exponent then .infinite negative else .finite negative significand exponent

/-- The numerator and denominator of a quotient divided by `2 ^ power`. -/
def scale (numerator denominator : Nat) (power : Int) : Nat × Nat :=
  (numerator * twoTo (-power).toNat, denominator * twoTo power.toNat)

/-- The power of two at or next below a positive quotient. -/
def leadingPower (numerator denominator : Nat) : Int :=
  let guess : Int := (numerator.log2 : Int) - denominator.log2
  let (n, d) := scale numerator denominator guess
  if d ≤ n then guess else guess - 1

def nearestQuotient (negative : Bool) (numerator denominator : Nat) : Binary64 :=
  if numerator = 0 then .finite negative 0 leastExponent
  else
    let exponent := max (leadingPower numerator denominator - 52) leastExponent
    let (n, d) := scale numerator denominator exponent
    let significand := roundQuotient n d
    if significand = 2 * leastFull then pack negative leastFull (exponent + 1)
    else pack negative significand exponent

/-- The nearest number to a decimal. A value of more than 310 digits before the point is
past every finite number and one with 330 zeros after it is nearest to zero; neither is
computed. -/
def ofDecimal (value : Decimal) : Binary64 :=
  let digits := (ofNat value.coefficient).length
  if value.coefficient = 0 ∨ digits + value.exponent < -330 then
    .finite value.negative 0 leastExponent
  else if 310 < digits + value.exponent then .infinite value.negative
  else
    nearestQuotient value.negative (value.coefficient * tenTo value.exponent.toNat)
      (tenTo (-value.exponent).toNat)

/-- The number that is not finite and has the name, with a sign before it. -/
def named? (negative : Bool) (name : Text) : Option Binary64 :=
  let lower := name.map Char.toLower
  if lower = "inf".toList ∨ lower = "infinity".toList then some (.infinite negative)
  else if lower = "nan".toList then some .nan
  else none

/-- The number that a name stands for, or the nearest one to a decimal numeral. -/
def read? (text : Text) : Option Binary64 :=
  let (negative, unsigned) := readSign text
  (named? negative unsigned).or ((Decimal.read? text).map ofDecimal)

/-- The whole number that a value is, if it is one and not below zero. Both zeros are. -/
def toNat? : Binary64 → Option Nat
  | .finite negative significand exponent =>
    let divisor := twoTo (-exponent).toNat
    if significand = 0 then some 0
    else if negative then none
    else if significand % divisor = 0 then some (significand / divisor * twoTo exponent.toNat)
    else none
  | _ => none

example : ofDecimal ⟨false, 1, -1⟩ = .finite false 7205759403792794 (-56) := by decide +kernel
example : ofDecimal ⟨true, 3, -324⟩ = .finite true 1 (-1074) := by decide +kernel
example : ofDecimal ⟨false, 17976931348623159, 292⟩ = .infinite false := by decide +kernel
example : read? "-Infinity".toList = some (.infinite true) := by decide +kernel
example : read? "+nan".toList = some .nan := by decide +kernel
example : read? "infinit".toList = none := by decide +kernel

end Binary64
end RestQuery.Number
