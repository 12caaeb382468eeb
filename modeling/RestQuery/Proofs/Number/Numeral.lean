import Mathlib.Algebra.Order.Field.Basic
import Mathlib.Algebra.Order.Field.Rat
import Mathlib.Tactic.FieldSimp
import Mathlib.Tactic.Ring
import RestQuery.Number.Binary64

/-! Decimal numerals by their parts, and the rational numbers they denote. A numeral is read as
the decimal of its value, and what is read as a decimal is a numeral. -/
namespace RestQuery.Number

inductive Sign where
  | none | plus | minus
  deriving DecidableEq, Repr

def Sign.text : Sign → Text
  | none => []
  | plus => ['+']
  | minus => ['-']

def Sign.isMinus (sign : Sign) : Bool := sign = minus

def sign (negative : Bool) : ℤ := if negative then -1 else 1

@[simp] theorem sign_false : sign false = 1 := rfl

@[simp] theorem sign_true : sign true = -1 := rfl

def IsDigits (text : Text) : Prop := ∀ c ∈ text, c.isDigit = true

instance (text : Text) : Decidable (IsDigits text) := List.decidableBAll _ text

/-- The value of digits, the last of which counts ones. -/
def ofDigits (digits : Text) : Nat := Nat.ofDigitChars 10 digits 0

structure Power where
  mark : Char
  sign : Sign
  digits : Text
  isMark : mark = 'e' ∨ mark = 'E'
  isDigits : IsDigits digits
  nonempty : digits ≠ []

/-- A sign or none, digits with a point among or around them or none, and a power of ten or
none. -/
structure Numeral where
  sign : Sign
  whole : Text
  fraction : Option Text
  power : Option Power
  isDigits : IsDigits (whole ++ fraction.getD [])
  nonempty : whole ++ fraction.getD [] ≠ []

namespace Power

def text (power : Power) : Text := power.mark :: (power.sign.text ++ power.digits)

def value (power : Power) : ℤ := Number.sign power.sign.isMinus * ofDigits power.digits

end Power

/-! ### Signs -/

theorem readSign_text (sign : Sign) (apart : ∀ c ∈ rest.head?, c ≠ '-' ∧ c ≠ '+') :
    readSign (sign.text ++ rest) = (sign.isMinus, rest) := by
  cases sign with
  | none =>
    simp only [Sign.text, List.nil_append]
    unfold readSign
    split
    · exact absurd rfl (apart '-' rfl).1
    · exact absurd rfl (apart '+' rfl).2
    · rfl
  | plus => rfl
  | minus => rfl

theorem exists_sign (text : Text) : ∃ sign : Sign, text = sign.text ++ (readSign text).2 := by
  unfold readSign
  split
  · exact ⟨.minus, rfl⟩
  · exact ⟨.plus, rfl⟩
  · exact ⟨.none, rfl⟩

/-! ### Powers of ten -/

theorem readNat?_eq_some_iff :
    readNat? text = some n ↔ IsDigits text ∧ text ≠ [] ∧ ofDigits text = n := by
  unfold readNat?
  split
  · next digits =>
    rw [Option.some.injEq]
    exact ⟨fun same => ⟨List.all_eq_true.mp digits.2, digits.1, same⟩, fun all => all.2.2⟩
  · next other =>
    simp only [reduceCtorEq, false_iff]
    exact fun all => other ⟨all.2.1, List.all_eq_true.mpr all.1⟩

/-- No digit is a sign. -/
theorem head?_apart_of_isDigits (digits : IsDigits text) :
    ∀ c ∈ text.head?, c ≠ '-' ∧ c ≠ '+' := by
  intro c first
  have digit := digits c (List.mem_of_mem_head? first)
  constructor <;> (rintro rfl; contradiction)

theorem readInt?_eq (text : Text) : readInt? text =
    (readNat? (readSign text).2).map fun n : Nat => sign (readSign text).1 * (n : ℤ) := by
  simp only [readInt?]
  cases readNat? (readSign text).2 with
  | none => rfl
  | some n => cases (readSign text).1 <;> simp

/-- The text is a sign or none, and digits, and denotes the whole number. -/
def SpellsInt (text : Text) (n : ℤ) : Prop :=
  ∃ (sign : Sign) (digits : Text), text = sign.text ++ digits ∧ IsDigits digits ∧ digits ≠ [] ∧
    n = Number.sign sign.isMinus * ofDigits digits

theorem readInt?_eq_some_iff : readInt? text = some n ↔ SpellsInt text n := by
  rw [readInt?_eq]
  constructor
  · intro read
    obtain ⟨m, digits, rfl⟩ := Option.map_eq_some_iff.mp read
    obtain ⟨isDigits, nonempty, rfl⟩ := readNat?_eq_some_iff.mp digits
    obtain ⟨sign, signed⟩ := exists_sign text
    refine ⟨sign, _, signed, isDigits, nonempty, ?_⟩
    have split := readSign_text sign (head?_apart_of_isDigits isDigits)
    rw [← signed] at split
    rw [split]
  · rintro ⟨sign, digits, rfl, isDigits, nonempty, rfl⟩
    rw [readSign_text sign (head?_apart_of_isDigits isDigits)]
    exact Option.map_eq_some_iff.mpr ⟨_, readNat?_eq_some_iff.mpr ⟨isDigits, nonempty, rfl⟩, rfl⟩

theorem readInt?_text (power : Power) :
    readInt? (power.sign.text ++ power.digits) = some power.value := by
  have read := readNat?_eq_some_iff.mpr ⟨power.isDigits, power.nonempty, rfl⟩
  rw [readInt?_eq, readSign_text power.sign (head?_apart_of_isDigits power.isDigits), read]
  rfl

theorem readPower?_text (power : Option Power) :
    Decimal.readPower? (power.elim [] Power.text) = some (power.elim 0 Power.value) := by
  cases power with
  | none => rfl
  | some power =>
    simp only [Option.elim, Power.text, Decimal.readPower?, power.isMark, if_true]
    exact readInt?_text power

theorem exists_power (read : Decimal.readPower? text = some exponent) :
    ∃ power : Option Power, text = power.elim [] Power.text := by
  cases text with
  | nil => exact ⟨none, rfl⟩
  | cons c rest =>
    rw [Decimal.readPower?] at read
    split at read
    · next mark =>
      obtain ⟨sign, split⟩ := exists_sign rest
      rw [readInt?_eq] at read
      obtain ⟨n, digits, -⟩ := Option.map_eq_some_iff.mp read
      obtain ⟨digits, nonempty, -⟩ := readNat?_eq_some_iff.mp digits
      exact ⟨some ⟨c, sign, _, mark, digits, nonempty⟩, congrArg (c :: ·) split⟩
    · contradiction

/-! ### Numerals -/

namespace Numeral

variable (numeral : Numeral)

def decimals : Text := numeral.fraction.getD []

def exponent : ℤ := numeral.power.elim 0 Power.value

def tail : Text := numeral.fraction.elim [] ('.' :: ·) ++ numeral.power.elim [] Power.text

def text : Text := numeral.sign.text ++ (numeral.whole ++ numeral.tail)

def value : ℚ := Number.sign numeral.sign.isMinus *
  (ofDigits numeral.whole + ofDigits numeral.decimals / 10 ^ numeral.decimals.length) *
    10 ^ numeral.exponent

def IsPlain : Prop := numeral.sign ≠ .minus ∧ numeral.fraction = none ∧ numeral.power = none

instance : Decidable numeral.IsPlain :=
  decidable_of_iff (numeral.sign ≠ .minus ∧ numeral.fraction.isNone ∧ numeral.power.isNone)
    (by simp [IsPlain])

theorem isDigits_whole : IsDigits numeral.whole := fun c member =>
  numeral.isDigits c (List.mem_append_left _ member)

theorem isDigits_decimals : IsDigits numeral.decimals := fun c member =>
  numeral.isDigits c (List.mem_append_right _ member)

/-- The first character after the sign. -/
theorem head?_unsigned :
    ∃ c, (numeral.whole ++ numeral.tail).head? = some c ∧ (c.isDigit = true ∨ c = '.') := by
  cases whole : numeral.whole with
  | cons c cs =>
    exact ⟨c, rfl, .inl (numeral.isDigits_whole c (by simp [whole]))⟩
  | nil =>
    cases fraction : numeral.fraction with
    | none => exact absurd (by simp [whole, fraction]) numeral.nonempty
    | some digits => exact ⟨'.', by simp [tail, fraction], .inr rfl⟩

theorem readSign_text :
    readSign numeral.text = (numeral.sign.isMinus, numeral.whole ++ numeral.tail) := by
  apply Number.readSign_text
  intro c first
  obtain ⟨d, first', starts⟩ := numeral.head?_unsigned
  obtain rfl : d = c := Option.some.inj (first'.symm.trans first)
  constructor <;> (rintro rfl; revert starts; decide)

end Numeral

/-! ### Decimals -/

def Decimal.value (decimal : Decimal) : ℚ :=
  sign decimal.negative * (decimal.coefficient * 10 ^ decimal.exponent)

theorem isDigits_takeWhile (text : Text) : IsDigits (text.takeWhile Char.isDigit) :=
  fun c member => List.all_eq_true.mp List.all_takeWhile c member

/-- The digits after a point, if there is one, and what follows them. -/
def splitPoint : Text → Text × Text
  | '.' :: more => (more.takeWhile Char.isDigit, more.dropWhile Char.isDigit)
  | rest => ([], rest)

theorem Decimal.read?_eq (text : Text) : read? text =
    let whole := (readSign text).2.takeWhile Char.isDigit
    let parts := splitPoint ((readSign text).2.dropWhile Char.isDigit)
    if whole ++ parts.1 = [] then none
    else (readPower? parts.2).map fun power =>
      ⟨(readSign text).1, ofDigits (whole ++ parts.1), power - parts.1.length⟩ := rfl

theorem exists_fraction (text : Text) : ∃ fraction : Option Text,
    text = fraction.elim [] ('.' :: ·) ++ (splitPoint text).2 ∧
      fraction.getD [] = (splitPoint text).1 := by
  unfold splitPoint
  split
  · exact ⟨some _, congrArg ('.' :: ·) List.takeWhile_append_dropWhile.symm, rfl⟩
  · exact ⟨none, rfl, rfl⟩

namespace Numeral

variable (numeral : Numeral)

/-- All digits together, and the power of ten that the last of them counts. -/
def decimal : Decimal :=
  ⟨numeral.sign.isMinus, ofDigits (numeral.whole ++ numeral.decimals),
    numeral.exponent - numeral.decimals.length⟩

theorem value_decimal : numeral.decimal.value = numeral.value := by
  have digits : ofDigits (numeral.whole ++ numeral.decimals) =
      10 ^ numeral.decimals.length * ofDigits numeral.whole + ofDigits numeral.decimals := by
    unfold ofDigits
    rw [Nat.ofDigitChars_append, Nat.ofDigitChars_eq_ofDigitChars_zero]
  simp only [Decimal.value, decimal, value, digits]
  rw [zpow_sub₀ (by norm_num), zpow_natCast]
  push_cast
  field_simp

theorem stops_power (power : Option Power) :
    ∀ c ∈ (power.elim [] Power.text).head?, c.isDigit = false ∧ c ≠ '.' := by
  intro c first
  cases power with
  | none => contradiction
  | some power =>
    obtain rfl := Option.some.inj first
    rcases power.isMark with mark | mark <;> simp [mark]

theorem splitPoint_tail :
    splitPoint numeral.tail = (numeral.decimals, numeral.power.elim [] Power.text) := by
  have stops := stops_power numeral.power
  have digits := numeral.isDigits_decimals
  unfold tail
  unfold decimals at *
  cases fraction : numeral.fraction with
  | none =>
    simp only [Option.elim_none, List.nil_append, Option.getD_none]
    unfold splitPoint
    split
    · next same => exact absurd rfl (stops '.' (by rw [same]; rfl)).2
    · rfl
  | some fraction' =>
    rw [fraction] at digits
    have taken := Text.span_append digits fun c first => (stops c first).1
    exact Prod.ext taken.1 taken.2

theorem stops_tail : ∀ c ∈ numeral.tail.head?, c.isDigit = false := by
  intro c first
  unfold tail at first
  cases fraction : numeral.fraction with
  | none =>
    rw [fraction] at first
    exact (stops_power _ c first).1
  | some digits =>
    rw [fraction] at first
    obtain rfl := Option.some.inj first
    rfl

theorem read?_text : Decimal.read? numeral.text = some numeral.decimal := by
  have taken := Text.span_append numeral.isDigits_whole numeral.stops_tail
  rw [Decimal.read?_eq, numeral.readSign_text]
  simp only [taken.1, taken.2, splitPoint_tail, readPower?_text]
  rw [if_neg (show numeral.whole ++ numeral.decimals ≠ [] from numeral.nonempty)]
  rfl

/-- The parts that are read make a numeral. -/
theorem exists_of_read? {text : Text} {d : Decimal} (read : Decimal.read? text = some d) :
    ∃ numeral : Numeral, numeral.text = text := by
  rw [Decimal.read?_eq] at read
  simp only at read
  split at read
  · contradiction
  · next nonempty =>
    obtain ⟨sign, signed⟩ := exists_sign text
    obtain ⟨fraction, pointed, decimals⟩ := exists_fraction ((readSign text).2.dropWhile Char.isDigit)
    obtain ⟨exponent, powered, -⟩ := Option.map_eq_some_iff.mp read
    obtain ⟨power, last⟩ := exists_power powered
    have digits : IsDigits ((splitPoint ((readSign text).2.dropWhile Char.isDigit)).1) := by
      unfold splitPoint
      split
      · exact isDigits_takeWhile _
      · simp [IsDigits]
    refine ⟨⟨sign, (readSign text).2.takeWhile Char.isDigit, fraction, power, ?_, ?_⟩, ?_⟩
    · rw [decimals]
      exact List.forall_mem_append.mpr ⟨isDigits_takeWhile _, digits⟩
    · rwa [decimals]
    · simp only [Numeral.text, tail]
      rw [← last, ← pointed, List.takeWhile_append_dropWhile, ← signed]

end Numeral

/-! ### Digits alone -/

theorem readUnsigned?_eq_some_iff : readUnsigned? text = some n ↔
    ∃ digits, (text = digits ∨ text = '+' :: digits) ∧
      IsDigits digits ∧ digits ≠ [] ∧ ofDigits digits = n := by
  unfold readUnsigned?
  split
  · next rest =>
    rw [readNat?_eq_some_iff]
    constructor
    · exact fun all => ⟨rest, .inr rfl, all⟩
    · rintro ⟨digits, same | same, all⟩
      · exact absurd (all.1 '+' (by simp [← same])) (by decide)
      · rwa [(List.cons.inj same).2]
  · next other =>
    rw [readNat?_eq_some_iff]
    constructor
    · exact fun all => ⟨text, .inl rfl, all⟩
    · rintro ⟨digits, same | same, all⟩
      · rwa [same]
      · exact absurd same (other digits)

namespace Numeral

theorem exists_of_readUnsigned? {written : Text} (read : readUnsigned? written = some n) :
    ∃ numeral : Numeral, numeral.text = written := by
  obtain ⟨digits, spelled, isDigits, nonempty, -⟩ := readUnsigned?_eq_some_iff.mp read
  have ofSign (sign : Sign) : ∃ numeral : Numeral, numeral.text = sign.text ++ digits :=
    ⟨⟨sign, digits, none, none, by simpa using isDigits, by simpa using nonempty⟩,
      by simp [text, tail]⟩
  rcases spelled with same | same
  · exact same ▸ ofSign .none
  · exact same ▸ ofSign .plus

variable {numeral : Numeral}

theorem tail_eq_nil_iff : numeral.tail = [] ↔ numeral.fraction = none ∧ numeral.power = none := by
  unfold tail
  cases numeral.fraction <;> cases numeral.power <;> simp [Power.text]

theorem value_of_isPlain (plain : numeral.IsPlain) : numeral.value = ofDigits numeral.whole := by
  obtain ⟨unsigned, whole, unscaled⟩ := plain
  simp [value, decimals, exponent, whole, unscaled, Sign.isMinus, unsigned, ofDigits]

/-- Digits with or without a plus sign are read as their value, and no other numeral is read
as whole. -/
theorem readUnsigned?_text :
    readUnsigned? numeral.text = some n ↔ numeral.IsPlain ∧ (n : ℚ) = numeral.value := by
  rw [readUnsigned?_eq_some_iff]
  constructor
  · rintro ⟨digits, spelled, isDigits, -, rfl⟩
    have signed : readSign numeral.text = (false, digits) := by
      rcases spelled with same | same
      · rw [same]
        exact Number.readSign_text .none (head?_apart_of_isDigits isDigits)
      · rw [same]
        rfl
    rw [numeral.readSign_text, Prod.mk.injEq] at signed
    obtain ⟨unsigned, rfl⟩ := signed
    have ends : numeral.tail = [] := by
      cases tail : numeral.tail with
      | nil => rfl
      | cons c cs =>
        have stops := numeral.stops_tail c (by rw [tail]; rfl)
        rw [isDigits c (by simp [tail])] at stops
        contradiction
    have plain : numeral.IsPlain :=
      ⟨by simpa [Sign.isMinus] using unsigned, tail_eq_nil_iff.mp ends⟩
    refine ⟨plain, ?_⟩
    rw [value_of_isPlain plain, ends, List.append_nil]
  · rintro ⟨plain, same⟩
    rw [value_of_isPlain plain, Nat.cast_inj] at same
    have ends := tail_eq_nil_iff.mpr plain.2
    have nonempty := numeral.nonempty
    rw [plain.2.1, Option.getD_none, List.append_nil] at nonempty
    refine ⟨numeral.whole, ?_, numeral.isDigits_whole, nonempty, same.symm⟩
    unfold text
    rw [ends, List.append_nil]
    cases sign : numeral.sign with
    | none => exact .inl rfl
    | plus => exact .inr rfl
    | minus => exact absurd sign plain.1

end Numeral

/-! ### Whole numbers -/

namespace Numeral

/-- A whole number is written as a numeral, too. -/
theorem exists_of_spellsInt {written : Text} (spells : SpellsInt written n) :
    ∃ numeral : Numeral, numeral.text = written ∧ numeral.value = n := by
  obtain ⟨sign, digits, rfl, isDigits, nonempty, rfl⟩ := spells
  refine ⟨⟨sign, digits, none, none, by simpa using isDigits, by simpa using nonempty⟩, ?_, ?_⟩
  · simp [text, tail]
  · simp [value, decimals, exponent, ofDigits]

/-- A numeral starts with a digit, a point or a sign. -/
theorem starts {numeral : Numeral} (same : numeral.text = c :: rest) :
    c.isDigit = true ∨ c = '.' ∨ c = '+' ∨ c = '-' := by
  obtain ⟨d, first, other⟩ := numeral.head?_unsigned
  unfold text at same
  cases sign : numeral.sign with
  | none =>
    rw [sign, Sign.text, List.nil_append] at same
    rw [same] at first
    obtain rfl := Option.some.inj first
    rcases other with digit | point
    · exact .inl digit
    · exact .inr (.inl point)
  | plus =>
    rw [sign] at same
    exact .inr (.inr (.inl (List.cons.inj same).1.symm))
  | minus =>
    rw [sign] at same
    exact .inr (.inr (.inr (List.cons.inj same).1.symm))

end Numeral

/-! ### Names -/

namespace Binary64

/-- Names start with a letter. -/
theorem named?_eq_none (starts : text.head? = some c) (other : c.isDigit = true ∨ c = '.') :
    named? negative text = none := by
  have small : c.toLower = c := by
    rcases other with digit | rfl
    · have bound : c.val ≤ '9'.val := of_decide_eq_true (Bool.and_eq_true_iff.mp digit).2
      exact dif_neg fun upper => absurd (UInt32.le_trans upper.1 bound) (by decide)
    · rfl
  have first : (text.map Char.toLower).head? = some c := by
    rw [List.head?_map, starts, Option.map_some, small]
  have apart (name : Text) {d : Char} (named : name.head? = some d)
      (letter : d.isDigit = false ∧ d ≠ '.') : text.map Char.toLower ≠ name := by
    intro same
    rw [same, named] at first
    obtain rfl := Option.some.inj first
    rcases other with digit | point
    · exact absurd (letter.1.symm.trans digit) (by decide)
    · exact letter.2 point
  have i : 'i'.isDigit = false ∧ 'i' ≠ '.' := by decide
  have n : 'n'.isDigit = false ∧ 'n' ≠ '.' := by decide
  simp only [named?, apart "inf".toList rfl i, apart "infinity".toList rfl i,
    apart "nan".toList rfl n, or_self, if_false]

theorem read?_text (numeral : Numeral) :
    read? numeral.text = some (ofDecimal numeral.decimal) := by
  obtain ⟨c, starts, other⟩ := numeral.head?_unsigned
  unfold read?
  rw [numeral.readSign_text, numeral.read?_text]
  simp only [named?_eq_none starts other, Option.none_or, Option.map_some]

/-- What a numeral is read as depends on its text alone. -/
theorem ofDecimal_congr {a b : Numeral} (same : a.text = b.text) :
    ofDecimal a.decimal = ofDecimal b.decimal := by
  have read := read?_text a
  rw [same, read?_text b] at read
  exact (Option.some.inj read).symm

/-- What is read and is no numeral is the name of a value that is not finite. -/
theorem isFinite_of_read? {text : Text} (other : ∀ numeral : Numeral, numeral.text ≠ text)
    (read : read? text = some value) : value.isFinite = false := by
  unfold read? at read
  cases decimal : Decimal.read? text with
  | some d =>
    obtain ⟨numeral, same⟩ := Numeral.exists_of_read? decimal
    exact absurd same (other numeral)
  | none =>
    simp only [decimal, Option.map_none, Option.or_none, named?] at read
    split at read
    · obtain rfl := Option.some.inj read
      rfl
    · split at read
      · obtain rfl := Option.some.inj read
        rfl
      · contradiction

end Binary64
end RestQuery.Number
