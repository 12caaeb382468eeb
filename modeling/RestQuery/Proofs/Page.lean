import RestQuery.Clauses
import RestQuery.Proofs.Number.Nearest

/-! What limits are. Digits alone are read exactly; any other numeral is rounded first, so that it
may become a whole number that it is not, or another one than it is. -/
namespace RestQuery.Page

open Number

/-- A single text is a numeral, apart from blanks around it. -/
inductive Writes : Param → Numeral → Prop
  | single : numeral.text = text.trim → Writes (.single text) numeral

/-- Digits alone are read as what they denote, and other numerals as what that is rounded to. -/
def ReadAs (numeral : Numeral) (x : ℚ) : Prop :=
  if numeral.IsPlain then x = numeral.value else RoundsTo numeral.value x

def shown : Param → Text
  | .single text => text.trim
  | .list texts => [','].intercalate texts

theorem below?_eq_some_iff : below? limit k = some n ↔ k = n ∧ n < limit := by
  unfold below?
  split
  · next less =>
    rw [Option.some.injEq]
    exact ⟨fun same => ⟨same, same ▸ less⟩, fun h => h.1⟩
  · next least =>
    simp only [reduceCtorEq, false_iff]
    exact fun h => least (h.1 ▸ h.2)

theorem result_single (text : Text) :
    (compile (.single text)).result = (ofInteger? text.trim).or (ofFloat? text.trim) := by
  simp only [compile]
  split
  · next found => rw [found]
  · next missing => rw [missing]

/-- There is a rejection just where there is no number. -/
theorem rejections_compile (param : Param) :
    (compile param).rejections = (compile param).result.elim [.invalid (shown param)] fun _ => [] := by
  cases param with
  | single text =>
    simp only [compile]
    cases (ofInteger? text.trim).or (ofFloat? text.trim) <;> rfl
  | list texts => rfl

section

variable {numeral : Numeral} {n : Nat}

theorem ofInteger?_text : ofInteger? numeral.text = some n ↔
    numeral.IsPlain ∧ (n : ℚ) = numeral.value ∧ n < bound := by
  simp only [ofInteger?, Option.bind_eq_some_iff, Numeral.readUnsigned?_text, below?_eq_some_iff]
  constructor
  · rintro ⟨_, ⟨plain, same⟩, rfl, less⟩
    exact ⟨plain, same, less⟩
  · rintro ⟨plain, same, less⟩
    exact ⟨n, ⟨plain, same⟩, rfl, less⟩

theorem ofFloat?_text : ofFloat? numeral.text = some n ↔
    (n : ℚ) = (Binary64.ofDecimal numeral.decimal).value ∧ n < bound := by
  simp only [ofFloat?, Binary64.read?_text, Option.bind_some, Option.bind_eq_some_iff,
    below?_eq_some_iff]
  constructor
  · rintro ⟨_, read, rfl, less⟩
    exact ⟨(Binary64.toNat?_ofDecimal _ less).mp read, less⟩
  · rintro ⟨same, less⟩
    exact ⟨n, (Binary64.toNat?_ofDecimal _ less).mpr same, rfl, less⟩

theorem roundsTo_ofDecimal (numeral : Numeral) :
    RoundsTo numeral.value (Binary64.ofDecimal numeral.decimal).value :=
  numeral.value_decimal ▸ Binary64.ofDecimal_roundsTo numeral.decimal

theorem exists_readAs (numeral : Numeral) : ∃ x, ∀ y, ReadAs numeral y ↔ y = x := by
  by_cases plain : numeral.IsPlain
  · exact ⟨numeral.value, fun y => by rw [ReadAs, if_pos plain]⟩
  · have rounds := roundsTo_ofDecimal numeral
    refine ⟨(Binary64.ofDecimal numeral.decimal).value, fun y => ?_⟩
    rw [ReadAs, if_neg plain]
    exact ⟨fun other => other.unique rounds, fun same => same ▸ rounds⟩

/-- Where digits alone are too many for an integer, what they are rounded to is too great. -/
theorem bound_le_of_missing (plain : numeral.IsPlain) (missing : ofInteger? numeral.text = none)
    (same : (n : ℚ) = (Binary64.ofDecimal numeral.decimal).value) : bound ≤ n := by
  have large : ¬ ofDigits numeral.whole < bound := fun less => by
    have found := ofInteger?_text.mpr ⟨plain, (Numeral.value_of_isPlain plain).symm, less⟩
    rw [missing] at found
    contradiction
  have past : (2 : ℚ) ^ (64 : ℤ) ≤ numeral.value := by
    rw [Numeral.value_of_isPlain plain]
    exact_mod_cast not_lt.mp large
  have held : Represented (2 ^ (64 : ℤ)) := represented_two_zpow (by norm_num) (by norm_num)
  have least := (roundsTo_ofDecimal numeral).le_of_represented held past
  rw [← same] at least
  exact_mod_cast least

theorem result_readAs (written : numeral.text = text.trim) (read : ReadAs numeral x) :
    (compile (.single text)).result = some n ↔ (n : ℚ) = x ∧ n < bound := by
  have rounds := roundsTo_ofDecimal numeral
  rw [result_single, ← written, Option.or_eq_some_iff, ofInteger?_text, ofFloat?_text]
  by_cases plain : numeral.IsPlain
  · rw [ReadAs, if_pos plain] at read
    subst read
    constructor
    · rintro (⟨-, exact⟩ | ⟨missing, same, less⟩)
      · exact exact
      · exact absurd less (not_lt.mpr (bound_le_of_missing plain missing same))
    · exact fun exact => .inl ⟨plain, exact⟩
  · rw [ReadAs, if_neg plain] at read
    rw [read.unique rounds]
    constructor
    · rintro (⟨isPlain, -⟩ | ⟨-, rounded⟩)
      · exact absurd isPlain plain
      · exact rounded
    · refine fun rounded => .inr ⟨?_, rounded⟩
      cases whole : ofInteger? numeral.text with
      | none => rfl
      | some k => exact absurd (ofInteger?_text.mp whole).1 plain

end

/-- What is no numeral is read as no integer, and at most as a value that is not finite. -/
theorem result_of_not_writes (other : ∀ numeral, ¬ Writes param numeral) :
    (compile param).result = none := by
  cases param with
  | list texts => rfl
  | single text =>
    have other (numeral : Numeral) : numeral.text ≠ text.trim := fun same =>
      other numeral (.single same)
    have integer : ofInteger? text.trim = none := by
      unfold ofInteger?
      cases whole : readUnsigned? text.trim with
      | none => rfl
      | some n =>
        obtain ⟨numeral, same⟩ := Numeral.exists_of_readUnsigned? whole
        exact absurd same (other numeral)
    have float : ofFloat? text.trim = none := by
      unfold ofFloat?
      cases read : Binary64.read? text.trim with
      | none => rfl
      | some value =>
        have endless := Binary64.isFinite_of_read? other read
        cases value with
        | finite => contradiction
        | infinite => rfl
        | nan => rfl
    rw [result_single, integer, float, Option.or_none]

/-- A numeral gives the whole number below `2 ^ 64` that it is read as, if it is read as one: what
it denotes, if it is digits alone or a number of 64 bits, and else what that is rounded to. Any
other text and every list give none. What gives none is rejected, once. -/
theorem compile_rounded (param : Param) :
    (∀ numeral, Writes param numeral → ∃ x, (∀ y, ReadAs numeral y ↔ y = x) ∧
      (numeral.IsPlain ∨ Represented numeral.value → x = numeral.value) ∧
      ∀ n : Nat, (compile param).result = some n ↔ (n : ℚ) = x ∧ n < 2 ^ 64) ∧
    ((∀ numeral, ¬ Writes param numeral) → (compile param).result = none) ∧
    (compile param).rejections =
      (compile param).result.elim [.invalid (shown param)] fun _ => [] := by
  refine ⟨?_, result_of_not_writes, rejections_compile param⟩
  rintro numeral ⟨written⟩
  obtain ⟨x, only⟩ := exists_readAs numeral
  have read := (only x).mpr rfl
  refine ⟨x, only, fun kept => ?_, fun n => result_readAs written read⟩
  by_cases plain : numeral.IsPlain
  · rwa [ReadAs, if_pos plain] at read
  · rw [ReadAs, if_neg plain] at read
    exact read.eq_of_represented (kept.resolve_left plain)

theorem compile_rounded_scaled :
    let scaled : Param := .single " +2.50e2 ".toList
    let listed : Param := .list ["10".toList]
    (∃ numeral, Writes scaled numeral ∧ Represented numeral.value) ∧
      (compile scaled).result = some 250 ∧ (compile scaled).rejections = [] ∧
      (∀ numeral, ¬ Writes listed numeral) ∧ (compile listed).result = none ∧
      (compile listed).rejections = [.invalid "10".toList] := by
  intro scaled listed
  let power : Power := ⟨'e', .none, "2".toList, .inl rfl, by decide, by decide⟩
  let numeral : Numeral := ⟨.plus, "2".toList, some "50".toList, some power, by decide, by decide⟩
  have written : Writes scaled numeral := .single (by decide)
  have value : numeral.value = (250 : Nat) := by decide +kernel
  have held : Represented numeral.value := value ▸ Represented.of_natCast (by norm_num)
  have law := compile_rounded scaled
  obtain ⟨x, -, kept, number⟩ := law.1 numeral written
  have found : (compile scaled).result = some 250 :=
    (number 250).mpr ⟨by rw [kept (.inr held), value], by norm_num⟩
  have unwritten (numeral : Numeral) : ¬ Writes (.list ["10".toList]) numeral := nofun
  have absent := (compile_rounded listed).2.1 unwritten
  refine ⟨⟨numeral, written, held⟩, found, ?_, unwritten, absent, ?_⟩
  · rw [law.2.2, found]
    rfl
  · rw [(compile_rounded listed).2.2, absent]
    rfl

/-- With a fraction of zeros a whole number becomes its neighbour or, if it is the greatest one,
none; and a number below one becomes one. -/
theorem compile_inexact :
    let limit (text : String) := (compile (.single text.toList)).result
    let Denotes (text : String) (q : ℚ) :=
      ∃ numeral, Writes (.single text.toList) numeral ∧ numeral.value = q
    Denotes "9007199254740993.0" 9007199254740993 ∧
      limit "9007199254740993.0" = some 9007199254740992 ∧
    Denotes "18446744073709551615.0" (2 ^ 64 - 1) ∧ limit "18446744073709551615.0" = none ∧
    Denotes "0.99999999999999999999" (1 - 1 / 10 ^ 20) ∧
      limit "0.99999999999999999999" = some 1 := by
  refine ⟨⟨⟨.none, "9007199254740993".toList, some "0".toList, none, ?_, ?_⟩, .single ?_, ?_⟩, ?_,
    ⟨⟨.none, "18446744073709551615".toList, some "0".toList, none, ?_, ?_⟩, .single ?_, ?_⟩, ?_,
    ⟨⟨.none, "0".toList, some "99999999999999999999".toList, none, ?_, ?_⟩, .single ?_, ?_⟩, ?_⟩
  all_goals decide +kernel

end RestQuery.Page
