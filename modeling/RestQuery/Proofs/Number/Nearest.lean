import RestQuery.Proofs.Number.Numeral
import RestQuery.Proofs.Number.Rounding

/-! Decimals are rounded to the nearest number. A quotient is scaled to have 53 bits before the
point, or as many as the least exponent leaves it, and the whole number next to it is found from
the remainder. -/
namespace RestQuery.Number

/-- The exact value; past the greatest number there is that number. -/
def Binary64.value : Binary64 → ℚ
  | .finite negative significand exponent => sign negative * (significand * 2 ^ exponent)
  | .infinite negative => sign negative * greatest
  | .nan => 0

theorem RoundsTo.sign (rounds : RoundsTo q x) (negative : Bool) :
    RoundsTo (sign negative * q) (Number.sign negative * x) := by
  cases negative with
  | false => simpa using rounds
  | true => simpa using rounds.neg

/-- A power as the quotient of two, one of which is one. -/
theorem zpow_eq_div (base : Nat) (e : Int) :
    (base : ℚ) ^ e = (Nat.pow base e.toNat : Nat) / (Nat.pow base (-e).toNat : Nat) := by
  simp only [Nat.pow_eq]
  push_cast
  rcases le_total 0 e with up | down
  · obtain ⟨k, rfl⟩ := Int.eq_ofNat_of_zero_le up
    simp
  · obtain ⟨k, same⟩ := Int.eq_ofNat_of_zero_le (Int.neg_nonneg.mpr down)
    obtain rfl : e = -k := by omega
    simp

namespace Binary64

/-! ### Quotients -/

section

variable {n d : Nat}

/-- Twice what is left of the numerator is at most the divisor, and just the divisor only where
the whole number is even. -/
theorem roundQuotient_rest (n : Nat) (positive : 0 < d) :
    2 * |(n : ℤ) - roundQuotient n d * d| ≤ d ∧
      (2 * |(n : ℤ) - roundQuotient n d * d| = d → roundQuotient n d % 2 = 0) := by
  have split : (n : ℤ) = (n / d : Nat) * d + (n % d : Nat) := by
    exact_mod_cast (Nat.div_add_mod' n d).symm
  have rest := Nat.mod_lt n positive
  have floor : |(n : ℤ) - (n / d : Nat) * d| = (n % d : Nat) := by
    rw [abs_of_nonneg] <;> omega
  have ceiling : |(n : ℤ) - (n / d + 1 : Nat) * d| = d - (n % d : Nat) := by
    rw [Nat.cast_add_one, add_mul, one_mul, abs_of_nonpos] <;> omega
  simp only [roundQuotient]
  split_ifs with less more even <;> simp only [floor, ceiling] <;> omega

/-- The rounded quotient is at most a half away, and a half only if it is even. -/
theorem roundQuotient_near (n : Nat) (positive : 0 < d) :
    2 * |(n : ℚ) / d - roundQuotient n d| ≤ 1 ∧
      (2 * |(n : ℚ) / d - roundQuotient n d| = 1 → roundQuotient n d % 2 = 0) := by
  have divisor : (0 : ℚ) < d := by exact_mod_cast positive
  have spec := roundQuotient_rest n positive
  have scaled : 2 * |(n : ℚ) / d - roundQuotient n d| =
      (2 * |(n : ℤ) - roundQuotient n d * d| : ℤ) / d := by
    push_cast
    rw [eq_div_iff divisor.ne', mul_assoc, ← abs_sub_mul divisor]
  rw [scaled, div_le_one divisor, div_eq_one_iff_eq divisor.ne']
  exact_mod_cast spec

theorem scale_pos (positive : 0 < d) (power : Int) : 0 < (scale n d power).2 := by
  exact Nat.mul_pos positive (Nat.pow_pos (by norm_num))

theorem scale_div (n d : Nat) (power : Int) :
    ((scale n d power).1 : ℚ) / (scale n d power).2 = n / d / 2 ^ power := by
  have split : (2 : ℚ) ^ power = (twoTo power.toNat : Nat) / (twoTo (-power).toNat : Nat) :=
    zpow_eq_div 2 power
  simp only [scale, Nat.cast_mul]
  rw [split, mul_div_mul_comm, div_div_eq_mul_div, mul_div_assoc]

/-- The powers of two next to the numerator and the denominator leave two powers to choose from. -/
theorem leadingPower_spec (numerator : 0 < n) (denominator : 0 < d) :
    2 ^ leadingPower n d ≤ (n : ℚ) / d ∧ (n : ℚ) / d < 2 ^ (leadingPower n d + 1) := by
  have divisor : (0 : ℚ) < d := by exact_mod_cast denominator
  have bounds {k : Nat} (positive : 0 < k) :
      (2 : ℚ) ^ (k.log2 : ℤ) ≤ k ∧ (k : ℚ) < 2 ^ ((k.log2 : ℤ) + 1) := by
    have low := Nat.log2_self_le positive.ne'
    have high := Nat.lt_log2_self (n := k)
    rw [show (k.log2 : ℤ) + 1 = (k.log2 + 1 : Nat) by push_cast; rfl, zpow_natCast, zpow_natCast]
    exact ⟨by exact_mod_cast low, by exact_mod_cast high⟩
  have above := bounds numerator
  have below := bounds denominator
  have reaches : (scale n d ((n.log2 : ℤ) - d.log2)).2 ≤ (scale n d ((n.log2 : ℤ) - d.log2)).1 ↔
      2 ^ ((n.log2 : ℤ) - d.log2) ≤ (n : ℚ) / d := by
    have quotient := scale_div n d ((n.log2 : ℤ) - d.log2)
    have positive : (0 : ℚ) < (scale n d ((n.log2 : ℤ) - d.log2)).2 := by
      exact_mod_cast scale_pos denominator _
    rw [← one_le_div (two_zpow_pos _), ← quotient, one_le_div positive, Nat.cast_le]
  simp only [leadingPower, reaches]
  split_ifs with reached
  · refine ⟨reached, ?_⟩
    rw [div_lt_iff₀ divisor]
    calc (n : ℚ) < 2 ^ ((n.log2 : ℤ) + 1) := above.2
      _ = 2 ^ ((n.log2 : ℤ) - d.log2 + 1) * 2 ^ (d.log2 : ℤ) := by
        rw [← zpow_add₀ two_ne_zero]
        congr 1
        ring
      _ ≤ 2 ^ ((n.log2 : ℤ) - d.log2 + 1) * d :=
        mul_le_mul_of_nonneg_left below.1 (two_zpow_pos _).le
  · rw [sub_add_cancel]
    refine ⟨?_, not_le.mp reached⟩
    rw [le_div_iff₀ divisor]
    calc (2 : ℚ) ^ ((n.log2 : ℤ) - d.log2 - 1) * d
        ≤ 2 ^ ((n.log2 : ℤ) - d.log2 - 1) * 2 ^ ((d.log2 : ℤ) + 1) :=
        mul_le_mul_of_nonneg_left below.2.le (two_zpow_pos _).le
      _ = 2 ^ (n.log2 : ℤ) := by
        rw [← zpow_add₀ two_ne_zero]
        congr 1
        ring
      _ ≤ n := above.1

/-! ### Exponents -/

theorem value_pack (negative : Bool) (significand : Nat) (exponent : Int) :
    (pack negative significand exponent).value =
      sign negative * if 971 < exponent then greatest else significand * 2 ^ exponent := by
  unfold pack greatestExponent
  split <;> rfl

variable {q : ℚ} {s : Nat} {e : Int}

/-- A significand of at most 53 bits is kept, unless the exponent is past the greatest one. -/
theorem roundsTo_kept (low : -1074 ≤ e) (size : s < 2 ^ 53)
    (full : e = -1074 ∨ 2 ^ (52 + e) ≤ q) (near : 2 * |q - s * 2 ^ e| ≤ 2 ^ e)
    (even : 2 * |q - s * 2 ^ e| = 2 ^ e → s % 2 = 0) :
    RoundsTo q (if 971 < e then greatest else s * 2 ^ e) := by
  split_ifs with past
  · have above : 2 ^ (52 + e) ≤ q := full.resolve_left (by omega)
    exact RoundsTo.ofLarge (greatest_lt.trans_le ((two_zpow_le (by omega)).trans above))
  · have held : Represented ((s : ℤ) * 2 ^ e) :=
      ⟨s, e, by rw [Nat.abs_cast]; exact_mod_cast size, low, by omega, rfl⟩
    refine RoundsTo.ofGrid (s := s) held full near fun tie => ?_
    obtain ⟨k, rfl⟩ : ∃ k, s = 2 * k := ⟨s / 2, by have := even tie; omega⟩
    refine ⟨k, e + 1, ?_, by omega, by omega, ?_⟩
    · rw [Nat.abs_cast]
      exact_mod_cast (show k < 2 ^ 52 by omega)
    · rw [two_zpow_succ]
      push_cast
      ring

/-- A significand of 54 bits is a power of two, and half of it is kept with the next exponent. -/
theorem roundsTo_carried (carried : s = 2 ^ 53) (low : -1074 ≤ e)
    (full : e = -1074 ∨ 2 ^ (52 + e) ≤ q) (near : 2 * |q - s * 2 ^ e| ≤ 2 ^ e) :
    RoundsTo q (if 971 < e + 1 then greatest else leastFull * 2 ^ (e + 1)) := by
  have double : s = 2 * leastFull := carried
  have same : (leastFull : ℚ) * 2 ^ (e + 1) = (s : ℤ) * 2 ^ e := by
    rw [two_zpow_succ, double]
    push_cast
    ring
  split_ifs with past
  · have half := (abs_le.mp (show |q - s * 2 ^ e| ≤ 2 ^ e / 2 by linarith)).1
    have step : (2 : ℚ) ^ (971 : ℤ) ≤ 2 ^ e := two_zpow_le (by omega)
    have positive := two_zpow_pos 971
    have whole : (s : ℚ) = (2 ^ 53 - 1 : ℤ) + 1 := by rw [carried]; norm_num
    rw [whole] at half
    apply RoundsTo.ofLarge
    unfold greatest
    generalize (2 : ℚ) ^ (971 : ℤ) = u at *
    norm_num at half ⊢
    linarith
  · have held : Represented ((s : ℤ) * 2 ^ e) :=
      same ▸ ⟨leastFull, e + 1, by norm_num [leastFull], by omega, by omega, rfl⟩
    rw [same]
    refine RoundsTo.ofGrid held full near fun _ => ⟨2 ^ 51, e + 2, by norm_num, by omega, by omega, ?_⟩
    rw [show e + 2 = e + 1 + 1 by ring, two_zpow_succ, two_zpow_succ, carried]
    push_cast
    ring

theorem nearestQuotient_roundsTo (negative : Bool) (n : Nat) (denominator : 0 < d) :
    RoundsTo (sign negative * (n / d)) (nearestQuotient negative n d).value := by
  unfold nearestQuotient
  split_ifs with zero
  · simpa [zero, value] using RoundsTo.ofSmall (q := 0) (by simp)
  obtain ⟨low, high⟩ := leadingPower_spec (Nat.pos_of_ne_zero zero) denominator
  generalize exponent : max (leadingPower n d - 52) leastExponent = e
  simp only [leastExponent] at exponent
  have least : -1074 ≤ e := by omega
  have full : e = -1074 ∨ 2 ^ (52 + e) ≤ (n : ℚ) / d := by
    by_cases same : e = -1074
    · exact .inl same
    · exact .inr ((two_zpow_le (by omega)).trans low)
  have near := roundQuotient_near (scale n d e).1 (scale_pos (n := n) denominator e)
  rw [scale_div] at near
  simp only
  generalize roundQuotient (scale n d e).1 (scale n d e).2 = s at near
  have close : 2 * |(n : ℚ) / d - s * 2 ^ e| ≤ 2 ^ e := by
    rw [abs_sub_mul (two_zpow_pos e), ← mul_assoc]
    exact mul_le_of_le_one_left (two_zpow_pos e).le near.1
  have even : 2 * |(n : ℚ) / d - s * 2 ^ e| = 2 ^ e → s % 2 = 0 := by
    rw [abs_sub_mul (two_zpow_pos e), ← mul_assoc]
    exact fun tie => near.2 (mul_right_cancel₀ (two_zpow_pos e).ne' (tie.trans (one_mul _).symm))
  have size : s ≤ 2 ^ 53 := by
    have below : (n : ℚ) / d / 2 ^ e < 2 ^ (53 : ℤ) := by
      rw [div_lt_iff₀ (two_zpow_pos e), ← zpow_add₀ two_ne_zero]
      exact high.trans_le (two_zpow_le (by omega))
    have half := (abs_le.mp (show |(n : ℚ) / d / 2 ^ e - s| ≤ 1 / 2 by linarith)).1
    have bound : (s : ℚ) < (2 ^ 53 + 1 : ℕ) := by push_cast; linarith
    exact Nat.lt_succ_iff.mp (by exact_mod_cast bound)
  split_ifs with carried
  · rw [value_pack]
    exact (roundsTo_carried carried least full close).sign negative
  · rw [value_pack]
    exact (roundsTo_kept least (lt_of_le_of_ne size carried) full close even).sign negative

end

/-! ### Decimals -/

theorem lt_ten_pow (n : Nat) : n < 10 ^ (ofNat n).length :=
  (Nat.length_toDigits_le_iff (by norm_num) Nat.length_toDigits_pos).mp le_rfl

theorem ten_pow_le {n : Nat} (positive : n ≠ 0) : 10 ^ ((ofNat n).length - 1) ≤ n := by
  by_cases one : (ofNat n).length = 1
  · rw [one]
    exact Nat.one_le_iff_ne_zero.mpr positive
  · have long : 0 < (ofNat n).length := Nat.length_toDigits_pos
    have more := (Nat.length_toDigits_le_iff (n := n) (b := 10) (by norm_num)
      (show 0 < (ofNat n).length - 1 by omega)).not.mp (by simp only [ofNat] at long ⊢; omega)
    exact not_lt.mp more

theorem ten_zpow_lt : (10 : ℚ) ^ (-331 : ℤ) < 2 ^ (-1075 : ℤ) := by
  have powers : 2 ^ 1075 < 10 ^ 331 := by decide +kernel
  rw [zpow_neg, zpow_neg, inv_lt_inv₀ (zpow_pos (by norm_num) _) (two_zpow_pos _)]
  exact_mod_cast powers

theorem greatest_lt_ten_zpow : greatest < 10 ^ (310 : ℤ) := by
  have powers : 2 ^ 1024 ≤ 10 ^ 310 := by decide +kernel
  refine greatest_lt.trans_le ?_
  exact_mod_cast powers

/-- The two ends at which nothing is computed are past the nearest numbers there. -/
theorem ofDecimal_roundsTo (decimal : Decimal) :
    RoundsTo decimal.value (ofDecimal decimal).value := by
  obtain ⟨negative, coefficient, exponent⟩ := decimal
  have ten (e : ℤ) : (0 : ℚ) < 10 ^ e := zpow_pos (by norm_num) e
  have whole : (coefficient : ℚ) < 10 ^ ((ofNat coefficient).length : ℤ) := by
    exact_mod_cast lt_ten_pow coefficient
  unfold ofDecimal
  simp only
  generalize length : (ofNat coefficient).length = digits at whole
  split_ifs with small large
  · have rounds : RoundsTo (coefficient * 10 ^ exponent : ℚ) 0 := by
      apply RoundsTo.ofSmall
      rw [abs_of_nonneg (by positivity)]
      rcases small with zero | small
      · simp [zero]
      · calc (coefficient : ℚ) * 10 ^ exponent < 10 ^ (digits : ℤ) * 10 ^ exponent :=
              mul_lt_mul_of_pos_right whole (ten exponent)
          _ = 10 ^ (digits + exponent) := (zpow_add₀ (by norm_num) _ _).symm
          _ ≤ 10 ^ (-331 : ℤ) := zpow_le_zpow_right₀ (by norm_num) (by omega)
          _ < 2 ^ (-1075 : ℤ) := ten_zpow_lt
    simpa [value, Decimal.value] using rounds.sign negative
  · obtain ⟨nonzero, -⟩ := not_or.mp small
    refine (RoundsTo.ofLarge ?_).sign negative
    have leading : ((10 : ℚ)) ^ ((digits : ℤ) - 1) ≤ coefficient := by
      have bound := ten_pow_le nonzero
      have positive : 0 < digits := length ▸ Nat.length_toDigits_pos
      rw [length] at bound
      rw [show (digits : ℤ) - 1 = (digits - 1 : Nat) by omega]
      exact_mod_cast bound
    calc greatest < 10 ^ (310 : ℤ) := greatest_lt_ten_zpow
      _ ≤ 10 ^ ((digits : ℤ) - 1 + exponent) := zpow_le_zpow_right₀ (by norm_num) (by omega)
      _ = 10 ^ ((digits : ℤ) - 1) * 10 ^ exponent := zpow_add₀ (by norm_num) _ _
      _ ≤ coefficient * 10 ^ exponent := mul_le_mul_of_nonneg_right leading (ten exponent).le
  · have quotient : (coefficient : ℚ) * 10 ^ exponent =
        (coefficient * tenTo exponent.toNat : Nat) / (tenTo (-exponent).toNat : Nat) := by
      rw [Nat.cast_mul, mul_div_assoc]
      exact congrArg _ (zpow_eq_div 10 exponent)
    unfold Decimal.value
    simp only [quotient]
    exact nearestQuotient_roundsTo negative _ (Nat.pow_pos (by norm_num))

/-! ### Whole numbers -/

/-- A whole number is read off a value just where it is that value. -/
theorem toNat?_finite {negative : Bool} {significand : Nat} {exponent : Int} :
    toNat? (.finite negative significand exponent) = some n ↔
      (n : ℚ) = value (.finite negative significand exponent) := by
  have divisor : 0 < twoTo (-exponent).toNat := Nat.pow_pos (by norm_num)
  have crossed : (n : ℚ) = significand * 2 ^ exponent ↔
      n * twoTo (-exponent).toNat = significand * twoTo exponent.toNat := by
    have split : (2 : ℚ) ^ exponent =
        (twoTo exponent.toNat : Nat) / (twoTo (-exponent).toNat : Nat) := zpow_eq_div 2 exponent
    rw [split, ← mul_div_assoc, eq_div_iff (by exact_mod_cast divisor.ne')]
    exact_mod_cast Iff.rfl
  simp only [toNat?, value]
  split_ifs with zero minus whole
  · simp [zero, eq_comm]
  · subst minus
    have positive : 0 < (significand : ℚ) * 2 ^ exponent :=
      mul_pos (by exact_mod_cast Nat.pos_of_ne_zero zero) (two_zpow_pos exponent)
    have least : (0 : ℚ) ≤ n := Nat.cast_nonneg n
    simp only [sign_true, Int.cast_neg, Int.cast_one, false_iff]
    intro same
    linarith
  · obtain rfl := Bool.eq_false_of_not_eq_true minus
    rw [sign_false, Int.cast_one, one_mul, crossed, Option.some.injEq]
    have kept := Nat.div_mul_cancel (Nat.dvd_of_mod_eq_zero whole)
    constructor
    · rintro rfl
      rw [mul_right_comm, kept]
    · intro same
      apply Nat.eq_of_mul_eq_mul_right divisor
      rw [mul_right_comm, kept, same]
  · obtain rfl := Bool.eq_false_of_not_eq_true minus
    rw [sign_false, Int.cast_one, one_mul, crossed]
    simp only [false_iff]
    intro same
    rcases le_total 0 exponent with up | down
    · rw [show (-exponent).toNat = 0 by omega] at whole
      exact whole (Nat.mod_one _)
    · rw [show exponent.toNat = 0 by omega, show twoTo 0 = 1 by rfl, mul_one] at same
      exact whole (by rw [← same, Nat.mul_mod_left])

/-- No decimal is read as no number. -/
theorem ofDecimal_ne_nan (decimal : Decimal) : ofDecimal decimal ≠ nan := by
  unfold ofDecimal nearestQuotient pack
  simp only
  repeat' split
  all_goals exact Binary64.noConfusion

/-- Past the greatest number there is no whole number of at most 64 bits. -/
theorem toNat?_ofDecimal (decimal : Decimal) (bound : n < 2 ^ 64) :
    (ofDecimal decimal).toNat? = some n ↔ (n : ℚ) = (ofDecimal decimal).value := by
  cases read : ofDecimal decimal with
  | finite => exact toNat?_finite
  | infinite negative =>
    have held : Represented (2 ^ (64 : ℤ)) := represented_two_zpow (by norm_num) (by norm_num)
    have small : (n : ℚ) < greatest :=
      calc (n : ℚ) < 2 ^ (64 : ℤ) := by exact_mod_cast bound
        _ ≤ |2 ^ (64 : ℤ)| := le_abs_self _
        _ ≤ greatest := held.abs_le_greatest
    have least : (0 : ℚ) ≤ n := Nat.cast_nonneg n
    simp only [toNat?, value, false_iff, reduceCtorEq]
    intro same
    cases negative with
    | false =>
      rw [sign_false, Int.cast_one, one_mul] at same
      exact small.ne same
    | true =>
      rw [sign_true, Int.cast_neg, Int.cast_one] at same
      linarith
  | nan => exact absurd read (ofDecimal_ne_nan decimal)

/-- Whole numbers of 64 bits are below the greatest number, and so are not past it. -/
theorem isFinite_ofDecimal {numeral : Numeral} {n : ℤ} (same : numeral.value = n) (range : InRange n) :
    (ofDecimal numeral.decimal).isFinite = true := by
  have rounds := ofDecimal_roundsTo numeral.decimal
  rw [numeral.value_decimal, same] at rounds
  cases read : ofDecimal numeral.decimal with
  | finite => rfl
  | nan => exact absurd read (ofDecimal_ne_nan _)
  | infinite negative =>
    rw [read] at rounds
    have held : Represented (2 ^ (63 : ℤ)) := represented_two_zpow (by norm_num) (by norm_num)
    have above : (2 : ℚ) ^ (64 : ℤ) ≤ greatest :=
      (le_abs_self _).trans (represented_two_zpow (by norm_num) (by norm_num)).abs_le_greatest
    have less : (2 : ℚ) ^ (63 : ℤ) < 2 ^ (64 : ℤ) := by norm_num
    obtain ⟨low, high⟩ := range
    have low : -(2 : ℚ) ^ (63 : ℤ) ≤ n := by norm_num; exact_mod_cast low
    have high : -(2 : ℚ) ^ (63 : ℤ) ≤ -n := by
      have : (n : ℚ) ≤ 9223372036854775807 := by exact_mod_cast high
      norm_num
      linarith
    cases negative with
    | false =>
      have least := rounds.neg.le_of_represented held.neg high
      simp only [value, sign_false] at least
      push_cast at least
      linarith
    | true =>
      have least := rounds.le_of_represented held.neg low
      simp only [value, sign_true] at least
      push_cast at least
      linarith

end Binary64
end RestQuery.Number
