import Mathlib.Algebra.Order.Field.Power
import Mathlib.Algebra.Order.Field.Rat
import Mathlib.Tactic.Linarith
import Mathlib.Tactic.NormNum
import Mathlib.Tactic.Positivity
import Mathlib.Tactic.Ring

/-! Rounding to the numbers that 64 bits hold: the nearest one, and half way between two of them
the one whose last bit is zero. It says of every rational number what it is rounded to, and
nothing of how that is found. -/
namespace RestQuery.Number

/-- A multiple of a power of two in a range, by a whole number of so many bits. -/
def Fits (bits : Nat) (least greatest : ℤ) (x : ℚ) : Prop :=
  ∃ m e : ℤ, |m| < 2 ^ bits ∧ least ≤ e ∧ e ≤ greatest ∧ x = m * 2 ^ e

/-- The finite numbers of 64 bits. -/
def Represented (x : ℚ) : Prop := Fits 53 (-1074) 971 x

/-- Those of them whose last bit is zero. -/
def LastBitZero (x : ℚ) : Prop := Fits 52 (-1073) 972 x

def greatest : ℚ := (2 ^ 53 - 1 : ℤ) * 2 ^ (971 : ℤ)

structure RoundsTo (q x : ℚ) : Prop where
  represented : Represented x
  nearest : ∀ y, Represented y → |q - x| ≤ |q - y|
  even : ∀ y, Represented y → y ≠ x → |q - y| = |q - x| → LastBitZero x

theorem two_zpow_pos (e : ℤ) : (0 : ℚ) < 2 ^ e := zpow_pos two_pos e

theorem two_zpow_le {d e : ℤ} (le : d ≤ e) : (2 : ℚ) ^ d ≤ 2 ^ e :=
  zpow_le_zpow_right₀ one_le_two le

theorem two_zpow_succ (e : ℤ) : (2 : ℚ) ^ (e + 1) = 2 * 2 ^ e := by
  rw [zpow_add_one₀ two_ne_zero, mul_comm]

theorem two_zpow_split {d e : ℤ} (le : d ≤ e) : ∃ t : ℤ, (2 : ℚ) ^ e = t * 2 ^ d := by
  refine ⟨2 ^ (e - d).toNat, ?_⟩
  have split : e = (e - d).toNat + d := by omega
  conv_lhs => rw [split, zpow_add₀ two_ne_zero, zpow_natCast]
  push_cast
  rfl

/-- A distance, counted in steps. -/
theorem abs_sub_mul {u : ℚ} (positive : 0 < u) (q s : ℚ) : |q - s * u| = |q / u - s| * u := by
  have steps : q - s * u = (q / u - s) * u := by
    rw [sub_mul, div_mul_cancel₀ _ positive.ne']
  rw [steps, abs_mul, abs_of_pos positive]

theorem Fits.neg (fits : Fits bits l g x) : Fits bits l g (-x) := by
  obtain ⟨m, e, size, low, high, rfl⟩ := fits
  refine ⟨-m, e, by rwa [abs_neg], low, high, ?_⟩
  push_cast
  ring

theorem represented_zero : Represented 0 :=
  ⟨0, 0, by norm_num, by norm_num, by norm_num, by norm_num⟩

theorem Represented.of_natCast {n : Nat} (bound : n < 2 ^ 53) : Represented n := by
  refine ⟨n, 0, ?_, by norm_num, by norm_num, by simp⟩
  rw [Nat.abs_cast]
  exact_mod_cast bound

theorem represented_two_zpow {e : ℤ} (low : -1074 ≤ e) (high : e ≤ 971) : Represented (2 ^ e) :=
  ⟨1, e, by norm_num, low, high, by simp⟩

theorem represented_greatest : Represented greatest :=
  ⟨2 ^ 53 - 1, 971, by norm_num, by norm_num, by norm_num, rfl⟩

theorem greatest_lt : greatest < 2 ^ (1024 : ℤ) :=
  calc greatest < (2 ^ 53 : ℤ) * 2 ^ (971 : ℤ) :=
        mul_lt_mul_of_pos_right (by norm_num) (two_zpow_pos 971)
    _ = 2 ^ (53 + 971 : ℤ) := (zpow_add₀ two_ne_zero 53 971).symm

theorem Represented.abs_le_greatest (held : Represented x) : |x| ≤ greatest := by
  obtain ⟨m, e, size, -, high, rfl⟩ := held
  have size : (|m| : ℚ) ≤ (2 ^ 53 - 1 : ℤ) := by
    have whole : |m| ≤ 2 ^ 53 - 1 := by omega
    exact_mod_cast whole
  rw [abs_mul, abs_of_pos (two_zpow_pos e)]
  exact mul_le_mul size (two_zpow_le high) (two_zpow_pos e).le (by norm_num)

theorem Represented.le_abs (held : Represented x) (nonzero : x ≠ 0) : 2 ^ (-1074 : ℤ) ≤ |x| := by
  obtain ⟨m, e, -, low, -, rfl⟩ := held
  have size : (1 : ℚ) ≤ |(m : ℚ)| := by
    have positive : 0 < |m| := abs_pos.mpr fun zero => nonzero (by simp [zero])
    exact_mod_cast positive
  rw [abs_mul, abs_of_pos (two_zpow_pos e)]
  calc (2 : ℚ) ^ (-1074 : ℤ) ≤ 2 ^ e := two_zpow_le low
    _ = 1 * 2 ^ e := (one_mul _).symm
    _ ≤ |(m : ℚ)| * 2 ^ e := mul_le_mul_of_nonneg_right size (two_zpow_pos e).le

/-- Half a step above a number whose last bit is zero there is a number, and the next multiple of
the step is above that one. -/
theorem exists_half_step {k e l f : ℤ} (size : |k| < 2 ^ 52) (low : -1073 ≤ e) (high : e ≤ 972)
    (le : e ≤ f) (lt : (k : ℚ) * 2 ^ e < l * 2 ^ f) :
    ∃ z, Represented z ∧ (k : ℚ) * 2 ^ e < z ∧ z < l * 2 ^ f := by
  have half := two_zpow_succ (e - 1)
  rw [sub_add_cancel] at half
  have positive := two_zpow_pos (e - 1)
  obtain ⟨t, steps⟩ := two_zpow_split le
  have multiple : (l : ℚ) * 2 ^ f = (l * t : ℤ) * 2 ^ e := by
    rw [steps]
    push_cast
    ring
  rw [multiple] at lt ⊢
  have apart : k < l * t := by exact_mod_cast lt_of_mul_lt_mul_right lt (two_zpow_pos e).le
  have next : ((k + 1 : ℤ) : ℚ) ≤ (l * t : ℤ) := by exact_mod_cast apart
  refine ⟨(2 * k + 1 : ℤ) * 2 ^ (e - 1), ⟨_, e - 1, ?_, by omega, by omega, rfl⟩, ?_, ?_⟩
  · rw [abs_lt] at size ⊢
    omega
  · rw [half]
    push_cast
    linarith
  · calc ((2 * k + 1 : ℤ) : ℚ) * 2 ^ (e - 1) < (k + 1 : ℤ) * 2 ^ e := by
          rw [half]
          push_cast
          linarith
      _ ≤ (l * t : ℤ) * 2 ^ e := mul_le_mul_of_nonneg_right next (two_zpow_pos e).le

/-- Between two numbers whose last bit is zero there is a third number, next to the one with the
smaller steps. -/
theorem LastBitZero.exists_between (first : LastBitZero x) (second : LastBitZero y) (lt : x < y) :
    ∃ z, Represented z ∧ x < z ∧ z < y := by
  obtain ⟨k, e, size, low, high, rfl⟩ := first
  obtain ⟨l, f, size', low', high', rfl⟩ := second
  rcases le_total e f with le | le
  · exact exists_half_step size low high le lt
  · have mirrored : ((-l : ℤ) : ℚ) * 2 ^ f < (-k : ℤ) * 2 ^ e := by
      push_cast
      linarith
    obtain ⟨z, held, below, above⟩ :=
      exists_half_step (by rwa [abs_neg]) low' high' le mirrored
    push_cast at below above
    exact ⟨-z, held.neg, by linarith, by linarith⟩

namespace RoundsTo

variable {q x y : ℚ}

theorem neg (rounds : RoundsTo q x) : RoundsTo (-q) (-x) := by
  have mirror (y : ℚ) : |-q - y| = |q - -y| := by
    rw [show -q - y = -(q - -y) by ring, abs_neg]
  refine ⟨rounds.represented.neg, fun y held => ?_, fun y held other tie => ?_⟩
  · rw [mirror, mirror, neg_neg]
    exact rounds.nearest _ held.neg
  · rw [mirror, mirror, neg_neg] at tie
    exact (rounds.even _ held.neg (fun same => other (by rw [← same, neg_neg])) tie).neg

/-- What is strictly between two nearest numbers would be nearer, so that there is nothing, and
both cannot be even. -/
theorem not_lt (first : RoundsTo q x) (second : RoundsTo q y) : ¬ x < y := by
  intro lt
  have tie : |q - x| = |q - y| :=
    le_antisymm (first.nearest y second.represented) (second.nearest x first.represented)
  have even := first.even y second.represented lt.ne' tie.symm
  have even' := second.even x first.represented lt.ne tie
  obtain ⟨z, held, below, above⟩ := even.exists_between even' lt
  have middle : 2 * q = x + y := by
    rcases abs_eq_abs.mp tie with same | same <;> linarith
  have near := first.nearest z held
  rw [abs_of_nonneg (show 0 ≤ q - x by linarith)] at near
  have nearer : |q - z| < q - x := abs_lt.mpr ⟨by linarith, by linarith⟩
  linarith

theorem unique (first : RoundsTo q x) (second : RoundsTo q y) : x = y :=
  le_antisymm (le_of_not_gt (second.not_lt first)) (le_of_not_gt (first.not_lt second))

/-- A number that is held rounds to itself alone. -/
theorem eq_of_represented (rounds : RoundsTo q x) (held : Represented q) : x = q := by
  have near := rounds.nearest q held
  rw [sub_self, abs_zero] at near
  exact (sub_eq_zero.mp (abs_nonpos_iff.mp near)).symm

theorem le_of_represented (rounds : RoundsTo q x) (held : Represented y) (le : y ≤ q) : y ≤ x := by
  by_contra below
  have near := rounds.nearest y held
  rw [abs_of_nonneg (by linarith), abs_of_nonneg (by linarith)] at near
  linarith

theorem ofLarge (large : greatest < q) : RoundsTo q greatest := by
  have away {y : ℚ} (held : Represented y) : q - greatest ≤ |q - y| := by
    have bound := (abs_le.mp held.abs_le_greatest).2
    rw [abs_of_nonneg (by linarith)]
    linarith
  have self : |q - greatest| = q - greatest := abs_of_nonneg (by linarith)
  refine ⟨represented_greatest, fun y held => self.trans_le (away held),
    fun y held other tie => ?_⟩
  have bound := (abs_le.mp held.abs_le_greatest).2
  rw [self, abs_of_nonneg (by linarith)] at tie
  exact absurd (by linarith) other

theorem ofSmall (small : |q| < 2 ^ (-1075 : ℤ)) : RoundsTo q 0 := by
  have half := two_zpow_succ (-1075)
  rw [show (-1075 : ℤ) + 1 = -1074 by norm_num] at half
  have away {y : ℚ} (held : Represented y) (nonzero : y ≠ 0) : |q - 0| < |q - y| := by
    have far := held.le_abs nonzero
    have apart := abs_sub_abs_le_abs_sub y q
    rw [abs_sub_comm y q] at apart
    rw [sub_zero]
    linarith
  refine ⟨represented_zero, fun y held => ?_, fun y held other tie => ?_⟩
  · by_cases zero : y = 0
    · rw [zero]
    · exact (away held zero).le
  · exact absurd tie (away held other).ne'

/-- The multiples of a power of two are all the numbers from its least multiple of full length on,
so that a multiple half a step away is a nearest number if `q` is not below that one. -/
theorem ofGrid {s e : ℤ} (held : Represented (s * 2 ^ e))
    (full : e = -1074 ∨ 2 ^ (52 + e) ≤ q) (near : 2 * |q - s * 2 ^ e| ≤ 2 ^ e)
    (even : 2 * |q - s * 2 ^ e| = 2 ^ e → LastBitZero (s * 2 ^ e)) : RoundsTo q (s * 2 ^ e) := by
  have steps (t : ℤ) (other : t ≠ s) : 2 ^ e ≤ |q - s * 2 ^ e| + |q - t * 2 ^ e| := by
    have whole : (1 : ℚ) ≤ |(t : ℚ) - s| := by
      exact_mod_cast Int.one_le_abs (sub_ne_zero.mpr other)
    calc (2 : ℚ) ^ e = 1 * 2 ^ e := (one_mul _).symm
      _ ≤ |(t : ℚ) - s| * 2 ^ e := mul_le_mul_of_nonneg_right whole (two_zpow_pos e).le
      _ = |(t : ℚ) * 2 ^ e - s * 2 ^ e| := by rw [← sub_mul, abs_mul, abs_of_pos (two_zpow_pos e)]
      _ ≤ |(t : ℚ) * 2 ^ e - q| + |q - s * 2 ^ e| := abs_sub_le _ _ _
      _ = |q - s * 2 ^ e| + |q - t * 2 ^ e| := by rw [abs_sub_comm, add_comm]
  have far (y : ℚ) (fits : Represented y) (other : y ≠ s * 2 ^ e) :
      2 ^ e ≤ |q - s * 2 ^ e| + |q - y| ∨ |q - s * 2 ^ e| < |q - y| := by
    obtain ⟨m, k, size, low, -, rfl⟩ := fits
    by_cases coarse : e ≤ k
    · obtain ⟨t, split⟩ := two_zpow_split coarse
      have multiple : (m : ℚ) * 2 ^ k = (m * t : ℤ) * 2 ^ e := by rw [split]; push_cast; ring
      rw [multiple] at other ⊢
      exact .inl (steps _ fun same => other (by rw [same]))
    · have above : 2 ^ (52 + e) ≤ q := full.resolve_left (by omega)
      have least : (2 : ℚ) ^ (52 + e) = (2 ^ 52 : ℤ) * 2 ^ e := by
        rw [zpow_add₀ two_ne_zero]
        rfl
      have below : (m : ℚ) * 2 ^ k < 2 ^ (52 + e) := by
        have size : (m : ℚ) < 2 ^ 53 := by exact_mod_cast (abs_lt.mp size).2
        calc (m : ℚ) * 2 ^ k < 2 ^ (53 : ℤ) * 2 ^ k :=
              mul_lt_mul_of_pos_right size (two_zpow_pos k)
          _ = 2 ^ (53 + k) := (zpow_add₀ two_ne_zero _ _).symm
          _ ≤ 2 ^ (52 + e) := two_zpow_le (by omega)
      have toLeast : |q - s * 2 ^ e| ≤ |q - 2 ^ (52 + e)| := by
        by_cases same : 2 ^ 52 = s
        · rw [least, same]
        · have step := steps (2 ^ 52) same
          rw [← least] at step
          linarith
      rw [abs_of_nonneg (show 0 ≤ q - 2 ^ (52 + e) by linarith)] at toLeast
      right
      rw [abs_of_nonneg (show 0 ≤ q - m * 2 ^ k by linarith)]
      linarith
  refine ⟨held, fun y fits => ?_, fun y fits other tie => even ?_⟩
  · by_cases same : y = s * 2 ^ e
    · rw [same]
    · rcases far y fits same with step | farther <;> linarith
  · rcases far y fits other with step | farther <;> linarith

end RoundsTo
end RestQuery.Number
