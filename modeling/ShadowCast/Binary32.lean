import Mathlib.Data.Int.Log
import Mathlib.Data.Rat.Floor
import Mathlib.Algebra.Order.Round
import Mathlib.Tactic.Linarith
import Mathlib.Tactic.Positivity
import Mathlib.Tactic.NormNum
import Mathlib.Tactic.Ring
import Mathlib.Tactic.FieldSimp

/-!
# Rounding to binary32

The finite numbers of the binary32 format, as rationals, and rounding to the nearest of them, ties
to even.  The exponent is bounded below, so subnormal numbers are included; it is not bounded
above, so the results are those of the format for numbers which do not overflow.
-/

namespace Binary32

/-- The nearest integer, and the even one of two nearest. -/
def roundHalfEven (q : ℚ) : ℤ :=
  if Int.fract q < 1 / 2 then ⌊q⌋
  else if 1 / 2 < Int.fract q then ⌊q⌋ + 1
  else if Even ⌊q⌋ then ⌊q⌋
  else ⌊q⌋ + 1

/-- The exponent of the last place of a number: there are 24 places, unless it is subnormal. -/
def exponent (q : ℚ) : ℤ := max (Int.log 2 |q|) (-126) - 23

/-- The last place of a number. -/
def ulp (q : ℚ) : ℚ := 2 ^ exponent q

/-- Round to the nearest number, ties to even. -/
def round (q : ℚ) : ℚ := roundHalfEven (q / ulp q) * ulp q

/-- A finite number of the format, up to overflow. -/
def Representable (q : ℚ) : Prop :=
  ∃ mantissa e : ℤ, |mantissa| < 2 ^ 24 ∧ -149 ≤ e ∧ q = mantissa * 2 ^ e

theorem abs_roundHalfEven_sub_le (q : ℚ) : |roundHalfEven q - q| ≤ 1 / 2 := by
  have split := Int.floor_add_fract q
  have nonneg := Int.fract_nonneg q
  have lt_one := Int.fract_lt_one q
  unfold roundHalfEven
  rw [abs_le]
  split_ifs <;> push_cast <;> constructor <;> linarith

@[simp]
theorem roundHalfEven_intCast (n : ℤ) : roundHalfEven n = n := by
  simp [roundHalfEven]

theorem ulp_pos (q : ℚ) : 0 < ulp q := zpow_pos (by norm_num) _

/-- The rounding error is at most half of the last place. -/
theorem abs_round_sub_le (q : ℚ) : |round q - q| ≤ ulp q / 2 := by
  have pos := ulp_pos q
  have scaled : round q - q = (roundHalfEven (q / ulp q) - q / ulp q) * ulp q := by
    rw [round, sub_mul, div_mul_cancel₀ _ pos.ne']
  rw [scaled, abs_mul, abs_of_pos pos]
  calc
    |roundHalfEven (q / ulp q) - q / ulp q| * ulp q ≤ 1 / 2 * ulp q :=
      mul_le_mul_of_nonneg_right (abs_roundHalfEven_sub_le _) pos.le
    _ = ulp q / 2 := by ring

/-- A number below 24 places from an exponent has no coarser last place than that. -/
theorem exponent_le {q : ℚ} {e : ℤ} (nonzero : q ≠ 0) (e_ge : -149 ≤ e)
    (small : |q| < 2 ^ (24 + e)) : exponent q ≤ e := by
  have log_lt : Int.log 2 |q| < 24 + e :=
    (Int.lt_zpow_iff_log_lt one_lt_two (abs_pos.mpr nonzero)).mp (by exact_mod_cast small)
  unfold exponent
  omega

/-- The rounding error of a number below 24 places from an exponent. -/
theorem abs_round_sub_le_of_lt {q : ℚ} {e : ℤ} (nonzero : q ≠ 0) (e_ge : -149 ≤ e)
    (small : |q| < 2 ^ (24 + e)) : |round q - q| ≤ 2 ^ e / 2 := by
  have ulp_le : ulp q ≤ 2 ^ e :=
    zpow_le_zpow_right₀ one_le_two (exponent_le nonzero e_ge small)
  exact (abs_round_sub_le q).trans (div_le_div_of_nonneg_right ulp_le zero_le_two)

/-- Rounding a number of the format has no effect. -/
theorem round_of_representable {q : ℚ} (representable : Representable q) : round q = q := by
  obtain ⟨mantissa, e, mantissa_lt, e_ge, rfl⟩ := representable
  rcases eq_or_ne (mantissa * 2 ^ e : ℚ) 0 with zero | nonzero
  · simp [zero, round, roundHalfEven]
  have small : |(mantissa * 2 ^ e : ℚ)| < 2 ^ (24 + e) := by
    rw [abs_mul, abs_of_pos (zpow_pos (two_pos (α := ℚ)) e), zpow_add₀ two_ne_zero]
    exact mul_lt_mul_of_pos_right (by exact_mod_cast mantissa_lt) (zpow_pos two_pos e)
  obtain ⟨shift, e_eq⟩ := Int.le.dest (exponent_le nonzero e_ge small)
  have places : (mantissa * 2 ^ e : ℚ) / ulp (mantissa * 2 ^ e) =
      (mantissa * 2 ^ shift : ℤ) := by
    rw [div_eq_iff (ulp_pos _).ne', ulp]
    conv_lhs => rw [← e_eq, zpow_add₀ two_ne_zero]
    push_cast
    rw [zpow_natCast]
    ring
  rw [round, places, roundHalfEven_intCast, ← places, div_mul_cancel₀ _ (ulp_pos _).ne']

/-- The nearest integer of a number within integer bounds is within them. -/
theorem abs_roundHalfEven_le {q : ℚ} {bound : ℤ} (within : |q| < bound) :
    |roundHalfEven q| ≤ bound := by
  have error := abs_le.mp (abs_roundHalfEven_sub_le q)
  have inside := abs_lt.mp within
  have lower : ((-bound - 1 : ℤ) : ℚ) < roundHalfEven q := by push_cast; linarith
  have upper : (roundHalfEven q : ℚ) < (bound + 1 : ℤ) := by push_cast; linarith
  have lower_int : -bound - 1 < roundHalfEven q := by exact_mod_cast lower
  have upper_int : roundHalfEven q < bound + 1 := by exact_mod_cast upper
  rw [abs_le]
  omega

/-- A number has at most 24 places. -/
theorem abs_div_ulp_lt (q : ℚ) : |q / ulp q| < (2 ^ 24 : ℤ) := by
  have log_le : Int.log 2 |q| + 1 ≤ 24 + exponent q := by
    unfold exponent
    omega
  have below : |q| < 2 ^ (24 + exponent q) :=
    (Int.lt_zpow_succ_log_self one_lt_two |q|).trans_le
      (zpow_le_zpow_right₀ (by norm_num) log_le)
  rw [abs_div, abs_of_pos (ulp_pos q), div_lt_iff₀ (ulp_pos q), ulp]
  rw [zpow_add₀ two_ne_zero] at below
  exact_mod_cast below

/-- The result of rounding is a number of the format. -/
theorem round_representable (q : ℚ) : Representable (round q) := by
  have exponent_ge : -149 ≤ exponent q := by
    unfold exponent
    omega
  rcases (abs_roundHalfEven_le (abs_div_ulp_lt q)).lt_or_eq with small | carry
  · exact ⟨_, _, small, exponent_ge, rfl⟩
  · obtain ⟨half, half_lt, half_eq⟩ : ∃ half : ℤ, |half| < 2 ^ 24 ∧
        roundHalfEven (q / ulp q) = 2 * half := by
      rcases (abs_eq (by norm_num)).mp carry with up | down
      · exact ⟨2 ^ 23, by norm_num, by rw [up]; norm_num⟩
      · exact ⟨-2 ^ 23, by norm_num, by rw [down]; norm_num⟩
    refine ⟨half, exponent q + 1, half_lt, by omega, ?_⟩
    rw [round, half_eq, ulp, zpow_add_one₀ two_ne_zero]
    push_cast
    ring

/-- Rounding twice is rounding once. -/
@[simp]
theorem round_round (q : ℚ) : round (round q) = round q :=
  round_of_representable (round_representable q)

@[simp]
theorem round_one : round 1 = 1 :=
  round_of_representable ⟨1, 0, by norm_num, by norm_num, by norm_num⟩

end Binary32
