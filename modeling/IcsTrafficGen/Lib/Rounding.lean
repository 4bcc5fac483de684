import Mathlib.Data.Int.Log
import Mathlib.Data.Rat.Floor
import Mathlib.Algebra.Order.Ring.Rat
import Mathlib.Algebra.Order.Field.Power

/- Binary floating-point formats, as sets of rationals, and the rounding to them: to the
   nearest, from halfway to the even one. The rounding ends in the format (`has_round`)
   and leaves alone what the format has (`round_of_has`), so an operation is exact where
   the format has its exact result. Infinities are the business of the caller. -/
namespace IcsTrafficGen

/-- The nearest integer to a rational that is not negative; of two the even one. -/
def roundEven (q : ℚ) : ℕ :=
  let n := ⌊q⌋.toNat
  if 1 / 2 < q - n ∨ q - n = 1 / 2 ∧ n % 2 = 1 then n + 1 else n

@[simp] theorem roundEven_natCast (n : ℕ) : roundEven n = n := by
  simp [roundEven]

theorem roundEven_le {q : ℚ} {n : ℕ} (h0 : 0 ≤ q) (h : q ≤ n) : roundEven q ≤ n := by
  obtain rfl | hlt := h.eq_or_lt
  · rw [roundEven_natCast]
  · have hfloor : ⌊q⌋ < (n : ℤ) := Int.floor_lt.mpr (by exact_mod_cast hlt)
    have hnonneg : 0 ≤ ⌊q⌋ := Int.floor_nonneg.mpr h0
    unfold roundEven
    simp only
    split <;> omega

/-- Numbers of so many significant bits, all multiples of two to the power `least`. -/
structure FloatFormat where
  bits : ℕ
  least : ℤ
  bits_pos : 0 < bits

/-- `float`. -/
def binary32 : FloatFormat := ⟨24, -149, by decide⟩

/-- `double`. -/
def binary64 : FloatFormat := ⟨53, -1074, by decide⟩

namespace FloatFormat
variable (f : FloatFormat)

def Has (q : ℚ) : Prop := ∃ (m : ℕ) (e : ℤ), m < 2 ^ f.bits ∧ f.least ≤ e ∧ |q| = m * 2 ^ e

/-- The exponent of the last bit that a number as large as `q` has. -/
def exponent (q : ℚ) : ℤ := max (Int.log 2 |q| + 1 - f.bits) f.least

/-- The size of the nearest number of the format. -/
def roundAbs (q : ℚ) : ℚ := roundEven (|q| / 2 ^ f.exponent q) * 2 ^ f.exponent q

def round (q : ℚ) : ℚ := if q < 0 then -f.roundAbs q else f.roundAbs q

variable {f} {q : ℚ}

/-- One more mantissa will do: two to the power `bits` carries into the exponent. -/
theorem has_of_le {m : ℕ} {e : ℤ} (hm : m ≤ 2 ^ f.bits) (he : f.least ≤ e)
    (hq : |q| = m * 2 ^ e) : f.Has q := by
  obtain rfl | hlt := hm.eq_or_lt
  · have hpow : (2 : ℕ) ^ f.bits = 2 ^ (f.bits - 1) * 2 := by
      rw [← pow_succ, Nat.sub_add_cancel f.bits_pos]
    refine ⟨2 ^ (f.bits - 1), e + 1, ?_, by omega, ?_⟩
    · exact Nat.pow_lt_pow_right (by decide) (Nat.sub_lt f.bits_pos Nat.one_pos)
    · rw [hq, hpow, zpow_add_one₀ two_ne_zero]
      push_cast
      ring
  · exact ⟨m, e, hlt, he, hq⟩

theorem roundAbs_nonneg : 0 ≤ f.roundAbs q := by
  unfold roundAbs
  positivity

theorem abs_round : |f.round q| = f.roundAbs q := by
  unfold round
  split
  · rw [abs_neg, abs_of_nonneg roundAbs_nonneg]
  · rw [abs_of_nonneg roundAbs_nonneg]

theorem has_round (q : ℚ) : f.Has (f.round q) := by
  refine has_of_le (roundEven_le (by positivity) ?_) (le_max_right _ _) abs_round
  rw [div_le_iff₀ (by positivity)]
  have hlog : |q| < 2 ^ (Int.log 2 |q| + 1) := by
    exact_mod_cast Int.lt_zpow_succ_log_self (b := 2) Nat.one_lt_two |q|
  have hexp : Int.log 2 |q| + 1 ≤ f.bits + f.exponent q := by
    have := le_max_left (Int.log 2 |q| + 1 - f.bits) f.least
    unfold exponent
    omega
  calc |q| ≤ 2 ^ (Int.log 2 |q| + 1) := hlog.le
    _ ≤ 2 ^ ((f.bits : ℤ) + f.exponent q) := zpow_le_zpow_right₀ one_le_two hexp
    _ = ((2 ^ f.bits : ℕ) : ℚ) * 2 ^ f.exponent q := by
      rw [zpow_add₀ two_ne_zero, zpow_natCast, Nat.cast_pow, Nat.cast_ofNat]

/-- The last bit of a number of the format is not below the one its size allows. -/
theorem exponent_le {m : ℕ} {e : ℤ} (hm : m < 2 ^ f.bits) (he : f.least ≤ e)
    (hq : |q| = m * 2 ^ e) (h0 : q ≠ 0) : f.exponent q ≤ e := by
  have hlog : (2 : ℚ) ^ Int.log 2 |q| ≤ |q| := by
    exact_mod_cast Int.zpow_log_le_self (b := 2) Nat.one_lt_two (abs_pos.mpr h0)
  have hlt : (2 : ℚ) ^ Int.log 2 |q| < 2 ^ ((f.bits : ℤ) + e) := by
    rw [zpow_add₀ two_ne_zero, zpow_natCast]
    refine hlog.trans_lt ?_
    rw [hq]
    exact mul_lt_mul_of_pos_right (by exact_mod_cast hm) (by positivity)
  have := (zpow_lt_zpow_iff_right₀ one_lt_two).mp hlt
  exact max_le (by omega) he

theorem round_of_has (h : f.Has q) : f.round q = q := by
  obtain ⟨m, e, hm, he, hq⟩ := h
  have habs : f.roundAbs q = |q| := by
    by_cases h0 : q = 0
    · simp [roundAbs, h0, roundEven]
    · have hexp := exponent_le hm he hq h0
      -- the size is a whole number of units of the last bit
      have hunits : |q| / 2 ^ f.exponent q = (m * 2 ^ (e - f.exponent q).toNat : ℕ) := by
        rw [div_eq_iff (by positivity), hq]
        push_cast
        rw [mul_assoc, ← zpow_natCast, ← zpow_add₀ two_ne_zero]
        congr 2
        omega
      rw [roundAbs, hunits, roundEven_natCast, ← hunits, div_mul_cancel₀ _ (by positivity)]
  unfold round
  rw [habs]
  split
  · next hneg => rw [abs_of_neg hneg, neg_neg]
  · next hneg => exact abs_of_nonneg (not_lt.mp hneg)

end FloatFormat
end IcsTrafficGen
