import IcsTrafficGen.Lib.Python
import IcsTrafficGen.Lib.Rounding
import Mathlib.Tactic.Linarith

/- Python's numbers where code computes with them: an `int` is exact and of any size, a
   `float` is rounded after every operation, and of an `int` and a `float` the `int` is
   converted first. Comparisons are exact. Sums and differences are therefore those of the
   rationals only as long as nothing is rounded: `ExactUnder` collects numbers whose
   differences stay among them. -/
namespace IcsTrafficGen

/-- A finite `float`; `-0.0` equals `0.0` and is not told from it. The format is without its
upper bound: differences of numbers that are not negative do not reach it. -/
structure PyFloat where
  val : ℚ
  has : binary64.Has val
  deriving DecidableEq

/-- All of them are less. -/
def PyFloat.bound : ℚ := 2 ^ 1024

def PyFloat.round (q : ℚ) : PyFloat := ⟨binary64.round q, FloatFormat.has_round q⟩

inductive Number where
  | int (n : ℤ)
  | float (x : PyFloat)
  deriving DecidableEq, Inhabited

namespace Number

/-- What `==`, `<` and `min` compare. -/
def value : Number → ℚ
  | int n => n
  | float x => x.val

/-- `float(x)`. -/
def toFloat : Number → Py PyFloat
  | int n => if PyFloat.bound ≤ |binary64.round n| then .error .overflowError else .ok (.round n)
  | float x => .ok x

/-- `x - y`. -/
def sub : Number → Number → Py Number
  | int m, int n => .ok (int (m - n))
  | x, y => do
    let a ← x.toFloat
    let b ← y.toFloat
    pure (float (.round (a.val - b.val)))

/-- `time.sleep(x)`, which counts nanoseconds in 63 bits. -/
def sleep (x : Number) : Py Unit :=
  if x.value < 0 then .error .valueError
  else if 2 ^ 63 ≤ 10 ^ 9 * x.value then .error .overflowError
  else .ok ()

theorem sleep_ok {x : Number} : x.sleep = .ok () ↔ 0 ≤ x.value ∧ 10 ^ 9 * x.value < 2 ^ 63 := by
  unfold sleep
  split
  · next h => exact iff_of_false (by simp) fun h' => absurd h (not_lt.mpr h'.1)
  · next h0 =>
    split
    · next h => exact iff_of_false (by simp) fun h' => absurd h (not_le.mpr h'.2)
    · next h => exact iff_of_true rfl ⟨not_lt.mp h0, not_le.mp h⟩

/-- Who can sleep long can sleep less. -/
theorem sleep_of_le {x y : Number} (h0 : 0 ≤ x.value) (hle : x.value ≤ y.value)
    (hy : y.sleep = .ok ()) : x.sleep = .ok () := by
  have := (sleep_ok.mp hy).2
  exact sleep_ok.mpr ⟨h0, by linarith⟩

theorem toFloat_ok {x : Number} (h : binary64.Has x.value) (hlt : |x.value| < PyFloat.bound) :
    ∃ a, x.toFloat = .ok a ∧ a.val = x.value := by
  cases x with
  | int n =>
    have hround : binary64.round n = n := FloatFormat.round_of_has h
    refine ⟨.round n, ?_, hround⟩
    rw [toFloat, hround]
    exact if_neg (not_le.mpr hlt)
  | float x => exact ⟨x, rfl, rfl⟩

/-! ## Exact differences -/

/-- The difference is not rounded. -/
def ExactMinus (x y : Number) : Prop := ∃ d, x.sub y = .ok d ∧ d.value = x.value - y.value

/-- Numbers whose differences, where not negative, are exact and are again among them. -/
def ExactUnder (C : Number → Prop) : Prop :=
  ∀ x y, C x → C y → 0 ≤ y.value → y.value ≤ x.value →
    ∃ d, x.sub y = .ok d ∧ d.value = x.value - y.value ∧ C d

def IsInt (x : Number) : Prop := ∃ n, x = int n

theorem exactUnder_isInt : ExactUnder IsInt := by
  intro x y hx hy _ _
  obtain ⟨m, rfl⟩ := hx
  obtain ⟨n, rfl⟩ := hy
  exact ⟨int (m - n), rfl, Int.cast_sub m n, m - n, rfl⟩

/-- A multiple of a unit with so few bits that a `float` has it. -/
def IsMultiple (e : ℤ) (x : Number) : Prop :=
  x.value < PyFloat.bound ∧ ∃ m : ℕ, m ≤ 2 ^ 53 ∧ x.value = m * 2 ^ e

theorem IsMultiple.toFloat_ok {e : ℤ} {x : Number} (he : -1074 ≤ e) (h : IsMultiple e x) :
    ∃ a, x.toFloat = .ok a ∧ a.val = x.value := by
  obtain ⟨hlt, m, hm, hx⟩ := h
  have h0 : 0 ≤ x.value := hx ▸ mul_nonneg m.cast_nonneg (zpow_nonneg zero_le_two e)
  have habs : |x.value| = x.value := abs_of_nonneg h0
  have hhas : binary64.Has x.value := FloatFormat.has_of_le hm he (habs.trans hx)
  exact Number.toFloat_ok hhas (habs.symm ▸ hlt)

theorem exactUnder_isMultiple {e : ℤ} (he : -1074 ≤ e) : ExactUnder (IsMultiple e) := by
  intro x y hx hy h0 hle
  obtain ⟨a, ha, hax⟩ := hx.toFloat_ok he
  obtain ⟨b, hb, hby⟩ := hy.toFloat_ok he
  obtain ⟨hlt, m, hm, hxm⟩ := hx
  obtain ⟨-, n, -, hyn⟩ := hy
  have hnm : n ≤ m := by
    rw [hxm, hyn] at hle
    exact_mod_cast le_of_mul_le_mul_right hle (by positivity)
  have hdiff : x.value - y.value = (m - n : ℕ) * 2 ^ e := by
    rw [hxm, hyn, Nat.cast_sub hnm, sub_mul]
  have hhas : binary64.Has (x.value - y.value) :=
    FloatFormat.has_of_le ((Nat.sub_le m n).trans hm) he
      ((abs_of_nonneg (sub_nonneg.mpr hle)).trans hdiff)
  have hmultiple : ∀ d : Number, d.value = x.value - y.value → IsMultiple e d := fun d hd =>
    ⟨by linarith, m - n, (Nat.sub_le m n).trans hm, hd.trans hdiff⟩
  have hround : (PyFloat.round (a.val - b.val)).val = x.value - y.value := by
    rw [hax, hby]
    exact FloatFormat.round_of_has hhas
  unfold sub
  split
  · next i j =>
    have hd : (int (i - j)).value = (int i).value - (int j).value := Int.cast_sub i j
    exact ⟨_, rfl, hd, hmultiple _ hd⟩
  · rw [ha, hb]
    exact ⟨_, rfl, hround, hmultiple _ hround⟩

end Number
end IcsTrafficGen
