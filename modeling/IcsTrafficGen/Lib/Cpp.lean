import IcsTrafficGen.Lib.Fallible
import IcsTrafficGen.Lib.Rounding
import Mathlib.Data.List.TakeWhile

/- What C++ code does besides returning a value, and the pieces of the language a
   model of it needs: `int` arithmetic, unchecked vector access, `double`. A
   computation ends in a value, an exception, or undefined behaviour; a theorem
   that says a computation is `.ok` says that it does neither of the other two. -/
namespace IcsTrafficGen

/-- How a computation ends without a value. -/
inductive Stop where
  | throws
  | undefined
  deriving DecidableEq, Repr

abbrev Cpp (α : Type) := Except Stop α

namespace Cpp
variable {α : Type}

/-- What `s.c_str()` shows where a C string is expected: `s` up to the first zero byte. -/
def cString (s : String) : String := String.ofList (s.toList.takeWhile (fun c => c ≠ Char.ofNat 0))

theorem cString_cString (s : String) : cString (cString s) = cString s := by
  unfold cString
  rw [String.toList_ofList, List.takeWhile_idem]

/-! ## `int` -/

/-- The values of a 32-bit `int`. -/
def InInt (n : Int) : Prop := -2147483648 ≤ n ∧ n ≤ 2147483647

instance (n : Int) : Decidable (InInt n) := inferInstanceAs (Decidable (_ ∧ _))

/-- `int` addition; overflow is undefined. -/
def addInt (a b : Int) : Cpp Int := if InInt (a + b) then .ok (a + b) else .error .undefined

theorem addInt_ok {a b c : Int} : addInt a b = .ok c ↔ InInt (a + b) ∧ a + b = c := by
  unfold addInt
  split <;> simp_all

/-- The conversion of a wider integer to `int`, which wraps around. -/
def wrapInt (n : Int) : Int := n.bmod (2 ^ 32)

theorem wrapInt_of_inInt {n : Int} (h : InInt n) : wrapInt n = n := by
  unfold InInt at h
  exact Int.bmod_eq_of_le (by omega) (by omega)

/-- The conversion of an `int` to `size_t`. -/
def toSize (n : Int) : ℕ := if 0 ≤ n then n.toNat else (n + 2 ^ 64).toNat

/-- The conversion of an `int` to `uint8_t`. -/
def toUInt8 (n : Int) : ℕ := (n % 256).toNat

/-- The conversion of an `int` to `uint16_t`. -/
def toUInt16 (n : Int) : ℕ := (n % 65536).toNat

theorem toUInt16_of_le {n : ℕ} (h : n ≤ 65535) : toUInt16 n = n := by
  unfold toUInt16
  omega

theorem toUInt16_le (n : Int) : toUInt16 n ≤ 65535 := by
  unfold toUInt16
  omega

/-- The difference of two `size_t`. -/
def subSize (m n : ℕ) : ℕ := if n ≤ m then m - n else m + 2 ^ 64 - n

/-! ## Vectors -/

/-- `v[i]` of a `std::vector`, read: no check, out of range is undefined. -/
def vecGet (v : List α) (i : Int) : Cpp α :=
  match v[i.toNat]? with
  | some a => if 0 ≤ i then .ok a else .error .undefined
  | none => .error .undefined

/-- `v[i] = a` of a `std::vector`. -/
def vecSet (v : List α) (i : Int) (a : α) : Cpp (List α) :=
  if 0 ≤ i ∧ i < v.length then .ok (v.set i.toNat a) else .error .undefined

theorem vecGet_ok {v : List α} {i : Int} {a : α} :
    vecGet v i = .ok a ↔ 0 ≤ i ∧ v[i.toNat]? = some a := by
  unfold vecGet
  cases v[i.toNat]? with
  | none => simp
  | some b => by_cases h : 0 ≤ i <;> simp [h]

theorem vecGet_of_lt {v : List α} {i : Int} (h0 : 0 ≤ i) (h : i < v.length) :
    ∃ a, vecGet v i = .ok a :=
  have hlt : i.toNat < v.length := by omega
  ⟨v[i.toNat], vecGet_ok.mpr ⟨h0, List.getElem?_eq_getElem hlt⟩⟩

theorem vecSet_ok {v w : List α} {i : Int} {a : α} :
    vecSet v i a = .ok w ↔ (0 ≤ i ∧ i < v.length) ∧ v.set i.toNat a = w := by
  unfold vecSet
  split <;> simp_all

theorem vecGet_vecSet_self {v : List α} {i : Int} {a : α} (h : 0 ≤ i ∧ i < v.length) :
    vecGet (v.set i.toNat a) i = .ok a :=
  vecGet_ok.mpr ⟨h.1, by rw [List.getElem?_set_self (by omega)]⟩

theorem vecGet_vecSet_of_ne {v : List α} {i j : Int} {a : α} (hi : 0 ≤ i) (h : i ≠ j) :
    vecGet (v.set i.toNat a) j = vecGet v j := by
  unfold vecGet
  by_cases hj : 0 ≤ j
  · rw [List.getElem?_set_ne (by omega)]
  · cases hv : v[j.toNat]? <;> cases hw : (v.set i.toNat a)[j.toNat]? <;> simp [hj]

/-- `v.resize(n)`: cut or fill with `d`. A negative `n` becomes a huge length. -/
def resize (d : α) (v : List α) (n : Int) : Cpp (List α) :=
  if 0 ≤ n then .ok (v.take n.toNat ++ List.replicate (n.toNat - v.length) d)
  else .error .throws

end Cpp

/-! ## `double` -/

/-- A `double` that is copied, compared and converted, but not computed with: every
finite `double` other than `-0` is a rational. -/
inductive Double where
  | nan
  | inf (neg : Bool)
  | negZero
  | fin (q : Rat)
  deriving DecidableEq, Repr

namespace Double

def zero : Double := fin 0

/-- `==`. -/
def eqv : Double → Double → Bool
  | .inf s, .inf t => s == t
  | .negZero, .negZero => true
  | .negZero, .fin q => q == 0
  | .fin q, .negZero => q == 0
  | .fin p, .fin q => p == q
  | _, _ => false

/-- Other than zero, what compares equal is equal. -/
theorem eqv_fin {d : Double} {q : ℚ} (hq : q ≠ 0) : d.eqv (.fin q) = true ↔ d = .fin q := by
  cases d with
  | negZero => simp [eqv, hq]
  | _ => simp [eqv]

def ofBool (b : Bool) : Double := fin (if b then 1 else 0)

def ofUInt32 (n : UInt32) : Double := fin n.toNat

/-- The conversion of a 64-bit integer. -/
def ofInt (n : Int) : Double := fin (binary64.round n)

theorem ofInt_of_lt {n : Int} (h : n.natAbs < 2 ^ 53) : ofInt n = fin n := by
  have habs : |(n : ℚ)| = n.natAbs * 2 ^ (0 : ℤ) := by
    rw [zpow_zero, mul_one, Nat.cast_natAbs, Int.cast_abs]
  rw [ofInt, FloatFormat.round_of_has ⟨n.natAbs, 0, h, by decide, habs⟩]

/-- Conversion to `bool`: whether the value compares unequal to zero. -/
def toBool : Double → Bool
  | .negZero => false
  | .fin q => q != 0
  | _ => true

/-- Conversion to an integer type with values `lo` to `hi`: the fraction is dropped,
and a value that does not fit is undefined. -/
def toInt (lo hi : Int) : Double → Cpp Int
  | .negZero => if lo ≤ 0 ∧ 0 ≤ hi then .ok 0 else .error .undefined
  | .fin q =>
    let n := if 0 ≤ q then ⌊q⌋ else ⌈q⌉
    if lo ≤ n ∧ n ≤ hi then .ok n else .error .undefined
  | _ => .error .undefined

theorem toInt_intCast {n lo hi : Int} (h : lo ≤ n ∧ n ≤ hi) : (fin n).toInt lo hi = .ok n := by
  simp [toInt, h]

def toUInt32 (d : Double) : Cpp UInt32 := do
  let n ← d.toInt 0 4294967295
  pure (UInt32.ofNat n.toNat)

theorem toUInt32_ofUInt32 (n : UInt32) : (ofUInt32 n).toUInt32 = .ok n := by
  have hlt : n.toNat < 4294967296 := n.toNat_lt
  have hfit : (n.toNat : Int) ≤ 4294967295 := by omega
  simp [toUInt32, ofUInt32, toInt, hfit, bind, Except.bind, pure, Except.pure]

/-- `std::round`: the nearest integer, from halfway the one away from zero. -/
def round : Double → Double
  | .fin q =>
    let n := if 0 ≤ q then ⌊q + 1 / 2⌋ else ⌈q - 1 / 2⌉
    if n = 0 ∧ q < 0 then .negZero else .fin n
  | d => d

/-- The conversion to `float`. -/
def toFloat32 : Double → Double
  | .fin q =>
    let r := binary32.round q
    if 2 ^ 128 ≤ |r| then .inf (q < 0)
    else if r = 0 ∧ q < 0 then .negZero
    else .fin r
  | d => d

end Double
end IcsTrafficGen
