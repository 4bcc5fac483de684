import Mathlib.Algebra.Group.Subgroup.ZPowers.Basic
import Mathlib.Algebra.Order.Archimedean.Basic
import Mathlib.Data.Set.Finite.Lattice
import Mathlib.Order.Interval.Finset.Defs
import Mathlib.Data.Int.Interval

/- Timers that are due at the multiples of their periods. A timer is known by the time
   `v` that is left at time `t`; the clock then moves by the least time left of all
   timers. `TimeToNext` is kept by such a move, and with it the wake-ups meet every
   multiple of every period (`exists_wake`) and nothing else. -/
namespace IcsTrafficGen.Periodic
variable {K : Type} [AddCommGroup K] [LinearOrder K]

/-- At time `t`, the next multiple of the period `p` is `v` away. -/
def TimeToNext (p t v : K) : Prop := 0 < v ∧ v ≤ p ∧ t + v ∈ AddSubgroup.zmultiples p

namespace TimeToNext
variable {p t v s x : K}

theorem start (hp : 0 < p) : TimeToNext p 0 p :=
  ⟨hp, le_refl p, by simp [AddSubgroup.mem_zmultiples]⟩

theorem period_pos (h : TimeToNext p t v) : 0 < p := h.1.trans_le h.2.1

variable [IsOrderedAddMonoid K]

/-- No multiple of the period lies before the next one. -/
theorem le_of_multiple (h : TimeToNext p t v) (hx : x ∈ AddSubgroup.zmultiples p) (ht : t < x) :
    t + v ≤ x := by
  have hp : 0 < p := h.period_pos
  obtain ⟨-, hle, hnext⟩ := h
  obtain ⟨a, rfl⟩ := AddSubgroup.mem_zmultiples_iff.mp hx
  obtain ⟨b, hb⟩ := AddSubgroup.mem_zmultiples_iff.mp hnext
  rw [← hb]
  refine zsmul_le_zsmul_left hp.le (not_lt.mp fun hab => ?_)
  -- one period after the multiple would still be before the next one
  have hstep : (a + 1) • p ≤ b • p := zsmul_le_zsmul_left hp.le (Int.add_one_le_iff.mpr hab)
  rw [hb, add_zsmul, one_zsmul] at hstep
  have : t + v < a • p + p := add_lt_add_of_lt_of_le ht hle
  exact absurd hstep (not_le.mpr this)

theorem multiple_iff (h : TimeToNext p t v) (hs : 0 < s) (hsv : s ≤ v) :
    t + s ∈ AddSubgroup.zmultiples p ↔ v = s := by
  refine ⟨fun hm => ?_, fun e => e ▸ h.2.2⟩
  have := h.le_of_multiple hm (lt_add_of_pos_right t hs)
  exact le_antisymm (le_of_add_le_add_left this) hsv

/-- The time left after the clock has moved by `s`, which is no more than was left. -/
theorem advance (h : TimeToNext p t v) (hs : 0 < s) (hsv : s ≤ v) :
    TimeToNext p (t + s) (if 0 < v - s then v - s else p) := by
  split
  · next hpos =>
    refine ⟨hpos, (sub_le_self v hs.le).trans h.2.1, ?_⟩
    rw [add_assoc, add_sub_cancel]
    exact h.2.2
  · next hpos =>
    have hv : v = s := le_antisymm (sub_nonpos.mp (not_lt.mp hpos)) hsv
    refine ⟨h.period_pos, le_refl p, AddSubgroup.add_mem _ ?_ (AddSubgroup.mem_zmultiples p)⟩
    exact (h.multiple_iff hs hsv).mpr hv

end TimeToNext

/-! ## Wake-ups -/

/-- The positive multiples of the periods. -/
def multiples (periods : Set K) : Set K :=
  {x | 0 < x ∧ ∃ p ∈ periods, x ∈ AddSubgroup.zmultiples p}

theorem finite_multiples [IsOrderedAddMonoid K] [Archimedean K] {periods : Set K} (hfin : periods.Finite)
    (hpos : ∀ p ∈ periods, 0 < p) (b : K) : (multiples periods ∩ Set.Iic b).Finite := by
  have hsub : multiples periods ∩ Set.Iic b ⊆
      ⋃ p ∈ periods, {x | 0 < x ∧ x ≤ b ∧ x ∈ AddSubgroup.zmultiples p} := by
    intro x h
    obtain ⟨⟨hx, p, hp, hm⟩, hb⟩ := h
    exact Set.mem_biUnion hp ⟨hx, hb, hm⟩
  refine (hfin.biUnion fun p hp => ?_).subset hsub
  obtain ⟨n, hn⟩ := Archimedean.arch b (hpos p hp)
  refine ((Set.finite_Icc 0 (n : ℤ)).image fun z => z • p).subset ?_
  intro x h
  obtain ⟨hx, hb, hm⟩ := h
  obtain ⟨z, rfl⟩ := AddSubgroup.mem_zmultiples_iff.mp hm
  have hz : 0 < z := (zsmul_lt_zsmul_iff_left (hpos p hp)).mp (by simpa using hx)
  refine ⟨z, ⟨hz.le, ?_⟩, rfl⟩
  rw [← natCast_zsmul] at hn
  exact (zsmul_le_zsmul_iff_left (hpos p hp)).mp (hb.trans hn)

/-- Wake-ups that move on through a set that is finite below every bound, and skip
nothing of it, meet all of it. -/
theorem exists_wake {α : Type} [LinearOrder α] {T : ℕ → α} {M : Set α} (hmono : StrictMono T)
    (hmem : ∀ n, T (n + 1) ∈ M) (hskip : ∀ n, ∀ x ∈ M, T n < x → T (n + 1) ≤ x) {x : α}
    (hx : x ∈ M) (h0 : T 0 < x) (hfin : (M ∩ Set.Iic x).Finite) : ∃ n, T (n + 1) = x := by
  by_contra hne
  rw [not_exists] at hne
  have hbelow : ∀ n, T n < x := by
    intro n
    induction n with
    | zero => exact h0
    | succ n ih => exact lt_of_le_of_ne (hskip n x hx ih) (hne n)
  refine Set.infinite_of_injective_forall_mem (f := fun n => T (n + 1)) ?_ ?_ hfin
  · exact hmono.injective.comp (add_left_injective 1)
  · exact fun n => ⟨hmem n, (hbelow (n + 1)).le⟩

end IcsTrafficGen.Periodic
