import Mathlib.Data.Nat.Nth
import Mathlib.Data.Set.Card
import Mathlib.Data.List.Nodup

/- Sequences that are computed one element from the one before: when they list a set of
   numbers in order, and how many elements come before one comes again. -/
namespace IcsTrafficGen

/-! ## Listing a set -/

/-- A sequence each of whose elements is the least number of the set behind the one before
it lists the numbers behind its first element in order, as long as there are any. -/
theorem nth_eq_of_isLeast {p : ℕ → Prop} {x : ℕ → ℕ}
    (hstep : ∀ k, (∃ v, p v ∧ x k < v) → IsLeast {v | p v ∧ x k < v} (x (k + 1))) {n : ℕ}
    (hn : n < {v | p v ∧ x 0 < v}.ncard) : Nat.nth (fun v => p v ∧ x 0 < v) n = x (n + 1) := by
  induction n using Nat.strong_induction_on with
  | _ n ih =>
    have hcard : ∀ hf : (Set.ofPred fun v => p v ∧ x 0 < v).Finite, n < hf.toFinset.card := by
      intro hf
      rwa [← Set.ncard_eq_toFinset_card _ hf]
    obtain ⟨⟨⟨hmem, hbehind⟩, hlarger⟩, hleast⟩ := Nat.isLeast_nth hcard
    have hbefore : ∀ k < n, Nat.nth (fun v => p v ∧ x 0 < v) k = x (k + 1) :=
      fun k hk => ih k hk (hk.trans hn)
    -- the element before the `n`-th is the largest so far
    have hlast : x n < Nat.nth (fun v => p v ∧ x 0 < v) n := by
      cases n with
      | zero => exact hbehind
      | succ k => exact hbefore k (Nat.lt_succ_self k) ▸ hlarger k (Nat.lt_succ_self k)
    obtain ⟨⟨hnext, hgt⟩, hlower⟩ := hstep n ⟨_, hmem, hlast⟩
    apply le_antisymm
    · apply hleast
      have hincreasing : ∀ k < n, x (k + 1) ≤ x n := by
        intro k hk
        cases n with
        | zero => exact absurd hk (Nat.not_lt_zero k)
        | succ m =>
          rw [← hbefore k hk, ← hbefore m (Nat.lt_succ_self m)]
          exact Nat.nth_le_nth' (Nat.le_of_lt_succ hk)
            fun hf => (Nat.lt_succ_self m).trans (hcard hf)
      refine ⟨⟨hnext, ?_⟩, fun k hk => ?_⟩
      · cases n with
        | zero => exact hgt
        | succ m =>
          have hprev := Nat.nth_mem m fun hf => (Nat.lt_succ_self m).trans (hcard hf)
          rw [hbefore m (Nat.lt_succ_self m)] at hprev
          exact hprev.2.trans hgt
      · rw [hbefore k hk]
        exact (hincreasing k hk).trans_lt hgt
    · exact hlower ⟨hmem, hlast⟩

/-! ## Until one comes again -/

/-- The first elements of a sequence are distinct up to the first that comes again. -/
theorem nodup_range_map_iff {α : Type} {x : ℕ → α} {bound : ℕ}
    (honce : ∀ j k, j < k → k < bound → x j ≠ x k) (hagain : ∃ j < bound, x j = x bound) (n : ℕ) :
    ((List.range n).map x).Nodup ↔ n ≤ bound := by
  constructor
  · intro hnodup
    by_contra hn
    obtain ⟨j, hj, hsame⟩ := hagain
    have := List.inj_on_of_nodup_map hnodup (List.mem_range.mpr (show j < n by omega))
      (List.mem_range.mpr (show bound < n by omega)) hsame
    omega
  · intro hn
    apply List.Nodup.map_on _ List.nodup_range
    intro j hj k hk hsame
    have hj := List.mem_range.mp hj
    have hk := List.mem_range.mp hk
    rcases Nat.lt_trichotomy j k with hlt | heq | hlt
    · exact absurd hsame (honce j k hlt (by omega))
    · exact heq
    · exact absurd hsame.symm (honce k j hlt (by omega))

end IcsTrafficGen
