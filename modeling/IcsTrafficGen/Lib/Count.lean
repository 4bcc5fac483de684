import Mathlib.Data.Set.Card

/- Counting the indices whose value has a property, and how one update of the
   function moves the count. The index type is arbitrary: only the counted set
   has to be finite. -/
namespace IcsTrafficGen

variable {ι π : Type}

/-- How many indices have a value with `P`. -/
noncomputable def tally (f : ι → π) (P : π → Prop) : Nat := {i | P (f i)}.ncard

/-- Finitely many indices have a value other than `d`. -/
def FiniteOff (f : ι → π) (d : π) : Prop := {i | f i ≠ d}.Finite

theorem FiniteOff.setOf {f : ι → π} {d : π} (h : FiniteOff f d) {P : π → Prop} (hd : ¬ P d) :
    {i | P (f i)}.Finite :=
  Set.Finite.subset h fun _ hi e => hd (e ▸ hi)

theorem finiteOff_const (d : π) : FiniteOff (fun _ : ι => d) d := by
  simp [FiniteOff]

theorem tally_pos {f : ι → π} {P : π → Prop} {i : ι} (hfin : {j | P (f j)}.Finite) (hi : P (f i)) :
    0 < tally f P :=
  (Set.ncard_pos hfin).mpr ⟨i, hi⟩

theorem tally_eq_zero {f : ι → π} {P : π → Prop} (h : ∀ i, ¬ P (f i)) : tally f P = 0 := by
  simp [tally, h]

variable [DecidableEq ι]

theorem FiniteOff.update {f : ι → π} {d : π} (h : FiniteOff f d) (i : ι) (v : π) :
    FiniteOff (Function.update f i v) d := by
  apply Set.Finite.subset (Set.Finite.insert i h)
  intro j hj
  by_cases e : j = i
  · exact Or.inl e
  · rw [Set.mem_ofPred_eq, Function.update_of_ne e] at hj
    exact Or.inr hj

theorem setOf_update_of_pos {f : ι → π} {P : π → Prop} {i : ι} {v : π} (hv : P v) :
    {j | P (Function.update f i v j)} = insert i {j | P (f j)} := by
  ext j
  by_cases e : j = i
  · subst e; simp [hv]
  · simp [e]

theorem setOf_update_of_neg {f : ι → π} {P : π → Prop} {i : ι} {v : π} (hv : ¬ P v) :
    {j | P (Function.update f i v j)} = {j | P (f j)} \ {i} := by
  ext j
  by_cases e : j = i
  · subst e; simp [hv]
  · simp [e]

/-- An update that does not change whether the index counts leaves the tally. -/
theorem tally_update_same {f : ι → π} {P : π → Prop} {i : ι} {v : π} (h : P (f i) ↔ P v) :
    tally (Function.update f i v) P = tally f P := by
  unfold tally
  congr 1
  ext j
  by_cases e : j = i
  · subst e; simp [h]
  · simp [Function.update_of_ne e]

theorem tally_update_enter {f : ι → π} {P : π → Prop} {i : ι} {v : π}
    (hfin : {j | P (f j)}.Finite) (hi : ¬ P (f i)) (hv : P v) :
    tally (Function.update f i v) P = tally f P + 1 := by
  unfold tally
  rw [setOf_update_of_pos hv]
  exact Set.ncard_insert_of_notMem hi hfin

theorem tally_update_leave {f : ι → π} {P : π → Prop} {i : ι} {v : π}
    (hfin : {j | P (f j)}.Finite) (hi : P (f i)) (hv : ¬ P v) :
    tally (Function.update f i v) P + 1 = tally f P := by
  unfold tally
  rw [setOf_update_of_neg hv]
  exact Set.ncard_sdiff_singleton_add_one hi hfin

/-- What one update does to a tally, whichever way it moves. -/
theorem tally_update {f : ι → π} {P : π → Prop} [DecidablePred P] {i : ι} {v : π}
    (hfin : {j | P (f j)}.Finite) :
    tally (Function.update f i v) P + (if P (f i) then 1 else 0) =
      tally f P + (if P v then 1 else 0) := by
  by_cases hi : P (f i) <;> by_cases hv : P v <;> simp only [hi, hv, if_true, if_false]
  · rw [tally_update_same (by simp [hi, hv])]
  · exact tally_update_leave hfin hi hv
  · exact tally_update_enter hfin hi hv
  · rw [tally_update_same (by simp [hi, hv])]

end IcsTrafficGen
