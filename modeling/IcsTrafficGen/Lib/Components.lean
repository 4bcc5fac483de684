import Mathlib.Data.List.Basic
import Mathlib.Logic.Relation

/- Groups that form while lists are read one after another. Two elements are linked if a
   chain of lists leads from one to the other. Who reads the lists in turn, and gives all
   elements of a list the label that some of them already have, or else a new one, ends
   with equal labels exactly on linked elements (`Labelled.eq_iff`). This can go wrong in
   one way: the elements of a list already have two labels. Whether it does depends on the
   order of the lists (`Mergeable`), the groups do not (`Linked.perm`). -/
namespace IcsTrafficGen
variable {α β : Type} {lists lists' : List (List α)} {s t : α}

/-- The element is in one of the lists. -/
def Listed (lists : List (List α)) (s : α) : Prop := ∃ l ∈ lists, s ∈ l

/-- A chain of lists leads from one element to the other. -/
def Linked (lists : List (List α)) : α → α → Prop :=
  Relation.EqvGen fun s t => ∃ l ∈ lists, s ∈ l ∧ t ∈ l

theorem listed_append : Listed (lists ++ lists') s ↔ Listed lists s ∨ Listed lists' s := by
  simp only [Listed, List.mem_append, or_and_right, exists_or]

theorem listed_singleton {l : List α} : Listed [l] s ↔ s ∈ l := by simp [Listed]

theorem Listed.perm (h : lists.Perm lists') : Listed lists s ↔ Listed lists' s := by
  simp only [Listed, h.mem_iff]

theorem Linked.of_mem {l : List α} (hl : l ∈ lists) (hs : s ∈ l) (ht : t ∈ l) : Linked lists s t :=
  Relation.EqvGen.rel _ _ ⟨l, hl, hs, ht⟩

theorem Linked.mono (hsub : ∀ l ∈ lists, l ∈ lists') (h : Linked lists s t) : Linked lists' s t := by
  refine Relation.EqvGen.mono (fun s t hst => ?_) s t h
  obtain ⟨l, hl, hs, ht⟩ := hst
  exact ⟨l, hsub l hl, hs, ht⟩

theorem Linked.perm (h : lists.Perm lists') : Linked lists s t ↔ Linked lists' s t :=
  ⟨Linked.mono fun _ hl => h.mem_iff.mp hl, Linked.mono fun _ hl => h.mem_iff.mpr hl⟩

/-- What is the same on every list is the same on linked elements. -/
theorem Linked.congr {f : α → β} (hf : ∀ l ∈ lists, ∀ s ∈ l, ∀ t ∈ l, f s = f t)
    (h : Linked lists s t) : f s = f t := by
  induction h with
  | rel s t hst =>
    obtain ⟨l, hl, hs, ht⟩ := hst
    exact hf l hl s hs t ht
  | refl s => rfl
  | symm s t _ ih => exact ih.symm
  | trans s t u _ _ ih ih' => exact ih.trans ih'

/-! ## Labels -/

/-- The elements of the lists have labels, those of one list the same, and no other group has it. -/
structure Labelled (lists : List (List α)) (label : α → Option β) : Prop where
  covers : ∀ s, Listed lists s ↔ ∃ b, label s = some b
  same : ∀ l ∈ lists, ∀ s ∈ l, ∀ t ∈ l, label s = label t
  linked : ∀ s t b, label s = some b → label t = some b → Linked lists s t

theorem labelled_nil : Labelled [] fun _ : α => (none : Option β) where
  covers s := by simp [Listed]
  same l hl := by cases hl
  linked s t b h := by cases h

/-- Equal labels are those of linked elements. -/
theorem Labelled.eq_iff {label : α → Option β} (h : Labelled lists label) (hs : Listed lists s) :
    label s = label t ↔ Linked lists s t := by
  constructor
  · intro heq
    obtain ⟨b, hb⟩ := (h.covers s).mp hs
    exact h.linked s t b hb (heq ▸ hb)
  · exact Linked.congr h.same

/-- The next list gets the label that its elements have, if they have one, or a new one. -/
theorem Labelled.step {label label' : α → Option β} (h : Labelled lists label) {l : List α} {c : β}
    (hin : ∀ s ∈ l, label' s = some c) (hout : ∀ s, s ∉ l → label' s = label s)
    (hold : ∀ s ∈ l, ∀ b, label s = some b → b = c)
    (hfresh : (∃ s ∈ l, label s = some c) ∨ ∀ s, label s ≠ some c) :
    Labelled (lists ++ [l]) label' := by
  have hkeep : ∀ s b, label s = some b → label' s = some b := by
    intro s b hb
    by_cases hs : s ∈ l
    · rw [hin s hs, hold s hs b hb]
    · rw [hout s hs, hb]
  have hmono : ∀ s t, Linked lists s t → Linked (lists ++ [l]) s t :=
    fun s t => Linked.mono fun m hm => List.mem_append_left _ hm
  have hlast : ∀ s ∈ l, ∀ t ∈ l, Linked (lists ++ [l]) s t :=
    fun s hs t ht => Linked.of_mem (by simp) hs ht
  -- an element outside of the list with its label got it from one inside
  have hjoin : ∀ s ∈ l, ∀ t, label t = some c → Linked (lists ++ [l]) s t := by
    intro s hs t ht
    obtain ⟨u, hu, huc⟩ := hfresh.resolve_right fun hnone => hnone t ht
    exact (hlast s hs u hu).trans _ _ _ (hmono u t (h.linked u t c huc ht))
  refine ⟨fun s => ?_, fun m hm s hs t ht => ?_, fun s t b hs ht => ?_⟩
  · rw [listed_append, listed_singleton]
    by_cases hs : s ∈ l
    · simp [hs, hin s hs]
    · rw [hout s hs, ← h.covers]
      simp [hs]
  · obtain hm | hm := List.mem_append.mp hm
    · obtain ⟨b, hb⟩ := (h.covers s).mp ⟨m, hm, hs⟩
      rw [hkeep s b hb, hkeep t b (h.same m hm s hs t ht ▸ hb)]
    · rw [List.mem_singleton.mp hm] at hs ht
      rw [hin s hs, hin t ht]
  · by_cases hsl : s ∈ l
    · rw [hin s hsl, Option.some_inj] at hs
      subst hs
      by_cases htl : t ∈ l
      · exact hlast s hsl t htl
      · exact hjoin s hsl t (hout t htl ▸ ht)
    · rw [hout s hsl] at hs
      by_cases htl : t ∈ l
      · rw [hin t htl, Option.some_inj] at ht
        subst ht
        exact (hjoin t htl s hs).symm
      · exact hmono s t (h.linked s t b hs (hout t htl ▸ ht))

/-! ## Lists that join groups -/

/-- The elements of the list that are in earlier lists are of one group. -/
def OneGroup (earlier : List (List α)) (l : List α) : Prop :=
  ∀ s ∈ l, ∀ t ∈ l, Listed earlier s → Listed earlier t → Linked earlier s t

/-- No list has elements of two groups that the lists before it formed. -/
def Mergeable : List (List α) → List (List α) → Prop
  | _, [] => True
  | earlier, l :: rest => OneGroup earlier l ∧ Mergeable (earlier ++ [l]) rest

theorem mergeable_append {earlier l₁ l₂ : List (List α)} :
    Mergeable earlier (l₁ ++ l₂) ↔ Mergeable earlier l₁ ∧ Mergeable (earlier ++ l₁) l₂ := by
  induction l₁ generalizing earlier with
  | nil => simp [Mergeable]
  | cons l l₁ ih => simp only [List.cons_append, Mergeable, ih, List.append_assoc, and_assoc,
      List.nil_append]

theorem Labelled.oneGroup_iff {label : α → Option β} (h : Labelled lists label) {l : List α} :
    OneGroup lists l ↔ ∀ s ∈ l, ∀ t ∈ l, ∀ b c, label s = some b → label t = some c → b = c := by
  constructor
  · intro hone s hs t ht b c hb hc
    have hst := hone s hs t ht ((h.covers s).mpr ⟨b, hb⟩) ((h.covers t).mpr ⟨c, hc⟩)
    rw [← h.eq_iff ((h.covers s).mpr ⟨b, hb⟩), hb, hc] at hst
    exact Option.some_inj.mp hst
  · intro hall s hs t ht hls hlt
    obtain ⟨b, hb⟩ := (h.covers s).mp hls
    obtain ⟨c, hc⟩ := (h.covers t).mp hlt
    rw [← h.eq_iff hls, hb, hc, hall s hs t ht b c hb hc]

end IcsTrafficGen
