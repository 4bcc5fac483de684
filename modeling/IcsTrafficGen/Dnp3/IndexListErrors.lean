import IcsTrafficGen.Dnp3.IndexList

/- The texts given as an "Index List" for which the reader says what it does: it pushes the points
   that the text lists, or it throws. It throws only for a first number that is no `int`. All else
   is skipped or read in part, so what is left is the lists that are read as they are meant
   (`indexList_reported_iff`). -/
namespace IcsTrafficGen.Dnp3

/-- The text is a list and the result has the points it lists, or an exception was thrown. -/
def ListedOrReported (dp : DataPoint) (now : Node) (indexes : String) (result : Cpp Node) : Prop :=
  (∃ l : IndexList, l.text = indexes.toList ∧ ∃ n, result = .ok n ∧
    n.dataPoints = now.dataPoints ++ l.indexes.map fun i => { dp with index := i }) ∨
  result = .error .throws

/-- The first match that cannot be read or ends with the largest `int` is one whose first number
is no `int`. -/
def ThrowsFirst (ms : List (List Char × List Char)) : Prop :=
  ∃ before m after, ms = before ++ m :: after ∧ TooLarge m ∧
    ∀ m' ∈ before, ¬ TooLarge m' ∧ ¬ ReachesTop m'

/-! ## How the loop over the matches ends -/

section
variable {dp : DataPoint} {ms : List (List Char × List Char)} {station : Node}

theorem readRanges_ok_iff (h : ∀ m ∈ ms, IsMatch m) {n : Node} :
    ms.foldlM (readRange dp) station = .ok n ↔
      (∀ m ∈ ms, ¬ TooLarge m ∧ ¬ ReachesTop m) ∧ n = pushed dp (ms.flatMap rangeOf) station := by
  constructor
  · intro hok
    have hgood : ∀ m ∈ ms, ¬ TooLarge m ∧ ¬ ReachesTop m := by
      induction ms generalizing station with
      | nil => simp
      | cons m ms ih =>
        obtain ⟨hm, h⟩ := List.forall_mem_cons.mp h
        rw [List.foldlM_cons, readRange_eq hm] at hok
        split at hok
        · cases hok
        · next hlarge =>
          split at hok
          · cases hok
          · next htop => exact List.forall_mem_cons.mpr ⟨⟨hlarge, htop⟩, ih h hok⟩
    rw [readRanges_ok dp station h hgood] at hok
    exact ⟨hgood, (Except.ok.inj hok).symm⟩
  · rintro ⟨hgood, rfl⟩
    exact readRanges_ok dp station h hgood

theorem readRanges_throws_iff (h : ∀ m ∈ ms, IsMatch m) :
    ms.foldlM (readRange dp) station = .error .throws ↔ ThrowsFirst ms := by
  induction ms generalizing station with
  | nil => simp [ThrowsFirst, pure, Except.pure]
  | cons m ms ih =>
    obtain ⟨hm, h⟩ := List.forall_mem_cons.mp h
    rw [List.foldlM_cons, readRange_eq hm]
    by_cases hlarge : TooLarge m
    · rw [if_pos hlarge]
      exact iff_of_true rfl ⟨[], m, ms, rfl, hlarge, by simp⟩
    · rw [if_neg hlarge]
      by_cases htop : ReachesTop m
      · rw [if_pos htop]
        refine iff_of_false (by rintro ⟨⟩) ?_
        rintro ⟨before, m', after, heq, hlarge', hbefore⟩
        cases before with
        | nil =>
          cases heq
          exact hlarge hlarge'
        | cons m₀ before =>
          cases heq
          exact (hbefore m List.mem_cons_self).2 htop
      · rw [if_neg htop]
        refine (ih h).trans ⟨?_, ?_⟩
        · rintro ⟨before, m', after, rfl, hlarge', hbefore⟩
          exact ⟨m :: before, m', after, rfl, hlarge',
            List.forall_mem_cons.mpr ⟨⟨hlarge, htop⟩, hbefore⟩⟩
        · rintro ⟨before, m', after, heq, hlarge', hbefore⟩
          cases before with
          | nil =>
            cases heq
            exact absurd hlarge' hlarge
          | cons m₀ before =>
            cases heq
            exact ⟨before, m', after, rfl, hlarge', (List.forall_mem_cons.mp hbefore).2⟩

end

/-! ## Two lists of numbers -/

theorem getElem?_span {a b k : ℕ} {i : Int} (h : (span a b)[k]? = some i) : i = a + k := by
  rw [span, List.getElem?_map] at h
  obtain ⟨j, hj, rfl⟩ := Option.map_eq_some_iff.mp h
  obtain ⟨hlt, -⟩ := List.getElem?_eq_some_iff.mp hj
  rw [List.getElem?_range' (by simpa using hlt)] at hj
  cases hj
  push_cast
  ring

theorem mem_span {a b : ℕ} {i : Int} (h : i ∈ span a b) : (a : Int) ≤ i ∧ i ≤ b := by
  obtain ⟨j, hj, rfl⟩ := List.mem_map.mp h
  have := List.mem_range'_1.mp hj
  omega

/-- Where some of the ranges are left with their two ends, the numbers are those of the ranges
only if each of these ranges is its two ends: what runs behind by `w` never catches up. -/
theorem flatMap_span {α : Type} {items : List α} {p d : α → List Int} {w : List Int}
    (h : ∀ i ∈ items, p i = d i ∨ ∃ a b : ℕ, p i = [(a : Int), (b : Int)] ∧ d i = span a b)
    (heq : items.flatMap d = w ++ items.flatMap p) : w = [] ∧ ∀ i ∈ items, p i = d i := by
  induction items generalizing w with
  | nil => simpa using heq.symm
  | cons i items ih =>
    obtain ⟨hi, h⟩ := List.forall_mem_cons.mp h
    rw [List.forall_mem_cons]
    rw [List.flatMap_cons, List.flatMap_cons, ← List.append_assoc, List.append_eq_append_iff] at heq
    rcases hi with hi | ⟨a, b, hp, hd⟩
    · rw [hi] at heq
      rcases heq with ⟨w', hw', htail⟩ | ⟨w', hw', htail⟩
      · obtain ⟨rfl, hrest⟩ := ih h htail
        have hlen := congrArg List.length hw'
        simp only [List.length_append, List.length_nil] at hlen
        exact ⟨List.length_eq_zero_iff.mp (by omega), hi, hrest⟩
      · have hlen := congrArg List.length hw'
        simp only [List.length_append] at hlen
        have hnil : w' = [] := List.length_eq_zero_iff.mp (by omega)
        rw [hnil, List.nil_append] at htail
        exact ⟨List.length_eq_zero_iff.mp (by omega), hi, (ih (w := []) h htail.symm).2⟩
    · -- the first end stands behind `w`, and only the first number of the range is as small
      have hbehind {v : List Int} (hspan : span a b = w ++ [(a : Int), (b : Int)] ++ v) : w = [] := by
        have hfirst : (span a b)[w.length]? = some (a : Int) := by simp [hspan]
        have := getElem?_span hfirst
        exact List.length_eq_zero_iff.mp (by omega)
      rw [hp, hd] at heq ⊢
      rcases heq with ⟨w', hw', htail⟩ | ⟨w', hw', htail⟩
      · obtain ⟨rfl, hrest⟩ := ih h htail
        rw [List.append_nil] at hw'
        have hw : w = [] := hbehind (v := []) (by rw [List.append_nil, hw'])
        exact ⟨hw, by rw [← hw', hw, List.nil_append], hrest⟩
      · have hw := hbehind hw'
        rw [hw, List.nil_append] at hw'
        have hsecond : (span a b)[1]? = some (b : Int) := by simp [hw']
        have := getElem?_span hsecond
        have htwo := span_two (show b = a + 1 by omega)
        have hnil : w' = [] := by simpa [htwo] using hw'
        rw [hnil, List.nil_append] at htail
        exact ⟨hw, htwo.symm, (ih (w := []) h htail.symm).2⟩

/-! ## The lists that are read as they are meant -/

theorem rangeOf_lt {m : List Char × List Char} (h : IsMatch m)
    (hgood : ¬ TooLarge m ∧ ¬ ReachesTop m) {k : Int} (hk : k ∈ rangeOf m) : k < 2147483647 := by
  obtain ⟨e, he, hmax⟩ := h.endIndexOf hgood.1
  have htop : (e : Int) ≠ 2147483647 := fun heq => hgood.2 (he.trans heq)
  rw [rangeOf_eq h hgood.1 he] at hk
  have := (mem_span hk).2
  omega

theorem goodMatch_number {n : Numeral}
    (h : ¬ TooLarge (n.digits, []) ∧ ¬ ReachesTop (n.digits, [])) : n.val < 2147483647 := by
  have hle : n.val ≤ 2147483647 := Nat.le_of_not_lt h.1
  have hne : (n.val : Int) ≠ 2147483647 := h.2
  omega

/-- An item that is read without an error is readable, or is a range that is left with its two
ends. -/
theorem IndexItem.readable_or (i : IndexItem) (hgood : ∀ m ∈ i.found, ¬ TooLarge m ∧ ¬ ReachesTop m)
    (hmax : ∀ k ∈ i.indexes, k < 2147483647) :
    i.Readable ∨ ∃ a b : ℕ, i.found.flatMap rangeOf = [(a : Int), (b : Int)] ∧
      i.indexes = span a b ∧ (b = a + 1 → i.Readable) := by
  unfold IndexItem.found at hgood ⊢
  unfold IndexItem.indexes at hmax ⊢
  unfold IndexItem.Readable
  cases hrange : i.last with
  | none =>
    simp only [hrange] at hgood
    rw [List.forall_mem_singleton] at hgood
    exact Or.inl (goodMatch_number hgood)
  | some r =>
    obtain ⟨before, m, after⟩ := r
    simp only [hrange] at hgood hmax
    dsimp only
    split at hgood
    · next htight =>
      rw [List.forall_mem_singleton] at hgood
      have hfirst : i.first.val ≤ 2147483647 := Nat.le_of_not_lt hgood.1
      -- a second number that is too large would have been left out
      have hm : m.val < 2147483647 := by
        by_contra hge
        have hmem : (m.val : Int) ∈ span i.first.val m.val := by
          refine List.mem_map.mpr ⟨m.val, List.mem_range'_1.mpr ?_, rfl⟩
          omega
        have := hmax _ hmem
        omega
      rw [if_pos htight]
      exact Or.inl ⟨hm, hfirst⟩
    · next htight =>
      rw [List.forall_mem_cons, List.forall_mem_singleton] at hgood
      have hfirst := goodMatch_number hgood.1
      have hm := goodMatch_number hgood.2
      refine Or.inr ⟨i.first.val, m.val, ?_, rfl, fun hnext => ⟨hm, by rw [if_neg htight, hnext]⟩⟩
      rw [if_neg htight, List.flatMap_cons, List.flatMap_singleton, rangeOf_number hfirst.le,
        rangeOf_number hm.le, span_self, span_self]
      rfl

/-- A list that is read without an error and gives the numbers it lists is readable. -/
theorem IndexList.readable_of_read {l : IndexList}
    (hgood : ∀ m ∈ matchesOf l.text, ¬ TooLarge m ∧ ¬ ReachesTop m)
    (heq : (matchesOf l.text).flatMap rangeOf = l.indexes) : ∀ i ∈ l.items, i.Readable := by
  have hlt : ∀ k ∈ l.indexes, k < 2147483647 := by
    intro k hk
    rw [← heq] at hk
    obtain ⟨m, hm, hk⟩ := List.mem_flatMap.mp hk
    exact rangeOf_lt (isMatch_of_mem hm) (hgood m hm) hk
  have hitem : ∀ i ∈ l.items, i.Readable ∨ ∃ a b : ℕ,
      i.found.flatMap rangeOf = [(a : Int), (b : Int)] ∧ i.indexes = span a b ∧
        (b = a + 1 → i.Readable) := by
    intro i hi
    apply i.readable_or
    · intro m hm
      exact hgood m (by rw [matchesOf_text]; exact List.mem_flatMap.mpr ⟨i, hi, hm⟩)
    · exact fun k hk => hlt k (List.mem_flatMap.mpr ⟨i, hi, hk⟩)
  rw [matchesOf_text, List.flatMap_assoc] at heq
  have hequal : ∀ i ∈ l.items, i.found.flatMap rangeOf = i.indexes := by
    have hnone : l.items.flatMap IndexItem.indexes =
        [] ++ l.items.flatMap fun i => i.found.flatMap rangeOf := heq.symm
    refine (flatMap_span (fun i hi => ?_) hnone).2
    rcases hitem i hi with hread | ⟨a, b, hp, hd, -⟩
    · exact Or.inl hread.found.2
    · exact Or.inr ⟨a, b, hp, hd⟩
  intro i hi
  rcases hitem i hi with hread | ⟨a, b, hp, hd, hnext⟩
  · exact hread
  · apply hnext
    have hends : span a b = [(a : Int), (b : Int)] := by rw [← hd, ← hequal i hi, hp]
    have hsecond : (span a b)[1]? = some (b : Int) := by rw [hends]; rfl
    have := getElem?_span hsecond
    omega

/-- **Index List errors.** The reader pushes the points that the text lists or throws exactly if the
text is a list that is read as it is meant, or the first match that stops the loop has a first
number that is no `int`. -/
theorem indexList_reported_iff {pointTree : PTree} {dp : DataPoint} {n now : Node}
    {indexes : String} (hpoint : readDataPoint pointTree .new = .ok dp)
    (hindex : readIndex pointTree dp n = .ok now)
    (hlist : pointTree.getOptional PTree.asString ["Index List"] = some indexes) :
    ListedOrReported dp now indexes (readDataEntry n pointTree) ↔
      (∃ l : IndexList, l.text = indexes.toList ∧ ∀ i ∈ l.items, i.Readable) ∨
        ThrowsFirst (matchesOf indexes.toList) := by
  have hmatches : ∀ m ∈ matchesOf indexes.toList, IsMatch m := fun m hm => isMatch_of_mem hm
  rw [ListedOrReported, readDataEntry_list hpoint hindex hlist, readRanges_throws_iff hmatches]
  refine or_congr_left (exists_congr fun l => and_congr_right fun htext => ?_)
  rw [← htext]
  constructor
  · rintro ⟨n', hread, hpoints⟩
    obtain ⟨hgood, rfl⟩ := (readRanges_ok_iff (htext ▸ hmatches)).mp hread
    apply IndexList.readable_of_read hgood
    have hmaps := List.append_cancel_left hpoints
    have hindexes := congrArg (List.map DataPoint.index) hmaps
    simpa [Function.comp_def] using hindexes
  · intro hread
    obtain ⟨hgood, heq⟩ := IndexList.readable hread
    refine ⟨_, (readRanges_ok_iff (htext ▸ hmatches)).mpr ⟨hgood, rfl⟩, ?_⟩
    rw [heq]
    rfl

/-- The list `0 - 1, 7`. -/
def nextList : IndexList :=
  { head := ⟨noBlanks, .digit 0, oneBlank, some (oneBlank, .digit 1, noBlanks)⟩
    tail := [⟨oneBlank, .digit 7, noBlanks, none⟩] }

theorem indexList_reported_next :
    ListedOrReported listPoint .new "0 - 1, 7" (readDataEntry .new (listEntry "0 - 1, 7")) :=
  (indexList_reported_iff rfl rfl rfl).mpr (Or.inl ⟨nextList, rfl, by decide⟩)

/-- `1 - 3` lists three points, and the reader pushes two. -/
theorem indexList_not_reported :
    ¬ ListedOrReported listPoint .new "1 - 3" (readDataEntry .new (listEntry "1 - 3")) := by
  have hread : readDataEntry .new (listEntry "1 - 3") = .ok (pushed listPoint [1, 3] .new) := rfl
  have hmatches : matchesOf "1 - 3".toList = [(['1'], []), (['3'], [])] := by decide
  rw [ListedOrReported, hread]
  rintro (⟨l, htext, n, hn, hpoints⟩ | hthrows)
  · cases hn
    have hindexes : [1, 3] = l.indexes := by
      have := congrArg (List.map DataPoint.index) (List.append_cancel_left hpoints)
      simpa [Function.comp_def] using this
    have hranges : (matchesOf l.text).flatMap rangeOf = l.indexes := by
      rw [htext, hmatches, ← hindexes]
      rfl
    have hreadable := IndexList.readable_of_read (l := l) (by rw [htext]; decide) hranges
    have hfound := (matchesOf_text l).symm.trans ((congrArg matchesOf htext).trans hmatches)
    obtain ⟨head, tail⟩ := l
    cases tail with
    | cons i tail =>
      have hcomma : ',' ∈ IndexList.text ⟨head, i :: tail⟩ := by simp [IndexList.text]
      rw [htext] at hcomma
      exact absurd hcomma (by decide)
    | nil =>
      -- the only item is a range whose numbers are 1 and 3
      have hhead := hreadable head List.mem_cons_self
      have hfound : head.found = [(['1'], []), (['3'], [])] := by
        simpa [IndexList.items] using hfound
      unfold IndexItem.found at hfound
      unfold IndexItem.Readable at hhead
      cases hlast : head.last with
      | none => simp [hlast] at hfound
      | some r =>
        obtain ⟨before, m, after⟩ := r
        simp only [hlast] at hfound hhead
        split at hfound
        · simp at hfound
        · next htight =>
          simp only [List.cons.injEq, Prod.mk.injEq, and_true] at hfound
          obtain ⟨hfirst, hm⟩ := hfound
          have hnext := hhead.2
          rw [if_neg htight, Numeral.val, Numeral.val, hfirst, hm] at hnext
          exact absurd hnext (by decide)
  · cases hthrows

end IcsTrafficGen.Dnp3
