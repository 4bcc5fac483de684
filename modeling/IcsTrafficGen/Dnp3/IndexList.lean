import IcsTrafficGen.Dnp3.DataPoints
import IcsTrafficGen.Dnp3.IndexMatches
import Mathlib.Data.List.Induction
import Mathlib.Order.Bounds.Basic

/- The points that are pushed for an "Index List". What a match does is said once
   (`readRange_eq`); a list without blanks at its dashes has the matches and the points of its
   items (`indexList_expands`). The two loops are run with fuel, and come to their end. -/
namespace IcsTrafficGen.Dnp3

/-! ## The points that are pushed -/

/-- The station with a copy of the point for each of the indexes. -/
def pushed (dp : DataPoint) (indexes : List Int) (station : Node) : Node :=
  { station with
    dbSize := indexes.foldl (fun d i => growSize d dp.pointType (i + 1)) station.dbSize
    dataPoints := station.dataPoints ++ indexes.map fun i => { dp with index := i } }

@[simp] theorem pushed_nil (dp : DataPoint) (station : Node) : pushed dp [] station = station := by
  simp [pushed]

theorem pushed_append (dp : DataPoint) (is js : List Int) (station : Node) :
    pushed dp (is ++ js) station = pushed dp js (pushed dp is station) := by
  simp [pushed, List.foldl_append]

/-- The size of the type follows the largest index, and the other sizes stay. -/
theorem isGreatest_pushed (dp : DataPoint) (indexes : List Int) (station : Node) :
    IsGreatest (insert (sizeAt station.dbSize dp.pointType) {size | ∃ i ∈ indexes, size = i + 1})
      (sizeAt (pushed dp indexes station).dbSize dp.pointType) ∧
    ∀ t ≠ dp.pointType, sizeAt (pushed dp indexes station).dbSize t = sizeAt station.dbSize t := by
  induction indexes using List.reverseRecOn with
  | nil => simp [IsGreatest, upperBounds]
  | append_singleton indexes i ih =>
    obtain ⟨⟨hmem, hupper⟩, hother⟩ := ih
    have hsize (t : String) : sizeAt (pushed dp (indexes ++ [i]) station).dbSize t =
        if t = dp.pointType then max (sizeAt (pushed dp indexes station).dbSize dp.pointType) (i + 1)
        else sizeAt (pushed dp indexes station).dbSize t := by
      rw [pushed_append]
      exact sizeAt_growSize _ _ _ _
    refine ⟨⟨?_, ?_⟩, fun t ht => by rw [hsize, if_neg ht, hother t ht]⟩
    · rw [hsize, if_pos rfl]
      rcases max_choice (sizeAt (pushed dp indexes station).dbSize dp.pointType) (i + 1) with h | h
      · rw [h]
        rcases hmem with hmem | ⟨j, hj, hmem⟩
        · exact Or.inl hmem
        · exact Or.inr ⟨j, List.mem_append_left _ hj, hmem⟩
      · rw [h]
        exact Or.inr ⟨i, List.mem_append_right _ List.mem_cons_self, rfl⟩
    · rw [hsize, if_pos rfl]
      rintro size (rfl | ⟨j, hj, rfl⟩)
      · exact (hupper (Or.inl rfl)).trans (le_max_left _ _)
      · rcases List.mem_append.mp hj with hj | hj
        · exact (hupper (Or.inr ⟨j, hj, rfl⟩)).trans (le_max_left _ _)
        · cases List.mem_singleton.mp hj
          exact le_max_right _ _

theorem pushPtToStn_eq (station : Node) (dp : DataPoint) (i : Int) (hi : 0 ≤ i) :
    pushPtToStn station { dp with index := i } =
      if i < 2147483647 then .ok (pushed dp [i] station) else .error .undefined := by
  have hint : Cpp.InInt (i + 1) ↔ i < 2147483647 := by
    unfold Cpp.InInt
    omega
  unfold pushPtToStn Cpp.addInt
  simp only [hint]
  split <;> rfl

/-- One pass of the loop over a range. -/
theorem pushRange_eq (dp : DataPoint) (startIndex endIndex : Int) (station : Node) :
    pushRange dp startIndex endIndex station =
      if startIndex ≤ endIndex then do
        let station ← pushPtToStn station { dp with index := startIndex }
        pushRange dp (startIndex + 1) endIndex station
      else .ok station := by
  unfold pushRange
  split
  · next hle =>
    have hlen : (endIndex + 1 - startIndex).toNat = (endIndex + 1 - (startIndex + 1)).toNat + 1 := by
      omega
    have hnext (k : ℕ) : startIndex + (k.succ : Int) = startIndex + 1 + k := by omega
    rw [hlen, List.range_succ_eq_map, List.foldlM_cons]
    simp only [List.foldlM_map, hnext, Nat.cast_zero, Int.add_zero]
  · next hgt =>
    have hlen : (endIndex + 1 - startIndex).toNat = 0 := by omega
    rw [hlen]
    rfl

theorem span_cons {a b : ℕ} (h : a ≤ b) : span a b = (a : Int) :: span (a + 1) b := by
  have hlen : b + 1 - a = (b + 1 - (a + 1)) + 1 := by omega
  rw [span, hlen, List.range'_succ, List.map_cons]
  rfl

theorem span_nil {a b : ℕ} (h : b < a) : span a b = [] := by
  have hlen : b + 1 - a = 0 := by omega
  rw [span, hlen]
  rfl

/-- A range is pushed, unless it goes up to the largest `int`. -/
theorem pushRange_span (dp : DataPoint) {a b : ℕ} (hb : b ≤ 2147483647) (station : Node) :
    pushRange dp a b station =
      if b < 2147483647 ∨ b < a then .ok (pushed dp (span a b) station)
      else .error .undefined := by
  induction hn : b + 1 - a generalizing a station with
  | zero =>
    have hlt : b < a := by omega
    rw [pushRange_eq, if_neg (by omega), if_pos (Or.inr hlt), span_nil hlt, pushed_nil]
  | succ k ih =>
    have hle : a ≤ b := by omega
    have hstep := pushPtToStn_eq station dp a (by omega)
    have hcast : ((a : Int) + 1) = ((a + 1 : ℕ) : Int) := by push_cast; rfl
    rw [pushRange_eq, if_pos (by omega), hstep, hcast]
    by_cases ha : a < 2147483647
    · rw [if_pos (by omega), span_cons hle]
      show pushRange dp ((a + 1 : ℕ) : Int) b (pushed dp [(a : Int)] station) = _
      rw [ih _ (by omega), ← pushed_append, List.singleton_append]
      have hiff : (b < 2147483647 ∨ b < a + 1) ↔ (b < 2147483647 ∨ b < a) := by omega
      simp only [hiff]
    · rw [if_neg (by omega), if_neg (by omega)]
      rfl

/-! ## A match -/

/-- A match of the expression: the second submatch is a number or empty. -/
def IsMatch (m : List Char × List Char) : Prop :=
  ∃ n : Numeral, m.1 = n.digits ∧ (m.2 = [] ∨ ∃ k : Numeral, m.2 = k.digits)

/-- The first number of the match is no `int`. -/
def TooLarge (m : List Char × List Char) : Prop := 2147483647 < PTree.digitsVal m.1

/-- The range of the match ends with the largest `int`. -/
def ReachesTop (m : List Char × List Char) : Prop :=
  endIndexOf (PTree.digitsVal m.1) m.2 = 2147483647

instance (m : List Char × List Char) : Decidable (TooLarge m) := inferInstanceAs (Decidable (_ < _))

instance (m : List Char × List Char) : Decidable (ReachesTop m) :=
  inferInstanceAs (Decidable (_ = _))

theorem isMatch_of_mem {s : List Char} {m : List Char × List Char} (h : m ∈ matchesOf s) :
    IsMatch m := by
  induction hn : s.length using Nat.strongRecOn generalizing s with
  | ind len ih =>
    rw [matchesOf_eq] at h
    split at h
    · next hdigit =>
      rcases List.mem_cons.mp h with rfl | h
      · obtain ⟨u, n, t, rfl, hu, ht⟩ := exists_firstNumeral hdigit
        rw [nextMatch_append n hu ht]
        refine ⟨n, rfl, or_iff_not_imp_left.mpr fun hne => ⟨⟨_, hne, ?_⟩, rfl⟩⟩
        exact fun c hc => List.mem_takeWhile_imp hc
      · exact ih _ (hn ▸ nextMatch_length hdigit) h rfl
    · cases h

theorem endIndexOf_nil (a : Int) : endIndexOf a [] = a := rfl

theorem endIndexOf_digits (a : Int) (m : Numeral) :
    endIndexOf a m.digits = if m.val ≤ 2147483647 then (m.val : Int) else a := by
  rw [endIndexOf, m.isNumber.stoi]
  by_cases h : m.val ≤ 2147483647
  · rw [if_pos h, if_pos h]
  · rw [if_neg h, if_neg h]

theorem IsMatch.endIndexOf {m : List Char × List Char} (h : IsMatch m) (hm : ¬ TooLarge m) :
    ∃ e : ℕ, Dnp3.endIndexOf (PTree.digitsVal m.1) m.2 = e ∧ e ≤ 2147483647 := by
  have hfirst : PTree.digitsVal m.1 ≤ 2147483647 := Nat.le_of_not_lt hm
  obtain ⟨n, -, hsecond | ⟨k, hsecond⟩⟩ := h
  · exact ⟨_, by rw [hsecond, endIndexOf_nil], hfirst⟩
  · rw [hsecond, endIndexOf_digits]
    split
    · next hk => exact ⟨_, rfl, hk⟩
    · exact ⟨_, rfl, hfirst⟩

/-- A range has at most as many numbers as there are from 0 to the largest `int`. -/
theorem IsMatch.range_length {m : List Char × List Char} (h : IsMatch m) {startIndex : Int}
    (hstart : CppString.stoi m.1 = .ok startIndex) :
    (Dnp3.endIndexOf startIndex m.2 + 1 - startIndex).toNat ≤ 2 ^ 31 := by
  obtain ⟨n, hn, -⟩ := id h
  rw [hn, n.isNumber.stoi] at hstart
  split at hstart
  · next hle =>
    cases hstart
    have hlarge : ¬ TooLarge m := by
      rw [TooLarge, hn]
      exact Nat.not_lt.mpr hle
    obtain ⟨e, he, hmax⟩ := h.endIndexOf hlarge
    rw [hn] at he
    rw [Numeral.val, he]
    omega
  · cases hstart

theorem rangeOf_eq {m : List Char × List Char} (h : IsMatch m) (hm : ¬ TooLarge m) {e : ℕ}
    (he : Dnp3.endIndexOf (PTree.digitsVal m.1) m.2 = e) :
    rangeOf m = span (PTree.digitsVal m.1) e := by
  obtain ⟨n, hn, -⟩ := h
  have hstoi := n.isNumber.stoi
  rw [if_pos (show n.val ≤ 2147483647 by rw [Numeral.val, ← hn]; exact Nat.le_of_not_lt hm),
    ← hn] at hstoi
  have hval : n.val = PTree.digitsVal m.1 := by rw [Numeral.val, ← hn]
  have hlen : ((e : Int) + 1 - (PTree.digitsVal m.1 : ℕ)).toNat = e + 1 - PTree.digitsVal m.1 := by
    omega
  rw [rangeOf, hstoi, hval]
  dsimp only
  rw [he, hlen, span, List.range'_eq_map_range, List.map_map]
  rfl

/-- What one pass of the loop over the matches does. -/
theorem readRange_eq {m : List Char × List Char} (h : IsMatch m) (dp : DataPoint)
    (station : Node) : readRange dp station m =
      if TooLarge m then .error .throws else if ReachesTop m then .error .undefined
      else .ok (pushed dp (rangeOf m) station) := by
  have hstoi : CppString.stoi m.1 =
      if PTree.digitsVal m.1 ≤ 2147483647 then .ok (PTree.digitsVal m.1 : Int)
      else .error .throws := by
    obtain ⟨n, hn, -⟩ := h
    rw [hn]
    exact n.isNumber.stoi
  unfold readRange
  by_cases hlarge : TooLarge m
  · rw [if_pos hlarge, hstoi, if_neg (Nat.not_le.mpr hlarge)]
    rfl
  · obtain ⟨e, he, hmax⟩ := h.endIndexOf hlarge
    have hle : PTree.digitsVal m.1 ≤ 2147483647 := Nat.le_of_not_lt hlarge
    rw [if_neg hlarge, hstoi, if_pos hle]
    show pushRange dp (PTree.digitsVal m.1) (Dnp3.endIndexOf (PTree.digitsVal m.1) m.2) station = _
    rw [he, pushRange_span dp hmax, rangeOf_eq h hlarge he]
    by_cases htop : ReachesTop m
    · have : (e : Int) = 2147483647 := he.symm.trans htop
      rw [if_pos htop, if_neg (by omega)]
    · have : (e : Int) ≠ 2147483647 := fun heq => htop (he.trans heq)
      rw [if_neg htop, if_pos (by omega)]

/-- Matches that are all read are all pushed. -/
theorem readRanges_ok {ms : List (List Char × List Char)} (dp : DataPoint) (station : Node)
    (h : ∀ m ∈ ms, IsMatch m) (hok : ∀ m ∈ ms, ¬ TooLarge m ∧ ¬ ReachesTop m) :
    ms.foldlM (readRange dp) station = .ok (pushed dp (ms.flatMap rangeOf) station) := by
  induction ms generalizing station with
  | nil => simp [pure, Except.pure]
  | cons m ms ih =>
    obtain ⟨hm, h⟩ := List.forall_mem_cons.mp h
    obtain ⟨⟨hlarge, htop⟩, hok⟩ := List.forall_mem_cons.mp hok
    rw [List.foldlM_cons, readRange_eq hm, if_neg hlarge, if_neg htop, List.flatMap_cons,
      pushed_append]
    exact ih (pushed dp (rangeOf m) station) h hok

/-! ## The loops as they run -/

/-- The loop over a range, cut off after `fuel` tests of its condition. -/
def pushLoop (dp : DataPoint) (endIndex : Int) : ℕ → Int → Node → Option (Cpp Node)
  | 0, _, _ => none
  | fuel + 1, i, station =>
    if i ≤ endIndex then
      match pushPtToStn station { dp with index := i } with
      | .error e => some (.error e)
      | .ok station => match Cpp.addInt i 1 with
        | .error e => some (.error e)
        | .ok i => pushLoop dp endIndex fuel i station
    else some (.ok station)

/-- The loop over the matches, cut off after `fuel` of them. -/
def matchLoop (dp : DataPoint) : ℕ → List Char → Node → Option (Cpp Node)
  | 0, _, _ => none
  | fuel + 1, s, station =>
    if s.any Char.isDigit then
      match CppString.stoi (nextMatch s).1.1 with
      | .error e => some (.error e)
      | .ok startIndex =>
        match pushLoop dp (endIndexOf startIndex (nextMatch s).1.2) fuel startIndex station with
        | none => none
        | some (.error e) => some (.error e)
        | some (.ok station) => matchLoop dp fuel (nextMatch s).2 station
    else some (.ok station)

theorem pushLoop_eq (dp : DataPoint) {endIndex i : Int} {fuel : ℕ}
    (hfuel : (endIndex + 1 - i).toNat < fuel) (station : Node) :
    pushLoop dp endIndex fuel i station = some (pushRange dp i endIndex station) := by
  induction fuel generalizing i station with
  | zero => omega
  | succ fuel ih =>
    rw [pushLoop, pushRange_eq]
    by_cases hle : i ≤ endIndex
    · rw [if_pos hle, if_pos hle]
      cases hpush : pushPtToStn station { dp with index := i } with
      | error e => rfl
      | ok station' =>
        -- where the push did not overflow, `i++` does not
        obtain ⟨size, hsize, -⟩ := Fallible.bind_ok.mp hpush
        have hnext : Cpp.addInt i 1 = .ok (i + 1) := by
          obtain ⟨hint, -⟩ := Cpp.addInt_ok.mp hsize
          exact Cpp.addInt_ok.mpr ⟨hint, rfl⟩
        simp only [hnext]
        exact ih (by omega) station'
    · rw [if_neg hle, if_neg hle]

/-- Both loops come to their end on every text, and the end is that of `readRange` over the
matches. -/
theorem matchLoop_eq (dp : DataPoint) {s : List Char} {fuel : ℕ}
    (hfuel : 2 ^ 31 + s.length < fuel) (station : Node) :
    matchLoop dp fuel s station = some ((matchesOf s).foldlM (readRange dp) station) := by
  induction fuel generalizing s station with
  | zero => omega
  | succ fuel ih =>
    rw [matchLoop, matchesOf_eq]
    split
    · next hdigit =>
      have hlt := nextMatch_length hdigit
      have hmatch : IsMatch (nextMatch s).1 := by
        apply isMatch_of_mem (s := s)
        rw [matchesOf_eq, if_pos hdigit]
        exact List.mem_cons_self
      rw [List.foldlM_cons]
      unfold readRange
      cases hstoi : CppString.stoi (nextMatch s).1.1 with
      | error e => rfl
      | ok startIndex =>
        have hlen := hmatch.range_length hstoi
        dsimp only
        rw [pushLoop_eq dp (by omega) station]
        show _ = some (pushRange dp startIndex _ station >>= _)
        cases pushRange dp startIndex (endIndexOf startIndex (nextMatch s).1.2) station with
        | error e => rfl
        | ok station' => exact ih (by omega) station'
    · rfl

/-! ## A list without blanks at its dashes -/

theorem rangeOf_number {n : Numeral} (h : n.val ≤ 2147483647) :
    rangeOf (n.digits, []) = span n.val n.val :=
  rangeOf_eq (m := (n.digits, [])) ⟨n, rfl, Or.inl rfl⟩ (Nat.not_lt.mpr h) rfl

theorem rangeOf_range {n m : Numeral} (hn : n.val ≤ 2147483647) (hm : m.val ≤ 2147483647) :
    rangeOf (n.digits, m.digits) = span n.val m.val := by
  have hend := endIndexOf_digits n.val m
  rw [if_pos hm] at hend
  exact rangeOf_eq (m := (n.digits, m.digits)) ⟨n, rfl, Or.inr ⟨m, rfl⟩⟩ (Nat.not_lt.mpr hn) hend

/-- A match of an `int` whose range ends below the largest `int`. -/
theorem goodMatch {n : Numeral} {b : List Char} {e : ℕ} (hn : n.val ≤ 2147483647)
    (he : endIndexOf n.val b = e) (hlt : e < 2147483647) :
    ¬ TooLarge (n.digits, b) ∧ ¬ ReachesTop (n.digits, b) := by
  refine ⟨Nat.not_lt.mpr hn, fun htop => ?_⟩
  have : (e : Int) = 2147483647 := he.symm.trans htop
  omega

theorem span_self (a : ℕ) : span a a = [(a : Int)] := by
  rw [span_cons le_rfl, span_nil (Nat.lt_succ_self a)]

theorem span_two {a b : ℕ} (h : b = a + 1) : span a b = [(a : Int), b] := by
  subst h
  rw [span_cons (Nat.le_succ a), span_self]

/-- What is found in a readable item are its indexes. -/
theorem IndexItem.Readable.found {i : IndexItem} (h : i.Readable) :
    (∀ m ∈ i.found, ¬ TooLarge m ∧ ¬ ReachesTop m) ∧ i.found.flatMap rangeOf = i.indexes := by
  unfold IndexItem.Readable at h
  unfold IndexItem.found IndexItem.indexes
  cases hrange : i.last with
  | none =>
    simp only [hrange] at h
    dsimp only
    rw [List.forall_mem_singleton, List.flatMap_singleton]
    exact ⟨goodMatch h.le (endIndexOf_nil _) h, rangeOf_number h.le⟩
  | some r =>
    obtain ⟨before, m, after⟩ := r
    simp only [hrange] at h
    dsimp only
    obtain ⟨hm, h⟩ := h
    split at h
    · next htight =>
      have hend := endIndexOf_digits i.first.val m
      rw [if_pos hm.le] at hend
      rw [if_pos htight, List.forall_mem_singleton, List.flatMap_singleton]
      exact ⟨goodMatch h hend hm, rangeOf_range h hm.le⟩
    · next htight =>
      have hfirst : i.first.val < 2147483647 := by omega
      rw [if_neg htight, List.forall_mem_cons, List.forall_mem_singleton, List.flatMap_cons,
        List.flatMap_singleton, rangeOf_number hfirst.le, rangeOf_number hm.le, span_two h,
        span_self, span_self]
      exact ⟨⟨goodMatch hfirst.le (endIndexOf_nil _) hfirst, goodMatch hm.le (endIndexOf_nil _) hm⟩,
        rfl⟩

theorem IndexList.readable {l : IndexList} (h : ∀ i ∈ l.items, i.Readable) :
    (∀ m ∈ matchesOf l.text, ¬ TooLarge m ∧ ¬ ReachesTop m) ∧
      (matchesOf l.text).flatMap rangeOf = l.indexes := by
  rw [matchesOf_text, List.flatMap_assoc]
  refine ⟨fun m hm => ?_, List.flatMap_congr fun i hi => (h i hi).found.2⟩
  obtain ⟨i, hi, hm⟩ := List.mem_flatMap.mp hm
  exact (h i hi).found.1 m hm

theorem readDataEntry_list {pointTree : PTree} {dp : DataPoint} {n now : Node} {indexes : String}
    (hpoint : readDataPoint pointTree .new = .ok dp) (hindex : readIndex pointTree dp n = .ok now)
    (hlist : pointTree.getOptional PTree.asString ["Index List"] = some indexes) :
    readDataEntry n pointTree = (matchesOf indexes.toList).foldlM (readRange dp) now := by
  unfold readDataEntry readIndexList
  rw [hpoint]
  show (readIndex pointTree dp n >>= _) = _
  rw [hindex, hlist]
  rfl

/-- `readDataGenerationSpecs` comes to the "Index List" of an entry of "Data": with the point it
has read from the entry, with the station it has by then, and with the entries `after` it still
to read. -/
structure ComesTo (nodeTree : PTree) (station : Node) (indexes : String) (dp : DataPoint)
    (now : Node) (after : List (String × PTree)) : Prop where
  entry : ∃ dataTree before name pointTree n, nodeTree.childAt? ["Data"] = some dataTree ∧
    dataTree.children = before ++ (name, pointTree) :: after ∧
    before.foldlM (fun st p => readDataEntry st p.2) station = .ok n ∧
    readDataPoint pointTree .new = .ok dp ∧ readIndex pointTree dp n = .ok now ∧
    pointTree.getOptional PTree.asString ["Index List"] = some indexes

/-- What `readDataGenerationSpecs` does with the entries that are left. -/
def readRest (after : List (String × PTree)) (station : Node) : Cpp Node := do
  let station ← after.foldlM (fun st p => readDataEntry st p.2) station
  pure (resetEvtBuffers station)

theorem ComesTo.readDataGenerationSpecs {nodeTree : PTree} {station now : Node} {indexes : String}
    {dp : DataPoint} {after : List (String × PTree)}
    (h : ComesTo nodeTree station indexes dp now after) :
    Dnp3.readDataGenerationSpecs nodeTree station =
      (matchesOf indexes.toList).foldlM (readRange dp) now >>= readRest after := by
  obtain ⟨dataTree, before, name, pointTree, n, hdata, hchildren, hbefore, hpoint, hindex, hlist⟩ :=
    h.entry
  have hentry := readDataEntry_list hpoint hindex hlist
  unfold Dnp3.readDataGenerationSpecs
  rw [hdata]
  let step (st : Node) (p : String × PTree) : Cpp Node := readDataEntry st p.2
  calc dataTree.children.foldlM step station >>= (fun st => pure (resetEvtBuffers st))
      = (before.foldlM step station >>= ((name, pointTree) :: after).foldlM step) >>=
          fun st => pure (resetEvtBuffers st) := by rw [hchildren, List.foldlM_append]
    _ = (readDataEntry n pointTree >>= after.foldlM step) >>=
          fun st => pure (resetEvtBuffers st) := by rw [hbefore]; rfl
    _ = (matchesOf indexes.toList).foldlM (readRange dp) now >>= readRest after := by
        rw [hentry, bind_assoc]; rfl

/-- **Index List expansion.** Where `readDataGenerationSpecs` comes to a list without blanks at its
dashes and with numbers below the largest `int`, its loops end, and it pushes a copy of the
point for each index of each item, in order, and goes on with the entries behind. -/
theorem indexList_expands {nodeTree : PTree} {station now : Node} {dp : DataPoint}
    {after : List (String × PTree)} {l : IndexList}
    (h : ComesTo nodeTree station (String.ofList l.text) dp now after)
    (htight : ∀ i ∈ l.items, i.Tight) (hsmall : ∀ i ∈ l.items, i.Below 2147483647) :
    ∃ n, readDataGenerationSpecs nodeTree station = readRest after n ∧
      (∀ fuel, 2 ^ 31 + l.text.length < fuel → matchLoop dp fuel l.text now = some (.ok n)) ∧
      n.dataPoints = now.dataPoints ++ l.indexes.map (fun i => { dp with index := i }) ∧
      IsGreatest (insert (sizeAt now.dbSize dp.pointType) {size | ∃ i ∈ l.indexes, size = i + 1})
        (sizeAt n.dbSize dp.pointType) ∧
      ∀ t ≠ dp.pointType, sizeAt n.dbSize t = sizeAt now.dbSize t := by
  have hread : (matchesOf l.text).foldlM (readRange dp) now = .ok (pushed dp l.indexes now) := by
    have hreadable := l.readable fun i hi => (htight i hi).readable (hsmall i hi)
    rw [readRanges_ok dp now (fun m hm => isMatch_of_mem hm) hreadable.1, hreadable.2]
  refine ⟨pushed dp l.indexes now, ?_, ?_, rfl, isGreatest_pushed dp l.indexes now⟩
  · rw [h.readDataGenerationSpecs, String.toList_ofList, hread]
    rfl
  · intro fuel hfuel
    rw [matchLoop_eq dp hfuel, hread]

/-- An entry of "Data" with an "Index List". -/
def listEntry (indexes : String) : PTree :=
  .node "" [("Type", .leaf "Analog Input"), ("Event Class", .leaf "2"), ("sVariation", .leaf "5"),
    ("eVariation", .leaf "7"), ("Index List", .leaf indexes), ("Deadband", .leaf "1")]

/-- An entry of "Nodes" with this one entry of "Data". -/
def listTree (indexes : String) : PTree :=
  .node "" [("Data", .node "" [("", listEntry indexes)])]

def listPoint : DataPoint :=
  { index := 0, sVariation := 5, eVariation := 7, eventClass := 2, pointType := "Analog Input",
    deadband := some "1" }

theorem comesTo_listTree (indexes : String) :
    ComesTo (listTree indexes) .new indexes listPoint .new [] :=
  ⟨_, [], "", _, .new, rfl, rfl, rfl, rfl, rfl, rfl⟩

theorem isDigit_digitChar : ∀ d : Fin 10, (Nat.digitChar d).isDigit = true := by decide

/-- The last digit of a number. -/
def Numeral.digit (d : ℕ) : Numeral :=
  ⟨[Nat.digitChar (d % 10)], List.cons_ne_nil _ _,
    List.forall_mem_singleton.mpr (isDigit_digitChar (Fin.ofNat 10 d))⟩

def noBlanks : Blanks := ⟨[], by simp⟩

def oneBlank : Blanks := ⟨[' '], by simp [PTree.isSpace]⟩

/-- The list `0-9, 7`. -/
def tightList : IndexList :=
  { head := ⟨noBlanks, .digit 0, noBlanks, some (noBlanks, .digit 9, noBlanks)⟩
    tail := [⟨oneBlank, .digit 7, noBlanks, none⟩] }

theorem indexList_expands_tight : ∃ n, readDataGenerationSpecs (listTree "0-9, 7") .new = .ok n ∧
    n.dataPoints = [0, 1, 2, 3, 4, 5, 6, 7, 8, 9, 7].map fun i => { listPoint with index := i } := by
  obtain ⟨n, hn, -, hpoints, -⟩ := indexList_expands (l := tightList) (comesTo_listTree _)
    (by decide) (by decide)
  exact ⟨resetEvtBuffers n, hn, hpoints⟩

end IcsTrafficGen.Dnp3
