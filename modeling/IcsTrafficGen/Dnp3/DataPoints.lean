import IcsTrafficGen.Dnp3.InjectDataChanges
import IcsTrafficGen.Dnp3.StationPairs

/- Whether the points of an outstation lie inside its database. The readers keep the database
   as large as the largest index needs, but a negative index is not refused, and the size is
   narrowed to 16 bits when the database is made: the points are inside exactly if every
   listed index is from 0 to 65534 (`points_inside_iff`). -/
namespace IcsTrafficGen.Dnp3
open CfgJsonParser

/-- The size of the database that `OutStation::run` and `MappingOutstation::run` ask for:
`DatabaseSizes` takes `uint16_t`. -/
def databaseSize (n : Node) (pointType : String) : ℕ := Cpp.toUInt16 (sizeAt n.dbSize pointType)

/-- Every access of `ConfigureDatabase` is in range. -/
def PointsInside (n : Node) : Prop :=
  ∀ dp ∈ n.dataPoints, dp.pointType ∈ recordedTypes →
    0 ≤ dp.index ∧ dp.index < databaseSize n dp.pointType

/-! ## The listed points -/

/-- The indexes of a match. -/
def rangeOf (m : List Char × List Char) : List Int :=
  match CppString.stoi m.1 with
  | .ok startIndex =>
    (List.range (endIndexOf startIndex m.2 + 1 - startIndex).toNat).map fun k : ℕ => startIndex + k
  | .error _ => []

/-- The indexes that an entry of "Data" lists. -/
def listedIndexes (pointTree : PTree) : List Int :=
  (pointTree.getOptional PTree.asInt ["Index"]).toList ++
    (pointTree.getOptional PTree.asString ["Index List"]).toList.flatMap fun indexes =>
      (indexMatches indexes.toList.length indexes.toList).flatMap rangeOf

def typeOf (pointTree : PTree) : String :=
  (pointTree.getOptional PTree.asString ["Type"]).getD ""

/-- The points that an entry of "Nodes" lists, in any of the three ways: the type and the
index. -/
def listedPoints (nodeTree : PTree) : List (String × Int) :=
  (nodeTree.childAt? ["Data"]).toList.flatMap (fun dataTree =>
    dataTree.children.flatMap fun c => (listedIndexes c.2).map fun i => (typeOf c.2, i)) ++
  (nodeTree.childAt? ["Data Sources"]).toList.flatMap (fun sourceTree =>
    sourceTree.children.flatMap fun s =>
      (s.2.childAt? ["Mapped Data"]).toList.flatMap fun dataTree =>
        dataTree.children.flatMap fun c =>
          (c.2.getOptional PTree.asInt ["Index"]).toList.map fun i => (typeOf c.2, i))

/-- The points of a station. -/
def pointsOf (n : Node) : List (String × Int) := n.dataPoints.map fun dp => (dp.pointType, dp.index)

/-! ## The size follows the points -/

/-- The database of every type is as large as the largest index needs, and no larger. -/
structure Fitted (n : Node) : Prop where
  covers : ∀ q ∈ pointsOf n, q.2 < sizeAt n.dbSize q.1
  nonneg : ∀ t, 0 ≤ sizeAt n.dbSize t
  tight : ∀ t, sizeAt n.dbSize t = 0 ∨ ∃ q ∈ pointsOf n, q.1 = t ∧ q.2 + 1 = sizeAt n.dbSize t

/-- `n'` is `n` with the points `l` added. -/
structure Adds (l : List (String × Int)) (n n' : Node) : Prop where
  points : pointsOf n' = pointsOf n ++ l
  fitted : Fitted n → Fitted n'

theorem Adds.refl (n : Node) : Adds [] n n := ⟨(List.append_nil _).symm, id⟩

theorem Adds.trans {l l' : List (String × Int)} {n n' n'' : Node} (h : Adds l n n')
    (h' : Adds l' n' n'') : Adds (l ++ l') n n'' :=
  ⟨by rw [h'.points, h.points, List.append_assoc], h'.fitted ∘ h.fitted⟩

/-- A station with the same points and sizes. -/
theorem Adds.same {n n' : Node} (hpoints : n'.dataPoints = n.dataPoints)
    (hsize : n'.dbSize = n.dbSize) : Adds [] n n' := by
  refine ⟨by rw [pointsOf, hpoints, List.append_nil]; rfl, fun h => ?_⟩
  obtain ⟨hcovers, hnonneg, htight⟩ := h
  refine ⟨?_, ?_, ?_⟩
  · rw [pointsOf, hpoints, hsize]
    exact hcovers
  · rw [hsize]
    exact hnonneg
  · rw [pointsOf, hpoints, hsize]
    exact htight

/-- One more point. -/
theorem Adds.point {n n' : Node} (dp : DataPoint) (hpoints : n'.dataPoints = n.dataPoints ++ [dp])
    (hsize : n'.dbSize = growSize n.dbSize dp.pointType (dp.index + 1)) :
    Adds [(dp.pointType, dp.index)] n n' := by
  have hpoints' : pointsOf n' = pointsOf n ++ [(dp.pointType, dp.index)] := by
    rw [pointsOf, hpoints, List.map_append]
    rfl
  have hsizeAt := sizeAt_growSize n.dbSize dp.pointType
  refine ⟨hpoints', fun h => ?_⟩
  obtain ⟨hcovers, hnonneg, htight⟩ := h
  refine ⟨?_, ?_, ?_⟩
  · intro q hq
    rw [hpoints', List.mem_append, List.mem_singleton] at hq
    rw [hsize, hsizeAt]
    rcases hq with hq | rfl
    · have := hcovers q hq
      split
      · next ht => rw [← ht]; omega
      · exact this
    · rw [if_pos rfl]
      exact (Int.lt_succ _).trans_le (le_max_right _ _)
  · intro t
    rw [hsize, hsizeAt]
    have := hnonneg t
    split
    · next ht => rw [← ht]; omega
    · exact this
  · intro t
    rw [hsize, hsizeAt, hpoints']
    split
    · next ht =>
      subst ht
      rcases le_total (sizeAt n.dbSize dp.pointType) (dp.index + 1) with hle | hle
      · refine Or.inr ⟨(dp.pointType, dp.index), by simp, rfl, ?_⟩
        rw [max_eq_right hle]
      · rw [max_eq_left hle]
        rcases htight dp.pointType with hzero | ⟨q, hq, hqt, hqs⟩
        · exact Or.inl hzero
        · exact Or.inr ⟨q, List.mem_append_left _ hq, hqt, hqs⟩
    · rcases htight t with hzero | ⟨q, hq, hqt, hqs⟩
      · exact Or.inl hzero
      · exact Or.inr ⟨q, List.mem_append_left _ hq, hqt, hqs⟩

/-- A loop whose passes add points adds them in order. -/
theorem Adds.loop {α : Type} {f : Node → α → Cpp Node} {g : α → List (String × Int)} {l : List α}
    (hstep : ∀ a ∈ l, ∀ n n', f n a = .ok n' → Adds (g a) n n') {n n' : Node}
    (h : l.foldlM f n = .ok n') : Adds (l.flatMap g) n n' := by
  induction l generalizing n with
  | nil =>
    cases h
    exact .refl _
  | cons a l ih =>
    rw [List.foldlM_cons] at h
    obtain ⟨n₁, h₁, h⟩ := Fallible.bind_ok.mp h
    rw [List.flatMap_cons]
    exact (hstep a List.mem_cons_self n n₁ h₁).trans
      (ih (fun b hb => hstep b (List.mem_cons_of_mem a hb)) h)

/-! ## The readers -/

theorem pushPtToStn_adds {n n' : Node} {dp : DataPoint} (h : pushPtToStn n dp = .ok n') :
    Adds [(dp.pointType, dp.index)] n n' := by
  obtain ⟨-, rfl⟩ := pushPtToStn_ok h
  exact .point _ rfl rfl

theorem readRange_adds {n n' : Node} {dp : DataPoint} {m : List Char × List Char}
    (h : readRange dp n m = .ok n') : Adds ((rangeOf m).map fun i => (dp.pointType, i)) n n' := by
  obtain ⟨startIndex, hstart, h⟩ := Fallible.bind_ok.mp h
  have hadds := Adds.loop (g := fun k : ℕ => [(dp.pointType, startIndex + k)])
    (fun k _ n n' h => pushPtToStn_adds h) h
  rw [← List.map_eq_flatMap] at hadds
  rw [rangeOf, hstart, List.map_map]
  exact hadds

theorem readDataPoint_type {pointTree : PTree} {dp dp' : DataPoint}
    (h : readDataPoint pointTree dp = .ok dp') : dp'.pointType = typeOf pointTree := by
  obtain ⟨pointType, htype, h⟩ := Fallible.bind_ok.mp h
  obtain ⟨eventClass, -, h⟩ := Fallible.bind_ok.mp h
  obtain ⟨sVariation, -, h⟩ := Fallible.bind_ok.mp h
  obtain ⟨eVariation, -, h⟩ := Fallible.bind_ok.mp h
  cases h
  rw [typeOf, PTree.get_ok.mp htype]
  rfl

theorem readDataEntry_adds {n n' : Node} {pointTree : PTree}
    (h : readDataEntry n pointTree = .ok n') :
    Adds ((listedIndexes pointTree).map fun i => (typeOf pointTree, i)) n n' := by
  obtain ⟨dp, hdp, h⟩ := Fallible.bind_ok.mp h
  obtain ⟨n₁, h₁, h₂⟩ := Fallible.bind_ok.mp h
  have hone : Adds ((pointTree.getOptional PTree.asInt ["Index"]).toList.map
      fun i => (dp.pointType, i)) n n₁ := by
    unfold readIndex at h₁
    cases hindex : pointTree.getOptional PTree.asInt ["Index"] with
    | none =>
      rw [hindex] at h₁
      cases h₁
      exact .refl n
    | some index =>
      rw [hindex] at h₁
      exact pushPtToStn_adds h₁
  have hlist : Adds (((pointTree.getOptional PTree.asString ["Index List"]).toList.flatMap
      fun indexes => (indexMatches indexes.toList.length indexes.toList).flatMap rangeOf).map
      fun i => (dp.pointType, i)) n₁ n' := by
    unfold readIndexList at h₂
    cases hindexes : pointTree.getOptional PTree.asString ["Index List"] with
    | none =>
      rw [hindexes] at h₂
      cases h₂
      exact .refl _
    | some indexes =>
      rw [hindexes] at h₂
      have hadds := Adds.loop (fun m _ n n' h => readRange_adds h) h₂
      rw [← List.map_flatMap] at hadds
      rw [Option.toList_some, List.flatMap_singleton]
      exact hadds
  rw [← readDataPoint_type hdp, listedIndexes, List.map_append]
  exact hone.trans hlist

/-- The default event buffers have nothing to do with the points. -/
theorem Adds.reset {l : List (String × Int)} {n n' : Node} (h : Adds l n n') :
    Adds l n (resetEvtBuffers n') := by
  have hreset := h.trans (.same rfl rfl : Adds [] n' (resetEvtBuffers n'))
  rwa [List.append_nil] at hreset

theorem readMappedPoint_adds {source : String} {n n' : Node} {pointTree : PTree}
    (h : readMappedPoint source n pointTree = .ok n') :
    Adds ((pointTree.getOptional PTree.asInt ["Index"]).toList.map fun i => (typeOf pointTree, i))
      n n' := by
  obtain ⟨dp, index, inputIndex, hdp, hindex, -, rfl⟩ := readMappedPoint_ok h
  rw [PTree.get_ok.mp hindex, ← readDataPoint_type hdp]
  exact .point { dp with index := index } rfl rfl

theorem readSource_adds {n n' : Node} {sTree : String × PTree} (h : readSource n sTree = .ok n') :
    Adds ((sTree.2.childAt? ["Mapped Data"]).toList.flatMap fun dataTree =>
      dataTree.children.flatMap fun c =>
        (c.2.getOptional PTree.asInt ["Index"]).toList.map fun i => (typeOf c.2, i)) n n' := by
  obtain ⟨source, -, h⟩ := Fallible.bind_ok.mp h
  cases htree : sTree.2.childAt? ["Mapped Data"] with
  | none =>
    rw [htree] at h
    cases h
    exact .refl _
  | some dataTree =>
    rw [htree] at h
    obtain ⟨n₁, h₁, h⟩ := Fallible.bind_ok.mp h
    cases h
    have hadds := Adds.loop (fun c _ n n' h => readMappedPoint_adds h) h₁
    rw [Option.toList_some, List.flatMap_singleton]
    exact hadds.reset

theorem readDataGenerationSpecs_adds {n n' : Node} {nodeTree : PTree}
    (h : readDataGenerationSpecs nodeTree n = .ok n') :
    Adds ((nodeTree.childAt? ["Data"]).toList.flatMap fun dataTree =>
      dataTree.children.flatMap fun c => (listedIndexes c.2).map fun i => (typeOf c.2, i)) n n' := by
  unfold readDataGenerationSpecs at h
  cases htree : nodeTree.childAt? ["Data"] with
  | none =>
    rw [htree] at h
    cases h
    exact .refl _
  | some dataTree =>
    rw [htree] at h
    obtain ⟨n₁, h₁, h⟩ := Fallible.bind_ok.mp h
    cases h
    have hadds := Adds.loop (fun c _ n n' h => readDataEntry_adds h) h₁
    rw [Option.toList_some, List.flatMap_singleton]
    exact hadds.reset

theorem readMappedDataGenerationSpecs_adds {n n' : Node} {nodeTree : PTree}
    (h : readMappedDataGenerationSpecs nodeTree n = .ok n') :
    Adds ((nodeTree.childAt? ["Data Sources"]).toList.flatMap fun sourceTree =>
      sourceTree.children.flatMap fun s =>
        (s.2.childAt? ["Mapped Data"]).toList.flatMap fun dataTree =>
          dataTree.children.flatMap fun c =>
            (c.2.getOptional PTree.asInt ["Index"]).toList.map fun i => (typeOf c.2, i)) n n' := by
  unfold readMappedDataGenerationSpecs at h
  cases htree : nodeTree.childAt? ["Data Sources"] with
  | none =>
    rw [htree] at h
    cases h
    exact .refl _
  | some sourceTree =>
    rw [htree] at h
    rw [Option.toList_some, List.flatMap_singleton]
    exact Adds.loop (fun s _ n n' h => readSource_adds h) h

theorem readEventBufferSpecs_adds {n n' : Node} {nodeTree : PTree}
    (h : readEventBufferSpecs nodeTree n = .ok n') : Adds [] n n' := by
  unfold readEventBufferSpecs at h
  split at h
  · cases h
    exact .refl _
  · refine Fallible.foldlM_invariant (Adds [] n) ?_ (.refl n) h
    intro pTree _ n₁ n₂ hadds h₂
    obtain ⟨pointType, -, h₂⟩ := Fallible.bind_ok.mp h₂
    obtain ⟨size, -, h₂⟩ := Fallible.bind_ok.mp h₂
    cases h₂
    exact hadds.trans (.same rfl rfl)

/-- An outstation has the points that its entry lists, in their order. -/
theorem readData_adds {nodeTree : PTree} {s s' : StationNode} (h : readData nodeTree s = .ok s') :
    Adds (listedPoints nodeTree) s.toNode s'.toNode := by
  obtain ⟨n₁, n₂, n₃, h₁, h₂, h₃, rfl⟩ := readData_passes h
  have hadds := ((readDataGenerationSpecs_adds h₁).trans
    (readMappedDataGenerationSpecs_adds h₂)).trans (readEventBufferSpecs_adds h₃)
  rw [List.append_nil] at hadds
  exact hadds

/-! ## Inside the database -/

theorem fitted_new : Fitted Node.new := by
  have hzero : ∀ t, sizeAt Node.new.dbSize t = 0 := sizeAt_zeroSizes _
  refine ⟨?_, fun t => (hzero t).ge, fun t => Or.inl (hzero t)⟩
  intro q hq
  cases hq

/-- Narrowing leaves a size alone that some 16-bit index needs, and no other. -/
theorem Fitted.pointsInside_iff {n : Node} (h : Fitted n) :
    PointsInside n ↔ ∀ q ∈ pointsOf n, q.1 ∈ recordedTypes → 0 ≤ q.2 ∧ q.2 ≤ 65534 := by
  constructor
  · intro hinside q hq ht
    obtain ⟨dp, hdp, rfl⟩ := List.mem_map.mp hq
    have hle := Cpp.toUInt16_le (sizeAt n.dbSize dp.pointType)
    have hin := hinside dp hdp ht
    unfold databaseSize at hin
    show 0 ≤ dp.index ∧ dp.index ≤ 65534
    omega
  · intro hlisted dp hdp ht
    have hmem : (dp.pointType, dp.index) ∈ pointsOf n := List.mem_map_of_mem hdp
    have hbounds := hlisted _ hmem ht
    have hcovers := h.covers _ hmem
    have hnonneg := h.nonneg dp.pointType
    have hsize : sizeAt n.dbSize dp.pointType ≤ 65535 := by
      rcases h.tight dp.pointType with hzero | ⟨q, hq, hqt, hqs⟩
      · omega
      · have := hlisted q hq (hqt ▸ ht)
        omega
    dsimp only at hbounds hcovers
    refine ⟨hbounds.1, ?_⟩
    unfold databaseSize Cpp.toUInt16
    omega

/-! ## The stations of a file -/

/-- What the stations of an entry have of data. -/
structure EntryData (nodeTree : PTree) (stations : List StationNode) : Prop where
  fitted : ∀ o ∈ stations, Fitted o.toNode
  listed : ∀ o ∈ stations, pointsOf o.toNode = [] ∨
    namedStation nodeTree "Outstation" ≠ none ∧ pointsOf o.toNode = listedPoints nodeTree
  outstation : namedStation nodeTree "Outstation" ≠ none →
    ∃ o ∈ stations, pointsOf o.toNode = listedPoints nodeTree

theorem namedStation_toNode {nodeTree : PTree} {role : String} {s : StationNode}
    (h : s ∈ (namedStation nodeTree role).toList) : s.toNode = Node.new := by
  obtain ⟨name, -, rfl⟩ := Option.map_eq_some_iff.mp (Option.mem_toList.mp h)
  rfl

theorem readNode_data {nodeTree : PTree} {p p' : CfgJsonParser}
    (h : readNode p nodeTree = .ok p') :
    ∃ l, p'.nodes = p.nodes ++ l ∧ EntryData nodeTree l := by
  obtain ⟨masters, outstations, hnodes, hmasters, houtstations⟩ := readNode_stations h
  have hmaster : ∀ m ∈ masters, m.toNode = Node.new := by
    intro m hm
    obtain ⟨m₀, hm₀, -, hsame⟩ := Fallible.exists_left hmasters hm
    rw [hsame, namedStation_toNode hm₀]
  have hread : ∀ {o₀ o : StationNode}, o₀ ∈ (namedStation nodeTree "Outstation").toList →
      (∃ s, s.toNode = o₀.toNode ∧ readData nodeTree s = .ok o) →
        Fitted o.toNode ∧ pointsOf o.toNode = listedPoints nodeTree := by
    intro o₀ o ho₀ ho
    obtain ⟨s, hs, hdata⟩ := ho
    have hadds := readData_adds hdata
    rw [hs, namedStation_toNode ho₀] at hadds
    exact ⟨hadds.fitted fitted_new, hadds.points⟩
  refine ⟨masters ++ outstations, hnodes, ?_, ?_, ?_⟩
  · intro o ho
    rcases List.mem_append.mp ho with ho | ho
    · rw [hmaster o ho]
      exact fitted_new
    · obtain ⟨o₀, ho₀, -, hdata⟩ := Fallible.exists_left houtstations ho
      exact (hread ho₀ hdata).1
  · intro o ho
    rcases List.mem_append.mp ho with ho | ho
    · left
      rw [hmaster o ho]
      rfl
    · right
      obtain ⟨o₀, ho₀, -, hdata⟩ := Fallible.exists_left houtstations ho
      refine ⟨fun hnone => ?_, (hread ho₀ hdata).2⟩
      rw [hnone] at ho₀
      cases ho₀
  · intro hnamed
    obtain ⟨o₀, ho₀⟩ := Option.ne_none_iff_exists'.mp hnamed
    have hmem : o₀ ∈ (namedStation nodeTree "Outstation").toList := Option.mem_toList.mpr ho₀
    obtain ⟨o, ho, -, hdata⟩ := Fallible.exists_right houtstations hmem
    exact ⟨o, List.mem_append_right _ ho, (hread hmem hdata).2⟩

/-- The stations of a file are those of its entries. -/
theorem readNodes_data {trees : List PTree} {p p' : CfgJsonParser}
    (h : trees.foldlM readNode p = .ok p') :
    ∃ parts : List (List StationNode), p'.nodes = p.nodes ++ parts.flatten ∧
      List.Forall₂ EntryData trees parts := by
  induction trees generalizing p with
  | nil =>
    cases h
    exact ⟨[], (List.append_nil _).symm, .nil⟩
  | cons tree trees ih =>
    rw [List.foldlM_cons] at h
    obtain ⟨p₁, h₁, h⟩ := Fallible.bind_ok.mp h
    obtain ⟨l, hl, hdata⟩ := readNode_data h₁
    obtain ⟨parts, hparts, hrest⟩ := ih h
    refine ⟨l :: parts, ?_, .cons hdata hrest⟩
    rw [hparts, hl, List.flatten_cons, List.append_assoc]

/-- The databases of all stations are as large as their points need. -/
theorem new_fitted {propTree : PTree} {p : CfgJsonParser} (h : CfgJsonParser.new propTree = .ok p) :
    ∀ o ∈ p.nodes, Fitted o.toNode := by
  obtain ⟨p₀, trees, -, hnil, -, h⟩ := new_readNodes h
  obtain ⟨parts, hnodes, hparts⟩ := readNodes_data h
  intro o ho
  rw [hnodes, hnil, List.nil_append, List.mem_flatten] at ho
  obtain ⟨l, hl, ho⟩ := ho
  obtain ⟨tree, -, hdata⟩ := Fallible.exists_left hparts hl
  exact hdata.fitted o ho

/-- Every access of `ConfigureDatabase` to the database of any station is in range exactly if
every index that the file lists, for a point of an outstation it names, is from 0 to 65534. -/
theorem points_inside_iff {propTree : PTree} {p : CfgJsonParser} {trees : List PTree}
    (h : CfgJsonParser.new propTree = .ok p) (htrees : nodeTrees propTree = .ok trees) :
    (∀ o ∈ p.nodes, PointsInside o.toNode) ↔
      ∀ tree ∈ trees, namedStation tree "Outstation" ≠ none →
        ∀ q ∈ listedPoints tree, q.1 ∈ recordedTypes → 0 ≤ q.2 ∧ q.2 ≤ 65534 := by
  obtain ⟨p₀, trees', htrees', hnil, -, h⟩ := new_readNodes h
  cases htrees.symm.trans htrees'
  obtain ⟨parts, hnodes, hparts⟩ := readNodes_data h
  rw [hnil, List.nil_append] at hnodes
  constructor
  · intro hinside tree htree hnamed
    obtain ⟨l, hl, hdata⟩ := Fallible.exists_right hparts htree
    obtain ⟨o, ho, hpoints⟩ := hdata.outstation hnamed
    have hmem : o ∈ p.nodes := hnodes ▸ List.mem_flatten_of_mem hl ho
    rw [← hpoints]
    exact (hdata.fitted o ho).pointsInside_iff.mp (hinside o hmem)
  · intro hlisted o ho
    rw [hnodes, List.mem_flatten] at ho
    obtain ⟨l, hl, ho⟩ := ho
    obtain ⟨tree, htree, hdata⟩ := Fallible.exists_left hparts hl
    rw [(hdata.fitted o ho).pointsInside_iff]
    rcases hdata.listed o ho with hempty | ⟨hnamed, hpoints⟩
    · rw [hempty]
      simp
    · rw [hpoints]
      exact hlisted tree htree hnamed

/-! ## One analog point -/

/-- The data of an outstation with one analog point. -/
def analogPoint (index : String) : List (String × PTree) :=
  [("Data", .node "" [("", .node "" [("Type", .leaf "Analog Input"), ("Event Class", .leaf "2"),
    ("sVariation", .leaf "5"), ("eVariation", .leaf "1"), ("Index", .leaf index)])])]

theorem points_inside_top : ∃ p, CfgJsonParser.new (pairConfig (analogPoint "65534")) = .ok p ∧
    ∀ o ∈ p.nodes, PointsInside o.toNode := by
  have hok : (CfgJsonParser.new (pairConfig (analogPoint "65534"))).toBool = true := by
    decide +kernel
  obtain ⟨p, h⟩ := Fallible.exists_ok hok
  exact ⟨p, h, (points_inside_iff h rfl).mpr (by decide +kernel)⟩

/-- The point with the index 65535 asks for a database of 65536, and gets one of 0. -/
theorem points_not_inside : ∃ p o, CfgJsonParser.new (pairConfig (analogPoint "65535")) = .ok p ∧
    o ∈ p.nodes ∧ databaseSize o.toNode "Analog Input" = 0 ∧
    pointsOf o.toNode = [("Analog Input", 65535)] ∧ ¬ PointsInside o.toNode := by
  have hnodes : (CfgJsonParser.new (pairConfig (analogPoint "65535"))).map
      (fun p => p.nodes.map (fun n => (pointsOf n.toNode, databaseSize n.toNode "Analog Input"))) =
      .ok [([], 0), ([("Analog Input", 65535)], 0)] := by decide +kernel
  obtain ⟨p, o, hp, ho, heq⟩ :=
    exists_station hnodes (a := ([("Analog Input", 65535)], 0)) (by simp)
  obtain ⟨hpoints, hsize⟩ := Prod.mk.inj heq
  refine ⟨p, o, hp, ho, hsize, hpoints, fun hinside => ?_⟩
  have hpoint : ("Analog Input", 65535) ∈ pointsOf o.toNode := by rw [hpoints]; simp
  obtain ⟨dp, hdp, hdp'⟩ := List.mem_map.mp hpoint
  obtain ⟨htype, hindex⟩ := Prod.mk.inj hdp'
  have hlt := (hinside dp hdp (by rw [htype]; decide)).2
  rw [htype, hindex, hsize] at hlt
  exact absurd hlt (by decide)

end IcsTrafficGen.Dnp3
