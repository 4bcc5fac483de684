import IcsTrafficGen.Dnp3.CfgJsonParser
import IcsTrafficGen.Dnp3.MultiplexerRuns

/- Whether the arrays are as large as the mapping needs. The parser sizes the database
   from the `Index` values, and the out arrays with it, so every out index fits. The
   input arrays are sized from the `Index` values too, not from the `InputIndex` values
   they are read with, so an input index fits only where some entry of the same source
   and type has an `Index` as large. -/
namespace IcsTrafficGen.Dnp3
open MappingOutstation

/-! ## What the parser promises -/

/-- The database sizes cover the mapped points. -/
structure Sized (n : Node) : Prop where
  nonneg : ∀ t, 0 ≤ sizeAt n.dbSize t
  mapped : ∀ src dp, (src, dp) ∈ n.mapped →
    Cpp.InInt (dp.index + 1) ∧ dp.index < sizeAt n.dbSize dp.pointType

theorem get_mapped {n : Node} {source : String} {dp : MappedDataPoint}
    (h : dp ∈ (n.dataSources.get? source).getD []) : (source, dp) ∈ n.mapped := by
  cases hl : n.dataSources.get? source with
  | none => simp [hl] at h
  | some l => exact Node.mem_mapped.mpr ⟨l, hl, by simpa [hl] using h⟩

/-- One more point for a source: any other point was mapped before. -/
theorem mapped_insert {n n' : Node} {source src : String} {mdp p : MappedDataPoint}
    (hn' : n'.dataSources =
      n.dataSources.insert source ((n.dataSources.get? source).getD [] ++ [mdp]))
    (hp : (src, p) ∈ n'.mapped) : (src, p) ∈ n.mapped ∨ p = mdp := by
  obtain ⟨l, hl, hp⟩ := Node.mem_mapped.mp hp
  rw [hn', Dict.get?_insert] at hl
  split at hl
  · next hsrc =>
    cases hl
    rcases List.mem_append.mp hp with hp | hp
    · exact Or.inl (hsrc ▸ get_mapped hp)
    · exact Or.inr (List.mem_singleton.mp hp)
  · exact Or.inl (Node.mem_mapped.mpr ⟨l, hl, hp⟩)

theorem Sized.readMappedPoint {source : String} {n n' : Node} {pointTree : PTree} (hs : Sized n)
    (h : readMappedPoint source n pointTree = .ok n') : Sized n' := by
  obtain ⟨dp, index, inputIndex, -, -, hint, rfl⟩ := readMappedPoint_ok h
  have hgrow := fun t => le_sizeAt_growSize n.dbSize dp.pointType t (index + 1)
  refine ⟨fun t => (hs.nonneg t).trans (hgrow t), fun src p hp => ?_⟩
  rcases mapped_insert rfl hp with hold | rfl
  · obtain ⟨hp1, hp2⟩ := hs.mapped src p hold
    exact ⟨hp1, hp2.trans_le (hgrow _)⟩
  · refine ⟨hint, ?_⟩
    rw [sizeAt_growSize, if_pos rfl]
    exact (Int.lt_succ index).trans_le (le_max_right _ _)

/-- Every station the parser accepts has a database that covers its mapped points. -/
theorem Sized.readMappedDataGenerationSpecs {nodeTree : PTree} {n n' : Node} (hs : Sized n)
    (h : readMappedDataGenerationSpecs nodeTree n = .ok n') : Sized n' :=
  readMappedDataGenerationSpecs_invariant (fun _ _ _ _ hs h => hs.readMappedPoint h)
    (fun _ hs => ⟨hs.nonneg, hs.mapped⟩) hs h

/-! ## The bounds -/

/-- Every entry has one of its source and type with an `Index` no smaller than its
`InputIndex`. -/
def InputsCovered (node : Node) : Prop :=
  ∀ c : Channel, ∀ src dp, (src, dp) ∈ node.mapped → dp.pointType = c.pointType →
    ∃ dp', (src, dp') ∈ node.mapped ∧ dp'.pointType = c.pointType ∧ dp.inputIndex ≤ dp'.index

/-- The two states have the same mapping and arrays of the same lengths. -/
structure SameShape (m m' : MappingOutstation) : Prop where
  node : m'.node = m.node
  length_in : ∀ c src, (m'.input c src).length = (m.input c src).length
  length_out : ∀ c, (m'.outValues c).length = (m.outValues c).length

/-- What the sizes are for: every mapped index is in its arrays, so no pass and no copy
loop reads or writes outside, and no pair with a mapped index is discarded. -/
structure LargeEnough (m : MappingOutstation) : Prop where
  fitsIn : FitsIn m
  fitsOut : FitsOut m
  passes : ∀ evs, ∃ m', runEvents evs m = .ok m'
  copies : ∀ m', SameShape m m' → ∀ c, ∀ source ∈ m.node.dataSources.entries,
    ∃ m'', m'.copyPoints c source.1 source.2 = .ok m''
  stores : ∀ m', SameShape m m' → ∀ c src dp, (src, dp) ∈ m.node.mapped →
    dp.pointType = c.pointType → ∀ pair : Indexed Double, (pair.index : Int) = dp.inputIndex →
      ∃ pt, (m'.input c src)[pair.index]? = some pt ∧
        ((process c src [pair] m').input c src)[pair.index]? = some (pt.receive pair)

theorem input_sized {node : Node} {c : Channel} {src : String} {l : List MappedDataPoint}
    (h : node.dataSources.get? src = some l) :
    (sized node).input c src = zeros (neededSize l c.pointType) := by
  simp [input, sized, h]

theorem fitsIn_sized {node : Node}
    (hnonneg : ∀ src dp, (src, dp) ∈ node.mapped → 0 ≤ dp.inputIndex) :
    FitsIn (sized node) ↔ InputsCovered node := by
  refine forall_congr' fun c => forall_congr' fun src => forall_congr' fun dp =>
    forall_congr' fun (hmem : (src, dp) ∈ node.mapped) => forall_congr' fun htype => ?_
  obtain ⟨l, hl, -⟩ := Node.mem_mapped.mp hmem
  have h0 := hnonneg src dp hmem
  rw [input_sized hl, length_zeros (neededSize_nonneg _ _), lt_neededSize h0]
  constructor
  · intro h
    obtain ⟨-, dp', hdp', htype', hle⟩ := h
    exact ⟨dp', Node.mem_mapped.mpr ⟨l, hl, hdp'⟩, htype', hle⟩
  · intro h
    obtain ⟨dp', hmem', htype', hle⟩ := h
    obtain ⟨l', hl', hdp'⟩ := Node.mem_mapped.mp hmem'
    cases hl.symm.trans hl'
    exact ⟨h0, dp', hdp', htype', hle⟩

theorem Sized.fitsOut {node : Node} (hs : Sized node)
    (hnonneg : ∀ src dp, (src, dp) ∈ node.mapped → 0 ≤ dp.index) : FitsOut (sized node) := by
  intro c src dp hmem htype
  refine ⟨hnonneg src dp hmem, ?_⟩
  simp only [sized]
  rw [length_zeros (hs.nonneg _), ← htype]
  exact (hs.mapped src dp hmem).2

theorem Sized.start {node : Node} (hs : Sized node) : (new node).start = .ok (sized node) := by
  refine start_ok.mpr ⟨fun e he dp hdp => ?_, fun c => hs.nonneg _, rfl⟩
  exact (hs.mapped e.1 dp (Node.mem_mapped.mpr ⟨e.2, Dict.get?_eq_some.mpr he, hdp⟩)).1

theorem copyPoint_total {m s : MappingOutstation} (hin : FitsIn m) (hout : FitsOut m) (c : Channel)
    {src : String} {dp : MappedDataPoint} (hmem : (src, dp) ∈ m.node.mapped)
    (hs : SameShape m s) : ∃ s', copyPoint c src s dp = .ok s' ∧ SameShape m s' := by
  by_cases htype : dp.pointType = c.pointType
  · have hget := hin c src dp hmem htype
    have hset := hout c src dp hmem htype
    rw [← hs.length_in] at hget
    rw [← hs.length_out] at hset
    obtain ⟨pt, hpt⟩ := Cpp.vecGet_of_lt hget.1 hget.2
    refine ⟨s.setOut c dp.index pt, ?_, hs.node, hs.length_in, fun d => ?_⟩
    · rw [copyPoint, if_neg (not_not.mpr htype)]
      exact Fallible.bind_ok.mpr ⟨_, copyCell_ok.mpr ⟨hpt, hset, rfl⟩, rfl⟩
    · rw [length_setOut, hs.length_out]
  · exact ⟨s, by rw [copyPoint, if_pos htype]; rfl, hs⟩

theorem copyPoints_total {m m' : MappingOutstation} (hin : FitsIn m) (hout : FitsOut m)
    (hshape : SameShape m m') (c : Channel) {source : String × List MappedDataPoint}
    (hsource : source ∈ m.node.dataSources.entries) :
    ∃ m'', m'.copyPoints c source.1 source.2 = .ok m'' := by
  have hlow : SameShape m (m'.lower c source.1) :=
    ⟨hshape.node, hshape.length_in, hshape.length_out⟩
  have hmem : ∀ dp ∈ source.2, (source.1, dp) ∈ m.node.mapped := fun dp hdp =>
    Node.mem_mapped.mpr ⟨source.2, Dict.get?_eq_some.mpr hsource, hdp⟩
  obtain ⟨m'', h, -⟩ := Fallible.foldlM_total (SameShape m)
    (fun dp hdp s hs => copyPoint_total hin hout c (hmem dp hdp) hs) hlow
  exact ⟨m'', h⟩

theorem process_stores {m m' : MappingOutstation} (hin : FitsIn m) (hshape : SameShape m m')
    {c : Channel} {src : String} {dp : MappedDataPoint} (hmem : (src, dp) ∈ m.node.mapped)
    (htype : dp.pointType = c.pointType) {pair : Indexed Double}
    (hindex : (pair.index : Int) = dp.inputIndex) :
    ∃ pt, (m'.input c src)[pair.index]? = some pt ∧
      ((process c src [pair] m').input c src)[pair.index]? = some (pt.receive pair) := by
  have hlt := (hin c src dp hmem htype).2
  rw [← hshape.length_in, ← hindex, Nat.cast_lt] at hlt
  refine ⟨_, List.getElem?_eq_getElem hlt, ?_⟩
  rw [input_process, if_pos ⟨rfl, rfl⟩, getElem?_foldl_storePair, List.getElem?_eq_getElem hlt]
  simp

theorem largeEnough_sized {node : Node} (hin : FitsIn (sized node)) (hout : FitsOut (sized node)) :
    LargeEnough (sized node) where
  fitsIn := hin
  fitsOut := hout
  passes _ := runEvents_total (holds_sized node) hin hout
  copies _ hshape c _ hsource := copyPoints_total hin hout hshape c hsource
  stores _ hshape _ _ _ hmem htype _ hindex := process_stores hin hshape hmem htype hindex

/-- **When the arrays are large enough.** For a station the parser has read with
non-negative indexes, the start-up succeeds, and the arrays are large enough exactly if
the `InputIndex` values are covered by `Index` values. -/
theorem large_enough_iff {nodeTree : PTree} {station node : Node}
    (hsources : station.dataSources = .empty) (hsizes : ∀ t, 0 ≤ sizeAt station.dbSize t)
    (hread : readMappedDataGenerationSpecs nodeTree station = .ok node)
    (hnonneg : ∀ src dp, (src, dp) ∈ node.mapped → 0 ≤ dp.index ∧ 0 ≤ dp.inputIndex) :
    (∃ m, (new node).start = .ok m ∧ LargeEnough m) ↔ InputsCovered node := by
  have hstation : Sized station := ⟨hsizes, by simp [Node.mapped, hsources, Dict.empty]⟩
  have hs := hstation.readMappedDataGenerationSpecs hread
  have hin := fitsIn_sized fun src dp h => (hnonneg src dp h).2
  constructor
  · intro hx
    obtain ⟨m, hstart, hlarge⟩ := hx
    cases hstart.symm.trans hs.start
    exact hin.mp hlarge.fitsIn
  · intro hcovered
    exact ⟨_, hs.start, largeEnough_sized (hin.mpr hcovered)
      (hs.fitsOut fun src dp h => (hnonneg src dp h).1)⟩

/-! ## Two configurations -/

/-- Analog inputs of the source "O2", each from its input index to its index. -/
def analogPoints (points : List (String × String)) : PTree :=
  .node "" [("Data Sources", .node "" [("", .node "" [
    ("Source", .leaf "O2"),
    ("Mapped Data", .node "" (points.map fun p => ("", .node "" [("Type", .leaf "Analog Input"),
      ("Event Class", .leaf "2"), ("sVariation", .leaf "5"), ("eVariation", .leaf "7"),
      ("InputIndex", .leaf p.1), ("Index", .leaf p.2)])))])])]

/-- What the parser makes of them. -/
def analogPointsNode (points : List (Int × Int)) (size : Int) : Node :=
  { dataPoints := points.map fun p => ⟨p.2, 5, 7, 2, "Analog Input", none⟩
    dataSources := ⟨[("O2", points.map fun p => ⟨p.2, p.1, "Analog Input"⟩)],
      List.nodup_singleton _⟩
    dbSize := Node.new.dbSize.insert "Analog Input" size
    evtBufferSize := Node.new.evtBufferSize.insert "Analog Input" 100 }

theorem mem_analogPointsNode {points : List (Int × Int)} {size : Int} {src : String}
    {dp : MappedDataPoint} : (src, dp) ∈ (analogPointsNode points size).mapped ↔
      src = "O2" ∧ ∃ p ∈ points, dp = ⟨p.2, p.1, "Analog Input"⟩ := by
  simp [Node.mapped, analogPointsNode, eq_comm, and_left_comm]

/-- The largest `InputIndex` is on another point than the largest `Index`. -/
theorem large_enough_swapped : ∃ m, (new (analogPointsNode [(5, 0), (0, 5)] 6)).start = .ok m ∧
    LargeEnough m := by
  have hread : readMappedDataGenerationSpecs (analogPoints [("5", "0"), ("0", "5")]) .new =
      .ok (analogPointsNode [(5, 0), (0, 5)] 6) := by decide
  have hsizes : ∀ t, 0 ≤ sizeAt Node.new.dbSize t := by
    intro t
    simp only [sizeAt, Node.new, zeroSizes, List.foldl_cons, List.foldl_nil, Dict.get?_insert,
      Dict.get?_empty]
    split_ifs <;> decide
  refine (large_enough_iff rfl hsizes hread fun src dp h => ?_).mpr fun c src dp h htype => ?_
  · obtain ⟨-, p, hp, rfl⟩ := mem_analogPointsNode.mp h
    have hnonneg : ∀ p ∈ [((5 : Int), (0 : Int)), (0, 5)], 0 ≤ p.2 ∧ 0 ≤ p.1 := by decide
    exact hnonneg p hp
  -- the point with the Index 5 covers both
  · obtain ⟨rfl, p, hp, rfl⟩ := mem_analogPointsNode.mp h
    have hcovered : ∀ p ∈ [((5 : Int), (0 : Int)), (0, 5)], p.1 ≤ 5 := by decide
    exact ⟨⟨5, 0, "Analog Input"⟩, by decide, htype, hcovered p hp⟩

/-- With the `InputIndex` 5 and the `Index` 0 the input array has one cell. -/
theorem not_large_enough :
    ¬ ∀ nodeTree node, readMappedDataGenerationSpecs nodeTree .new = .ok node →
      (∀ src dp, (src, dp) ∈ node.mapped → 0 ≤ dp.index ∧ 0 ≤ dp.inputIndex) →
      ∃ m, (new node).start = .ok m ∧ LargeEnough m := by
  intro h
  obtain ⟨m, hstart, hlarge⟩ := h (analogPoints [("5", "0")]) (analogPointsNode [(5, 0)] 1)
    (by decide) fun _ _ h => by
      obtain ⟨-, p, hp, rfl⟩ := mem_analogPointsNode.mp h
      rw [List.mem_singleton.mp hp]
      decide
  obtain ⟨-, -, rfl⟩ := start_ok.mp hstart
  have hlt := (hlarge.fitsIn .analog "O2" ⟨0, 5, "Analog Input"⟩ (by decide) rfl).2
  exact absurd hlt (by decide)

end IcsTrafficGen.Dnp3
