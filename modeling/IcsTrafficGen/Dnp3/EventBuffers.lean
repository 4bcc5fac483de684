import IcsTrafficGen.Dnp3.DataPoints
import IcsTrafficGen.Dnp3.LuaRuns

/- The sizes of the database and of the event buffers of an outstation. The default event
   buffers are set while the points are read, before the sizes that the entry gives; and a
   type is passed to them as a C string, so a type with a zero byte gets none, and what
   stands before the zero byte gets one. The sizes are those that the entry asks for
   exactly if it gives such types sizes of their own (`sizes_right_iff`). -/
namespace IcsTrafficGen.Dnp3
open CfgJsonParser

/-! ## The sizes an entry asks for -/

def eventSize (pTree : PTree) : Int := (pTree.getOptional PTree.asInt ["Size"]).getD 0

/-- The entries of "Event Data". -/
def eventSizes (nodeTree : PTree) : List (String × Int) :=
  (nodeTree.childAt? ["Event Data"]).toList.flatMap fun bufferTree =>
    bufferTree.children.map fun c => (typeOf c.2, eventSize c.2)

/-- The last "Size" for the type under "Event Data". -/
def lastSize (nodeTree : PTree) (t : String) : Option Int :=
  Dict.lastValue? (eventSizes nodeTree) t

/-- The data of the outstation is that of its entry. -/
structure SizesRight (nodeTree : PTree) (n : Node) : Prop where
  points : pointsOf n = listedPoints nodeTree
  mapped : Listed n
  /-- The size of a type without points. -/
  empty : ∀ t, (∀ q ∈ pointsOf n, q.1 ≠ t) → sizeAt n.dbSize t = 0
  /-- The size of a type whose largest index is that of `q`. -/
  largest : ∀ q ∈ pointsOf n, (∀ q' ∈ pointsOf n, q'.1 = q.1 → q'.2 ≤ q.2) →
    sizeAt n.dbSize q.1 = 1 + q.2
  configured : ∀ t size, lastSize nodeTree t = some size → sizeAt n.evtBufferSize t = size
  default : ∀ t, lastSize nodeTree t = none → 0 < sizeAt n.dbSize t →
    sizeAt n.evtBufferSize t = 100
  /-- The types that `Node()` gives a buffer. -/
  unused : ∀ t ∈ Node.new.evtBufferSize.keys, lastSize nodeTree t = none →
    sizeAt n.dbSize t = 0 → sizeAt n.evtBufferSize t = 0

/-- A listed type with a zero byte has a size of its own, and what stands before the zero byte
is none of the types of `Node()` without a size and without points. -/
def ZeroBytesSized (nodeTree : PTree) : Prop :=
  ∀ q ∈ listedPoints nodeTree, Cpp.cString q.1 ≠ q.1 →
    lastSize nodeTree q.1 ≠ none ∧
      (Cpp.cString q.1 ∈ Node.new.evtBufferSize.keys → lastSize nodeTree (Cpp.cString q.1) = none →
        ∃ q' ∈ listedPoints nodeTree, q'.1 = Cpp.cString q.1)

/-! ## The default event buffers -/

/-- Some type with points is `t` as a C string. -/
def Truncates (n : Node) (t : String) : Prop :=
  ∃ t', 0 < sizeAt n.dbSize t' ∧ Cpp.cString t' = t

/-- No event buffer has been changed but for a type with points. -/
def Untouched (n : Node) : Prop :=
  ∀ t, n.evtBufferSize.get? t = Node.new.evtBufferSize.get? t ∨
    Truncates n t ∧ n.evtBufferSize.get? t = some eventBufferSize

/-- Every type with points has been given its event buffer. -/
structure Buffered (n : Node) : Prop where
  untouched : Untouched n
  given : ∀ t, Truncates n t → n.evtBufferSize.get? t = some eventBufferSize

theorem buffered_new : Buffered Node.new where
  untouched _ := Or.inl rfl
  given t h := by
    obtain ⟨t', hsize, -⟩ := h
    have hzero : sizeAt Node.new.dbSize t' = 0 := sizeAt_zeroSizes _ t'
    omega

/-- A station whose database has grown and whose event buffers are as before. -/
structure Grows (n n' : Node) : Prop where
  evt : n'.evtBufferSize = n.evtBufferSize
  size : ∀ t, sizeAt n.dbSize t ≤ sizeAt n'.dbSize t

theorem Grows.refl (n : Node) : Grows n n := ⟨rfl, fun _ => le_refl _⟩

theorem Grows.point {n n₁ n' : Node} (h : Grows n n₁) {t : String} {size : Int}
    (hevt : n'.evtBufferSize = n₁.evtBufferSize) (hsize : n'.dbSize = growSize n₁.dbSize t size) :
    Grows n n' := by
  refine ⟨hevt.trans h.evt, fun t' => (h.size t').trans ?_⟩
  rw [hsize]
  exact le_sizeAt_growSize _ _ _ _

theorem Untouched.grows {n n' : Node} (hn : Untouched n) (h : Grows n n') : Untouched n' := by
  intro t
  rw [h.evt]
  apply (hn t).imp_right
  intro hgiven
  obtain ⟨⟨t', hsize, ht⟩, hget⟩ := hgiven
  exact ⟨⟨t', hsize.trans_le (h.size t'), ht⟩, hget⟩

theorem resetEvtBuffers_get? (n : Node) (t : String) [Decidable (Truncates n t)] :
    (resetEvtBuffers n).evtBufferSize.get? t =
      if Truncates n t then some eventBufferSize else n.evtBufferSize.get? t := by
  unfold resetEvtBuffers
  rw [Dict.get?_foldl_insert_const (fun e : String × Int => 0 < e.2) (fun e => Cpp.cString e.1)]
  refine if_congr ?_ rfl rfl
  constructor
  · intro h
    obtain ⟨⟨t', size⟩, hmem, hsize, ht⟩ := h
    refine ⟨t', ?_, ht⟩
    rwa [sizeAt, Dict.get?_eq_some.mpr hmem]
  · intro h
    obtain ⟨t', hsize, ht⟩ := h
    unfold sizeAt at hsize
    cases hget : n.dbSize.get? t' with
    | none =>
      rw [hget] at hsize
      exact absurd hsize (lt_irrefl 0)
    | some size =>
      rw [hget] at hsize
      exact ⟨(t', size), Dict.get?_eq_some.mp hget, hsize, ht⟩

theorem Untouched.reset {n : Node} (hn : Untouched n) : Buffered (resetEvtBuffers n) := by
  classical
  have hget := resetEvtBuffers_get? n
  refine ⟨fun t => ?_, fun t ht => ?_⟩
  · rw [hget]
    split
    · next ht => exact Or.inr ⟨ht, rfl⟩
    · next ht => exact Or.inl ((hn t).resolve_right fun h => ht h.1)
  · exact (hget t).trans (if_pos ht)

/-! ## The readers -/

theorem pushPtToStn_grows {n n₁ n₂ : Node} {dp : DataPoint} (hn : Grows n n₁)
    (h : pushPtToStn n₁ dp = .ok n₂) : Grows n n₂ := by
  obtain ⟨-, rfl⟩ := pushPtToStn_ok h
  exact hn.point rfl rfl

theorem readMappedPoint_grows {source : String} {pointTree : PTree} {n n₁ n₂ : Node}
    (hn : Grows n n₁) (h : readMappedPoint source n₁ pointTree = .ok n₂) : Grows n n₂ := by
  obtain ⟨dp, index, inputIndex, -, -, -, rfl⟩ := readMappedPoint_ok h
  exact hn.point rfl rfl

/-- A loop that adds points, and the default event buffers behind it. -/
theorem Buffered.loop {α : Type} {f : Node → α → Cpp Node} {l : List α} {n n' : Node}
    (hn : Buffered n) (hstep : ∀ n₁ a n₂, Grows n n₁ → f n₁ a = .ok n₂ → Grows n n₂)
    (h : (l.foldlM f n >>= fun n₁ => pure (resetEvtBuffers n₁)) = .ok n') : Buffered n' := by
  obtain ⟨n₁, h₁, h⟩ := Fallible.bind_ok.mp h
  rw [← Fallible.pure_ok.mp h]
  have hgrows : Grows n n₁ :=
    Fallible.foldlM_invariant (Grows n) (fun a _ n₁ n₂ => hstep n₁ a n₂) (.refl n) h₁
  exact (hn.untouched.grows hgrows).reset

theorem Buffered.readDataGenerationSpecs {nodeTree : PTree} {n n' : Node} (hn : Buffered n)
    (h : readDataGenerationSpecs nodeTree n = .ok n') : Buffered n' := by
  unfold Dnp3.readDataGenerationSpecs at h
  split at h
  · exact Fallible.pure_ok.mp h ▸ hn
  · exact hn.loop (fun _ _ _ hn h => readDataEntry_invariant (fun _ _ _ => pushPtToStn_grows) hn h) h

theorem Buffered.readSource {sTree : String × PTree} {n n' : Node} (hn : Buffered n)
    (h : readSource n sTree = .ok n') : Buffered n' := by
  obtain ⟨source, -, h⟩ := Fallible.bind_ok.mp h
  split at h
  · exact Fallible.pure_ok.mp h ▸ hn
  · exact hn.loop (fun _ _ _ hn h => readMappedPoint_grows hn h) h

theorem Buffered.readMappedDataGenerationSpecs {nodeTree : PTree} {n n' : Node} (hn : Buffered n)
    (h : readMappedDataGenerationSpecs nodeTree n = .ok n') : Buffered n' := by
  unfold Dnp3.readMappedDataGenerationSpecs at h
  split at h
  · exact Fallible.pure_ok.mp h ▸ hn
  · exact Fallible.foldlM_invariant Buffered (fun _ _ _ _ hn h => hn.readSource h) hn h

theorem Listed.pushPtToStn {n n' : Node} {dp : DataPoint} (hn : Listed n)
    (h : pushPtToStn n dp = .ok n') : Listed n' := by
  obtain ⟨-, rfl⟩ := pushPtToStn_ok h
  intro src mdp hmdp
  obtain ⟨p, hp, heq⟩ := hn src mdp hmdp
  exact ⟨p, List.mem_append_left _ hp, heq⟩

theorem Listed.readDataGenerationSpecs {nodeTree : PTree} {n n' : Node} (hn : Listed n)
    (h : readDataGenerationSpecs nodeTree n = .ok n') : Listed n' := by
  unfold Dnp3.readDataGenerationSpecs at h
  split at h
  · exact Fallible.pure_ok.mp h ▸ hn
  · obtain ⟨n₁, h₁, h⟩ := Fallible.bind_ok.mp h
    rw [← Fallible.pure_ok.mp h]
    have hlisted : Listed n₁ := Fallible.foldlM_invariant Listed
      (fun _ _ _ _ hn h => readDataEntry_invariant (fun _ _ _ hn h => hn.pushPtToStn h) hn h) hn h₁
    exact hlisted

theorem readEventBuffer_ok {pTree : PTree} {n n' : Node} (h : readEventBuffer n pTree = .ok n') :
    n' = { n with evtBufferSize := n.evtBufferSize.insert (typeOf pTree) (eventSize pTree) } := by
  obtain ⟨pointType, htype, h⟩ := Fallible.bind_ok.mp h
  obtain ⟨size, hsize, h⟩ := Fallible.bind_ok.mp h
  rw [typeOf, eventSize, PTree.get_ok.mp htype, PTree.get_ok.mp hsize]
  exact (Fallible.pure_ok.mp h).symm

theorem readEventBuffers_ok {children : List (String × PTree)} {n n' : Node}
    (h : children.foldlM (fun st p => readEventBuffer st p.2) n = .ok n') :
    n' = { n with
      evtBufferSize := (children.map fun c => (typeOf c.2, eventSize c.2)).foldl
        (fun d e => d.insert e.1 e.2) n.evtBufferSize } := by
  induction children generalizing n with
  | nil => exact (Fallible.pure_ok.mp h).symm
  | cons c children ih =>
    rw [List.foldlM_cons] at h
    obtain ⟨n₁, h₁, h⟩ := Fallible.bind_ok.mp h
    rw [ih h, readEventBuffer_ok h₁]
    rfl

/-- The sizes of the entry are put over what was there. -/
theorem readEventBufferSpecs_ok {nodeTree : PTree} {n n' : Node}
    (h : readEventBufferSpecs nodeTree n = .ok n') :
    n' = { n with
      evtBufferSize :=
        (eventSizes nodeTree).foldl (fun d e => d.insert e.1 e.2) n.evtBufferSize } := by
  unfold readEventBufferSpecs at h
  unfold eventSizes
  cases htree : nodeTree.childAt? ["Event Data"] with
  | none =>
    rw [htree] at h
    exact (Fallible.pure_ok.mp h).symm
  | some bufferTree =>
    rw [htree] at h
    rw [Option.toList_some, List.flatMap_singleton]
    exact readEventBuffers_ok h

/-! ## When the sizes are right -/

/-- What the readers leave: the default buffers, and the sizes of the entry over them. -/
structure Reads (nodeTree : PTree) (n : Node) : Prop where
  points : pointsOf n = listedPoints nodeTree
  fitted : Fitted n
  mapped : Listed n
  evt : ∃ n₀, n₀.dbSize = n.dbSize ∧ Buffered n₀ ∧
    ∀ t, n.evtBufferSize.get? t = (lastSize nodeTree t).or (n₀.evtBufferSize.get? t)

theorem readData_reads {nodeTree : PTree} {s s' : StationNode} (hs : s.toNode = Node.new)
    (h : readData nodeTree s = .ok s') : Reads nodeTree s'.toNode := by
  have hadds := readData_adds h
  obtain ⟨n₁, n₂, n₃, h₁, h₂, h₃, rfl⟩ := readData_passes h
  rw [hs] at hadds h₁
  obtain rfl := readEventBufferSpecs_ok h₃
  have hlisted : Listed n₂ := by
    refine Listed.readMappedDataGenerationSpecs ?_ h₂
    refine Listed.readDataGenerationSpecs (fun src dp hdp => ?_) h₁
    obtain ⟨l, hl, -⟩ := Node.mem_mapped.mp hdp
    cases hl
  refine ⟨hadds.points, hadds.fitted fitted_new, hlisted, n₂, rfl, ?_, fun t => ?_⟩
  · exact (buffered_new.readDataGenerationSpecs h₁).readMappedDataGenerationSpecs h₂
  · exact Dict.get?_foldl_insert _ _ t

section
variable {nodeTree : PTree} {n : Node} {t : String}

theorem Fitted.size_pos_iff (h : Fitted n) (hindexes : ∀ q ∈ pointsOf n, 0 ≤ q.2) :
    0 < sizeAt n.dbSize t ↔ ∃ q ∈ pointsOf n, q.1 = t := by
  constructor
  · intro hsize
    obtain hzero | ⟨q, hq, ht, -⟩ := h.tight t
    · exact absurd hzero hsize.ne'
    · exact ⟨q, hq, ht⟩
  · intro hpoint
    obtain ⟨q, hq, rfl⟩ := hpoint
    exact (hindexes q hq).trans_lt (h.covers q hq)

theorem Fitted.size_eq_zero (h : Fitted n) (hnone : ∀ q ∈ pointsOf n, q.1 ≠ t) :
    sizeAt n.dbSize t = 0 := by
  obtain hzero | ⟨q, hq, ht, -⟩ := h.tight t
  · exact hzero
  · exact absurd ht (hnone q hq)

theorem Fitted.size_largest (h : Fitted n) (hindexes : ∀ q ∈ pointsOf n, 0 ≤ q.2)
    {q : String × Int} (hq : q ∈ pointsOf n)
    (hlargest : ∀ q' ∈ pointsOf n, q'.1 = q.1 → q'.2 ≤ q.2) :
    sizeAt n.dbSize q.1 = 1 + q.2 := by
  have hcovers := h.covers q hq
  have hindex := hindexes q hq
  obtain hzero | ⟨q', hq', ht, hsize⟩ := h.tight q.1
  · omega
  · have hle := hlargest q' hq' ht
    omega

theorem Reads.size_configured (h : Reads nodeTree n) {size : Int}
    (hlast : lastSize nodeTree t = some size) : sizeAt n.evtBufferSize t = size := by
  obtain ⟨n₀, -, -, hget⟩ := h.evt
  rw [sizeAt, hget, hlast]
  rfl

theorem Reads.size_truncates (h : Reads nodeTree n) (hlast : lastSize nodeTree t = none)
    (ht : Truncates n t) : sizeAt n.evtBufferSize t = 100 := by
  obtain ⟨n₀, hdb, hbuffered, hget⟩ := h.evt
  unfold Truncates at ht
  rw [← hdb] at ht
  rw [sizeAt, hget, hlast, Option.none_or, hbuffered.given t ht]
  rfl

theorem Reads.size_untouched (h : Reads nodeTree n) (hlast : lastSize nodeTree t = none)
    (ht : ¬ Truncates n t) : sizeAt n.evtBufferSize t = 0 := by
  obtain ⟨n₀, hdb, hbuffered, hget⟩ := h.evt
  unfold Truncates at ht
  rw [← hdb] at ht
  rw [sizeAt, hget, hlast, Option.none_or, (hbuffered.untouched t).resolve_right fun h => ht h.1]
  exact sizeAt_zeroSizes _ t

/-- With a zero byte in it, no type is `t` as a C string. -/
theorem Truncates.whole (h : Truncates n t) : Cpp.cString t = t := by
  obtain ⟨t', -, rfl⟩ := h
  exact Cpp.cString_cString t'

theorem Reads.sizesRight_iff (h : Reads nodeTree n)
    (hindexes : ∀ q ∈ listedPoints nodeTree, 0 ≤ q.2) :
    SizesRight nodeTree n ↔ ZeroBytesSized nodeTree := by
  rw [← h.points] at hindexes
  have hpos : ∀ t, 0 < sizeAt n.dbSize t ↔ ∃ q ∈ pointsOf n, q.1 = t :=
    fun t => h.fitted.size_pos_iff hindexes
  unfold ZeroBytesSized
  rw [← h.points]
  constructor
  · intro hright q hq hzero
    have hsize : 0 < sizeAt n.dbSize q.1 := (hpos q.1).mpr ⟨q, hq, rfl⟩
    constructor
    · intro hlast
      have hdefault := hright.default q.1 hlast hsize
      rw [h.size_untouched hlast fun ht => hzero ht.whole] at hdefault
      cases hdefault
    · intro hkey hlast
      by_contra hnone
      have hempty : sizeAt n.dbSize (Cpp.cString q.1) = 0 :=
        h.fitted.size_eq_zero fun q' hq' ht => hnone ⟨q', hq', ht⟩
      have hunused := hright.unused _ hkey hlast hempty
      rw [h.size_truncates hlast ⟨q.1, hsize, rfl⟩] at hunused
      cases hunused
  · intro hsized
    refine ⟨h.points, h.mapped, fun t => h.fitted.size_eq_zero,
      fun q hq => h.fitted.size_largest hindexes hq, fun t size => h.size_configured,
      fun t hlast hsize => ?_, fun t hkey hlast hempty => ?_⟩
    · obtain ⟨q, hq, rfl⟩ := (hpos t).mp hsize
      by_cases hwhole : Cpp.cString q.1 = q.1
      · exact h.size_truncates hlast ⟨q.1, hsize, hwhole⟩
      · exact absurd hlast (hsized q hq hwhole).1
    · refine h.size_untouched hlast fun ht => ?_
      obtain ⟨t', hsize, rfl⟩ := ht
      obtain ⟨q, hq, rfl⟩ := (hpos t').mp hsize
      have hused : 0 < sizeAt n.dbSize (Cpp.cString q.1) := by
        by_cases hwhole : Cpp.cString q.1 = q.1
        · rwa [hwhole]
        · exact (hpos _).mpr ((hsized q hq hwhole).2 hkey hlast)
      omega

end

/-! ## The outstations of a file -/

/-- The entries that name an outstation. -/
def outstationTrees (trees : List PTree) : List PTree :=
  trees.filter fun tree => (namedStation tree "Outstation").isSome

def outstations (p : CfgJsonParser) : List StationNode :=
  p.nodes.filter fun n => n.role = "Outstation"

theorem namedStation_role {nodeTree : PTree} {role : String} {s : StationNode}
    (h : s ∈ (namedStation nodeTree role).toList) : s.role = role := by
  obtain ⟨name, -, rfl⟩ := Option.map_eq_some_iff.mp (Option.mem_toList.mp h)
  rfl

theorem readNode_outstations {nodeTree : PTree} {p p' : CfgJsonParser}
    (h : readNode p nodeTree = .ok p') :
    ∃ l, outstations p' = outstations p ++ l ∧
      List.Forall₂ (fun tree o => Reads tree o.toNode) (outstationTrees [nodeTree]) l := by
  obtain ⟨masters, new, hnodes, hmasters, hnew⟩ := readNode_stations h
  have hmaster : masters.filter (fun n => n.role = "Outstation") = [] := by
    rw [List.filter_eq_nil_iff]
    intro m hm
    obtain ⟨m₀, hm₀, hrole, -⟩ := Fallible.exists_left hmasters hm
    rw [hrole, namedStation_role hm₀]
    decide
  have houtstation : new.filter (fun n => n.role = "Outstation") = new := by
    rw [List.filter_eq_self]
    intro o ho
    obtain ⟨o₀, ho₀, hrole, -⟩ := Fallible.exists_left hnew ho
    rw [hrole, namedStation_role ho₀]
    rfl
  refine ⟨new, ?_, ?_⟩
  · rw [outstations, hnodes, List.filter_append, List.filter_append, hmaster, houtstation]
    rfl
  · unfold outstationTrees
    cases hnamed : namedStation nodeTree "Outstation" with
    | none =>
      rw [hnamed] at hnew
      cases hnew
      rw [List.filter_cons_of_neg (by simp [hnamed])]
      exact .nil
    | some o₀ =>
      have hnode : o₀.toNode = Node.new := namedStation_toNode (Option.mem_toList.mpr hnamed)
      rw [hnamed] at hnew
      obtain ⟨o, _, ⟨-, s, hs, hdata⟩, hnil, rfl⟩ := List.forall₂_cons_left_iff.mp hnew
      cases hnil
      rw [List.filter_cons_of_pos (by simp [hnamed])]
      exact .cons (readData_reads (hs.trans hnode) hdata) .nil

theorem readNodes_outstations {trees : List PTree} {p p' : CfgJsonParser}
    (h : trees.foldlM readNode p = .ok p') :
    ∃ l, outstations p' = outstations p ++ l ∧
      List.Forall₂ (fun tree o => Reads tree o.toNode) (outstationTrees trees) l := by
  induction trees generalizing p with
  | nil =>
    cases h
    exact ⟨[], (List.append_nil _).symm, .nil⟩
  | cons tree trees ih =>
    rw [List.foldlM_cons] at h
    obtain ⟨p₁, h₁, h⟩ := Fallible.bind_ok.mp h
    obtain ⟨l, hl, hreads⟩ := readNode_outstations h₁
    obtain ⟨l', hl', hreads'⟩ := ih h
    refine ⟨l ++ l', by rw [hl', hl, List.append_assoc], ?_⟩
    rw [outstationTrees, ← List.singleton_append, List.filter_append]
    exact List.rel_append hreads hreads'

theorem new_outstations {propTree : PTree} {p : CfgJsonParser} {trees : List PTree}
    (h : CfgJsonParser.new propTree = .ok p) (htrees : nodeTrees propTree = .ok trees) :
    List.Forall₂ (fun tree o => Reads tree o.toNode) (outstationTrees trees) (outstations p) := by
  obtain ⟨p₀, trees', htrees', hnil, -, h⟩ := new_readNodes h
  cases htrees.symm.trans htrees'
  obtain ⟨l, hl, hreads⟩ := readNodes_outstations h
  have hnone : outstations p₀ = [] := by rw [outstations, hnil, List.filter_nil]
  rwa [hl, hnone, List.nil_append]

theorem zeroBytesSized_of_right {trees : List PTree} {l : List StationNode}
    (hreads : List.Forall₂ (fun tree o => Reads tree o.toNode) trees l)
    (hright : List.Forall₂ (fun tree o => SizesRight tree o.toNode) trees l) {tree : PTree}
    (htree : tree ∈ trees) (hindexes : ∀ q ∈ listedPoints tree, 0 ≤ q.2) : ZeroBytesSized tree := by
  have hsized := hreads.mp (fun tree o hreads hright hindexes =>
    (hreads.sizesRight_iff hindexes).mp hright) hright
  obtain ⟨o, -, hsized⟩ := Fallible.exists_right hsized htree
  exact hsized hindexes

/-- **The sizes of the outstations.** Of a file that is accepted, without negative indexes, every
outstation has the sizes that its entry asks for exactly if every entry gives sizes to its
types with zero bytes, and to what they are as C strings where they clash with `Node()`. The
index 2^31 - 1 needs no mention: its size overflows, so no file with it is accepted. -/
theorem sizes_right_iff {propTree : PTree} {p : CfgJsonParser} {trees : List PTree}
    (h : CfgJsonParser.new propTree = .ok p) (htrees : nodeTrees propTree = .ok trees)
    (hindexes : ∀ tree ∈ outstationTrees trees, ∀ q ∈ listedPoints tree, 0 ≤ q.2) :
    List.Forall₂ (fun tree o => SizesRight tree o.toNode) (outstationTrees trees) (outstations p) ↔
      ∀ tree ∈ outstationTrees trees, ZeroBytesSized tree := by
  have hreads := new_outstations h htrees
  constructor
  · intro hright tree htree
    exact zeroBytesSized_of_right hreads hright htree (hindexes tree htree)
  · intro hsized
    have hboth := (List.forall₂_and_left _ _).mpr
      ⟨fun tree htree => And.intro (hindexes tree htree) (hsized tree htree), hreads⟩
    exact hboth.imp fun tree o h => (h.2.sizesRight_iff h.1.1).mpr h.1.2

instance (nodeTree : PTree) : Decidable (ZeroBytesSized nodeTree) :=
  inferInstanceAs (Decidable (∀ q ∈ listedPoints nodeTree, _ → _))

/-- The data of an outstation with one point of a type that ends in a zero byte. -/
def zeroByteData (sizes : List (String × String)) : List (String × PTree) :=
  [("Data", .node "" [("", .node "" [("Type", .leaf "Counter\x00"), ("Event Class", .leaf "2"),
      ("sVariation", .leaf "5"), ("eVariation", .leaf "1"), ("Index", .leaf "4")])]),
    ("Event Data", .node "" (sizes.map fun e =>
      ("", .node "" [("Type", .leaf e.1), ("Size", .leaf e.2)])))]

def sizedConfig : PTree := pairConfig (zeroByteData [("Counter\x00", "20"), ("Counter", "0")])

theorem sizes_right_sized : ∃ p trees, CfgJsonParser.new sizedConfig = .ok p ∧
    nodeTrees sizedConfig = .ok trees ∧
    List.Forall₂ (fun tree o => SizesRight tree o.toNode) (outstationTrees trees)
      (outstations p) := by
  have hok : (CfgJsonParser.new sizedConfig).toBool = true := by decide +kernel
  obtain ⟨p, h⟩ := Fallible.exists_ok hok
  exact ⟨p, _, h, rfl, (sizes_right_iff h rfl (by decide +kernel)).mpr (by decide +kernel)⟩

/-- Without sizes the type has no event buffer, and "Counter" has one without points. -/
theorem sizes_not_right : ¬ ∀ propTree p trees, CfgJsonParser.new propTree = .ok p →
    nodeTrees propTree = .ok trees →
    (∀ tree ∈ outstationTrees trees, ∀ q ∈ listedPoints tree, 0 ≤ q.2 ∧ q.2 < 2147483647) →
    List.Forall₂ (fun tree o => SizesRight tree o.toNode) (outstationTrees trees)
      (outstations p) := by
  intro hright
  have hok : (CfgJsonParser.new (pairConfig (zeroByteData []))).toBool = true := by decide +kernel
  obtain ⟨p, h⟩ := Fallible.exists_ok hok
  have hright := hright _ p _ h rfl (by decide +kernel)
  have htree : pairTree (zeroByteData []) ∈ outstationTrees [pairTree (zeroByteData [])] := by
    rw [outstationTrees, List.filter_cons_of_pos rfl]
    exact List.mem_cons_self
  have hsized := zeroBytesSized_of_right (new_outstations h rfl) hright htree (by decide +kernel)
  exact absurd hsized (by decide +kernel)

end IcsTrafficGen.Dnp3
