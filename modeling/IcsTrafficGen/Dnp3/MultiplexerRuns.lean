import IcsTrafficGen.Dnp3.Multiplexer

/- Runs of the multiplexer from the end of its start-up. `Holds` says what the input
   arrays owe to the events so far, `Tracks` also what the out arrays and the outstation
   do. Every callback and every pass keeps both, so they hold in every run, and with
   them the contents of every mapped out cell after a pass. -/
namespace IcsTrafficGen.Dnp3
open MappingOutstation

/-- The arrays of `m` after the events `evs` from `m₀`. -/
structure Holds (m₀ : MappingOutstation) (evs : List Event) (m : MappingOutstation) : Prop where
  node : m.node = m₀.node
  length_in : ∀ c src, (m.input c src).length = (m₀.input c src).length
  length_out : ∀ c, (m.outValues c).length = (m₀.outValues c).length
  cell : ∀ c src i pt, (m.input c src)[i]? = some pt → pt = latest evs c src i

/-- A mapped point is flagged or settled. -/
structure Tracks (m₀ : MappingOutstation) (evs : List Event) (m : MappingOutstation) : Prop
    extends Holds m₀ evs m where
  entry : ∀ c src dp, (src, dp) ∈ m₀.node.mapped → dp.pointType = c.pointType →
    m.flag c src = true ∨ Settled (Reported evs c src) c src dp m m.applied

/-! ## The initial state -/

theorem input_sized_zero {node : Node} {c : Channel} {src : String} {pt : Dnp3Point}
    (h : pt ∈ (sized node).input c src) : pt = .zero := by
  simp only [input, sized] at h
  cases hget : node.dataSources.get? src with
  | none => simp [hget] at h
  | some l => exact eq_zero_of_mem_zeros (by simpa [hget] using h)

theorem mem_of_vecGet {v : List Dnp3Point} {i : Int} {pt : Dnp3Point}
    (h : Cpp.vecGet v i = .ok pt) : pt ∈ v := List.mem_of_getElem? (Cpp.vecGet_ok.mp h).2

theorem holds_sized (node : Node) : Holds (sized node) [] (sized node) where
  node := rfl
  length_in _ _ := rfl
  length_out _ := rfl
  cell c src i pt h := by
    rw [input_sized_zero (List.mem_of_getElem? h)]
    rfl

theorem tracks_sized (node : Node) : Tracks (sized node) [] (sized node) where
  toHolds := holds_sized node
  entry c src dp _ _ := by
    refine Or.inr (Or.inr ⟨by simp [Reported], fun pt out hin hout => ?_⟩)
    rw [input_sized_zero (mem_of_vecGet hin)]
    exact eq_zero_of_mem_zeros (mem_of_vecGet hout)

/-! ## A callback -/

theorem input_process (c d : Channel) (src s : String) (pairs : List (Indexed Double))
    (m : MappingOutstation) :
    (process c src pairs m).input d s =
      if d = c ∧ s = src then pairs.foldl storePair (m.input d s) else m.input d s := by
  simp only [input, process]
  by_cases h : d = c ∧ s = src
  · obtain ⟨rfl, rfl⟩ := h
    cases hv : m.values d s with
    | none => simp [hv, List.length_eq_zero_iff.mp (length_foldl_storePair pairs [])]
    | some pts => simp
  · rw [if_neg h]
    cases hv : m.values c src with
    | none => rfl
    | some pts => simp [setCell_of_ne _ _ _ _ _ _ h]

section
variable {m₀ m m' : MappingOutstation} {evs more : List Event} {e : Event} {c' : Channel}
variable {src' : String} {pairs : List (Indexed Double)}

/-- A callback leaves in a cell what the pairs so far come to. -/
theorem cell_callback (he : e.callback? = some (c', src', pairs)) {c : Channel} {src : String} {i : ℕ}
    (hcell : ∀ pt, (m.input c src)[i]? = some pt → pt = latest evs c src i) (pt : Dnp3Point)
    (h : ((process c' src' pairs m).input c src)[i]? = some pt) :
    pt = latest (evs ++ [e]) c src i := by
  rw [input_process] at h
  rw [latest_snoc, Event.pairsFor, he]
  by_cases hc : c = c' ∧ src = src'
  · obtain ⟨rfl, rfl⟩ := hc
    rw [if_pos ⟨rfl, rfl⟩, getElem?_foldl_storePair, Option.map_eq_some_iff] at h
    obtain ⟨old, hold, rfl⟩ := h
    simp [hcell old hold]
  · rw [if_neg hc] at h
    have hc' : ¬ (c' = c ∧ src' = src) := fun e => hc ⟨e.1.symm, e.2.symm⟩
    simp [hc', hcell pt h]

theorem Holds.callback (ht : Holds m₀ evs m) (he : e.callback? = some (c', src', pairs)) :
    Holds m₀ (evs ++ [e]) (process c' src' pairs m) where
  node := ht.node
  length_in c src := by
    rw [input_process, ← ht.length_in c src]
    split
    · exact length_foldl_storePair _ _
    · rfl
  length_out := ht.length_out
  cell c src i := cell_callback he (ht.cell c src i)

theorem Tracks.callback (ht : Tracks m₀ evs m) (he : e.callback? = some (c', src', pairs)) :
    Tracks m₀ (evs ++ [e]) (process c' src' pairs m) where
  toHolds := ht.toHolds.callback he
  entry c src dp hmem htype := by
    by_cases hc : c = c' ∧ src = src'
    · obtain ⟨rfl, rfl⟩ := hc
      exact Or.inl (by simp [process])
    · have hflag : (process c' src' pairs m).flag c src = m.flag c src := by
        simp [process, setCell_of_ne _ _ _ _ _ _ hc]
      have hrep : Reported (evs ++ [e]) c src ↔ Reported evs c src := by
        have hc' : ¬ (c' = c ∧ src' = src) := fun e => hc ⟨e.1.symm, e.2.symm⟩
        rw [reported_snoc, he]
        simp only [Option.some.injEq, Prod.mk.injEq, or_iff_left_iff_imp]
        intro h
        obtain ⟨_, rfl, rfl, -⟩ := h
        exact absurd ⟨rfl, rfl⟩ hc'
      have hin : (process c' src' pairs m).input c src = m.input c src := by
        rw [input_process, if_neg hc]
      rw [hflag, hrep]
      exact (ht.entry c src dp hmem htype).imp_right fun hs => hs.congr hin rfl rfl

/-! ## A pass -/

theorem reported_pass {c : Channel} {src : String} :
    Reported (evs ++ [.pass]) c src ↔ Reported evs c src := by
  simp [reported_snoc, Event.callback?]

theorem latest_pass (c : Channel) (src : String) (i : Nat) :
    latest (evs ++ [.pass]) c src i = latest evs c src i := by
  simp [latest_snoc, Event.pairsFor, Event.callback?]

theorem Holds.pass (ht : Holds m₀ evs m) (h : m.passThruDataChanges = .ok m') :
    Holds m₀ (evs ++ [.pass]) m' := by
  obtain ⟨hnode, hvalues, hlength⟩ := passThruDataChanges_frame h
  have hin : ∀ c src, m'.input c src = m.input c src := fun c src => by simp [input, hvalues]
  refine ⟨hnode.trans ht.node, fun c src => hin c src ▸ ht.length_in c src,
    fun c => (hlength c).trans (ht.length_out c), fun c src i pt hpt => ?_⟩
  rw [latest_pass]
  exact ht.cell c src i pt (hin c src ▸ hpt)

/-- After a pass every mapped point is settled. -/
theorem Tracks.settled (ht : Tracks m₀ evs m) (hnodup : DistinctTargets m₀.node)
    (h : m.passThruDataChanges = .ok m') {c : Channel} {src : String} {dp : MappedDataPoint}
    (hmem : (src, dp) ∈ m₀.node.mapped) (htype : dp.pointType = c.pointType) :
    Settled (Reported evs c src) c src dp m' m'.applied := by
  have hnode := ht.node
  rw [← hnode] at hnodup hmem
  exact passThruDataChanges_settles hnodup hmem htype
    (ht.entry c src dp (hnode ▸ hmem) htype) h

theorem Tracks.pass (ht : Tracks m₀ evs m) (hnodup : DistinctTargets m₀.node)
    (h : m.passThruDataChanges = .ok m') : Tracks m₀ (evs ++ [.pass]) m' where
  toHolds := ht.toHolds.pass h
  entry c src dp hmem htype := by
    right
    rw [Settled, reported_pass]
    exact ht.settled hnodup h hmem htype

/-! ## Runs -/

theorem Holds.exec (ht : Holds m₀ evs m) (h : e.exec m = .ok m') : Holds m₀ (evs ++ [e]) m' := by
  cases he : e.callback? with
  | none =>
    cases Event.eq_pass_of_callback he
    exact ht.pass h
  | some cb =>
    rw [Event.exec_of_callback he] at h
    cases h
    exact ht.callback he

theorem Tracks.exec (ht : Tracks m₀ evs m) (hnodup : DistinctTargets m₀.node)
    (h : e.exec m = .ok m') : Tracks m₀ (evs ++ [e]) m' := by
  cases he : e.callback? with
  | none =>
    cases Event.eq_pass_of_callback he
    exact ht.pass hnodup h
  | some cb =>
    rw [Event.exec_of_callback he] at h
    cases h
    exact ht.callback he

theorem Tracks.runEvents (ht : Tracks m₀ evs m) (hnodup : DistinctTargets m₀.node)
    (h : Dnp3.runEvents more m = .ok m') : Tracks m₀ (evs ++ more) m' := by
  induction more generalizing evs m with
  | nil =>
    rw [← Fallible.pure_ok.mp h, List.append_nil]
    exact ht
  | cons e more ih =>
    obtain ⟨m₁, h₁, h⟩ := Fallible.bind_ok.mp h
    rw [List.append_cons]
    exact ih (ht.exec hnodup h₁) h

end

/-! ## No step goes wrong -/

/-- The entries of the mapping stay inside the arrays. -/
def FitsIn (m : MappingOutstation) : Prop :=
  ∀ c src dp, (src, dp) ∈ m.node.mapped → dp.pointType = c.pointType →
    0 ≤ dp.inputIndex ∧ dp.inputIndex < (m.input c src).length

def FitsOut (m : MappingOutstation) : Prop :=
  ∀ c src dp, (src, dp) ∈ m.node.mapped → dp.pointType = c.pointType →
    0 ≤ dp.index ∧ dp.index < (m.outValues c).length

/-- The values a callback can bring convert back to the type of their channel. -/
def Convertible (c : Channel) (v : Double) : Prop := ∃ meas, c.meas v = .ok meas

theorem convertible_of_pairsFor {e : Event} {c : Channel} {src : String} {i : Nat}
    {pair : Indexed Double} (h : pair ∈ e.pairsFor c src i) : Convertible c pair.value := by
  cases c with
  | analog => exact ⟨_, rfl⟩
  | binary => exact ⟨_, rfl⟩
  | counter =>
    cases e with
    | counter src' values =>
      simp only [Event.pairsFor, Event.callback?] at h
      split at h
      · obtain ⟨v, -, rfl⟩ := List.mem_map.mp (List.mem_of_mem_filter h)
        exact ⟨.counter v.value, Fallible.bind_ok.mpr ⟨_, Double.toUInt32_ofUInt32 v.value, rfl⟩⟩
      · cases h
    | pass => cases h
    | _ => simp [Event.pairsFor, Event.callback?] at h

theorem convertible_foldl {c : Channel} {pairs : List (Indexed Double)}
    (hpairs : ∀ pair ∈ pairs, Convertible c pair.value) {pt : Dnp3Point}
    (hpt : Convertible c pt.value) : Convertible c (pairs.foldl Dnp3Point.receive pt).value := by
  induction pairs generalizing pt with
  | nil => exact hpt
  | cons pair pairs ih =>
    rw [List.forall_mem_cons] at hpairs
    apply ih hpairs.2
    unfold Dnp3Point.receive
    split
    · exact hpt
    · exact hpairs.1

theorem latest_convertible (evs : List Event) (c : Channel) (src : String) (i : Nat) :
    Convertible c (latest evs c src i).value := by
  refine convertible_foldl (fun pair hpair => ?_) (by cases c <;> exact ⟨_, rfl⟩)
  obtain ⟨e, -, he⟩ := List.mem_flatMap.mp hpair
  exact convertible_of_pairsFor he

theorem vecGet_total {m₀ m : MappingOutstation} {evs : List Event} (ht : Holds m₀ evs m)
    (hin : FitsIn m₀) {c : Channel} {src : String} {dp : MappedDataPoint}
    (hmem : (src, dp) ∈ m₀.node.mapped) (htype : dp.pointType = c.pointType) :
    Cpp.vecGet (m.input c src) dp.inputIndex = .ok (latest evs c src dp.inputIndex.toNat) := by
  have h := hin c src dp hmem htype
  rw [← ht.length_in c src] at h
  obtain ⟨pt, hpt⟩ := Cpp.vecGet_of_lt h.1 h.2
  rw [hpt, ht.cell c src _ pt (Cpp.vecGet_ok.mp hpt).2]

theorem passPoint_total {m₀ m : MappingOutstation} {evs : List Event} (ht : Holds m₀ evs m)
    (hin : FitsIn m₀) (hout : FitsOut m₀) (c : Channel) {src : String} {dp : MappedDataPoint}
    (hmem : (src, dp) ∈ m₀.node.mapped) {st : MappingOutstation × List Update} (hf : Frame m st) :
    ∃ st', passPoint c src st dp = .ok st' ∧ Frame m st' := by
  by_cases htype : dp.pointType = c.pointType
  · have hget : Cpp.vecGet (st.1.input c src) dp.inputIndex =
        .ok (latest evs c src dp.inputIndex.toNat) := by
      rw [input, hf.values]
      exact vecGet_total ht hin hmem htype
    have hrange : 0 ≤ dp.index ∧ dp.index < (st.1.outValues c).length := by
      rw [hf.length, ht.length_out]
      exact hout c src dp hmem htype
    obtain ⟨meas, hmeas⟩ := latest_convertible evs c src dp.inputIndex.toNat
    have hcopy := copyCell_ok.mpr ⟨hget, hrange, rfl⟩
    have hpass : ∃ st', passPoint c src st dp = .ok st' := by
      rw [passPoint, if_neg (not_not.mpr htype)]
      exact ⟨_, Fallible.bind_ok.mpr ⟨_, hcopy, Fallible.bind_ok.mpr ⟨_, hmeas, rfl⟩⟩⟩
    obtain ⟨st', h⟩ := hpass
    exact ⟨st', h, hf.passPoint h⟩
  · exact ⟨st, by simp [passPoint, htype]; rfl, hf⟩

theorem passSource_total {m₀ m : MappingOutstation} {evs : List Event} (ht : Holds m₀ evs m)
    (hin : FitsIn m₀) (hout : FitsOut m₀) {source : String × List MappedDataPoint}
    (hsource : source ∈ m₀.node.dataSources.entries) {st : MappingOutstation × List Update}
    (hf : Frame m st) : ∃ st', passSource st source = .ok st' ∧ Frame m st' := by
  rw [passSource_eq]
  refine Fallible.foldlM_total (Frame m) (fun c _ s hs => ?_) hf
  unfold passChannel
  split
  · have hlow : Frame m (s.1.lower c source.1, s.2) := ⟨hs.node, hs.values, hs.applied, hs.length⟩
    refine Fallible.foldlM_total (Frame m) (fun dp hdp _ hs => ?_) hlow
    exact passPoint_total ht hin hout c
      (Node.mem_mapped.mpr ⟨source.2, Dict.get?_eq_some.mpr hsource, hdp⟩) hs
  · exact ⟨s, rfl, hs⟩

theorem exec_total {m₀ m : MappingOutstation} {evs : List Event} (ht : Holds m₀ evs m)
    (hin : FitsIn m₀) (hout : FitsOut m₀) (e : Event) : ∃ m', e.exec m = .ok m' := by
  cases he : e.callback? with
  | some cb => exact ⟨_, Event.exec_of_callback he m⟩
  | none =>
    cases Event.eq_pass_of_callback he
    obtain ⟨st, hst, -⟩ := Fallible.foldlM_total (l := m.node.dataSources.entries) (Frame m)
      (fun source hsource _ hf => passSource_total ht hin hout (by rwa [← ht.node]) hf)
      (⟨rfl, rfl, rfl, fun _ => rfl⟩ : Frame m (m, []))
    exact ⟨_, Fallible.bind_ok.mpr ⟨st, hst, rfl⟩⟩

theorem runEvents_total {m₀ m : MappingOutstation} {evs more : List Event}
    (ht : Holds m₀ evs m) (hin : FitsIn m₀) (hout : FitsOut m₀) :
    ∃ m', runEvents more m = .ok m' := by
  induction more generalizing evs m with
  | nil => exact ⟨m, rfl⟩
  | cons e more ih =>
    obtain ⟨m₁, h₁⟩ := exec_total ht hin hout e
    obtain ⟨m', h'⟩ := ih (ht.exec h₁)
    exact ⟨m', Fallible.bind_ok.mpr ⟨m₁, h₁, h'⟩⟩

/-- **The multiplexer delivers.** Of an outstation that has started, whose mapping has
distinct targets and input indexes inside the input arrays: in every run a point whose
out cell differs from its input cell is flagged; after every pass the out cell of a
reported point, and the last update of its index, carry the fold of the pairs received
for it; and if the out indexes are inside the out arrays, no run goes wrong. -/
theorem multiplexer_delivers {node : Node} {m₀ : MappingOutstation}
    (hstart : (new node).start = .ok m₀) (hnodup : DistinctTargets node) (hin : FitsIn m₀) :
    (∀ evs m, runEvents evs m₀ = .ok m → ∀ c src dp, (src, dp) ∈ node.mapped →
      dp.pointType = c.pointType → ∀ pt out, Cpp.vecGet (m.input c src) dp.inputIndex = .ok pt →
        Cpp.vecGet (m.outValues c) dp.index = .ok out → out ≠ pt → m.flag c src = true) ∧
    (∀ evs m, runEvents (evs ++ [.pass]) m₀ = .ok m → ∀ c src dp, (src, dp) ∈ node.mapped →
      dp.pointType = c.pointType → Reported evs c src →
        let pt := latest evs c src dp.inputIndex.toNat
        Cpp.vecGet (m.outValues c) dp.index = .ok pt ∧
        ∃ meas, c.meas pt.value = .ok meas ∧ lastUpdate m.applied c dp.index =
          some { meas := meas, quality := .online, time := pt.timestamp, index := dp.index }) ∧
    (FitsOut m₀ → ∀ evs, ∃ m, runEvents evs m₀ = .ok m) := by
  obtain ⟨-, -, rfl⟩ := start_ok.mp hstart
  have h0 := tracks_sized node
  refine ⟨fun evs m hrun c src dp hmem htype pt out hpt hcell hne => ?_,
    fun evs m hrun c src dp hmem htype hrep => ?_, fun hout evs => ?_⟩
  · have ht := h0.runEvents hnodup hrun
    rw [List.nil_append] at ht
    exact (ht.entry c src dp hmem htype).resolve_right fun hs => hne (hs.equal pt out hpt hcell)
  · rw [runEvents, List.foldlM_append] at hrun
    obtain ⟨m₁, h₁, hpass⟩ := Fallible.bind_ok.mp hrun
    have ht := h0.runEvents hnodup h₁
    rw [List.nil_append] at ht
    replace hpass : m₁.passThruDataChanges = .ok m := by
      simpa [Event.exec] using hpass
    have hcell := vecGet_total (ht.toHolds.pass hpass) hin hmem htype
    rw [latest_pass] at hcell
    rcases ht.settled hnodup hpass hmem htype with ⟨pt, meas, hpt, hout, hmeas, hlast⟩ | ⟨hn, -⟩
    · cases hpt.symm.trans hcell
      exact ⟨hout, meas, hmeas, hlast⟩
    · exact absurd hrep hn
  · exact runEvents_total h0.toHolds hin hout

/-- A mapping that swaps two points of the source "O2". -/
def swapNode : Node :=
  { Node.new with
    dataSources := ⟨[("O2", [⟨0, 1, "Analog Input"⟩, ⟨1, 0, "Analog Input"⟩])], by decide⟩
    dbSize := ⟨[("Analog Input", 2)], by decide⟩ }

def swapEvents : List Event :=
  [.analog "O2" [⟨1, .fin 7, 30⟩, ⟨9, .fin 5, 0⟩], .counter "O3" [], .analog "O2" [⟨1, .fin 7, 0⟩]]

theorem swapNode_mapped (src : String) (dp : MappedDataPoint) (h : (src, dp) ∈ swapNode.mapped) :
    src = "O2" ∧ (dp = ⟨0, 1, "Analog Input"⟩ ∨ dp = ⟨1, 0, "Analog Input"⟩) := by
  simp only [Node.mapped, swapNode, List.flatMap_cons, List.map_cons, List.map_nil,
    List.flatMap_nil, List.append_nil, List.mem_cons, Prod.mk.injEq, List.not_mem_nil] at h
  tauto

theorem swapNode_fitsIn : FitsIn (sized swapNode) := by
  intro c src dp h ht
  have hlen : (sized swapNode).input .analog "O2" = [.zero, .zero] := by decide
  obtain ⟨rfl, rfl | rfl⟩ := swapNode_mapped src dp h <;>
    rw [show c = .analog from Channel.pointType_inj ht.symm, hlen] <;> decide

theorem swapNode_fitsOut : FitsOut (sized swapNode) := by
  intro c src dp h ht
  obtain ⟨rfl, rfl | rfl⟩ := swapNode_mapped src dp h <;>
    rw [show c = .analog from Channel.pointType_inj ht.symm] <;> decide

theorem multiplexer_delivers_swap : ∃ m, runEvents (swapEvents ++ [.pass]) (sized swapNode) = .ok m ∧
    Cpp.vecGet (m.outValues .analog) 0 = .ok { value := .fin 7, timestamp := 30 } := by
  have hstart : (new swapNode).start = .ok (sized swapNode) :=
    start_ok.mpr ⟨by decide, by intro c; cases c <;> decide, rfl⟩
  obtain ⟨-, hpass, htotal⟩ := multiplexer_delivers hstart (by decide) swapNode_fitsIn
  obtain ⟨m, hm⟩ := htotal swapNode_fitsOut (swapEvents ++ [.pass])
  exact ⟨m, hm, (hpass swapEvents m hm .analog "O2" ⟨0, 1, "Analog Input"⟩ (by decide) rfl
    ⟨_, List.mem_cons_self, _, rfl⟩).1⟩

end IcsTrafficGen.Dnp3
