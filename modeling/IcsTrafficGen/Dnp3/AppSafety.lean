import IcsTrafficGen.Dnp3.AnyScript
import IcsTrafficGen.Dnp3.EventBuffers
import IcsTrafficGen.Dnp3.NodeOrder

/- Whether the multiplexers of a file ever leave their arrays. A pass copies the points of the
   sources whose flag is up, and returns exactly if these points have their cells
   (`passThruDataChanges_returns_iff`). A flag is up only if the callback of a master has
   raised it, and every master that binds the outstation may do so. So no pass of any run goes
   wrong exactly if the points that are mapped from a binding master have their cells
   (`passes_safe_iff`); for the others it does not matter. -/
namespace IcsTrafficGen.Dnp3
open MappingOutstation Stations CfgJsonParser

/-! ## A pass -/

/-- The input cell and the out cell of a mapped point. -/
def HasCells (c : Channel) (src : String) (dp : MappedDataPoint) (m : MappingOutstation) : Prop :=
  (0 ≤ dp.inputIndex ∧ dp.inputIndex < (m.input c src).length) ∧
    0 ≤ dp.index ∧ dp.index < (m.outValues c).length

section
variable {m m' : MappingOutstation} {c : Channel} {src : String} {dp : MappedDataPoint}
variable {st st' : MappingOutstation × List Update}

theorem passPoint_returns_iff (hm : Publishable m) (hf : Frame m st) :
    (∃ st', passPoint c src st dp = .ok st') ↔ (dp.pointType = c.pointType → HasCells c src dp m) := by
  have hinput : st.1.input c src = m.input c src := by rw [input, input, hf.values]
  constructor
  · rintro ⟨st', h⟩ htype
    obtain ⟨hne, -⟩ | ⟨pt, meas, -, hget, hout, -, -⟩ := passPoint_cases h
    · exact absurd htype hne
    · obtain ⟨h0, hpt⟩ := Cpp.vecGet_ok.mp hget
      have hlt := (List.getElem?_eq_some_iff.mp hpt).1
      rw [hinput] at hlt
      rw [hf.length] at hout
      exact ⟨⟨h0, by omega⟩, hout⟩
  · intro hcells
    by_cases htype : dp.pointType = c.pointType
    · obtain ⟨⟨h0, hlt⟩, hout⟩ := hcells htype
      obtain ⟨pt, hpt⟩ := Cpp.vecGet_of_lt h0 hlt
      obtain ⟨meas, hmeas⟩ := hm c src pt (mem_of_vecGet hpt)
      rw [← hf.length] at hout
      rw [passPoint, if_neg (not_not.mpr htype)]
      have hcopy := copyCell_ok.mpr ⟨by rw [hinput, hpt], hout, rfl⟩
      exact ⟨_, Fallible.bind_ok.mpr ⟨_, hcopy, Fallible.bind_ok.mpr ⟨meas, hmeas, rfl⟩⟩⟩
    · exact ⟨st, if_pos htype⟩

theorem passPoint_flag (h : passPoint c src st dp = .ok st') : st'.1.flag = st.1.flag := by
  obtain ⟨-, rfl⟩ | ⟨pt, meas, -, -, -, -, rfl⟩ := passPoint_cases h <;> rfl

/-- The turn of a source and a channel lowers its own flag. -/
theorem passChannel_flag {l : List MappedDataPoint} (h : passChannel c src l st = .ok st')
    (d : Channel) (s : String) :
    st'.1.flag d s = true ↔ st.1.flag d s = true ∧ ¬ (d = c ∧ s = src) := by
  unfold passChannel at h
  split at h
  · have hflag : st'.1.flag = setCell st.1.flag c src false :=
      Fallible.foldlM_invariant
        (fun st' : MappingOutstation × List Update => st'.1.flag = setCell st.1.flag c src false)
        (fun dp _ s s' hs hp => (passPoint_flag hp).trans hs) rfl h
    rw [hflag]
    by_cases hthis : d = c ∧ s = src
    · obtain ⟨rfl, rfl⟩ := hthis
      simp
    · rw [setCell_of_ne _ _ _ _ _ _ hthis]
      exact (and_iff_left hthis).symm
  · next hdown =>
    cases h
    refine ⟨fun hup => ⟨hup, ?_⟩, And.left⟩
    rintro ⟨rfl, rfl⟩
    exact hdown hup

theorem passSource_flag {source : String × List MappedDataPoint}
    (h : passSource st source = .ok st') (d : Channel) (s : String) :
    st'.1.flag d s = true ↔ st.1.flag d s = true ∧ s ≠ source.1 := by
  obtain ⟨st₁, h₁, h⟩ := Fallible.bind_ok.mp h
  obtain ⟨st₂, h₂, h₃⟩ := Fallible.bind_ok.mp h
  rw [passChannel_flag h₃, passChannel_flag h₂, passChannel_flag h₁]
  cases d <;> simp

theorem passChannel_returns_iff (hm : Publishable m) (hf : Frame m st) {l : List MappedDataPoint} :
    (∃ st', passChannel c src l st = .ok st') ↔
      (st.1.flag c src = true → ∀ dp ∈ l, dp.pointType = c.pointType → HasCells c src dp m) := by
  unfold passChannel
  split
  · next hup =>
    have hlow : Frame m (st.1.lower c src, st.2) := ⟨hf.node, hf.values, hf.applied, hf.length⟩
    rw [Fallible.foldlM_returns_iff (f := passPoint c src) (Frame m)
      (fun _ dp => dp.pointType = c.pointType → HasCells c src dp m)
      (fun dp _ st hst => passPoint_returns_iff hm hst) (fun dp _ st st' hst h => hst.passPoint h)
      (List.pairwise_of_forall fun _ _ _ _ _ _ => Iff.rfl) hlow]
    simp [hup]
  · next hdown => exact iff_of_true ⟨st, rfl⟩ fun hup => absurd hup hdown

theorem passSource_returns_iff (hm : Publishable m) (hf : Frame m st)
    {source : String × List MappedDataPoint} : (∃ st', passSource st source = .ok st') ↔
      ∀ c : Channel, st.1.flag c source.1 = true →
        ∀ dp ∈ source.2, dp.pointType = c.pointType → HasCells c source.1 dp m := by
  have hapart : ∀ a b : Channel, a ≠ b → ∀ st st', passChannel a source.1 source.2 st = .ok st' →
      (st'.1.flag b source.1 = true ↔ st.1.flag b source.1 = true) := by
    intro a b hab st st' h
    rw [passChannel_flag h]
    exact and_iff_left fun heq => hab heq.1.symm
  rw [passSource_eq, Fallible.foldlM_returns_iff (Frame m)
    (fun st c => st.1.flag c source.1 = true →
      ∀ dp ∈ source.2, dp.pointType = c.pointType → HasCells c source.1 dp m)
    (fun c _ st hst => passChannel_returns_iff hm hst) (fun c _ st st' hst h => hst.passChannel h) ?_ hf]
  · constructor
    · intro h c
      exact h c (by cases c <;> simp)
    · intro h c _
      exact h c
  · have hdistinct : [Channel.analog, .binary, .counter].Pairwise (· ≠ ·) := by decide
    refine hdistinct.imp fun hab st st' _ h => ?_
    rw [hapart _ _ hab st st' h]

/-- A pass returns exactly if the points that it copies have their cells. -/
theorem passThruDataChanges_returns_iff (hm : Publishable m) :
    (∃ m', m.passThruDataChanges = .ok m') ↔
      ∀ c src dp, (src, dp) ∈ m.node.mapped → dp.pointType = c.pointType → m.flag c src = true →
        HasCells c src dp m := by
  rw [passThruDataChanges, Fallible.exists_bind_pure, Fallible.foldlM_returns_iff (Frame m)
    (fun st source => ∀ c : Channel, st.1.flag c source.1 = true →
      ∀ dp ∈ source.2, dp.pointType = c.pointType → HasCells c source.1 dp m)
    (fun source _ st hst => passSource_returns_iff hm hst)
    (fun source _ st st' hst h => hst.passSource h) ?_ ⟨rfl, rfl, rfl, fun _ => rfl⟩]
  · constructor
    · intro h c src dp hmem htype hup
      obtain ⟨l, hl, hdp⟩ := Node.mem_mapped.mp hmem
      exact h (src, l) (Dict.get?_eq_some.mp hl) c hup dp hdp htype
    · intro h source hsource c hup dp hdp htype
      exact h c source.1 dp
        (Node.mem_mapped.mpr ⟨source.2, Dict.get?_eq_some.mpr hsource, hdp⟩) htype hup
  · -- a source has one entry, so its flags are its own
    have hnodup : m.node.dataSources.entries.Pairwise fun a b => a.1 ≠ b.1 :=
      List.pairwise_map.mp m.node.dataSources.nodup
    refine hnodup.imp fun hab st st' _ h => forall_congr' fun c => ?_
    rw [passSource_flag h, and_iff_left (Ne.symm hab)]

theorem passThruDataChanges_flag (h : m.passThruDataChanges = .ok m') (hup : m'.flag c src = true) :
    m.flag c src = true := by
  obtain ⟨st, hst, h⟩ := Fallible.bind_ok.mp h
  cases h
  exact Fallible.foldlM_invariant
    (fun st : MappingOutstation × List Update => st.1.flag c src = true → m.flag c src = true)
    (fun source _ st st' hst h hup => hst ((passSource_flag h c src).mp hup).1) id hst hup

end

/-! ## The arrays of a file -/

/-- The indexes of a mapped point are none below zero, and its source has a point of the channel
with an `Index` no smaller than its `InputIndex`. -/
def Copyable (node : Node) (c : Channel) (src : String) (dp : MappedDataPoint) : Prop :=
  0 ≤ dp.index ∧ 0 ≤ dp.inputIndex ∧
    ∃ dp', (src, dp') ∈ node.mapped ∧ dp'.pointType = c.pointType ∧ dp.inputIndex ≤ dp'.index

theorem hasCells_iff {node : Node} {evs : List Event} {m : MappingOutstation} {c : Channel}
    {src : String} {dp : MappedDataPoint} (h : Holds (sized node) evs m) (hfitted : Fitted node)
    (hlisted : Listed node) (hmem : (src, dp) ∈ node.mapped) (htype : dp.pointType = c.pointType) :
    HasCells c src dp m ↔ Copyable node c src dp := by
  obtain ⟨l, hl, -⟩ := Node.mem_mapped.mp hmem
  have hout : dp.index < (m.outValues c).length := by
    obtain ⟨p, hp, hptype, hindex⟩ := hlisted src dp hmem
    have hcovers := hfitted.covers _ (List.mem_map_of_mem hp)
    rw [h.length_out, sized, length_zeros (hfitted.nonneg _), ← htype, ← hptype, ← hindex]
    exact hcovers
  have hin : 0 ≤ dp.inputIndex → (dp.inputIndex < (m.input c src).length ↔
      ∃ dp', (src, dp') ∈ node.mapped ∧ dp'.pointType = c.pointType ∧ dp.inputIndex ≤ dp'.index) := by
    intro h0
    rw [h.length_in, input_sized hl, length_zeros (neededSize_nonneg _ _), lt_neededSize h0]
    refine exists_congr fun dp' => and_congr_left fun _ => ?_
    rw [Node.mem_mapped]
    constructor
    · exact fun hdp' => ⟨l, hl, hdp'⟩
    · rintro ⟨l', hl', hdp'⟩
      cases hl.symm.trans hl'
      exact hdp'
  constructor
  · rintro ⟨⟨h0, hlt⟩, hpos, -⟩
    exact ⟨hpos, h0, (hin h0).mp hlt⟩
  · rintro ⟨hpos, h0, hcovered⟩
    exact ⟨⟨h0, (hin h0).mpr hcovered⟩, hpos, hout⟩

theorem mem_foldl_startStation {nodes : List ConfiguredNode} {s : Stations} {n : ConfiguredNode}
    (h : n ∈ (nodes.foldl startStation s).mappedOutStations) :
    n ∈ s.mappedOutStations ∨ n ∈ nodes ∧ n.role = "Outstation" := by
  induction nodes generalizing s with
  | nil => exact Or.inl h
  | cons vect nodes ih =>
    obtain hn | ⟨hn, hrole⟩ := ih h
    · have hnew : n ∈ s.mappedOutStations ∨ n = vect ∧ vect.role = "Outstation" := by
        unfold startStation at hn
        split_ifs at hn <;> simp_all
      obtain hn | ⟨rfl, hrole⟩ := hnew
      · exact Or.inl hn
      · exact Or.inr ⟨List.mem_cons_self, hrole⟩
    · exact Or.inr ⟨List.mem_cons_of_mem vect hn, hrole⟩

/-- A mapping outstation of a file has a database as large as its points need, and its mapped points
are among them. -/
theorem destNode_fitted {propTree : PTree} {nodes : List ConfiguredNode}
    (h : configuredNodes propTree = .ok nodes) (i : (startStations nodes).Dest) :
    Fitted ((startStations nodes).destNode i) ∧ Listed ((startStations nodes).destNode i) := by
  obtain ⟨p, hp, hstations⟩ := configuredNodes_stations h
  obtain ⟨gen, trees, p', -, htrees, -⟩ := configuredNodes_ok.mp h
  let n := (startStations nodes).mappedOutStations.get i
  have hn : n ∈ nodes ∧ n.role = "Outstation" :=
    (mem_foldl_startStation (List.get_mem _ i)).resolve_left List.not_mem_nil
  have hnode : n.toStationNode ∈ p.nodes := hstations ▸ List.mem_map_of_mem hn.1
  have houtstation : n.toStationNode ∈ outstations p :=
    List.mem_filter.mpr ⟨hnode, decide_eq_true hn.2⟩
  obtain ⟨tree, -, hreads⟩ := Fallible.exists_left (new_outstations hp htrees) houtstation
  exact ⟨new_fitted hp _ hnode, hreads.mapped⟩

/-! ## The flags -/

/-- A flag is up only after a callback. -/
theorem reported_of_flag {node : Node} {evs : List Event} {m : MappingOutstation} {c : Channel}
    {src : String} (h : runEvents evs (sized node) = .ok m) (hup : m.flag c src = true) :
    Reported evs c src := by
  induction evs using List.reverseRecOn generalizing m with
  | nil =>
    cases h
    cases hup
  | append_singleton evs e ih =>
    rw [runEvents, List.foldlM_append] at h
    obtain ⟨m₁, h₁, h⟩ := Fallible.bind_ok.mp h
    have he : e.exec m₁ = .ok m := by simpa using h
    rw [reported_snoc]
    cases hcallback : e.callback? with
    | none =>
      cases Event.eq_pass_of_callback hcallback
      exact Or.inl (ih h₁ (passThruDataChanges_flag he hup))
    | some callback =>
      obtain ⟨d, s, pairs⟩ := callback
      rw [Event.exec_of_callback hcallback] at he
      cases he
      by_cases hthis : c = d ∧ src = s
      · obtain ⟨rfl, rfl⟩ := hthis
        exact Or.inr ⟨pairs, rfl⟩
      · simp only [process, setCell_of_ne _ _ _ _ _ _ hthis] at hup
        exact Or.inl (ih h₁ hup)

section
variable {s : Stations} {env : LuaEnv} {fileExists : String → Bool} {luaState : s.Dest → Lua}
variable {app app' : s.App} {k : s.Src} {i : s.Dest} {c : Channel} {src : String}

/-- A flag has been raised by a master that binds the outstation. -/
theorem source_of_flag (h : (dnp3App s env fileExists luaState).Reachable app)
    (hscript : s.script fileExists i = false) (hup : (app.outstations i).1.flag c src = true) :
    ∃ k, i ∈ s.destinations k ∧ s.srcName k = src := by
  obtain ⟨acts, hrun, hdelivered, -⟩ := exists_history h i
  rw [hscript] at hrun
  obtain ⟨e, he, pairs, hcallback⟩ := reported_of_flag (runEvents_of_run hrun) hup
  obtain ⟨a, ha, hevent⟩ := List.mem_filterMap.mp he
  cases a with
  | receive srcName values =>
    cases hevent
    have hname : srcName = src := by
      obtain ⟨d, pairs', hd⟩ := values.callback_event
      rw [hd] at hcallback
      cases hcallback
      rfl
    have hmem : (srcName, values) ∈ app.delivered i :=
      hdelivered ▸ List.mem_filterMap.mpr ⟨_, ha, rfl⟩
    obtain ⟨⟨k, values'⟩, hgot, heq⟩ := List.mem_map.mp hmem
    cases heq
    exact ⟨k, source_of_got h hgot, hname⟩
  | pass =>
    cases hevent
    cases hcallback
  | loadFile => cases hevent

/-- A delivery never goes wrong. -/
theorem deliver_next (env : LuaEnv) (fileExists : String → Bool) (luaState : s.Dest → Lua)
    {values : Values} {j : s.Dest} {rest : List s.Dest}
    (hsending : app.net.sending k = some (values, j :: rest)) : ∃ app',
    (dnp3App s env fileExists luaState).step app (.deliver k) = some app' ∧
    app'.net.sending = Function.update app.net.sending k (some (values, rest)) ∧
    app'.net.sent = app.net.sent ∧ (values.event (s.srcName k)).exec (app.outstations j).1 = .ok (app'.outstations j).1 := by
  obtain ⟨d, pairs, hcallback⟩ := values.callback_event
  have hexec := Event.exec_of_callback (hcallback (s.srcName k)) (app.outstations j).1
  have hact : stationAct env (s.script fileExists j) (app.outstations j)
      (.receive (s.srcName k) values) =
        some (process d (s.srcName k) pairs (app.outstations j).1, (app.outstations j).2) := by
    rw [stationAct, hexec]
    rfl
  refine ⟨{
    destinationList := app.destinationList
    net := { app.net with
      sending := Function.update app.net.sending k (some (values, rest))
      got := Function.update app.net.got j (app.net.got j ++ [(k, values)]) }
    outstations := Function.update app.outstations j
      (process d (s.srcName k) pairs (app.outstations j).1, (app.outstations j).2) }, ?_, rfl, rfl, ?_⟩
  · simp only [dnp3App, App.step, App.deliver, hsending, App.act, hact, App.send, Fanout.step,
      Option.map_some, Option.bind_some]
  · simp only [Function.update_self]
    exact hexec

/-- A callback comes to every destination. -/
theorem deliver_to (h : (dnp3App s env fileExists luaState).Reachable app) {values : Values}
    {before rest : List s.Dest} (hsending : app.net.sending k = some (values, before ++ i :: rest)) :
    ∃ app', (dnp3App s env fileExists luaState).Reachable app' ∧
      app'.net.sending k = some (values, i :: rest) := by
  induction before generalizing app with
  | nil => exact ⟨app, h, hsending⟩
  | cons j before ih =>
    obtain ⟨app₁, hstep, hsending₁, -, -⟩ := deliver_next env fileExists luaState hsending
    refine ih (h.next hstep) ?_
    rw [hsending₁, Function.update_self]
    rfl

/-- A callback of the channel without measurements. -/
def Channel.noValues : Channel → Values
  | .analog => .analog []
  | .binary => .binary []
  | .counter => .counter []

/-- A master that binds an outstation can raise each of its flags there. -/
theorem exists_flag (hi : i ∈ s.destinations k) (c : Channel) : ∃ app,
    (dnp3App s env fileExists luaState).Reachable app ∧
      (app.outstations i).1.flag c (s.srcName k) = true := by
  obtain ⟨before, rest, hsplit⟩ := List.append_of_mem hi
  have hstart := Machine.Reachable.initial (dnp3App s env fileExists luaState)
  have hupdate : (dnp3App s env fileExists luaState).step
      (dnp3App s env fileExists luaState).init (.updateDestinations k) = some
        { (dnp3App s env fileExists luaState).init with
          destinationList := Function.update (fun _ => []) k (s.destinations k) } := rfl
  have hcalls : ((dnp3App s env fileExists luaState).step
      { (dnp3App s env fileExists luaState).init with
        destinationList := Function.update (fun _ => []) k (s.destinations k) }
      (.callback k c.noValues)).isSome := rfl
  obtain ⟨app₁, hcall⟩ := Option.isSome_iff_exists.mp hcalls
  have hsending : app₁.net.sending k = some (c.noValues, before ++ i :: rest) := by
    rw [← hsplit]
    cases app_moves hcall with
    | calls k values net hnet =>
      cases Fanout.step_moves hnet
      simp only [Function.update_self]
  obtain ⟨app₂, hreach, hsending₂⟩ := deliver_to ((hstart.next hupdate).next hcall) hsending
  obtain ⟨app₃, hstep, -, -, hexec⟩ := deliver_next env fileExists luaState hsending₂
  refine ⟨app₃, hreach.next hstep, ?_⟩
  have hcallback : (c.noValues.event (s.srcName k)).callback? = some (c, s.srcName k, []) := by
    cases c <;> rfl
  rw [Event.exec_of_callback hcallback] at hexec
  rw [← Except.ok.inj hexec]
  simp [process]

/-- A pass is defined exactly if the flagged points can be copied. -/
theorem pass_defined_iff (h : (dnp3App s env fileExists luaState).Reachable app)
    (hscript : s.script fileExists i = false) (hfitted : Fitted (s.destNode i))
    (hlisted : Listed (s.destNode i)) :
    (∃ app', (dnp3App s env fileExists luaState).step app (.pass i) = some app') ↔
      ∀ c src dp, (src, dp) ∈ (s.destNode i).mapped → dp.pointType = c.pointType →
        (app.outstations i).1.flag c src = true → Copyable (s.destNode i) c src dp := by
  obtain ⟨acts, hrun, -, -⟩ := exists_history h i
  rw [hscript] at hrun
  have hholds := holds_runEvents (runEvents_of_run hrun)
  have hreturns : (∃ app', (dnp3App s env fileExists luaState).step app (.pass i) = some app') ↔
      ∃ m, (app.outstations i).1.passThruDataChanges = .ok m := by
    constructor
    · rintro ⟨app', hpass⟩
      cases app_moves hpass with
      | passes i o ho =>
        rw [hscript] at ho
        obtain ⟨m, hm, -⟩ := Option.map_eq_some_iff.mp ho
        exact ⟨m, Fallible.toOption_eq_some.mp hm⟩
    · rintro ⟨m, hm⟩
      simp only [dnp3App, App.step, App.act, stationAct, hscript, Fallible.toOption_eq_some.mpr hm]
      exact ⟨_, rfl⟩
  rw [hreturns, passThruDataChanges_returns_iff hholds.publishable, hholds.node]
  refine forall_congr' fun c => forall_congr' fun src => forall_congr' fun dp =>
    forall_congr' fun hmem => forall_congr' fun htype => forall_congr' fun _ => ?_
  exact hasCells_iff hholds hfitted hlisted hmem htype

end

/-- No pass of an outstation without a script goes wrong, in no run. -/
def PassesSafe (s : Stations) (env : LuaEnv) (fileExists : String → Bool) (luaState : s.Dest → Lua) :
    Prop :=
  ∀ app, (dnp3App s env fileExists luaState).Reachable app → ∀ i, s.script fileExists i = false →
    ∃ app', (dnp3App s env fileExists luaState).step app (.pass i) = some app'

/-- The points that the outstations without a script map from masters that bind them have their
cells. -/
def BoundCopyable (s : Stations) (fileExists : String → Bool) : Prop :=
  ∀ i, s.script fileExists i = false → ∀ k, i ∈ s.destinations k → ∀ (c : Channel) dp,
    (s.srcName k, dp) ∈ (s.destNode i).mapped → dp.pointType = c.pointType →
    Copyable (s.destNode i) c (s.srcName k) dp

theorem passesSafe_of_copyable {propTree : PTree} {nodes : List ConfiguredNode}
    (h : configuredNodes propTree = .ok nodes) {env : LuaEnv} {fileExists : String → Bool}
    {luaState : (startStations nodes).Dest → Lua}
    (hcopyable : BoundCopyable (startStations nodes) fileExists) :
    PassesSafe (startStations nodes) env fileExists luaState := by
  intro app hreach i hscript
  obtain ⟨hfitted, hlisted⟩ := destNode_fitted h i
  refine (pass_defined_iff hreach hscript hfitted hlisted).mpr fun c src dp hmem htype hup => ?_
  obtain ⟨k, hk, rfl⟩ := source_of_flag hreach hscript hup
  exact hcopyable i hscript k hk c dp hmem htype

/-- **When no pass goes wrong.** Of an accepted file, the mapping outstations without a script never
read or write outside their arrays, in no run of the application, exactly if each point that such an
outstation maps from a master that binds it has indexes that are not negative, and its `InputIndex`
is no larger than some `Index` of the same source and type. -/
theorem passes_safe_iff {propTree : PTree} {nodes : List ConfiguredNode}
    (h : configuredNodes propTree = .ok nodes) (env : LuaEnv) (fileExists : String → Bool)
    (luaState : (startStations nodes).Dest → Lua) :
    PassesSafe (startStations nodes) env fileExists luaState ↔
      BoundCopyable (startStations nodes) fileExists := by
  constructor
  · intro hsafe i hscript k hk c dp hmem htype
    obtain ⟨hfitted, hlisted⟩ := destNode_fitted h i
    obtain ⟨app, hreach, hup⟩ := exists_flag hk c
    exact (pass_defined_iff hreach hscript hfitted hlisted).mp (hsafe app hreach i hscript) c _ dp
      hmem htype hup
  · exact passesSafe_of_copyable h

/-- A pair whose outstation maps one point from the master, which binds it. -/
def mappedPair (inputIndex : String) : PTree :=
  pairConfig [("Bound Outstations", .node "" [("", .leaf "O1")]),
    ("Data Sources", .node "" [("", .node "" [
      ("Source", .leaf "M1"),
      ("Mapped Data", .node "" [("", .node "" [("Type", .leaf "Analog Input"),
        ("Event Class", .leaf "2"), ("sVariation", .leaf "5"), ("eVariation", .leaf "7"),
        ("InputIndex", .leaf inputIndex), ("Index", .leaf "0")])])])])]

def mappedNodes (inputIndex : String) : List ConfiguredNode :=
  (configuredNodes (mappedPair inputIndex)).toOption.getD []

theorem mappedNodes_mapped : ∀ i, ((startStations (mappedNodes "0")).destNode i).mapped =
    [("M1", ⟨0, 0, "Analog Input"⟩)] := by decide +kernel

theorem mappedNodes_copyable (fileExists : String → Bool) :
    BoundCopyable (startStations (mappedNodes "0")) fileExists := by
  intro i _ k _ c dp hmem htype
  have hdp := hmem
  rw [mappedNodes_mapped, List.mem_singleton] at hdp
  obtain ⟨-, rfl⟩ := Prod.mk.inj hdp
  exact ⟨le_refl 0, le_refl 0, _, hmem, htype, le_refl 0⟩

theorem passes_safe_pair :
    PassesSafe (startStations (mappedNodes "0")) identityEnv (fun _ => false) (fun _ => identityState) ∧
    ¬ PassesSafe (startStations (mappedNodes "5")) identityEnv (fun _ => false)
      (fun _ => identityState) := by
  have hsafe : configuredNodes (mappedPair "0") = .ok (mappedNodes "0") := by decide +kernel
  have hunsafe : configuredNodes (mappedPair "5") = .ok (mappedNodes "5") := by decide +kernel
  have hmapped : ∀ i, ((startStations (mappedNodes "5")).destNode i).mapped =
      [("M1", ⟨0, 5, "Analog Input"⟩)] := by decide +kernel
  refine ⟨(passes_safe_iff hsafe _ _ _).mpr (mappedNodes_copyable _), fun h => ?_⟩
  obtain ⟨i, k, hk, hname, hscript⟩ : ∃ i k, i ∈ (startStations (mappedNodes "5")).destinations k ∧
      (startStations (mappedNodes "5")).srcName k = "M1" ∧
      (startStations (mappedNodes "5")).script (fun _ => false) i = false := by decide +kernel
  obtain ⟨-, -, dp', hdp', -, hle⟩ := (passes_safe_iff hunsafe _ _ _).mp h i hscript k hk .analog
    ⟨0, 5, "Analog Input"⟩ (by rw [hmapped, hname]; simp) rfl
  rw [hmapped, List.mem_singleton] at hdp'
  obtain ⟨-, rfl⟩ := Prod.mk.inj hdp'
  exact absurd hle (by decide)

end IcsTrafficGen.Dnp3
