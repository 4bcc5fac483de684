import IcsTrafficGen.Dnp3.LuaAgreement
import IcsTrafficGen.Dnp3.AppRuns

/- Scripts of any kind, in place of those that change nothing. A script is handed the out array
   and publishes what it likes, or fails; but it cannot get at the arrays and the flags of
   the outstation. So an outstation with a script goes, as far as these are concerned, through
   what it would go through without one (`script_transparent`), and the cells that the next
   invocation hands out are what the sources have received (`app_hands_over`). -/
namespace IcsTrafficGen.Dnp3
open MappingOutstation

/-- The outstation with other updates. -/
def MappingOutstation.withApplied (applied : List Update) (m : MappingOutstation) : MappingOutstation :=
  { m with applied }

section
variable {env : LuaEnv} {m m' : MappingOutstation} {c : Channel} {L L' : Lua} {t : Turn}

/-! ## An invocation -/

/-- An invocation publishes, and that is all. -/
theorem luaInvokeScript_withApplied (h : luaInvokeScript env c m L = .ok (m', L')) :
    m' = m.withApplied m'.applied := by
  obtain ⟨_, L₁, -, h⟩ := Lua.bind_eq_ok.mp h
  obtain ⟨_, L₂, -, h⟩ := Lua.bind_eq_ok.mp h
  obtain ⟨_, L₃, -, h⟩ := Lua.bind_eq_ok.mp h
  obtain ⟨_, L₄, -, h⟩ := Lua.bind_eq_ok.mp h
  obtain ⟨_, L₅, -, h⟩ := Lua.bind_eq_ok.mp h
  obtain ⟨_, L₆, -, h⟩ := Lua.bind_eq_ok.mp h
  obtain ⟨any, L₇, -, h⟩ := Lua.bind_eq_ok.mp h
  split at h
  · obtain ⟨_, L₈, -, h⟩ := Lua.bind_eq_ok.mp h
    obtain ⟨_, L₉, -, h⟩ := Lua.bind_eq_ok.mp h
    obtain ⟨updates, L₁₀, -, h⟩ := Lua.bind_eq_ok.mp h
    obtain ⟨_, L₁₁, -, h⟩ := Lua.bind_eq_ok.mp h
    cases h
    rfl
  · obtain ⟨_, L₈, -, h⟩ := Lua.bind_eq_ok.mp h
    cases h
    rfl

/-- A turn copies the points of its source, and then invokes the script or not. -/
theorem injectTurn_copies (h : injectTurn env t m L = .ok (m', L')) :
    ∃ m₁, copyTurn t m = .ok m₁ ∧ m' = m₁.withApplied m'.applied := by
  by_cases hinvokes : t.2 = .counter ∨ m.flag t.2 t.1.1 = true
  · have heq : injectTurn env t m = Lua.lift (copyTurn t m) >>= luaInvokeScript env t.2 := by
      obtain ⟨source, c⟩ := t
      cases c with
      | counter => rfl
      | analog | binary =>
        have hflag := hinvokes.resolve_left (by simp)
        simp only [injectTurn, injectAnalog, injectBinary, copyTurn, hflag, if_true]
        rfl
    rw [heq] at h
    obtain ⟨m₁, L₁, hlift, hscript⟩ := Lua.bind_eq_ok.mp h
    obtain ⟨copied, hcopy, hpair⟩ := Fallible.map_ok.mp hlift
    cases hpair
    exact ⟨m₁, hcopy, luaInvokeScript_withApplied hscript⟩
  · rw [injectTurn_idle env hinvokes] at h
    cases h
    refine ⟨m, ?_, rfl⟩
    rw [copyTurn, if_neg (not_or.mp hinvokes).2]
    rfl

/-! ## The plain pass goes along -/

/-- The updates have no part in the copying. -/
theorem copyCell_withApplied (us : List Update) (c : Channel) (src : String) (dp : MappedDataPoint)
    (m : MappingOutstation) :
    (m.withApplied us).copyCell c src dp =
      (m.copyCell c src dp).map fun p => (p.1.withApplied us, p.2) := by
  simp only [copyCell, Fallible.map_bind]
  rfl

theorem copyPoint_withApplied (us : List Update) (c : Channel) (src : String) (m : MappingOutstation)
    (dp : MappedDataPoint) :
    (copyPoint c src m dp).map (withApplied us) = copyPoint c src (m.withApplied us) dp := by
  unfold copyPoint
  split
  · rfl
  · rw [Fallible.map_bind, copyCell_withApplied, Fallible.bind_map]
    rfl

theorem copyTurn_withApplied (us : List Update) (t : Turn) (m : MappingOutstation) :
    (copyTurn t m).map (withApplied us) = copyTurn t (m.withApplied us) := by
  have hflag : (m.withApplied us).flag = m.flag := rfl
  simp only [copyTurn, hflag]
  split
  · exact Fallible.foldlM_map (withApplied us) (copyPoint_withApplied us t.2 t.1.1) t.1.2 _
  · rfl

/-- What the input arrays hold can be published. -/
def Publishable (m : MappingOutstation) : Prop :=
  ∀ c src, ∀ pt ∈ m.input c src, Convertible c pt.value

/-- A point whose cell is copied is one that a plain pass publishes. -/
theorem passPoint_of_copyPoint {src : String} {dp : MappedDataPoint} (hm : Publishable m)
    (h : copyPoint c src m dp = .ok m') (us : List Update) :
    ∃ us', passPoint c src (m, us) dp = .ok (m', us') ∧ Publishable m' := by
  unfold copyPoint at h
  split at h
  · next htype =>
    cases h
    exact ⟨us, if_pos htype, hm⟩
  · next htype =>
    obtain ⟨⟨m₁, pt⟩, hcopy, h⟩ := Fallible.bind_ok.mp h
    cases h
    obtain ⟨hget, -, rfl⟩ := copyCell_ok.mp hcopy
    obtain ⟨meas, hmeas⟩ := hm c src pt (mem_of_vecGet hget)
    refine ⟨us ++ [{ meas := meas, quality := .online, time := pt.timestamp, index := dp.index }],
      ?_, hm⟩
    rw [passPoint, if_neg htype]
    exact Fallible.bind_ok.mpr ⟨_, hcopy, Fallible.bind_ok.mpr ⟨meas, hmeas, rfl⟩⟩

theorem passChannel_of_copyTurn (hm : Publishable m) (h : copyTurn t m = .ok m') (us : List Update) :
    ∃ us', passChannel t.2 t.1.1 t.1.2 (m, us) = .ok (m', us') ∧ Publishable m' := by
  unfold copyTurn at h
  simp only [passChannel]
  split at h
  · next hflag =>
    have hstep : ∀ dp ∈ t.1.2, ∀ m₁ (st : MappingOutstation × List Update) m₂,
        st.1 = m₁ ∧ Publishable m₁ → copyPoint t.2 t.1.1 m₁ dp = .ok m₂ →
        ∃ st', passPoint t.2 t.1.1 st dp = .ok st' ∧ st'.1 = m₂ ∧ Publishable m₂ := by
      intro dp _ m₁ st m₂ hst hcopy
      obtain ⟨rfl, hm₁⟩ := hst
      obtain ⟨us₂, hpass, hm₂⟩ := passPoint_of_copyPoint hm₁ hcopy st.2
      exact ⟨(m₂, us₂), hpass, rfl, hm₂⟩
    obtain ⟨⟨m₁, us'⟩, hpass, rfl, hm'⟩ :=
      Fallible.foldlM_simulates _ hstep (t := (m.lower t.2 t.1.1, us)) ⟨rfl, hm⟩ h
    exact ⟨us', by rw [if_pos hflag]; exact hpass, hm'⟩
  · next hflag =>
    cases h
    exact ⟨us, by rw [if_neg hflag]; rfl, hm⟩

/-- A plain pass that has come as far as one with a script. -/
def Beyond (st : MappingOutstation × List Update) (m : MappingOutstation) : Prop :=
  Publishable st.1 ∧ m = st.1.withApplied m.applied

theorem Beyond.turn {st : MappingOutstation × List Update} (h : Beyond st m)
    (hinject : injectTurn env t m L = .ok (m', L')) :
    ∃ st', passChannel t.2 t.1.1 t.1.2 st = .ok st' ∧ Beyond st' m' := by
  obtain ⟨n, us⟩ := st
  obtain ⟨hn, hm⟩ := h
  obtain ⟨m₁, hcopy, hm'⟩ := injectTurn_copies hinject
  rw [hm, ← copyTurn_withApplied] at hcopy
  obtain ⟨n', hcopied, rfl⟩ := Fallible.map_ok.mp hcopy
  obtain ⟨us', hpass, hn'⟩ := passChannel_of_copyTurn hn hcopied us
  exact ⟨(n', us'), hpass, hn', hm'⟩

theorem Beyond.source {st : MappingOutstation × List Update} {source : String × List MappedDataPoint}
    (h : Beyond st m) (hinject : injectSource env m source L = .ok (m', L')) :
    ∃ st', passSource st source = .ok st' ∧ Beyond st' m' := by
  obtain ⟨m₁, L₁, hanalog, hinject⟩ := Lua.bind_eq_ok.mp hinject
  obtain ⟨m₂, L₂, hbinary, hcounter⟩ := Lua.bind_eq_ok.mp hinject
  obtain ⟨st₁, hpass₁, h₁⟩ := h.turn (t := (source, .analog)) hanalog
  obtain ⟨st₂, hpass₂, h₂⟩ := h₁.turn (t := (source, .binary)) hbinary
  obtain ⟨st₃, hpass₃, h₃⟩ := h₂.turn (t := (source, .counter)) hcounter
  exact ⟨st₃, Fallible.bind_ok.mpr ⟨st₁, hpass₁, Fallible.bind_ok.mpr ⟨st₂, hpass₂, hpass₃⟩⟩, h₃⟩

/-- A pass with a script that returns moves the arrays and the flags as a plain pass. -/
theorem passThruDataChanges_of_inject {n : MappingOutstation} (hn : Publishable n)
    (hm : m = n.withApplied m.applied) (h : injectDataChanges env m L = .ok (m', L')) :
    ∃ n', n.passThruDataChanges = .ok n' ∧ m' = n'.withApplied m'.applied := by
  have hnode : m.node.dataSources.entries = n.node.dataSources.entries := by rw [hm]; rfl
  rw [injectDataChanges, Lua.foldlM_run, hnode] at h
  have hstep : ∀ source ∈ n.node.dataSources.entries, ∀ (p : MappingOutstation × Lua) st
      (p' : MappingOutstation × Lua), Beyond st p.1 → injectSource env p.1 source p.2 = .ok p' →
      ∃ st', passSource st source = .ok st' ∧ Beyond st' p'.1 :=
    fun source _ p st p' hst hinject => hst.source hinject
  obtain ⟨st, hpass, -, hm'⟩ := Fallible.foldlM_simulates _ hstep (t := (n, [])) ⟨hn, hm⟩ h
  exact ⟨_, Fallible.bind_ok.mpr ⟨st, hpass, rfl⟩, hm'⟩

/-! ## Runs of an outstation -/

theorem holds_runEvents {node : Node} {evs : List Event} {n : MappingOutstation}
    (h : runEvents evs (sized node) = .ok n) : Holds (sized node) evs n := by
  induction evs using List.reverseRecOn generalizing n with
  | nil =>
    cases h
    exact holds_sized node
  | append_singleton evs e ih =>
    rw [runEvents, List.foldlM_append] at h
    obtain ⟨n₁, h₁, h⟩ := Fallible.bind_ok.mp h
    have he : e.exec n₁ = .ok n := by simpa using h
    exact (ih h₁).exec he

theorem Holds.publishable {node : Node} {evs : List Event} {n : MappingOutstation}
    (h : Holds (sized node) evs n) : Publishable n := by
  intro c src pt hpt
  obtain ⟨i, hi⟩ := List.getElem?_of_mem hpt
  rw [h.cell c src i pt hi]
  exact latest_convertible evs c src i

/-- A callback does not look at the updates. -/
theorem callback_withApplied (us : List Update) (values : Values) (srcName : String)
    (n : MappingOutstation) :
    (values.event srcName).exec (n.withApplied us) =
      ((values.event srcName).exec n).map (withApplied us) := by
  cases values <;> rfl

/-- `n` is an outstation without a script that has gone through `evs`, and the outstation `m` with
one has its arrays and flags. -/
structure Shadows (node : Node) (evs : List Event) (n m : MappingOutstation) : Prop where
  run : runEvents evs (sized node) = .ok n
  same : m = n.withApplied m.applied

variable {node : Node} {evs : List Event} {n : MappingOutstation}

theorem Shadows.next (h : Shadows node evs n m) {e : Event} {n' : MappingOutstation}
    (he : e.exec n = .ok n') (hm' : m' = n'.withApplied m'.applied) :
    Shadows node (evs ++ [e]) n' m' where
  run := by
    rw [runEvents, List.foldlM_append]
    exact Fallible.bind_ok.mpr ⟨n, h.run, Fallible.bind_ok.mpr ⟨n', he, rfl⟩⟩
  same := hm'

theorem Shadows.act {o o' : MappingOutstation × Lua} (h : Shadows node evs n o.1) {a : StationAct}
    (hact : stationAct env true o a = some o') :
    ∃ n', Shadows node (evs ++ (event? a).toList) n' o'.1 := by
  cases a with
  | receive srcName values =>
    obtain ⟨m', hexec, rfl⟩ := Option.map_eq_some_iff.mp hact
    have hexec := Fallible.toOption_eq_some.mp hexec
    rw [h.same, callback_withApplied] at hexec
    obtain ⟨n', hn', rfl⟩ := Fallible.map_ok.mp hexec
    exact ⟨n', h.next hn' rfl⟩
  | pass =>
    have hinject := Fallible.toOption_eq_some.mp hact
    obtain ⟨n', hpass, hm'⟩ := passThruDataChanges_of_inject (holds_runEvents h.run).publishable
      h.same hinject
    exact ⟨n', h.next hpass hm'⟩
  | loadFile L =>
    cases hact
    rw [event?, Option.toList_none, List.append_nil]
    exact ⟨n, h⟩

theorem exists_shadows {acts : List StationAct}
    (h : (mappingStation env true node L).run (mappingStation env true node L).init acts =
      some (m, L')) : ∃ n, Shadows node (acts.filterMap event?) n m := by
  induction acts using List.reverseRecOn generalizing m L' with
  | nil =>
    cases h
    exact ⟨sized node, rfl, rfl⟩
  | append_singleton acts a ih =>
    rw [Machine.run_append, Option.bind_eq_some_iff] at h
    obtain ⟨o, hrun, hlast⟩ := h
    obtain ⟨o', hact, hnil⟩ := Machine.run_cons _ |>.mp hlast
    cases hnil
    obtain ⟨n, hn⟩ := ih hrun
    obtain ⟨n', hn'⟩ := hn.act hact
    rw [List.filterMap_append]
    refine ⟨n', ?_⟩
    cases ha : event? a <;> simpa [ha] using hn'

/-- **A script cannot touch the arrays.** Whatever the script of an outstation does, and whichever
scripts are loaded on the way, the arrays and flags are those of an outstation without one that has
received the same and made the same passes; only the updates are the script's. -/
theorem script_transparent {acts : List StationAct}
    (h : (mappingStation env true node L).run (mappingStation env true node L).init acts =
      some (m, L')) :
    ∃ n, runEvents (acts.filterMap event?) (sized node) = .ok n ∧ m = n.withApplied m.applied := by
  obtain ⟨n, hn⟩ := exists_shadows h
  exact ⟨n, hn.run, hn.same⟩

end

theorem script_transparent_bound : ∃ m L n,
    (mappingStation identityEnv true (boundOutstation "O1").toNode identityState).run
      (sized (boundOutstation "O1").toNode, identityState)
      [.receive "M1" (.analog [⟨1, .fin 7, 30⟩]), .pass, .loadFile identityState, .pass] =
        some (m, L) ∧
    runEvents [.analog "M1" [⟨1, .fin 7, 30⟩], .pass, .pass] (sized (boundOutstation "O1").toNode) =
      .ok n ∧
    m = n.withApplied m.applied := by
  have hruns : ((mappingStation identityEnv true (boundOutstation "O1").toNode identityState).run
      (sized (boundOutstation "O1").toNode, identityState)
      [.receive "M1" (.analog [⟨1, .fin 7, 30⟩]), .pass, .loadFile identityState, .pass]).isSome := by
    decide +kernel
  obtain ⟨⟨m, L⟩, hrun⟩ := Option.isSome_iff_exists.mp hruns
  obtain ⟨n, hn, hsame⟩ := script_transparent hrun
  exact ⟨m, L, n, hrun, hn, hsame⟩

/-! ## The application -/

section
variable {s : Stations} {env : LuaEnv} {fileExists : String → Bool} {luaState : s.Dest → Lua}
variable {app app' : s.App} {k : s.Src} {i : s.Dest} {c : Channel}

/-- **What a source receives is handed to the script.** After a pass of a mapping outstation, with
any script or with none, the out cell of a mapped point is what the point's source master has
received since its destinations were set, if it has received anything of the kind and is through
with passing it on. -/
theorem app_hands_over (h : (dnp3App s env fileExists luaState).Reachable app)
    (hnodup : DistinctTargets (s.destNode i)) (honly : OnlySource s k i)
    (hidle : app.net.sending k = none)
    (hpass : (dnp3App s env fileExists luaState).step app (.pass i) = some app')
    {dp : MappedDataPoint} (hmem : (s.srcName k, dp) ∈ (s.destNode i).mapped)
    (htype : dp.pointType = c.pointType) (hsent : Reported (app.sentTo k i) c (s.srcName k)) :
    Cpp.vecGet ((app'.outstations i).1.outValues c) dp.index =
      .ok (latest (app.sentTo k i) c (s.srcName k) dp.inputIndex.toNat) := by
  obtain ⟨acts, hrun, -, hhistory⟩ := exists_history h i
  have hreported := hhistory.reported k hidle c hsent
  rw [← hhistory.latest k honly hidle]
  cases app_moves hpass with
  | passes i o ho =>
    simp only [Function.update_self]
    -- the outstation itself, or the one without a script that it goes along with
    cases hscript : s.script fileExists i with
    | false =>
      rw [hscript] at hrun ho
      have ht := (tracks_sized (s.destNode i)).runEvents hnodup (runEvents_of_run hrun)
      obtain ⟨m, hm, rfl⟩ := Option.map_eq_some_iff.mp ho
      obtain ⟨-, -, hout, -⟩ :=
        ht.publishes hnodup (Fallible.toOption_eq_some.mp hm) hmem htype hreported
      exact hout
    | true =>
      rw [hscript] at hrun ho
      obtain ⟨n, hn⟩ := exists_shadows hrun
      have ht := (tracks_sized (s.destNode i)).runEvents hnodup hn.run
      obtain ⟨n', hpass, hsame⟩ := passThruDataChanges_of_inject
        (holds_runEvents hn.run).publishable hn.same (Fallible.toOption_eq_some.mp ho)
      obtain ⟨-, -, hout, -⟩ := ht.publishes hnodup hpass hmem htype hreported
      rw [hsame]
      exact hout

end

/-- The outstation "O1" has a script. -/
def scriptedStations : Stations :=
  startStations [boundMaster "M1" ["O1"],
    { boundOutstation "O1" with luaFileNames := ["O1.lua"] }]

def scriptedApp : Machine scriptedStations.App scriptedStations.AppAct :=
  dnp3App scriptedStations identityEnv (fun _ => true) (fun _ => identityState)

def scriptedSrc : scriptedStations.Src := ⟨0, by decide⟩
def scriptedDest : scriptedStations.Dest := ⟨0, by decide⟩

def scriptedRun : List scriptedStations.AppAct :=
  [.updateDestinations scriptedSrc, .callback scriptedSrc (.analog [⟨1, .fin 7, 30⟩]),
    .deliver scriptedSrc, .finish scriptedSrc]

theorem app_hands_over_scripted : ∃ app app',
    scriptedApp.run scriptedApp.init scriptedRun = some app ∧
    scriptedStations.script (fun _ => true) scriptedDest = true ∧
    scriptedApp.step app (.pass scriptedDest) = some app' ∧
    Cpp.vecGet ((app'.outstations scriptedDest).1.outValues .analog) 0 =
      .ok { value := .fin 7, timestamp := 30 } := by
  have hruns : ((scriptedApp.run scriptedApp.init scriptedRun).bind fun app =>
    scriptedApp.step app (.pass scriptedDest)).isSome := by decide +kernel
  obtain ⟨app', happ'⟩ := Option.isSome_iff_exists.mp hruns
  obtain ⟨app, hrun, hpass⟩ := Option.bind_eq_some_iff.mp happ'
  have hidle : ((scriptedApp.run scriptedApp.init scriptedRun).map fun app =>
    (app.net.sending scriptedSrc).isNone) = some true := by decide +kernel
  have hmapped : ("M1", ⟨0, 1, "Analog Input"⟩) ∈ (scriptedStations.destNode scriptedDest).mapped := by
    decide
  have hsentTo : (scriptedApp.run scriptedApp.init scriptedRun).map
      (fun app => app.sentTo scriptedSrc scriptedDest) =
    some [.analog "M1" [⟨1, .fin 7, 30⟩]] := rfl
  rw [hrun, Option.map_some, Option.some.injEq] at hsentTo
  have hout := app_hands_over (c := .analog) ⟨scriptedRun, hrun⟩ (by decide) (k := scriptedSrc)
    (by decide) (by simpa [hrun] using hidle) hpass hmapped rfl
    (by rw [hsentTo]; exact ⟨_, List.mem_cons_self, _, rfl⟩)
  rw [hsentTo] at hout
  exact ⟨app, app', hrun, by decide, hpass, hout⟩

end IcsTrafficGen.Dnp3
