import IcsTrafficGen.Dnp3.Dnp3App
import IcsTrafficGen.Dnp3.LuaRuns

/- Runs of the whole application. An outstation behaves as if it were alone with the callbacks
   that have reached it (`app_isolated`), and these are what the masters that bind it have
   sent since their destinations were set (`Fanout.arrived`). So a pass of an outstation
   publishes what the source masters of its points have received since then
   (`app_delivers`), whatever the other masters and outstations do. -/
namespace IcsTrafficGen.Dnp3
open MappingOutstation Stations

/-! ## Two masters and two outstations -/

def boundMaster (name : String) (bound : List String) : ConfiguredNode :=
  { StationNode.new name "Master" with
    luaFileNames := [], luaKeySwitch := "", boundOutstations := bound }

/-- An outstation that maps the second analog point of "M1". -/
def boundOutstation (name : String) : ConfiguredNode :=
  { StationNode.new name "Outstation" with
    dataSources := ⟨[("M1", [⟨0, 1, "Analog Input"⟩, ⟨1, 0, "Analog Input"⟩])], by decide⟩
    dbSize := ⟨[("Analog Input", 3)], by decide⟩
    luaFileNames := [], luaKeySwitch := "", boundOutstations := [] }

/-- "M1" binds the first outstation twice. -/
def boundStations : Stations :=
  startStations [boundMaster "M1" ["O1", "O2", "O1"], boundOutstation "O1",
    boundMaster "M2" ["O2"], boundOutstation "O2"]

/-- The first value comes too early, the second one does not. -/
def boundRun : List boundStations.AppAct :=
  let m1 : boundStations.Src := ⟨0, by decide⟩
  let m2 : boundStations.Src := ⟨1, by decide⟩
  [.callback m1 (.analog [⟨1, .fin 3, 10⟩]), .finish m1, .updateDestinations m1,
    .updateDestinations m2, .callback m1 (.analog [⟨1, .fin 7, 30⟩]), .deliver m1,
    .callback m2 (.analog [⟨1, .fin 8, 40⟩]), .deliver m2, .deliver m1, .pass ⟨1, by decide⟩,
    .deliver m1, .finish m1]

def boundApp : Machine boundStations.App boundStations.AppAct :=
  dnp3App boundStations identityEnv (fun _ => false) (fun _ => identityState)

/-- The first outstation, of the first master. -/
def boundDest : boundStations.Dest := ⟨0, by decide⟩
def boundSrc : boundStations.Src := ⟨0, by decide⟩

/-! ## What a step does -/

section
variable {s : Stations} {env : LuaEnv} {fileExists : String → Bool}
variable {luaState : s.Dest → Lua} {app app' : s.App}

inductive AppMoves (env : LuaEnv) (fileExists : String → Bool) (app : s.App) :
    s.AppAct → s.App → Prop where
  | updates (k : s.Src) : app.net.sending k = none →
      AppMoves env fileExists app (.updateDestinations k) { app with
        destinationList := Function.update app.destinationList k (s.destinations k) }
  | calls (k : s.Src) (values : Values) (net : Fanout s.Src s.Dest Values) :
      app.net.step (.send k values (app.destinationList k)) = some net →
      AppMoves env fileExists app (.callback k values) { app with net }
  | delivers (k : s.Src) (values : Values) (i : s.Dest) (rest : List s.Dest)
      (o : MappingOutstation × Lua) : app.net.sending k = some (values, i :: rest) →
      stationAct env (s.script fileExists i) (app.outstations i)
        (.receive (s.srcName k) values) = some o →
      AppMoves env fileExists app (.deliver k)
        { destinationList := app.destinationList
          net := { app.net with
            sending := Function.update app.net.sending k (some (values, rest))
            got := Function.update app.net.got i (app.net.got i ++ [(k, values)]) }
          outstations := Function.update app.outstations i o }
  | finishes (k : s.Src) (net : Fanout s.Src s.Dest Values) :
      app.net.step (.finish k) = some net →
      AppMoves env fileExists app (.finish k) { app with net }
  | passes (i : s.Dest) (o : MappingOutstation × Lua) :
      stationAct env (s.script fileExists i) (app.outstations i) .pass = some o →
      AppMoves env fileExists app (.pass i)
        { app with outstations := Function.update app.outstations i o }
  | loads (i : s.Dest) (L : Lua) (o : MappingOutstation × Lua) :
      stationAct env (s.script fileExists i) (app.outstations i) (.loadFile L) = some o →
      AppMoves env fileExists app (.loadFile i L)
        { app with outstations := Function.update app.outstations i o }

theorem app_moves {a : s.AppAct} (h : (dnp3App s env fileExists luaState).step app a = some app') :
    AppMoves env fileExists app a app' := by
  cases a with
  | updateDestinations k =>
    simp only [dnp3App, App.step, App.updateDestinations] at h
    split at h
    · next hnone =>
      cases h
      exact .updates k hnone
    · cases h
  | callback k values =>
    obtain ⟨net, hnet, rfl⟩ := Option.map_eq_some_iff.mp h
    exact .calls k values net hnet
  | deliver k =>
    simp only [dnp3App, App.step, App.deliver] at h
    split at h
    · next values i rest hsending =>
      obtain ⟨app₁, hact, hsend⟩ := Option.bind_eq_some_iff.mp h
      obtain ⟨o, ho, rfl⟩ := Option.map_eq_some_iff.mp hact
      obtain ⟨net, hnet, rfl⟩ := Option.map_eq_some_iff.mp hsend
      simp only [Fanout.step, hsending, Option.some.injEq] at hnet
      subst hnet
      exact .delivers k values i rest o hsending ho
    · cases h
  | finish k =>
    obtain ⟨net, hnet, rfl⟩ := Option.map_eq_some_iff.mp h
    exact .finishes k net hnet
  | pass i =>
    obtain ⟨o, ho, rfl⟩ := Option.map_eq_some_iff.mp h
    exact .passes i o ho
  | loadFile i L =>
    obtain ⟨o, ho, rfl⟩ := Option.map_eq_some_iff.mp h
    exact .loads i L o ho

/-- What the application does with the measurements is sending them. -/
theorem net_reachable (h : (dnp3App s env fileExists luaState).Reachable app) :
    (fanout s.Src s.Dest Values).Reachable app.net := by
  refine Machine.Reachable.part App.net rfl (fun app a app' hstep => ?_) h
  cases app_moves hstep with
  | updates | passes | loads => exact Or.inl rfl
  | calls k values net hnet => exact Or.inr ⟨.send k values _, hnet⟩
  | finishes k net hnet => exact Or.inr ⟨.finish k, hnet⟩
  | delivers k values i rest o hsending =>
    refine Or.inr ⟨.deliver k, ?_⟩
    simp only [fanout, Fanout.step, hsending]

/-! ## One outstation -/

/-- What the callbacks bring, with the name of their source. -/
def received? : StationAct → Option (String × Values)
  | .receive srcName values => some (srcName, values)
  | .pass | .loadFile _ => none

/-- What an outstation has got, as it sees it. -/
def Stations.App.delivered (app : s.App) (i : s.Dest) : List (String × Values) :=
  (app.net.got i).map fun p => (s.srcName p.1, p.2)

/-- What an action of the application is to an outstation: the callback that is delivered to it, its
own pass and its own script, and nothing of the others. -/
def Stations.App.actsAt (i : s.Dest) (app : s.App) : s.AppAct → List StationAct
  | .deliver k =>
    match app.net.sending k with
    | some (values, j :: _) => if j = i then [.receive (s.srcName k) values] else []
    | _ => []
  | .pass j => if j = i then [.pass] else []
  | .loadFile j L => if j = i then [.loadFile L] else []
  | .updateDestinations _ | .callback _ _ | .finish _ => []

/-- An outstation by itself does the same with the actions that are for it. -/
theorem outstation_step (i : s.Dest) {a : s.AppAct}
    (h : (dnp3App s env fileExists luaState).step app a = some app') :
    (mappingStation env (s.script fileExists i) (s.destNode i) (luaState i)).run
        (app.outstations i) (app.actsAt i a) = some (app'.outstations i) ∧
      app'.delivered i = app.delivered i ++ (app.actsAt i a).filterMap received? := by
  -- a step at another outstation is none here
  have hrun : ∀ (j : s.Dest) (o : MappingOutstation × Lua) (b : StationAct),
      stationAct env (s.script fileExists j) (app.outstations j) b = some o →
      (mappingStation env (s.script fileExists i) (s.destNode i) (luaState i)).run
        (app.outstations i) (if j = i then [b] else []) =
          some (Function.update app.outstations j o i) := by
    intro j o b hb
    by_cases hji : j = i
    · subst hji
      rw [if_pos rfl, Function.update_self]
      exact (Machine.run_cons _).mpr ⟨o, hb, rfl⟩
    · rw [if_neg hji, Function.update_of_ne (Ne.symm hji)]
      rfl
  cases app_moves h with
  | updates => exact ⟨rfl, (List.append_nil _).symm⟩
  | calls k values net hnet =>
    cases Fanout.step_moves hnet
    exact ⟨rfl, (List.append_nil _).symm⟩
  | finishes k net hnet =>
    cases Fanout.step_moves hnet
    exact ⟨rfl, (List.append_nil _).symm⟩
  | delivers k values j rest o hsending ho =>
    simp only [App.actsAt, hsending]
    refine ⟨hrun j o _ ho, ?_⟩
    by_cases hji : j = i
    · subst hji
      simp [App.delivered, received?]
    · simp [App.delivered, Function.update_of_ne (Ne.symm hji), hji]
  | passes j o ho =>
    refine ⟨hrun j o _ ho, ?_⟩
    by_cases hji : j = i <;> simp [App.actsAt, App.delivered, received?, hji]
  | loads j L o ho =>
    refine ⟨hrun j o _ ho, ?_⟩
    by_cases hji : j = i <;> simp [App.actsAt, App.delivered, received?, hji]

/-- What the actions that were for an outstation have made of it. -/
theorem outstation_run {i : s.Dest} {acts : List StationAct}
    (h : ((dnp3App s env fileExists luaState).recorded (App.actsAt i)).Reachable (app, acts)) :
    (mappingStation env (s.script fileExists i) (s.destNode i) (luaState i)).run
        (mappingStation env (s.script fileExists i) (s.destNode i) (luaState i)).init acts =
          some (app.outstations i) ∧
      acts.filterMap received? = app.delivered i :=
  h.projected (fun app : s.App => app.outstations i) (fun app => app.delivered i) received? rfl rfl
    (fun _ _ _ hstep => outstation_step i hstep)

/-- **An outstation is on its own.** In every run of the application, the actions `acts` that were
for an outstation, that is the callbacks that were delivered to it, its passes and its scripts in
their order, bring the outstation alone to the state it is in. -/
theorem app_isolated {as : List s.AppAct} (i : s.Dest) {acts : List StationAct}
    (h : ((dnp3App s env fileExists luaState).recorded (App.actsAt i)).run
      ((dnp3App s env fileExists luaState).init, []) as = some (app, acts)) :
    (mappingStation env (s.script fileExists i) (s.destNode i) (luaState i)).run
        (MappingOutstation.sized (s.destNode i), luaState i) acts = some (app.outstations i) ∧
      acts.filterMap received? = app.delivered i :=
  outstation_run ⟨as, h⟩

end

/-- The callback that comes twice, and a pass. -/
theorem app_isolated_bound : ∃ app,
    (boundApp.recorded (App.actsAt boundDest)).run (boundApp.init, [])
      (boundRun ++ [.pass boundDest]) = some (app, [.receive "M1" (.analog [⟨1, .fin 7, 30⟩]),
        .receive "M1" (.analog [⟨1, .fin 7, 30⟩]), .pass]) ∧
    (mappingStation identityEnv false (boundStations.destNode boundDest) identityState).run
      (sized (boundStations.destNode boundDest), identityState)
      [.receive "M1" (.analog [⟨1, .fin 7, 30⟩]), .receive "M1" (.analog [⟨1, .fin 7, 30⟩]),
        .pass] = some (app.outstations boundDest) := by
  have hacts : ((boundApp.recorded (App.actsAt boundDest)).run (boundApp.init, [])
      (boundRun ++ [.pass boundDest])).map Prod.snd =
    some [.receive "M1" (.analog [⟨1, .fin 7, 30⟩]), .receive "M1" (.analog [⟨1, .fin 7, 30⟩]),
      .pass] := rfl
  obtain ⟨⟨app, acts⟩, hrun, rfl⟩ := Option.map_eq_some_iff.mp hacts
  exact ⟨app, hrun, (app_isolated boundDest hrun).1⟩

/-! ## The same measurements twice -/

/-- Values that compare as equal compare in the same way to others. -/
theorem eqv_congr {a b : Double} (h : a.eqv b = true) (c : Double) : a.eqv c = b.eqv c := by
  cases a <;> cases b <;> cases c <;> simp_all [Double.eqv] <;> exact eq_comm

/-- A pair compares to a cell that has received another one as it compares to that one. -/
theorem eqv_receive (pt : Dnp3Point) (p : Indexed Double) (c : Double) :
    (pt.receive p).value.eqv c = p.value.eqv c := by
  unfold Dnp3Point.receive
  split
  · next h =>
    rw [Bool.and_eq_true] at h
    exact eqv_congr h.1 c
  · rfl

theorem receive_self (pt : Dnp3Point) (p : Indexed Double) :
    (pt.receive p).receive p = pt.receive p := by
  by_cases h : pt.value.eqv p.value && p.time == 0
  · have hsame : pt.receive p = pt := if_pos h
    rw [hsame, hsame]
  · have hset : pt.receive p = { value := p.value, timestamp := p.time } := if_neg h
    rw [hset, Dnp3Point.receive]
    split <;> rfl

/-- What pairs do to a cell comes to what the last of them does, or to a cell that does not
depend on the one before, or to nothing. -/
inductive Effect (f : Dnp3Point → Dnp3Point) : Prop where
  | nothing : (∀ pt, f pt = pt) → Effect f
  | last (pair : Indexed Double) : (∀ pt, f pt = pt.receive pair) → Effect f
  | const (pt' : Dnp3Point) : (∀ pt, f pt = pt') → Effect f

/-- A pair after another one: it changes nothing, or what it leaves does not depend on the cell. -/
theorem receive_receive (p q : Indexed Double) :
    (∀ pt : Dnp3Point, (pt.receive p).receive q = pt.receive p) ∨
      ∃ pt', ∀ pt : Dnp3Point, (pt.receive p).receive q = pt' := by
  by_cases hq : p.value.eqv q.value && q.time == 0
  · refine Or.inl fun pt => ?_
    rw [Dnp3Point.receive, eqv_receive, if_pos hq]
  · refine Or.inr ⟨{ value := q.value, timestamp := q.time }, fun pt => ?_⟩
    rw [Dnp3Point.receive, eqv_receive, if_neg hq]

theorem effect_foldl (pairs : List (Indexed Double)) : Effect fun pt => pairs.foldl Dnp3Point.receive pt := by
  induction pairs using List.reverseRecOn with
  | nil => exact .nothing fun pt => rfl
  | append_singleton pairs q ih =>
    simp only [List.foldl_append, List.foldl_cons, List.foldl_nil]
    cases ih with
    | nothing h => exact .last q fun pt => by rw [h]
    | const pt' h => exact .const _ fun pt => by rw [h]
    | last p h =>
      obtain hsame | ⟨pt', hconst⟩ := receive_receive p q
      · exact .last p fun pt => by rw [h, hsame]
      · exact .const pt' fun pt => by rw [h, hconst]

/-- The same pairs once more change nothing. -/
theorem foldl_receive_twice (pairs : List (Indexed Double)) (pt : Dnp3Point) :
    pairs.foldl Dnp3Point.receive (pairs.foldl Dnp3Point.receive pt) =
      pairs.foldl Dnp3Point.receive pt := by
  cases effect_foldl pairs with
  | nothing h => exact h _
  | const pt' h => exact (h _).trans (h pt).symm
  | last p h => rw [h, h pt, receive_self]

/-! ## The events of an outstation -/

def event? : StationAct → Option Event
  | .receive srcName values => some (values.event srcName)
  | .pass => some .pass
  | .loadFile _ => none

/-- Without a script, what an outstation does is the run of its events. -/
theorem runEvents_of_run {env : LuaEnv} {node : Node} {L : Lua} {acts : List StationAct}
    {o o' : MappingOutstation × Lua} (h : (mappingStation env false node L).run o acts = some o') :
    runEvents (acts.filterMap event?) o.1 = .ok o'.1 := by
  induction acts generalizing o with
  | nil =>
    cases h
    rfl
  | cons a acts ih =>
    obtain ⟨o₁, hstep, hrest⟩ := Machine.run_cons _ |>.mp h
    have hexec : ∀ e : Event, event? a = some e → e.exec o.1 = .ok o₁.1 →
        runEvents ((a :: acts).filterMap event?) o.1 = .ok o'.1 := by
      intro e he hok
      rw [List.filterMap_cons, he]
      exact Fallible.bind_ok.mpr ⟨o₁.1, hok, ih hrest⟩
    cases a with
    | receive srcName values =>
      obtain ⟨m, hm, rfl⟩ := Option.map_eq_some_iff.mp hstep
      exact hexec _ rfl (Fallible.toOption_eq_some.mp hm)
    | pass =>
      obtain ⟨m, hm, rfl⟩ := Option.map_eq_some_iff.mp hstep
      exact hexec _ rfl (Fallible.toOption_eq_some.mp hm)
    | loadFile L => cases hstep

theorem Values.callback_event (values : Values) :
    ∃ c pairs, ∀ n, (values.event n).callback? = some (c, n, pairs) := by
  cases values <;> exact ⟨_, _, fun n => rfl⟩

theorem Values.pairsFor_event_of_ne {values : Values} {srcName src : String} (h : srcName ≠ src)
    (c : Channel) (j : ℕ) : (values.event srcName).pairsFor c src j = [] := by
  obtain ⟨d, pairs, hcallback⟩ := values.callback_event
  rw [Event.pairsFor, hcallback]
  exact if_neg fun heq => h heq.2

/-- What an outstation has received is what the callbacks have brought. -/
theorem received_events (acts : List StationAct) (c : Channel) (src : String) (j : ℕ) :
    received (acts.filterMap event?) c src j =
      (acts.filterMap received?).flatMap fun p => (p.2.event p.1).pairsFor c src j := by
  have hpass : Event.pass.pairsFor c src j = [] := rfl
  induction acts with
  | nil => rfl
  | cons a acts ih =>
    rw [received] at ih ⊢
    cases a with
    | receive srcName values => simp only [List.filterMap_cons, event?, received?, List.flatMap_cons, ih]
    | pass => simp only [List.filterMap_cons, event?, received?, List.flatMap_cons, ih, hpass,
        List.nil_append]
    | loadFile L => simp only [List.filterMap_cons, event?, received?, ih]

theorem reported_events {acts : List StationAct} {c : Channel} {src : String} {values : Values}
    {pairs : List (Indexed Double)} (hmem : (src, values) ∈ acts.filterMap received?)
    (hcallback : (values.event src).callback? = some (c, src, pairs)) :
    Reported (acts.filterMap event?) c src := by
  obtain ⟨a, ha, hreceived⟩ := List.mem_filterMap.mp hmem
  cases a with
  | receive srcName values' =>
    cases hreceived
    exact ⟨_, List.mem_filterMap.mpr ⟨_, ha, rfl⟩, pairs, hcallback⟩
  | pass | loadFile => cases hreceived

/-! ## From a source to its destinations -/

section
variable {s : Stations} {env : LuaEnv} {fileExists : String → Bool}
variable {luaState : s.Dest → Lua} {app app' : s.App} {k : s.Src} {i : s.Dest} {c : Channel}

/-- The callbacks of a source that went to an outstation, each once, in their order. -/
def Stations.App.sentTo (app : s.App) (k : s.Src) (i : s.Dest) : List Event :=
  app.net.sent.filterMap fun e =>
    if e.1 = k ∧ i ∈ e.2.2 then some (e.2.1.event (s.srcName k)) else none

/-- No other master of the name of the source has the outstation as a destination. -/
def OnlySource (s : Stations) (k : s.Src) (i : s.Dest) : Prop :=
  ∀ k', i ∈ s.destinations k' → s.srcName k' = s.srcName k → k' = k

instance (k : s.Src) (i : s.Dest) : Decidable (OnlySource s k i) :=
  inferInstanceAs (Decidable (∀ _, _))

/-- A callback goes to nobody before the destinations of its master are set, and to all of them
afterwards. -/
theorem destinations_set (h : (dnp3App s env fileExists luaState).Reachable app) :
    (∀ k, app.destinationList k = [] ∨ app.destinationList k = s.destinations k) ∧
      ∀ e ∈ app.net.sent, e.2.2 = [] ∨ e.2.2 = s.destinations e.1 := by
  refine Machine.invariant (P := fun app : s.App =>
    (∀ k, app.destinationList k = [] ∨ app.destinationList k = s.destinations k) ∧
      ∀ e ∈ app.net.sent, e.2.2 = [] ∨ e.2.2 = s.destinations e.1)
    ⟨fun _ => Or.inl rfl, by simp [dnp3App, Fanout.new]⟩ (fun app a app' hP hstep => ?_) h
  obtain ⟨hlist, hsent⟩ := hP
  cases app_moves hstep with
  | updates k hidle =>
    refine ⟨fun k' => ?_, hsent⟩
    by_cases hk : k' = k
    · subst hk
      exact Or.inr (Function.update_self ..)
    · simp only [Function.update_of_ne hk]
      exact hlist k'
  | calls k values net hnet =>
    refine ⟨hlist, ?_⟩
    cases Fanout.step_moves hnet with
    | sends =>
      rw [List.forall_mem_append]
      exact ⟨hsent, by simpa using hlist k⟩
  | finishes k net hnet =>
    refine ⟨hlist, ?_⟩
    cases Fanout.step_moves hnet with
    | finishes => exact hsent
  | delivers | passes | loads => exact ⟨hlist, hsent⟩

/-- What has reached an outstation comes from the masters that bind it. -/
theorem source_of_got (h : (dnp3App s env fileExists luaState).Reachable app) {k' : s.Src}
    {values : Values} (hgot : (k', values) ∈ app.net.got i) : i ∈ s.destinations k' := by
  obtain ⟨receivers, hsent, hi⟩ := Fanout.sent_of_got (net_reachable h) hgot
  have hset : receivers = [] ∨ receivers = s.destinations k' := (destinations_set h).2 _ hsent
  obtain rfl | rfl := hset
  · cases hi
  · exact hi

/-- A master has an outstation as a destination as often as it binds its name. -/
theorem destinations_count (k : s.Src) (i : s.Dest) :
    (s.destinations k).count i =
      (s.srcMasterStations.get k).boundOutstations.count (s.mappedOutStations.get i).name := by
  have hnamed : ∀ n, (s.named n).count i =
      if (s.mappedOutStations.get i).name = n then 1 else 0 := by
    intro n
    rw [named, ((List.nodup_finRange _).filter _).count]
    simp [List.mem_filter]
  rw [destinations, destStations]
  change ((s.srcMasterStations.get k).boundOutstations.flatMap s.named).count i = _
  induction (s.srcMasterStations.get k).boundOutstations with
  | nil => rfl
  | cons n names ih =>
    rw [List.flatMap_cons, List.count_append, hnamed, ih, List.count_cons, Nat.add_comm]
    by_cases hn : (s.mappedOutStations.get i).name = n
    · rw [if_pos hn, hn, if_pos (beq_self_eq_true n)]
    · rw [if_neg hn, if_neg fun heq => hn (eq_of_beq heq).symm]

/-- **No measurement is lost or doubled on its way.** What an outstation has got from a master, with
what it is still to get, are the callbacks since the master's destinations were set, in their
order, each as often as the master binds the name of the outstation. -/
theorem app_copies (h : (dnp3App s env fileExists luaState).Reachable app) (k : s.Src) (i : s.Dest) :
    Fanout.gotFrom k (app.net.got i) ++ app.net.waiting k i =
      ((app.net.sent.filter fun e => e.1 = k ∧ e.2.2 ≠ []).flatMap fun e =>
        List.replicate
          ((s.srcMasterStations.get k).boundOutstations.count (s.mappedOutStations.get i).name)
          e.2.1) := by
  rw [Fanout.arrived (net_reachable h), ← destinations_count]
  have hset := (destinations_set h).2
  generalize app.net.sent = sent at hset
  induction sent with
  | nil => rfl
  | cons e sent ih =>
    obtain ⟨he, hrest⟩ := List.forall_mem_cons.mp hset
    rw [Fanout.sentTo, List.flatMap_cons, ← Fanout.sentTo, ih hrest, List.filter_cons, Fanout.copies]
    by_cases hk : e.1 = k
    · subst hk
      obtain hnone | hall := he
      · simp [hnone]
      · by_cases hempty : s.destinations e.1 = []
        · simp [hall, hempty]
        · simp [hall, hempty]
    · simp [hk]

theorem app_copies_bound : ∃ app, boundApp.run boundApp.init boundRun = some app ∧
    Fanout.gotFrom boundSrc (app.net.got boundDest) ++ app.net.waiting boundSrc boundDest =
      [.analog [⟨1, .fin 7, 30⟩], .analog [⟨1, .fin 7, 30⟩]] := by
  have hruns : (boundApp.run boundApp.init boundRun).isSome := by decide
  obtain ⟨app, hrun⟩ := Option.isSome_iff_exists.mp hruns
  have hsent : (boundApp.run boundApp.init boundRun).map (fun app =>
      (app.net.sent.filter fun e => e.1 = boundSrc ∧ e.2.2 ≠ []).map fun e => e.2.1) =
    some [.analog [⟨1, .fin 7, 30⟩]] := rfl
  rw [hrun, Option.map_some, Option.some.injEq] at hsent
  refine ⟨app, hrun, (app_copies ⟨boundRun, hrun⟩ boundSrc boundDest).trans ?_⟩
  rw [← List.flatMap_map, hsent]
  rfl

/-- The measurements under the name of a source are those of this source. -/
theorem flatMap_delivered {l : List (s.Src × Values)} (hl : ∀ p ∈ l, i ∈ s.destinations p.1)
    (honly : OnlySource s k i) (j : ℕ) :
    (l.map fun p => (s.srcName p.1, p.2)).flatMap
        (fun p => (p.2.event p.1).pairsFor c (s.srcName k) j) =
      (Fanout.gotFrom k l).flatMap fun values =>
        (values.event (s.srcName k)).pairsFor c (s.srcName k) j := by
  induction l with
  | nil => rfl
  | cons p l ih =>
    obtain ⟨hp, hl⟩ := List.forall_mem_cons.mp hl
    rw [List.map_cons, List.flatMap_cons, ih hl, Fanout.gotFrom, Fanout.gotFrom, List.filter_cons]
    by_cases hk : p.1 = k
    · simp [hk]
    · have hne : s.srcName p.1 ≠ s.srcName k := fun heq => hk (honly p.1 hp heq)
      simp [hk, Values.pairsFor_event_of_ne hne]

/-- Copies of a callback do to a cell what the callback does. -/
theorem foldl_copies {n : ℕ} (hn : 0 < n) (values : Values) (g : Values → List (Indexed Double))
    (pt : Dnp3Point) :
    ((List.replicate n values).flatMap g).foldl Dnp3Point.receive pt =
      (g values).foldl Dnp3Point.receive pt := by
  induction n with
  | zero => cases hn
  | succ n ih =>
    cases n with
    | zero => simp
    | succ n =>
      rw [List.replicate_succ', List.flatMap_append, List.foldl_append, ih (Nat.succ_pos n)]
      simp [foldl_receive_twice]

theorem foldl_sentTo (sent : List (s.Src × Values × List s.Dest)) (k : s.Src) (i : s.Dest)
    (c : Channel) (j : ℕ) (pt : Dnp3Point) :
    ((Fanout.sentTo sent k i).flatMap fun values =>
        (values.event (s.srcName k)).pairsFor c (s.srcName k) j).foldl Dnp3Point.receive pt =
      (received (sent.filterMap fun e =>
        if e.1 = k ∧ i ∈ e.2.2 then some (e.2.1.event (s.srcName k)) else none)
        c (s.srcName k) j).foldl Dnp3Point.receive pt := by
  induction sent generalizing pt with
  | nil => rfl
  | cons e sent ih =>
    rw [Fanout.sentTo, List.flatMap_cons, List.flatMap_append, List.foldl_append, ← Fanout.sentTo,
      List.filterMap_cons, Fanout.copies]
    by_cases hk : e.1 = k
    · by_cases hi : i ∈ e.2.2
      · rw [if_pos hk, if_pos ⟨hk, hi⟩, foldl_copies (List.count_pos_iff.mpr hi), ih, received,
          received, List.flatMap_cons, List.foldl_append]
      · rw [if_pos hk, if_neg fun h => hi h.2, List.count_eq_zero.mpr hi]
        exact ih pt
    · rw [if_neg hk, if_neg fun h => hk h.1]
      exact ih pt

/-- What the events of an outstation bring: the cells of a source that is through come to what it
has sent. -/
structure HasHistory (app : s.App) (i : s.Dest) (evs : List Event) : Prop where
  latest : ∀ k, OnlySource s k i → app.net.sending k = none → ∀ c j,
    latest evs c (s.srcName k) j = Dnp3.latest (app.sentTo k i) c (s.srcName k) j
  reported : ∀ k, app.net.sending k = none → ∀ c,
    Reported (app.sentTo k i) c (s.srcName k) → Reported evs c (s.srcName k)

theorem exists_history (h : (dnp3App s env fileExists luaState).Reachable app) (i : s.Dest) :
    ∃ acts, (mappingStation env (s.script fileExists i) (s.destNode i) (luaState i)).run
        (mappingStation env (s.script fileExists i) (s.destNode i) (luaState i)).init acts =
          some (app.outstations i) ∧
      acts.filterMap received? = app.delivered i ∧ HasHistory app i (acts.filterMap event?) := by
  obtain ⟨acts, hacts⟩ := h.exists_recorded (App.actsAt i)
  obtain ⟨hrun, hdelivered⟩ := outstation_run hacts
  have hnet := net_reachable h
  refine ⟨acts, hrun, hdelivered, fun k honly hidle c j => ?_, fun k hidle c hreported => ?_⟩
  · rw [Dnp3.latest, received_events, hdelivered, App.delivered,
      flatMap_delivered (fun _ hp => source_of_got h hp) honly,
      Fanout.arrived_all hnet hidle, foldl_sentTo]
    rfl
  · obtain ⟨e, he, pairs, hcallback⟩ := hreported
    obtain ⟨⟨k', values, receivers⟩, hsent, hcond⟩ := List.mem_filterMap.mp he
    simp only [Option.ite_none_right_eq_some, Option.some.injEq] at hcond
    obtain ⟨⟨rfl, hi⟩, rfl⟩ := hcond
    have hgot : values ∈ Fanout.gotFrom k' (app.net.got i) := by
      rw [Fanout.arrived_all hnet hidle]
      refine List.mem_flatMap.mpr ⟨_, hsent, ?_⟩
      rw [Fanout.copies, if_pos rfl]
      exact List.mem_replicate.mpr ⟨Nat.pos_iff_ne_zero.mp (List.count_pos_iff.mpr hi), rfl⟩
    obtain ⟨⟨k'', values'⟩, hfilter, rfl⟩ := List.mem_map.mp hgot
    obtain ⟨hmem, hk⟩ := List.mem_filter.mp hfilter
    obtain rfl : k'' = k' := of_decide_eq_true hk
    refine reported_events ?_ hcallback
    rw [hdelivered]
    exact List.mem_map.mpr ⟨(k'', values'), hmem, rfl⟩

/-- A mapped point has this value and this time, in the out array and in the last update. -/
def Carries (m : MappingOutstation) (c : Channel) (dp : MappedDataPoint) (pt : Dnp3Point) : Prop :=
  ∃ meas, c.meas pt.value = .ok meas ∧ Cpp.vecGet (m.outValues c) dp.index = .ok pt ∧
    lastUpdate m.applied c dp.index = some
      { meas := meas, quality := .online, time := pt.timestamp, index := dp.index }

/-- A pass settles the points of an outstation, and they carry what was received for them. -/
theorem Tracks.publishes {node : Node} {evs : List Event} {m m' : MappingOutstation} {src : String}
    {dp : MappedDataPoint} (ht : Tracks (sized node) evs m) (hnodup : DistinctTargets node)
    (hpass : m.passThruDataChanges = .ok m') (hmem : (src, dp) ∈ node.mapped)
    (htype : dp.pointType = c.pointType) (hreported : Reported evs c src) :
    Carries m' c dp (latest evs c src dp.inputIndex.toNat) := by
  obtain ⟨pt, meas, hpt, hout, hmeas, hlast⟩ | ⟨hnone, -⟩ := ht.settled hnodup hpass hmem htype
  · have hcell := (ht.toHolds.pass hpass).cell c src _ pt (Cpp.vecGet_ok.mp hpt).2
    rw [latest_pass] at hcell
    subst hcell
    exact ⟨meas, hmeas, hout, hlast⟩
  · exact absurd hreported hnone

/-- The mapped points of an outstation carry what their sources have received since their
destinations were set, if these have received anything of the kind and are through with passing it
on. -/
def Stations.App.UpToDate (app : s.App) (i : s.Dest) : Prop :=
  ∀ k, OnlySource s k i → app.net.sending k = none → ∀ (c : Channel) dp,
    (s.srcName k, dp) ∈ (s.destNode i).mapped → dp.pointType = c.pointType →
    Reported (app.sentTo k i) c (s.srcName k) →
    Carries (app.outstations i).1 c dp
      (latest (app.sentTo k i) c (s.srcName k) dp.inputIndex.toNat)

theorem upToDate_pass (h : (dnp3App s env fileExists luaState).Reachable app)
    (hscript : s.script fileExists i = false) (hnodup : DistinctTargets (s.destNode i))
    (hpass : (dnp3App s env fileExists luaState).step app (.pass i) = some app') : app'.UpToDate i := by
  intro k honly hidle c dp hmem htype hsent
  obtain ⟨acts, hrun, -, hhistory⟩ := exists_history h i
  rw [hscript] at hrun
  have ht := (tracks_sized (s.destNode i)).runEvents hnodup (runEvents_of_run hrun)
  rw [List.nil_append] at ht
  cases app_moves hpass with
  | passes i o ho =>
    rw [hscript] at ho
    obtain ⟨m, hm, rfl⟩ := Option.map_eq_some_iff.mp ho
    have hcarries := ht.publishes hnodup (Fallible.toOption_eq_some.mp hm) hmem htype
      (hhistory.reported k hidle c hsent)
    rw [hhistory.latest k honly hidle] at hcarries
    simp only [Function.update_self]
    exact hcarries

/-- **What a source receives is published.** After a pass of a mapping outstation without a
script, the outstation's last update of a mapped point carries what the point's source master has
received since its destinations were set, if it has received anything of the kind and is through
with passing it on; whatever the other masters and outstations did in between. -/
theorem app_delivers (h : (dnp3App s env fileExists luaState).Reachable app)
    (hscript : s.script fileExists i = false) (hnodup : DistinctTargets (s.destNode i))
    (honly : OnlySource s k i) (hidle : app.net.sending k = none)
    (hpass : (dnp3App s env fileExists luaState).step app (.pass i) = some app')
    {dp : MappedDataPoint} (hmem : (s.srcName k, dp) ∈ (s.destNode i).mapped)
    (htype : dp.pointType = c.pointType) (hsent : Reported (app.sentTo k i) c (s.srcName k)) :
    Carries (app'.outstations i).1 c dp
      (latest (app.sentTo k i) c (s.srcName k) dp.inputIndex.toNat) := by
  have hupToDate := upToDate_pass h hscript hnodup hpass
  cases app_moves hpass with
  | passes => exact hupToDate k honly hidle c dp hmem htype hsent

end

theorem app_delivers_bound : ∃ app app', boundApp.run boundApp.init boundRun = some app ∧
    boundApp.step app (.pass boundDest) = some app' ∧
    Cpp.vecGet ((app'.outstations boundDest).1.outValues .analog) 0 =
      .ok { value := .fin 7, timestamp := 30 } := by
  have hruns : ((boundApp.run boundApp.init boundRun).bind fun app =>
    boundApp.step app (.pass boundDest)).isSome := by decide
  obtain ⟨app', happ'⟩ := Option.isSome_iff_exists.mp hruns
  obtain ⟨app, hrun, hpass⟩ := Option.bind_eq_some_iff.mp happ'
  have hidle : ((boundApp.run boundApp.init boundRun).map fun app =>
    (app.net.sending boundSrc).isNone) = some true := by decide
  have hmapped : ("M1", ⟨0, 1, "Analog Input"⟩) ∈ (boundStations.destNode boundDest).mapped := by decide
  have hsentTo : (boundApp.run boundApp.init boundRun).map (fun app => app.sentTo boundSrc boundDest) =
    some [.analog "M1" [⟨1, .fin 7, 30⟩]] := rfl
  rw [hrun, Option.map_some, Option.some.injEq] at hsentTo
  obtain ⟨meas, -, hout, -⟩ := app_delivers (c := .analog) ⟨boundRun, hrun⟩ (by decide) (by decide)
    (k := boundSrc) (by decide) (by simpa [hrun] using hidle) hpass hmapped rfl
    (by rw [hsentTo]; exact ⟨_, List.mem_cons_self, _, rfl⟩)
  rw [hsentTo] at hout
  exact ⟨app, app', hrun, hpass, hout⟩

end IcsTrafficGen.Dnp3
