import IcsTrafficGen.Dnp3.AppSafety

/- How the application comes to rest. A callback on its way can always be passed on, and a pass
   of a safe outstation returns; neither needs a new measurement. So from every state all
   outstations can come to carry what their sources have received (`app_catches_up`): no
   measurement is held back for good by the order in which the callbacks and the passes
   interleave. -/
namespace IcsTrafficGen.Dnp3
open MappingOutstation Stations

/-- No measurement comes and nothing is set: callbacks are passed on, and outstations pass. -/
def Stations.AppAct.Quiet {s : Stations} : s.AppAct → Prop
  | .deliver _ | .finish _ | .pass _ => True
  | .updateDestinations _ | .callback .. | .loadFile .. => False

section
variable {s : Stations} {env : LuaEnv} {fileExists : String → Bool} {luaState : s.Dest → Lua}
variable {app app' : s.App} {i : s.Dest}

/-! ## The callbacks -/

/-- The callback of a master is passed on to its end. -/
theorem passes_on (env : LuaEnv) (fileExists : String → Bool) (luaState : s.Dest → Lua) (app : s.App)
    (k : s.Src) : ∃ app', (dnp3App s env fileExists luaState).Leads AppAct.Quiet app app' ∧
      app'.net.sending = Function.update app.net.sending k none ∧ app'.net.sent = app.net.sent := by
  cases hsending : app.net.sending k with
  | none => exact ⟨app, .refl app, by rw [← hsending, Function.update_eq_self], rfl⟩
  | some p =>
    obtain ⟨values, receivers⟩ := p
    induction receivers generalizing app with
    | nil =>
      have hstep : (dnp3App s env fileExists luaState).step app (.finish k) =
          some { app with
            net := { app.net with sending := Function.update app.net.sending k none } } := by
        simp only [dnp3App, App.step, App.send, Fanout.step, hsending, Option.map_some]
      exact ⟨_, .step (a := .finish k) trivial hstep, rfl, rfl⟩
    | cons j rest ih =>
      obtain ⟨app₁, hstep, hsending₁, hsent₁, -⟩ := deliver_next env fileExists luaState hsending
      obtain ⟨app', hleads, hsending', hsent'⟩ := ih app₁ (by rw [hsending₁, Function.update_self])
      refine ⟨app', (Machine.Leads.step (a := .deliver k) trivial hstep).trans hleads, ?_,
        hsent'.trans hsent₁⟩
      rw [hsending', hsending₁, Function.update_idem]

/-- So are those of all masters. -/
theorem all_pass_on (env : LuaEnv) (fileExists : String → Bool) (luaState : s.Dest → Lua)
    (app : s.App) : ∃ app', (dnp3App s env fileExists luaState).Leads AppAct.Quiet app app' ∧
      (∀ k, app'.net.sending k = none) ∧ app'.net.sent = app.net.sent := by
  have hlist : ∀ ks : List s.Src, ∃ app',
      (dnp3App s env fileExists luaState).Leads AppAct.Quiet app app' ∧
      (∀ k ∈ ks, app'.net.sending k = none) ∧ app'.net.sent = app.net.sent := by
    intro ks
    induction ks with
    | nil => exact ⟨app, .refl app, fun k hk => absurd hk List.not_mem_nil, rfl⟩
    | cons k ks ih =>
      obtain ⟨app₁, hleads₁, hidle₁, hsent₁⟩ := ih
      obtain ⟨app', hleads, hsending, hsent⟩ := passes_on env fileExists luaState app₁ k
      refine ⟨app', hleads₁.trans hleads, fun k' hk' => ?_, hsent.trans hsent₁⟩
      rw [hsending]
      by_cases heq : k' = k
      · rw [heq, Function.update_self]
      · rw [Function.update_of_ne heq]
        exact hidle₁ k' ((List.mem_cons.mp hk').resolve_left heq)
  obtain ⟨app', hleads, hidle, hsent⟩ := hlist (List.finRange _)
  exact ⟨app', hleads, fun k => hidle k (List.mem_finRange k), hsent⟩

/-! ## The passes -/

/-- The pass of an outstation leaves the others as they are. -/
theorem Stations.App.UpToDate.pass {j : s.Dest} (hij : i ≠ j) (hup : app.UpToDate i)
    (hpass : (dnp3App s env fileExists luaState).step app (.pass j) = some app') : app'.UpToDate i := by
  cases app_moves hpass with
  | passes j o =>
    intro k honly hidle c dp hmem htype hsent
    simp only [Function.update_of_ne hij]
    exact hup k honly hidle c dp hmem htype hsent

/-- The outstations make a pass, one after another. -/
theorem all_pass (hsafe : PassesSafe s env fileExists luaState)
    (h : (dnp3App s env fileExists luaState).Reachable app) : ∃ app',
    (dnp3App s env fileExists luaState).Leads AppAct.Quiet app app' ∧ app'.net = app.net ∧
      ∀ i, s.script fileExists i = false → DistinctTargets (s.destNode i) → app'.UpToDate i := by
  have hlist : ∀ is : List s.Dest, ∃ app',
      (dnp3App s env fileExists luaState).Leads AppAct.Quiet app app' ∧ app'.net = app.net ∧
      ∀ i ∈ is, s.script fileExists i = false → DistinctTargets (s.destNode i) →
        app'.UpToDate i := by
    intro is
    induction is with
    | nil => exact ⟨app, .refl app, rfl, fun i hi => absurd hi List.not_mem_nil⟩
    | cons j is ih =>
      obtain ⟨app₁, hleads₁, hnet₁, hup₁⟩ := ih
      cases hscript : s.script fileExists j with
      | true =>
        refine ⟨app₁, hleads₁, hnet₁, fun i hi hi' => ?_⟩
        obtain rfl | hi := List.mem_cons.mp hi
        · rw [hscript] at hi'
          cases hi'
        · exact hup₁ i hi hi'
      | false =>
        have hreach₁ := hleads₁.reachable h
        obtain ⟨app', hpass⟩ := hsafe app₁ hreach₁ j hscript
        have hnet : app'.net = app₁.net := by
          cases app_moves hpass
          rfl
        refine ⟨app', hleads₁.trans (.step (a := .pass j) trivial hpass), hnet.trans hnet₁, fun i hi hi' hnodup => ?_⟩
        by_cases hij : i = j
        · subst hij
          exact upToDate_pass hreach₁ hscript hnodup hpass
        · exact (hup₁ i ((List.mem_cons.mp hi).resolve_left hij) hi' hnodup).pass hij hpass
  obtain ⟨app', hleads, hnet, hup⟩ := hlist (List.finRange _)
  exact ⟨app', hleads, hnet, fun i => hup i (List.mem_finRange i)⟩

/-- **The outstations can always catch up.** Where no pass goes wrong, from every state of the
application, with no further measurement, the callbacks on their way can arrive and every mapping
outstation without a script, of distinct targets, can come to carry what the sources of its points
have received. -/
theorem app_catches_up (hsafe : PassesSafe s env fileExists luaState)
    (h : (dnp3App s env fileExists luaState).Reachable app) : ∃ app',
    (dnp3App s env fileExists luaState).Leads AppAct.Quiet app app' ∧
    app'.net.sent = app.net.sent ∧ (∀ k, app'.net.sending k = none) ∧
    ∀ i, s.script fileExists i = false → DistinctTargets (s.destNode i) → app'.UpToDate i := by
  obtain ⟨app₁, hleads₁, hidle, hsent⟩ := all_pass_on env fileExists luaState app
  obtain ⟨app', hleads, hnet, hup⟩ := all_pass hsafe (hleads₁.reachable h)
  refine ⟨app', hleads₁.trans hleads, ?_, ?_, hup⟩
  · rw [hnet]
    exact hsent
  · rw [hnet]
    exact hidle

end

def pairStations : Stations := startStations (mappedNodes "0")
def pairSrc : pairStations.Src := ⟨0, by decide +kernel⟩
def pairDest : pairStations.Dest := ⟨0, by decide +kernel⟩

def pairApp : Machine pairStations.App pairStations.AppAct :=
  dnp3App pairStations identityEnv (fun _ => false) (fun _ => identityState)

/-- The callback has not come to the outstation. -/
def pairRun : List pairStations.AppAct :=
  [.updateDestinations pairSrc, .callback pairSrc (.analog [⟨0, .fin 7, 30⟩])]

theorem app_catches_up_pair : ∃ app app', pairApp.run pairApp.init pairRun = some app ∧
    app.net.got pairDest = [] ∧ pairApp.Leads AppAct.Quiet app app' ∧
    Carries (app'.outstations pairDest).1 .analog ⟨0, 0, "Analog Input"⟩
      { value := .fin 7, timestamp := 30 } := by
  have hread : configuredNodes (mappedPair "0") = .ok (mappedNodes "0") := by decide +kernel
  have hsafe : PassesSafe pairStations identityEnv (fun _ => false) (fun _ => identityState) :=
    passesSafe_of_copyable hread (mappedNodes_copyable _)
  have hmapped : (pairStations.destNode pairDest).mapped = [("M1", ⟨0, 0, "Analog Input"⟩)] :=
    mappedNodes_mapped pairDest
  have hfacts : pairDest ∈ pairStations.destinations pairSrc ∧ pairStations.srcName pairSrc = "M1" ∧
      pairStations.script (fun _ => false) pairDest = false ∧
      DistinctTargets (pairStations.destNode pairDest) ∧
      OnlySource pairStations pairSrc pairDest := by decide +kernel
  obtain ⟨hbound, hname, hscript, hnodup, honly⟩ := hfacts
  have hruns : (pairApp.run pairApp.init pairRun).isSome := rfl
  obtain ⟨app, hrun⟩ := Option.isSome_iff_exists.mp hruns
  have hnet : (pairApp.run pairApp.init pairRun).map (fun app => (app.net.got pairDest, app.net.sent)) =
    some ([], [(pairSrc, .analog [⟨0, .fin 7, 30⟩], pairStations.destinations pairSrc)]) := rfl
  rw [hrun, Option.map_some, Option.some.injEq, Prod.mk.injEq] at hnet
  obtain ⟨hgot, hsent⟩ := hnet
  obtain ⟨app', hleads, hsent', hidle, hup⟩ := app_catches_up hsafe ⟨pairRun, hrun⟩
  have hsentTo : app'.sentTo pairSrc pairDest = [.analog "M1" [⟨0, .fin 7, 30⟩]] := by
    simp [App.sentTo, hsent', hsent, hbound, hname, Values.event]
  have hcarries := hup pairDest hscript hnodup pairSrc honly (hidle pairSrc) .analog
    ⟨0, 0, "Analog Input"⟩ (by rw [hmapped, hname]; simp) rfl
    (by rw [hsentTo, hname]; exact ⟨_, List.mem_cons_self, _, rfl⟩)
  rw [hsentTo, hname] at hcarries
  exact ⟨app, app', hrun, hgot, hleads, hcarries⟩

end IcsTrafficGen.Dnp3
