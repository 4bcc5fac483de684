import IcsTrafficGen.Dnp3.AppRuns
import IcsTrafficGen.Dnp3.StartUp

/- What becomes of an update that the start-up has lost. Its value stays in the input array
   and only its flag is gone, so the next callback of the source and kind, whatever it
   brings, flags all the points of the two and the pass that follows publishes the value
   after all. Until then nothing does: a point carries what came for it exactly if its flag
   was up when the start-up ended or its source has reported since
   (`startUp_recovers_iff`). -/
namespace IcsTrafficGen.Dnp3
open MappingOutstation

/-! ## A point that is not flagged -/

section
variable {node : Node} {c c' : Channel} {src src' : String} {dp dp' : MappedDataPoint}
variable {st st' : MappingOutstation × List Update} {m m' : MappingOutstation} {evs : List Event}

/-- The point is not flagged and no update has gone out for it. -/
structure Silent (c : Channel) (src : String) (dp : MappedDataPoint)
    (st : MappingOutstation × List Update) : Prop where
  flag : st.1.flag c src = false
  updates : lastUpdate (st.1.applied ++ st.2) c dp.index = none

/-- The points of another channel or source have other targets. -/
theorem Silent.passPoint (hnodup : DistinctTargets node) (hmem : (src, dp) ∈ node.mapped)
    (hmem' : (src', dp') ∈ node.mapped) (htype : dp.pointType = c.pointType)
    (hother : ¬ (c = c' ∧ src = src')) (hs : Silent c src dp st)
    (h : passPoint c' src' st dp' = .ok st') : Silent c src dp st' := by
  obtain ⟨-, rfl⟩ | ⟨pt, meas, htype', -, -, hmeas, rfl⟩ := passPoint_cases h
  · exact hs
  refine ⟨hs.flag, ?_⟩
  have htarget : ¬ (c' = c ∧ dp'.index = dp.index) := by
    rintro ⟨rfl, hindex⟩
    have heq := List.inj_on_of_nodup_map hnodup hmem' hmem (by simp [htype, htype', hindex])
    cases heq
    exact hother ⟨rfl, rfl⟩
  have hlast : lastUpdate (st.1.applied ++ (st.2 ++ [⟨meas, .online, pt.timestamp, dp'.index⟩]))
      c dp.index = lastUpdate (st.1.applied ++ st.2) c dp.index := by
    rw [← List.append_assoc]
    exact lastUpdate_snoc_of_ne (by rw [channel_of_meas hmeas]; exact htarget)
  exact hlast.trans hs.updates

theorem Silent.passChannel {l : List MappedDataPoint} (hnodup : DistinctTargets node)
    (hmem : (src, dp) ∈ node.mapped) (hl : ∀ dp' ∈ l, (src', dp') ∈ node.mapped)
    (htype : dp.pointType = c.pointType) (hs : Silent c src dp st)
    (h : passChannel c' src' l st = .ok st') : Silent c src dp st' := by
  unfold MappingOutstation.passChannel at h
  split at h
  · next hflag =>
    -- the loop runs for a flag that is up
    have hother : ¬ (c = c' ∧ src = src') := by
      rintro ⟨rfl, rfl⟩
      exact absurd hflag (by simp [hs.flag])
    have hlow : Silent c src dp (st.1.lower c' src', st.2) := by
      refine ⟨?_, hs.updates⟩
      simp only [lower]
      rw [setCell_of_ne _ _ _ _ _ _ hother]
      exact hs.flag
    exact Fallible.foldlM_invariant (Silent c src dp)
      (fun dp' hdp' _ _ hs h => hs.passPoint hnodup hmem (hl dp' hdp') htype hother h) hlow h
  · rwa [← Fallible.pure_ok.mp h]

theorem Silent.pass (hnodup : DistinctTargets m.node) (hmem : (src, dp) ∈ m.node.mapped)
    (htype : dp.pointType = c.pointType) (hs : Silent c src dp (m, []))
    (h : m.passThruDataChanges = .ok m') : Silent c src dp (m', []) := by
  obtain ⟨st, hpass, h⟩ := Fallible.bind_ok.mp h
  have hend : Silent c src dp st := by
    refine Fallible.foldlM_invariant (Silent c src dp) (fun source hsource st st' hs h => ?_) hs hpass
    rw [passSource_eq] at h
    have hl : ∀ dp' ∈ source.2, (source.1, dp') ∈ m.node.mapped := fun dp' hdp' =>
      Node.mem_mapped.mpr ⟨source.2, Dict.get?_eq_some.mpr hsource, hdp'⟩
    exact Fallible.foldlM_invariant (Silent c src dp)
      (fun _ _ _ _ hs h => hs.passChannel hnodup hmem hl htype h) hs h
  rw [← Fallible.pure_ok.mp h]
  exact ⟨hend.flag, by simpa using hend.updates⟩

/-- An event that brings nothing of the kind from the source. -/
theorem Silent.exec {e : Event} (hnodup : DistinctTargets m.node) (hmem : (src, dp) ∈ m.node.mapped)
    (htype : dp.pointType = c.pointType) (hs : Silent c src dp (m, []))
    (hnone : ∀ pairs, e.callback? ≠ some (c, src, pairs)) (h : e.exec m = .ok m') :
    Silent c src dp (m', []) ∧ m'.node = m.node := by
  cases he : e.callback? with
  | none =>
    cases Event.eq_pass_of_callback he
    exact ⟨hs.pass hnodup hmem htype h, (passThruDataChanges_frame h).1⟩
  | some callback =>
    obtain ⟨c', src', pairs⟩ := callback
    rw [Event.exec_of_callback he] at h
    cases h
    have hother : ¬ (c = c' ∧ src = src') := by
      rintro ⟨rfl, rfl⟩
      exact hnone pairs he
    refine ⟨⟨?_, hs.updates⟩, rfl⟩
    simp only [process]
    rw [setCell_of_ne _ _ _ _ _ _ hother]
    exact hs.flag

theorem Silent.runEvents (hnodup : DistinctTargets m.node) (hmem : (src, dp) ∈ m.node.mapped)
    (htype : dp.pointType = c.pointType) (hs : Silent c src dp (m, []))
    (hnone : ¬ Reported evs c src) (h : Dnp3.runEvents evs m = .ok m') :
    Silent c src dp (m', []) ∧ m'.node = m.node := by
  induction evs generalizing m with
  | nil =>
    cases Fallible.pure_ok.mp h
    exact ⟨hs, rfl⟩
  | cons e evs ih =>
    obtain ⟨m₁, h₁, h⟩ := Fallible.bind_ok.mp h
    obtain ⟨hsilent, hnode⟩ := hs.exec hnodup hmem htype
      (fun pairs he => hnone ⟨e, List.mem_cons_self, pairs, he⟩) h₁
    have hrest : ¬ Reported evs c src := fun ⟨e, he, hpairs⟩ =>
      hnone ⟨e, List.mem_cons_of_mem _ he, hpairs⟩
    rw [← hnode] at hnodup hmem
    obtain ⟨hend, hnode'⟩ := ih hnodup hmem hsilent hrest h
    exact ⟨hend, hnode'.trans hnode⟩

end

/-! ## A point that is flagged or reported -/

/-- The outstation `m` after the events `evs` from the state in which its start-up ended. A point whose
flag was up then, or whose source has reported since, is flagged or delivered. -/
structure Resumes (s : StartingUp) (evs : List Event) (m : MappingOutstation) : Prop where
  node : m.node = s.m.node
  cell : ∀ c src i pt, (m.input c src)[i]? = some pt → pt = latest (s.since src ++ evs) c src i
  entry : ∀ c src dp, (src, dp) ∈ s.m.node.mapped → dp.pointType = c.pointType →
    s.m.flag c src = true ∨ Reported evs c src →
      m.flag c src = true ∨ Settled True c src dp m m.applied

section
variable {node : Node} {s : StartingUp} {evs more : List Event} {m m' : MappingOutstation}

theorem Arrays.resumes (hs : Arrays node s) : Resumes s [] s.m where
  node := rfl
  cell c src i pt h := by
    rw [List.append_nil]
    exact hs.cell c src i pt h
  entry c src dp _ _ h := by
    obtain hflag | ⟨e, he, -⟩ := h
    · exact Or.inl hflag
    · cases he

theorem Resumes.callback {e : Event} {c' : Channel} {src' : String} {pairs : List (Indexed Double)}
    (hr : Resumes s evs m) (he : e.callback? = some (c', src', pairs)) :
    Resumes s (evs ++ [e]) (process c' src' pairs m) where
  node := hr.node
  cell c src i := by
    rw [← List.append_assoc]
    exact cell_callback he (hr.cell c src i)
  entry c src dp hmem htype h := by
    by_cases hc : c = c' ∧ src = src'
    · obtain ⟨rfl, rfl⟩ := hc
      exact Or.inl (by simp [process])
    · have hflag : (process c' src' pairs m).flag c src = m.flag c src := by
        simp [process, setCell_of_ne _ _ _ _ _ _ hc]
      have hin : (process c' src' pairs m).input c src = m.input c src := by
        rw [input_process, if_neg hc]
      have hbefore : s.m.flag c src = true ∨ Reported evs c src := by
        refine h.imp_right fun h => ?_
        obtain h | ⟨pairs', he'⟩ := reported_snoc.mp h
        · exact h
        · rw [he] at he'
          cases he'
          exact absurd ⟨rfl, rfl⟩ hc
      rw [hflag]
      exact (hr.entry c src dp hmem htype hbefore).imp_right fun hs => hs.congr hin rfl rfl

theorem Resumes.settled (hr : Resumes s evs m) (hnodup : DistinctTargets s.m.node)
    (h : m.passThruDataChanges = .ok m') {c : Channel} {src : String} {dp : MappedDataPoint}
    (hmem : (src, dp) ∈ s.m.node.mapped) (htype : dp.pointType = c.pointType)
    (hreported : s.m.flag c src = true ∨ Reported evs c src) :
    Settled True c src dp m' m'.applied := by
  have hentry := hr.entry c src dp hmem htype hreported
  rw [← hr.node] at hnodup hmem
  exact passThruDataChanges_settles hnodup hmem htype hentry h

theorem Resumes.pass (hr : Resumes s evs m) (hnodup : DistinctTargets s.m.node)
    (h : m.passThruDataChanges = .ok m') : Resumes s (evs ++ [.pass]) m' where
  node := (passThruDataChanges_frame h).1.trans hr.node
  cell c src i pt hpt := by
    have hin : m'.input c src = m.input c src := by
      simp [input, (passThruDataChanges_frame h).2.1]
    rw [← List.append_assoc, latest_pass]
    exact hr.cell c src i pt (hin ▸ hpt)
  entry c src dp hmem htype hreported := by
    rw [reported_pass] at hreported
    exact Or.inr (hr.settled hnodup h hmem htype hreported)

theorem Resumes.runEvents (hr : Resumes s evs m) (hnodup : DistinctTargets s.m.node)
    (h : Dnp3.runEvents more m = .ok m') : Resumes s (evs ++ more) m' := by
  induction more generalizing evs m with
  | nil =>
    rw [← Fallible.pure_ok.mp h, List.append_nil]
    exact hr
  | cons e more ih =>
    obtain ⟨m₁, h₁, h⟩ := Fallible.bind_ok.mp h
    rw [List.append_cons]
    refine ih ?_ h
    cases he : e.callback? with
    | none =>
      cases Event.eq_pass_of_callback he
      exact hr.pass hnodup h₁
    | some callback =>
      have hexec : e.exec m = .ok m₁ := h₁
      rw [Event.exec_of_callback he] at hexec
      cases hexec
      exact hr.callback he

/-- A pass leaves a point with what came for it since its source was sized. -/
theorem Resumes.carries (hr : Resumes s evs m) (hnodup : DistinctTargets s.m.node)
    (h : m.passThruDataChanges = .ok m') {c : Channel} {src : String} {dp : MappedDataPoint}
    (hmem : (src, dp) ∈ s.m.node.mapped) (htype : dp.pointType = c.pointType)
    (hreported : s.m.flag c src = true ∨ Reported evs c src) :
    Carries m' c dp (latest (s.since src ++ evs) c src dp.inputIndex.toNat) := by
  obtain ⟨pt, meas, hpt, hout, hmeas, hlast⟩ | ⟨hfalse, -⟩ :=
    hr.settled hnodup h hmem htype hreported
  · have hcell := (hr.pass hnodup h).cell c src _ pt (Cpp.vecGet_ok.mp hpt).2
    rw [← List.append_assoc, latest_pass] at hcell
    subst hcell
    exact ⟨meas, hmeas, hout, hlast⟩
  · exact absurd trivial hfalse

end

/-! ## From the start-up on -/

/-- The start-up has come to its end. -/
structure ComesUp (node : Node) (as : List StartUpAction) (s : StartingUp) : Prop where
  run : (startUp node).run (startUp node).init as = some s
  rest : s.rest = []

section
variable {node : Node} {s : StartingUp}

theorem arrays_reachable (h : (startUp node).Reachable s) : Arrays node s :=
  Machine.invariant (arrays_init node) (fun _ _ _ hs hstep => hs.step hstep) h

/-- Nothing is applied before the loop. -/
theorem startUp_applied (h : (startUp node).Reachable s) : s.m.applied = [] := by
  refine Machine.invariant_of_reachable (P := fun s : StartingUp => s.m.applied = []) rfl
    (fun s a s' hreach hs hstep => ?_) h
  have harrays := arrays_reachable hreach
  cases a with
  | callback e =>
    obtain ⟨c, src, pairs, -, rfl⟩ := startUp_callback hstep
    exact hs
  | next =>
    obtain ⟨step, rest, m, hrest, hm, rfl⟩ := startUp_next hstep
    cases step with
    | sizeSource source =>
      have hnew := harrays.unsized source (hrest ▸ List.mem_cons_self)
      obtain ⟨-, rfl⟩ := (configureSource_ok hnew).mp hm
      exact hs
    | sizeOut =>
      rw [sizeOut_ok harrays.out hm]
      exact hs
    | resetFlag c src =>
      cases hm
      exact hs

/-- **What the start-up loses comes back.** After a pass of an outstation with distinct targets, a point
carries what was received for it since its source was sized exactly if its flag was up when the
start-up ended, or its source has reported something of the kind since. -/
theorem startUp_recovers_iff (hnodup : DistinctTargets node) {as : List StartUpAction}
    (hup : ComesUp node as s) {evs : List Event} {m m' : MappingOutstation}
    (hevs : runEvents evs s.m = .ok m) (hpass : m.passThruDataChanges = .ok m') {c : Channel}
    {src : String} {dp : MappedDataPoint} (hmem : (src, dp) ∈ node.mapped)
    (htype : dp.pointType = c.pointType) :
    Carries m' c dp (latest (s.since src ++ evs) c src dp.inputIndex.toNat) ↔
      s.m.flag c src = true ∨ Reported evs c src := by
  have hreach : (startUp node).Reachable s := ⟨as, hup.run⟩
  have harrays := arrays_reachable hreach
  rw [← harrays.node_eq] at hnodup hmem
  constructor
  · intro hcarries
    by_contra hnot
    obtain ⟨hflag, hnone⟩ := not_or.mp hnot
    have hsilent : Silent c src dp (s.m, []) := by
      refine ⟨Bool.not_eq_true _ ▸ hflag, ?_⟩
      rw [startUp_applied hreach]
      rfl
    obtain ⟨hsilent, hnode⟩ := hsilent.runEvents hnodup hmem htype hnone hevs
    rw [← hnode] at hnodup hmem
    obtain ⟨_, -, -, hlast⟩ := hcarries
    have hupdates := (hsilent.pass hnodup hmem htype hpass).updates
    rw [List.append_nil, hlast] at hupdates
    cases hupdates
  · intro hreported
    have hr := harrays.resumes.runEvents hnodup hevs
    rw [List.nil_append] at hr
    exact hr.carries hnodup hpass hmem htype hreported

end

/-- The value that came early for one point is published with the next report, which is about another
point. -/
theorem startUp_recovers_early : ∃ s m m',
    ComesUp swapNode (earlyCallback ++ [.next, .next]) s ∧
    runEvents [.pass, .analog "O2" [⟨0, .fin 5, 40⟩]] s.m = .ok m ∧
    m.passThruDataChanges = .ok m' ∧
    Cpp.vecGet (m'.outValues .analog) 0 = .ok { value := .fin 7, timestamp := 30 } := by
  have hruns : (((startUp swapNode).run (startUp swapNode).init
      (earlyCallback ++ [.next, .next])).bind fun s =>
        (runEvents [.pass, .analog "O2" [⟨0, .fin 5, 40⟩]] s.m).toOption.bind fun m =>
          m.passThruDataChanges.toOption).isSome := by decide
  obtain ⟨m', hm'⟩ := Option.isSome_iff_exists.mp hruns
  obtain ⟨s, hrun, hm'⟩ := Option.bind_eq_some_iff.mp hm'
  obtain ⟨m, hevs, hpass⟩ := Option.bind_eq_some_iff.mp hm'
  have hdone : ((startUp swapNode).run (startUp swapNode).init
      (earlyCallback ++ [.next, .next])).map (fun s => s.rest.length) = some 0 := by decide
  have hsince : ((startUp swapNode).run (startUp swapNode).init
      (earlyCallback ++ [.next, .next])).map (fun s => s.since "O2") =
        some [.analog "O2" [⟨1, .fin 7, 30⟩]] := rfl
  rw [hrun, Option.map_some, Option.some.injEq] at hdone hsince
  rw [Fallible.toOption_eq_some] at hevs hpass
  have hup : ComesUp swapNode _ s := ⟨hrun, List.length_eq_zero_iff.mp hdone⟩
  have hmapped : ("O2", ⟨0, 1, "Analog Input"⟩) ∈ swapNode.mapped := by decide
  obtain ⟨-, -, hout, -⟩ := (startUp_recovers_iff (c := .analog) (by decide) hup hevs hpass hmapped
    rfl).mpr (Or.inr ⟨_, List.mem_cons_of_mem _ List.mem_cons_self, _, rfl⟩)
  rw [hsince] at hout
  exact ⟨s, m, m', hup, hevs, hpass, hout⟩

end IcsTrafficGen.Dnp3
