import IcsTrafficGen.Lib.Machine
import IcsTrafficGen.Dnp3.ArrayBounds
import IcsTrafficGen.Dnp3.MultiplexerRuns

/- The start-up of a mapping outstation, while its source masters already report. `run` sizes
   the arrays source by source and resets the flags afterwards, without the mutex, and
   callbacks come in between. A pair that is stored behind the sizing of its source loses its
   flag to the reset: no update is lost exactly if every flag is reset while the mapped cells
   of its source are still zero (`startUp_noUpdateLost_iff`). -/
namespace IcsTrafficGen.Dnp3
open MappingOutstation

/-! ## The steps -/

/-- The steps of `run` up to its loop. -/
inductive StartUpStep where
  | sizeSource (source : String × List MappedDataPoint)
  | sizeOut
  | resetFlag (c : Channel) (src : String)

namespace StartUpStep

def exec : StartUpStep → MappingOutstation → Cpp MappingOutstation
  | .sizeSource source, m => configureSource m source
  | .sizeOut, m => do
    let m ← m.resizeOut .analog
    let m ← m.resizeOut .binary
    m.resizeOut .counter
  | .resetFlag c src, m => .ok (m.lower c src)

end StartUpStep

/-- The three assignments of one pass of the loop over the sources. -/
def resetFlags (src : String) : List StartUpStep :=
  [.resetFlag .analog src, .resetFlag .binary src, .resetFlag .counter src]

def startUpSteps (node : Node) : List StartUpStep :=
  node.dataSources.entries.map .sizeSource ++ .sizeOut :: node.dataSources.keys.flatMap resetFlags

/-- An outstation that is starting up: the steps to come, and the callbacks since the arrays of a
source were sized. -/
structure StartingUp where
  m : MappingOutstation
  rest : List StartUpStep
  since : String → List Event

inductive StartUpAction where
  | next
  | callback (e : Event)

/-- The record of callbacks starts anew when the arrays of a source are sized. -/
def StartUpStep.record : StartUpStep → (String → List Event) → String → List Event
  | .sizeSource source, since => Function.update since source.1 []
  | _, since => since

def startUp (node : Node) : Machine StartingUp StartUpAction where
  init := { m := new node, rest := startUpSteps node, since := fun _ => [] }
  step s
    | .next => match s.rest with
      | [] => none
      | step :: rest => (step.exec s.m).toOption.map fun m =>
          { m := m, rest := rest, since := step.record s.since }
    | .callback e => e.callback?.map fun (c, src, pairs) =>
        { s with m := process c src pairs s.m, since := fun src => s.since src ++ [e] }

theorem resetFlags_exec (srcs : List String) (m : MappingOutstation) :
    (srcs.flatMap resetFlags).foldlM (fun m step => step.exec m) m = .ok { m with
      flag := srcs.foldl (fun flag src => setCell (setCell (setCell flag .analog src false)
        .binary src false) .counter src false) m.flag } := by
  induction srcs generalizing m with
  | nil => rfl
  | cons src srcs ih =>
    rw [List.flatMap_cons, List.foldlM_append]
    exact ih (((m.lower .analog src).lower .binary src).lower .counter src)

theorem configureSource_node {m m' : MappingOutstation} {source : String × List MappedDataPoint}
    (h : configureSource m source = .ok m') : m'.node = m.node := by
  obtain ⟨dbSize, -, h⟩ := Fallible.bind_ok.mp h
  obtain ⟨m₁, h₁, h⟩ := Fallible.bind_ok.mp h
  obtain ⟨m₂, h₂, h₃⟩ := Fallible.bind_ok.mp h
  have hresize {c : Channel} {m m' : MappingOutstation}
      (h : m.resizeInput c source.1 dbSize = .ok m') : m'.node = m.node := by
    obtain ⟨pts, -, h⟩ := Fallible.bind_ok.mp h
    cases h
    rfl
  rw [hresize h₃, hresize h₂, hresize h₁]

theorem sizeOut_node {m m' : MappingOutstation} (h : StartUpStep.sizeOut.exec m = .ok m') :
    m'.node = m.node := by
  obtain ⟨m₁, h₁, h⟩ := Fallible.bind_ok.mp h
  obtain ⟨m₂, h₂, h₃⟩ := Fallible.bind_ok.mp h
  have hresize {c : Channel} {m m' : MappingOutstation} (h : m.resizeOut c = .ok m') :
      m'.node = m.node := by
    obtain ⟨pts, -, h⟩ := Fallible.bind_ok.mp h
    cases h
    rfl
  rw [hresize h₃, hresize h₂, hresize h₁]

/-- Without callbacks the steps are the start of `run`. -/
theorem startUpSteps_start (m : MappingOutstation) :
    (startUpSteps m.node).foldlM (fun m step => step.exec m) m = m.start := by
  have hstart : m.start = (m.node.dataSources.entries.foldlM configureSource m >>=
      StartUpStep.sizeOut.exec) >>= fun m => pure m.clearFlags := rfl
  have hsizes : m.node.dataSources.entries.foldlM
      (fun m source => (StartUpStep.sizeSource source).exec m) m =
        m.node.dataSources.entries.foldlM configureSource m := rfl
  rw [hstart, startUpSteps, List.foldlM_append, List.foldlM_map, hsizes]
  cases h₁ : m.node.dataSources.entries.foldlM configureSource m with
  | error e => rfl
  | ok m₁ =>
    have hnode₁ : m₁.node = m.node := Fallible.foldlM_invariant (fun m' => m'.node = m.node)
      (fun _ _ _ _ hs h => (configureSource_node h).trans hs) rfl h₁
    show (StartUpStep.sizeOut.exec m₁ >>= _) = (StartUpStep.sizeOut.exec m₁ >>= _)
    cases h₂ : StartUpStep.sizeOut.exec m₁ with
    | error e => rfl
    | ok m₂ =>
      show (m.node.dataSources.keys.flatMap resetFlags).foldlM (fun m step => step.exec m) m₂ =
        .ok m₂.clearFlags
      rw [resetFlags_exec, clearFlags, sizeOut_node h₂, hnode₁]

/-! ## The property -/

/-- A mapped cell that differs from its out cell is flagged. -/
def NoUpdateLost (s : StartingUp) : Prop :=
  ∀ c src dp, (src, dp) ∈ s.m.node.mapped → dp.pointType = c.pointType →
    ∀ pt out, Cpp.vecGet (s.m.input c src) dp.inputIndex = .ok pt →
      Cpp.vecGet (s.m.outValues c) dp.index = .ok out → out ≠ pt → s.m.flag c src = true

/-- Where the next step resets a flag, the pairs received since the source was sized have left
every cell that is mapped at zero. -/
def ResetsUntouched (s : StartingUp) (a : StartUpAction) : Prop :=
  ∀ c src rest, a = .next → s.rest = .resetFlag c src :: rest →
    ∀ dp, (src, dp) ∈ s.m.node.mapped → dp.pointType = c.pointType →
      latest (s.since src) c src dp.inputIndex.toNat = .zero

instance decidableResetsUntouched : ∀ s a, Decidable (ResetsUntouched s a)
  | _, .callback _ => .isTrue (fun _ _ _ h => by cases h)
  | ⟨_, [], _⟩, .next => .isTrue (fun _ _ _ _ h => by cases h)
  | ⟨_, .sizeSource _ :: _, _⟩, .next => .isTrue (fun _ _ _ _ h => by cases h)
  | ⟨_, .sizeOut :: _, _⟩, .next => .isTrue (fun _ _ _ _ h => by cases h)
  | ⟨m, .resetFlag c src :: rest, since⟩, .next =>
    decidable_of_iff (∀ p ∈ m.node.mapped, p.1 = src → p.2.pointType = c.pointType →
        latest (since src) c src p.2.inputIndex.toNat = .zero) (by
      constructor
      · intro hzero c src rest _ hrest dp hmem htype
        cases hrest
        exact hzero _ hmem rfl htype
      · rintro huntouched ⟨src, dp⟩ hmem rfl htype
        exact huntouched c src rest rfl rfl dp hmem htype)

/-! ## What every run keeps -/

/-- The arrays in the middle of the start-up: a cell holds what came since its source was sized,
the out cells are zero, and what is not sized yet is not there. -/
structure Arrays (node : Node) (s : StartingUp) : Prop where
  node_eq : s.m.node = node
  suffix : s.rest <:+ startUpSteps node
  cell : ∀ c src i pt, (s.m.input c src)[i]? = some pt → pt = latest (s.since src) c src i
  out : ∀ c, ∀ pt ∈ s.m.outValues c, pt = .zero
  unsized : ∀ source, .sizeSource source ∈ s.rest → ∀ c, s.m.values c source.1 = none
  isSized : ∀ source ∈ node.dataSources.entries, .sizeSource source ∈ s.rest ∨
    ∀ c, (s.m.input c source.1).length = ((sized node).input c source.1).length
  isSizedOut : .sizeOut ∈ s.rest ∨
    ∀ c, (s.m.outValues c).length = ((sized node).outValues c).length

/-- A mapped cell that is not zero is flagged. -/
def Flagged (s : StartingUp) : Prop :=
  ∀ c src dp, (src, dp) ∈ s.m.node.mapped → dp.pointType = c.pointType →
    ∀ pt, Cpp.vecGet (s.m.input c src) dp.inputIndex = .ok pt → pt ≠ .zero →
      s.m.flag c src = true

theorem arrays_init (node : Node) : Arrays node (startUp node).init where
  node_eq := rfl
  suffix := List.suffix_refl _
  cell c src i pt h := by cases h
  out c pt h := by cases h
  unsized _ _ _ := rfl
  isSized source h := Or.inl (List.mem_append_left _ (List.mem_map_of_mem h))
  isSizedOut := Or.inl (List.mem_append_right _ List.mem_cons_self)

theorem flagged_init (node : Node) : Flagged (startUp node).init := by
  intro c src dp _ _ pt hpt
  cases (Cpp.vecGet_ok.mp hpt).2

/-- What a step of the start-up does, and that it is the next of those to come. -/
theorem startUp_next {node : Node} {s s' : StartingUp} (h : (startUp node).step s .next = some s') :
    ∃ step rest m, s.rest = step :: rest ∧ step.exec s.m = .ok m ∧
      s' = { m := m, rest := rest, since := step.record s.since } := by
  unfold startUp at h
  cases hrest : s.rest with
  | nil => simp [hrest] at h
  | cons step rest =>
    simp only [hrest, Option.map_eq_some_iff, Fallible.toOption_eq_some] at h
    obtain ⟨m, hm, rfl⟩ := h
    exact ⟨step, rest, m, rfl, hm, rfl⟩

theorem startUp_callback {node : Node} {s s' : StartingUp} {e : Event}
    (h : (startUp node).step s (.callback e) = some s') :
    ∃ c src pairs, e.callback? = some (c, src, pairs) ∧
      s' = { s with m := process c src pairs s.m, since := fun src => s.since src ++ [e] } := by
  obtain ⟨⟨c, src, pairs⟩, he, rfl⟩ := Option.map_eq_some_iff.mp h
  exact ⟨c, src, pairs, he, rfl⟩

/-- Without callbacks a run of the start-up takes the steps of `start` one after the other. -/
theorem startUp_start {node : Node} {as : List StartUpAction} {s t : StartingUp}
    (h : (startUp node).run s as = some t) (hnext : ∀ a ∈ as, a = .next) :
    s.rest.foldlM (fun m step => step.exec m) s.m =
      t.rest.foldlM (fun m step => step.exec m) t.m := by
  induction as generalizing s with
  | nil =>
    cases h
    rfl
  | cons a as ih =>
    obtain ⟨rfl, hrest⟩ := List.forall_mem_cons.mp hnext
    obtain ⟨s', hstep, hrun⟩ := Machine.run_cons _ |>.mp h
    obtain ⟨step, rest, m, hsteps, hm, rfl⟩ := startUp_next hstep
    rw [hsteps, List.foldlM_cons, hm]
    exact ih hrun hrest

/-- The sources whose sizing is still to come. -/
def sizedNames (steps : List StartUpStep) : List String :=
  steps.filterMap fun
    | .sizeSource source => some source.1
    | _ => none

theorem nodup_sizedNames (node : Node) : (sizedNames (startUpSteps node)).Nodup := by
  have hsizes : ∀ l : List (String × List MappedDataPoint),
      sizedNames (l.map .sizeSource) = l.map Prod.fst := by
    intro l
    rw [sizedNames, List.filterMap_map]
    exact congrFun List.filterMap_eq_map l
  have hresets : ∀ srcs : List String, sizedNames (srcs.flatMap resetFlags) = [] := by
    intro srcs
    rw [sizedNames, List.filterMap_eq_nil_iff]
    intro step hstep
    obtain ⟨src, -, hstep⟩ := List.mem_flatMap.mp hstep
    simp only [resetFlags, List.mem_cons, List.not_mem_nil, or_false] at hstep
    rcases hstep with rfl | rfl | rfl <;> rfl
  have happend : sizedNames (startUpSteps node) =
      sizedNames (node.dataSources.entries.map .sizeSource) ++
        sizedNames (node.dataSources.keys.flatMap resetFlags) := List.filterMap_append
  rw [happend, hsizes, hresets, List.append_nil]
  exact node.dataSources.nodup

theorem mem_entries {node : Node} {source : String × List MappedDataPoint}
    (h : .sizeSource source ∈ startUpSteps node) : source ∈ node.dataSources.entries := by
  simpa [startUpSteps, resetFlags] using h

/-- No source is sized twice. -/
theorem name_ne_of_mem {node : Node} {source source' : String × List MappedDataPoint}
    {rest : List StartUpStep} (hsuffix : .sizeSource source :: rest <:+ startUpSteps node)
    (hmem : .sizeSource source' ∈ rest) : source'.1 ≠ source.1 := by
  have hnodup : (sizedNames (.sizeSource source :: rest)).Nodup :=
    (nodup_sizedNames node).sublist (hsuffix.sublist.filterMap _)
  have hmem' : source'.1 ∈ sizedNames rest := List.mem_filterMap.mpr ⟨_, hmem, rfl⟩
  intro heq
  exact (List.nodup_cons.mp hnodup).1 (heq ▸ hmem')

/-! ### A callback -/

section
variable {node : Node} {s : StartingUp} {e : Event} {c : Channel} {src : String}
variable {pairs : List (Indexed Double)}

/-- A callback makes no array. -/
theorem values_process_none {m : MappingOutstation} {d : Channel} {src' : String}
    (h : m.values d src' = none) : (process c src pairs m).values d src' = none := by
  simp only [process]
  cases hv : m.values c src with
  | none => exact h
  | some pts =>
    have hne : ¬ (d = c ∧ src' = src) := by
      rintro ⟨rfl, rfl⟩
      rw [h] at hv
      cases hv
    show setCell m.values c src _ d src' = none
    rw [setCell_of_ne _ _ _ _ _ _ hne]
    exact h

theorem Arrays.callback (hs : Arrays node s) (he : e.callback? = some (c, src, pairs)) :
    Arrays node
      { s with m := process c src pairs s.m, since := fun src => s.since src ++ [e] } where
  node_eq := hs.node_eq
  suffix := hs.suffix
  cell d src' i := cell_callback he (hs.cell d src' i)
  out := hs.out
  unsized source hmem d := values_process_none (hs.unsized source hmem d)
  isSized source hmem := by
    refine (hs.isSized source hmem).imp_right fun hlength d => ?_
    rw [input_process, ← hlength d]
    split
    · exact length_foldl_storePair _ _
    · rfl
  isSizedOut := hs.isSizedOut

/-- A callback flags what it stores. -/
theorem Flagged.callback (hs : Flagged s) :
    Flagged { s with m := process c src pairs s.m, since := fun src => s.since src ++ [e] } := by
  intro d src' dp hmem htype pt hpt hne
  by_cases hd : d = c ∧ src' = src
  · obtain ⟨rfl, rfl⟩ := hd
    simp [process]
  · have hflag : (process c src pairs s.m).flag d src' = s.m.flag d src' := by
      simp [process, setCell_of_ne _ _ _ _ _ _ hd]
    rw [input_process, if_neg hd] at hpt
    rw [hflag]
    exact hs d src' dp hmem htype pt hpt hne

/-! ### A step of the start-up -/

variable {rest : List StartUpStep} {m : MappingOutstation}

theorem input_sizeSource (source : String × List MappedDataPoint) (m : MappingOutstation)
    (d : Channel) (src' : String) : (sizeSource m source).input d src' =
      if src' = source.1 then zeros (neededSize source.2 d.pointType) else m.input d src' := by
  unfold sizeSource input
  by_cases h : src' = source.1
  · simp [h]
  · simp [h]

theorem Arrays.sizeSource {source : String × List MappedDataPoint} (hs : Arrays node s)
    (hrest : s.rest = .sizeSource source :: rest) :
    Arrays node { m := MappingOutstation.sizeSource s.m source, rest := rest
                  since := Function.update s.since source.1 [] } where
  node_eq := hs.node_eq
  suffix := (List.suffix_cons _ _).trans (hrest ▸ hs.suffix)
  cell d src' i pt h := by
    rw [input_sizeSource] at h
    dsimp only
    by_cases hsrc : src' = source.1
    · rw [if_pos hsrc] at h
      rw [eq_zero_of_mem_zeros (List.mem_of_getElem? h), hsrc, Function.update_self]
      rfl
    · rw [if_neg hsrc] at h
      rw [Function.update_of_ne hsrc]
      exact hs.cell d src' i pt h
  out := hs.out
  unsized source' hmem d := by
    have hne : source'.1 ≠ source.1 := name_ne_of_mem (hrest ▸ hs.suffix) hmem
    rw [values_sizeSource_of_ne d hne]
    exact hs.unsized source' (hrest ▸ List.mem_cons_of_mem _ hmem) d
  isSized source' hmem := by
    by_cases hsource : source' = source
    · subst hsource
      refine Or.inr fun d => ?_
      rw [input_sizeSource, if_pos rfl, input_sized (Dict.get?_eq_some.mpr hmem)]
    · have hsized : source ∈ node.dataSources.entries :=
        mem_entries (hs.suffix.subset (hrest ▸ List.mem_cons_self))
      have hne : source'.1 ≠ source.1 := fun e =>
        hsource (List.inj_on_of_nodup_map node.dataSources.nodup hmem hsized e)
      refine (hs.isSized source' hmem).imp (fun h => ?_) fun hlength d => ?_
      · rw [hrest] at h
        exact (List.mem_cons.mp h).resolve_left fun e => hsource (StartUpStep.sizeSource.inj e)
      · rw [input_sizeSource, if_neg hne]
        exact hlength d
  isSizedOut := by
    rcases hs.isSizedOut with h | h
    · rw [hrest] at h
      exact Or.inl ((List.mem_cons.mp h).resolve_left (by simp))
    · exact Or.inr h

/-- Resizing an array of zeros. -/
theorem resizeOut_zeros {c : Channel} {m m' : MappingOutstation}
    (hzero : ∀ pt ∈ m.outValues c, pt = .zero) (h : m.resizeOut c = .ok m') :
    m' = { m with
      outValues := Function.update m.outValues c (zeros (sizeAt m.node.dbSize c.pointType)) } := by
  obtain ⟨pts, hpts, h⟩ := Fallible.bind_ok.mp h
  cases h
  unfold Cpp.resize at hpts
  split at hpts
  · cases hpts
    congr 2
    rw [zeros, List.eq_replicate_iff]
    refine ⟨?_, fun pt hpt => ?_⟩
    · simp only [List.length_append, List.length_take, List.length_replicate]
      omega
    rcases List.mem_append.mp hpt with hpt | hpt
    · exact hzero pt (List.mem_of_mem_take hpt)
    · exact List.eq_of_mem_replicate hpt
  · cases hpts

theorem sizeOut_ok {m : MappingOutstation} (hs : ∀ c, ∀ pt ∈ s.m.outValues c, pt = .zero)
    (h : StartUpStep.sizeOut.exec s.m = .ok m) :
    m = { s.m with outValues := fun c => zeros (sizeAt s.m.node.dbSize c.pointType) } := by
  obtain ⟨ma, ha, h⟩ := Fallible.bind_ok.mp h
  obtain ⟨mb, hb, hc⟩ := Fallible.bind_ok.mp h
  cases resizeOut_zeros (hs .analog) ha
  cases resizeOut_zeros (by simpa using hs .binary) hb
  cases resizeOut_zeros (by simpa using hs .counter) hc
  congr 1
  funext c
  cases c <;> simp

theorem Arrays.sizeOut {m : MappingOutstation} (hs : Arrays node s)
    (hrest : s.rest = .sizeOut :: rest) (h : StartUpStep.sizeOut.exec s.m = .ok m) :
    Arrays node { m := m, rest := rest, since := s.since } := by
  rw [sizeOut_ok hs.out h]
  have hout (c : Channel) :
      zeros (sizeAt s.m.node.dbSize c.pointType) = (sized node).outValues c := by
    rw [hs.node_eq]
    rfl
  exact
    { node_eq := hs.node_eq
      suffix := (List.suffix_cons _ _).trans (hrest ▸ hs.suffix)
      cell := hs.cell
      out := fun c pt hpt => eq_zero_of_mem_zeros hpt
      unsized := fun source hmem => hs.unsized source (hrest ▸ List.mem_cons_of_mem _ hmem)
      isSized := fun source hmem => by
        refine (hs.isSized source hmem).imp_left fun h => ?_
        rw [hrest] at h
        exact (List.mem_cons.mp h).resolve_left (by simp)
      isSizedOut := Or.inr fun c => congrArg List.length (hout c) }

theorem Arrays.resetFlag {c : Channel} {src : String} (hs : Arrays node s)
    (hrest : s.rest = .resetFlag c src :: rest) :
    Arrays node { m := s.m.lower c src, rest := rest, since := s.since } where
  node_eq := hs.node_eq
  suffix := (List.suffix_cons _ _).trans (hrest ▸ hs.suffix)
  cell := hs.cell
  out := hs.out
  unsized source hmem := hs.unsized source (hrest ▸ List.mem_cons_of_mem _ hmem)
  isSized source hmem := by
    refine (hs.isSized source hmem).imp_left fun h => ?_
    rw [hrest] at h
    exact (List.mem_cons.mp h).resolve_left (by simp)
  isSizedOut := hs.isSizedOut.imp_left fun h => by
    rw [hrest] at h
    exact (List.mem_cons.mp h).resolve_left (by simp)

theorem Arrays.step {s' : StartingUp} {a : StartUpAction} (hs : Arrays node s)
    (h : (startUp node).step s a = some s') : Arrays node s' := by
  cases a with
  | next =>
    obtain ⟨step, rest, m, hrest, hm, rfl⟩ := startUp_next h
    cases step with
    | sizeSource source =>
      have hnew := hs.unsized source (hrest ▸ List.mem_cons_self)
      obtain ⟨-, rfl⟩ := (configureSource_ok hnew).mp hm
      exact hs.sizeSource hrest
    | sizeOut => exact hs.sizeOut hrest hm
    | resetFlag c src =>
      cases hm
      exact hs.resetFlag hrest
  | callback e =>
    obtain ⟨c, src, pairs, he, rfl⟩ := startUp_callback h
    exact hs.callback he

/-! ## Flags -/

/-- A cell that was received is found under its index. -/
theorem Arrays.vecGet_eq (hs : Arrays node s) {d : Channel} {src' : String} {i : Int}
    {pt : Dnp3Point} (h : Cpp.vecGet (s.m.input d src') i = .ok pt) :
    pt = latest (s.since src') d src' i.toNat :=
  hs.cell d src' i.toNat pt (Cpp.vecGet_ok.mp h).2

theorem Flagged.step {s' : StartingUp} {a : StartUpAction} (harrays : Arrays node s)
    (hs : Flagged s) (huntouched : ResetsUntouched s a) (h : (startUp node).step s a = some s') :
    Flagged s' := by
  cases a with
  | callback e =>
    obtain ⟨c, src, pairs, -, rfl⟩ := startUp_callback h
    exact hs.callback
  | next =>
    obtain ⟨step, rest, m, hrest, hm, rfl⟩ := startUp_next h
    cases step with
    | sizeSource source =>
      have hnew := harrays.unsized source (hrest ▸ List.mem_cons_self)
      obtain ⟨-, rfl⟩ := (configureSource_ok hnew).mp hm
      intro d src' dp hmem htype pt hpt hne
      rw [input_sizeSource] at hpt
      split at hpt
      · exact absurd (eq_zero_of_mem_zeros (mem_of_vecGet hpt)) hne
      · exact hs d src' dp hmem htype pt hpt hne
    | sizeOut =>
      rw [sizeOut_ok harrays.out hm]
      exact hs
    | resetFlag c src =>
      cases hm
      intro d src' dp hmem htype pt hpt hne
      by_cases hd : d = c ∧ src' = src
      · obtain ⟨rfl, rfl⟩ := hd
        have huntouched := huntouched d src' _ rfl hrest dp hmem htype
        exact absurd ((harrays.vecGet_eq hpt).trans huntouched) hne
      · show setCell s.m.flag c src false d src' = true
        rw [setCell_of_ne _ _ _ _ _ _ hd]
        exact hs d src' dp hmem htype pt hpt hne

/-- The flags are reset behind all other steps. -/
theorem resets_last {c : Channel} {src : String}
    (h : .resetFlag c src :: rest <:+ startUpSteps node) :
    ∀ step ∈ StartUpStep.resetFlag c src :: rest, ∃ d src', step = .resetFlag d src' := by
  have hresets : ∀ step ∈ node.dataSources.keys.flatMap resetFlags,
      ∃ d src', step = .resetFlag d src' := by
    intro step hstep
    obtain ⟨src', -, hstep⟩ := List.mem_flatMap.mp hstep
    simp only [resetFlags, List.mem_cons, List.not_mem_nil, or_false] at hstep
    rcases hstep with rfl | rfl | rfl <;> exact ⟨_, _, rfl⟩
  rcases List.suffix_or_suffix_of_suffix h (List.suffix_append _ _) with hlate | ⟨sizes, hearly⟩
  · rcases List.suffix_cons_iff.mp hlate with heq | hsuffix
    · cases heq
    · exact fun step hstep => hresets step (hsuffix.subset hstep)
  · -- the steps before are sizings
    exfalso
    cases sizes with
    | nil => cases hearly
    | cons step sizes =>
      obtain ⟨before, hbefore⟩ := h
      obtain ⟨rfl, hrest⟩ := List.cons.inj hearly
      rw [← hearly, startUpSteps, ← List.append_assoc] at hbefore
      have hsizes := List.append_cancel_right hbefore
      have hmem : StartUpStep.resetFlag c src ∈ node.dataSources.entries.map .sizeSource := by
        rw [← hsizes]
        simp
      simp at hmem

/-- A reset that drops a flag over a cell that is not zero. -/
theorem not_noUpdateLost {s' : StartingUp} {a : StartUpAction} (hin : FitsIn (sized node))
    (hout : FitsOut (sized node)) (hs : Arrays node s) (hbad : ¬ ResetsUntouched s a)
    (h : (startUp node).step s a = some s') : ¬ NoUpdateLost s' := by
  unfold ResetsUntouched at hbad
  push Not at hbad
  obtain ⟨c, src, rest, rfl, hreset, dp, hmem, htype, htouched⟩ := hbad
  obtain ⟨step, rest', m, hrest, hm, rfl⟩ := startUp_next h
  obtain ⟨rfl, -⟩ := List.cons.inj (hreset.symm.trans hrest)
  cases hm
  have hlast := resets_last (hreset ▸ hs.suffix)
  rw [hs.node_eq] at hmem
  obtain ⟨l, hl, -⟩ := Node.mem_mapped.mp hmem
  -- all arrays have their sizes by now
  have hlength : (s.m.input c src).length = ((sized node).input c src).length := by
    rcases hs.isSized (src, l) (Dict.get?_eq_some.mp hl) with hmem | hlength
    · obtain ⟨d, src', heq⟩ := hlast _ (hreset ▸ hmem)
      cases heq
    · exact hlength c
  have hlengthOut : (s.m.outValues c).length = ((sized node).outValues c).length := by
    rcases hs.isSizedOut with hmem | hlength
    · obtain ⟨d, src', heq⟩ := hlast _ (hreset ▸ hmem)
      cases heq
    · exact hlength c
  obtain ⟨hin₀, hin₁⟩ := hin c src dp hmem htype
  obtain ⟨hout₀, hout₁⟩ := hout c src dp hmem htype
  obtain ⟨pt, hpt⟩ := Cpp.vecGet_of_lt hin₀ (hlength ▸ hin₁)
  obtain ⟨out, hcell⟩ := Cpp.vecGet_of_lt hout₀ (hlengthOut ▸ hout₁)
  intro hkept
  have hflag := hkept c src dp (hs.node_eq ▸ hmem) htype pt out hpt hcell ?_
  · simp [lower] at hflag
  · rw [hs.out c out (mem_of_vecGet hcell), hs.vecGet_eq hpt]
    exact fun e => htouched e.symm

end

/-- **No update is lost at start-up** in a run exactly if, whenever a flag is reset, the pairs that
were received since its source was sized have left all mapped cells at zero. Where no callback has
come, the steps that are left bring the station to where `start` does. -/
theorem startUp_noUpdateLost_iff {node : Node} (hin : FitsIn (sized node))
    (hout : FitsOut (sized node)) {as : List StartUpAction} {t : StartingUp}
    (hrun : (startUp node).run (startUp node).init as = some t) :
    ((startUp node).Always NoUpdateLost (startUp node).init as ↔
      (startUp node).Meets ResetsUntouched (startUp node).init as) ∧
    ((∀ a ∈ as, a = .next) →
      t.rest.foldlM (fun m step => step.exec m) t.m = (new node).start) := by
  constructor
  · apply Machine.always_iff_meets (I := Arrays node) (P := Flagged) _ _ _ _ (arrays_init node)
      (flagged_init node) hrun
    · exact fun s a s' hs h => hs.step h
    · exact fun s a s' harrays hs hC h => hs.step harrays hC h
    · intro s harrays hs c src dp hmem htype pt out hpt hcell hne
      rw [harrays.out c out (mem_of_vecGet hcell)] at hne
      exact hs c src dp hmem htype pt hpt (Ne.symm hne)
    · exact fun s a s' hs hbad h => not_noUpdateLost hin hout hs hbad h
  · intro hnext
    rw [← startUp_start hrun hnext]
    exact startUpSteps_start (new node)

/-- The callback comes behind the last reset. -/
def lateCallback : List StartUpAction :=
  [.next, .next, .next, .next, .next, .callback (.analog "O2" [⟨1, .fin 7, 30⟩])]

/-- The callback comes between the sizes and the first reset. -/
def earlyCallback : List StartUpAction :=
  [.next, .next, .callback (.analog "O2" [⟨1, .fin 7, 30⟩]), .next]

/-- No update is lost with the late callback, and two steps into a start-up without any the rest of
the steps comes to what `start` makes. -/
theorem startUp_late_callback :
    (startUp swapNode).Always NoUpdateLost (startUp swapNode).init lateCallback ∧
    ∃ t, (startUp swapNode).run (startUp swapNode).init [.next, .next] = some t ∧
      t.rest.foldlM (fun m step => step.exec m) t.m = (new swapNode).start := by
  have hrun : ((startUp swapNode).run (startUp swapNode).init lateCallback).isSome := by decide
  have hnext : ((startUp swapNode).run (startUp swapNode).init [.next, .next]).isSome := by decide
  obtain ⟨hkept, -⟩ :=
    startUp_noUpdateLost_iff swapNode_fitsIn swapNode_fitsOut (Option.eq_some_of_isSome hrun)
  obtain ⟨-, hstart⟩ :=
    startUp_noUpdateLost_iff swapNode_fitsIn swapNode_fitsOut (Option.eq_some_of_isSome hnext)
  exact ⟨hkept.mpr (by decide), _, Option.eq_some_of_isSome hnext, hstart (by simp)⟩

/-- The value that came early is in the cell, and nothing will deliver it. -/
theorem startUp_early_callback :
    ¬ (startUp swapNode).Always NoUpdateLost (startUp swapNode).init earlyCallback := by
  intro h
  have hend : ((startUp swapNode).run (startUp swapNode).init earlyCallback).isSome := by decide
  have hlost := h 4 _ (Option.eq_some_of_isSome hend) .analog "O2" ⟨0, 1, "Analog Input"⟩
    (by decide +revert) rfl ⟨.fin 7, 30⟩ .zero (by decide +revert) (by decide +revert)
    (by decide)
  exact absurd hlost (by decide +revert)

end IcsTrafficGen.Dnp3
