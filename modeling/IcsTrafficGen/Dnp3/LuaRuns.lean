import IcsTrafficGen.Dnp3.ArrayBounds
import IcsTrafficGen.Dnp3.LuaAgreement

/- Runs of an outstation whose script changes nothing, through callbacks and passes of
   either kind. Every state of a run is one that the two passes can be compared from
   (`Reaches`), and `paths_agree_iff` says from which of them the pass with the script
   publishes no more than the plain pass: it hands out the whole out array of a channel,
   and invokes the counter script whether anything has changed or not. -/
namespace IcsTrafficGen.Dnp3
open MappingOutstation

/-! ## Configured indexes -/

theorem mem_recorded {types : List String} {t : String} (ht : t ∈ types) {i : Int}
    (points : List DataPoint) (d : Dict String (List Int)) :
    i ∈ (((points.foldl (fun d dp =>
        if dp.pointType ∈ types then
          d.insert dp.pointType (dp.index :: (d.get? dp.pointType).getD [])
        else d) d).get? t).getD []) ↔
      i ∈ (d.get? t).getD [] ∨ ∃ p ∈ points, p.pointType = t ∧ p.index = i := by
  induction points generalizing d with
  | nil => simp
  | cons p points ih =>
    rw [List.foldl_cons, ih, List.exists_mem_cons_iff]
    by_cases hp : p.pointType = t
    · have hmem : p.pointType ∈ types := hp ▸ ht
      rw [if_pos hmem, Dict.get?_insert, if_pos hp.symm]
      simp only [hp, Option.getD_some, List.mem_cons, true_and]
      tauto
    · have hother : ((if p.pointType ∈ types then
          d.insert p.pointType (p.index :: (d.get? p.pointType).getD []) else d).get? t) =
          d.get? t := by
        split
        · rw [Dict.get?_insert, if_neg (fun e => hp e.symm)]
        · rfl
      rw [hother]
      simp [hp]

theorem mem_configuredIndexes {node : Node} {c : Channel} {i : Int} :
    i ∈ configuredIndexes node c ↔ ∃ p ∈ node.dataPoints, p.pointType = c.pointType ∧ p.index = i := by
  have hc : c.pointType ∈ recordedTypes := by cases c <;> decide
  rw [configuredIndexes, dpTypeIndexMap, mem_recorded hc]
  simp

/-- Every mapped point is a point of the station. -/
def Listed (n : Node) : Prop :=
  ∀ src dp, (src, dp) ∈ n.mapped → ∃ p ∈ n.dataPoints, p.pointType = dp.pointType ∧ p.index = dp.index

theorem Listed.readMappedPoint {source : String} {n n' : Node} {pointTree : PTree} (hn : Listed n)
    (h : readMappedPoint source n pointTree = .ok n') : Listed n' := by
  obtain ⟨point, index, inputIndex, -, -, -, rfl⟩ := readMappedPoint_ok h
  intro src dp hdp
  rcases mapped_insert rfl hdp with hold | rfl
  · obtain ⟨p, hp, heq⟩ := hn src dp hold
    exact ⟨p, List.mem_append_left _ hp, heq⟩
  · exact ⟨{ point with index := index }, by simp, rfl, rfl⟩

/-- The parser lists the mapped points of every station it accepts. -/
theorem Listed.readMappedDataGenerationSpecs {nodeTree : PTree} {n n' : Node} (hn : Listed n)
    (h : readMappedDataGenerationSpecs nodeTree n = .ok n') : Listed n' :=
  readMappedDataGenerationSpecs_invariant (fun _ _ _ _ hn h => hn.readMappedPoint h)
    (fun _ hn => hn) hn h

/-! ## Agreement -/

/-- What a pass has handed to the outstation. -/
def published (m m' : MappingOutstation) : List Update := m'.applied.drop m.applied.length

/-- The index is mapped, and no source that it is mapped from has delivered values of this
channel; `R` says which have. -/
def Unreported (R : Channel → String → Prop) (node : Node) (c : Channel) (i : Int) : Prop :=
  (∃ src dp, (src, dp) ∈ node.mapped ∧ dp.pointType = c.pointType ∧ dp.index = i) ∧
    ∀ src dp, (src, dp) ∈ node.mapped → dp.pointType = c.pointType → dp.index = i → ¬ R c src

/-- The pass with the script from `m` to `m₁` and the plain pass from `m` to `m₂` leave the same
database, and publish nothing of an unreported point, or while no flag is up. -/
structure PathsAgree (R : Channel → String → Prop) (m m₁ m₂ : MappingOutstation) : Prop where
  same : ∀ c i, lastUpdate m₁.applied c i = lastUpdate m₂.applied c i
  reported : ∀ u ∈ published m m₁ ++ published m m₂, ¬ Unreported R m.node u.meas.channel u.index
  silent : (∀ c src, m.flag c src = false) → published m m₁ = [] ∧ published m m₂ = []

/-- What the invoked scripts publish beyond the points of flagged sources stands in the
database already, none of what they publish is unreported, and without a flag there is
nothing for the counter script to publish. -/
structure Harmless (R : Channel → String → Prop) (m : MappingOutstation) : Prop where
  standing : ∀ c i, Invoked m c → Scripted m c i → ¬ Targeted m c i →
    ∃ u, onlineUpdate c m i = some u ∧ lastUpdate m.applied c i = some u
  reported : ∀ c i, Invoked m c → Scripted m c i → ¬ Unreported R m.node c i
  silent : (∀ c src, m.flag c src = false) → Invoked m .counter → ∀ i, ¬ Scripted m .counter i

theorem Shows.exists_mem {S : Channel → Int → Prop} {m : MappingOutstation} {new : List Update}
    (h : ∀ c, Shows c (S c) m new) {c : Channel} {i : Int} :
    (∃ u ∈ new, u.meas.channel = c ∧ u.index = i) ↔ S c i := by
  constructor
  · intro hu
    obtain ⟨u, hu, rfl, rfl⟩ := hu
    by_contra hn
    obtain ⟨u', hlast⟩ := lastUpdate_of_mem hu
    rw [(h u.meas.channel).hidden u.index hn] at hlast
    cases hlast
  · intro hi
    obtain ⟨u, -, hlast⟩ := (h c).shown i hi
    exact ⟨u, mem_of_lastUpdate hlast⟩

section
variable {fn : Channel → ℕ} {m m₁ m₂ : MappingOutstation} {L₁ : Lua}
variable {R : Channel → String → Prop} {c : Channel} {i : Int}

theorem Targeted.invoked (h : Targeted m c i) : Invoked m c := by
  obtain ⟨src, dp, hmem, hflag, -⟩ := h
  obtain ⟨l, hl, -⟩ := Node.mem_mapped.mp hmem
  exact ⟨src, List.mem_map_of_mem (Dict.get?_eq_some.mp hl), Or.inr hflag⟩

theorem Targeted.scripted (h : Targeted m c i) (hm : Ready m) (hlisted : Listed m.node) :
    Scripted m c i := by
  obtain ⟨src, dp, hmem, -, htype, rfl⟩ := h
  obtain ⟨p, hp, hptype, hpindex⟩ := hlisted src dp hmem
  exact ⟨mem_configuredIndexes.mpr ⟨p, hp, hptype.trans htype, hpindex⟩,
    hm.fitsOut c src dp hmem htype⟩

/-- The databases agree on an index unless only the script has published it; then the plain
pass leaves what stood there. -/
theorem Compared.lastUpdate_eq_iff (h : Compared fn m m₁ m₂ L₁) (hm : Ready m)
    (hlisted : Listed m.node) (c : Channel) (i : Int) :
    lastUpdate m₁.applied c i = lastUpdate m₂.applied c i ↔
      (Invoked m c → Scripted m c i → ¬ Targeted m c i →
        ∃ u, onlineUpdate c m i = some u ∧ lastUpdate m.applied c i = some u) := by
  obtain ⟨new₁, happlied₁, hshows₁⟩ := h.scripted
  obtain ⟨new₂, happlied₂, hshows₂⟩ := h.plain
  rw [happlied₁, happlied₂, lastUpdate_append, lastUpdate_append]
  have honline : onlineUpdate c m₁ i = onlineUpdate c m₂ i := onlineUpdate_congr (by rw [h.outValues])
  by_cases htarget : Targeted m c i
  · obtain ⟨u₁, hu₁, hlast₁⟩ :=
      (hshows₁ c).shown i ⟨htarget.invoked, htarget.scripted hm hlisted⟩
    obtain ⟨u₂, hu₂, hlast₂⟩ := (hshows₂ c).shown i htarget
    rw [hlast₁, hlast₂, ← hu₁, honline, hu₂]
    simp [htarget]
  -- not a target: the plain pass leaves what stood there
  · rw [(hshows₂ c).hidden i htarget, Option.none_or]
    by_cases hscript : Invoked m c ∧ Scripted m c i
    · obtain ⟨u, hu, hlast⟩ := (hshows₁ c).shown i hscript
      rw [h.untouched c i htarget] at hu
      simp [hlast, hu, htarget, hscript.1, hscript.2, eq_comm]
    · rw [(hshows₁ c).hidden i hscript, Option.none_or]
      apply iff_of_true rfl
      intro hinvoked hscripted
      exact absurd ⟨hinvoked, hscripted⟩ hscript

theorem published_eq {new : List Update} (h : m₁.applied = m.applied ++ new) :
    published m m₁ = new := by
  rw [published, h, List.drop_left]

/-- When the two passes agree. -/
theorem Compared.agree_iff (h : Compared fn m m₁ m₂ L₁) (hm : Ready m) (hlisted : Listed m.node)
    (hflag : ∀ c src, m.flag c src = true → R c src) : PathsAgree R m m₁ m₂ ↔ Harmless R m := by
  obtain ⟨new₁, happlied₁, hshows₁⟩ := h.scripted
  obtain ⟨new₂, happlied₂, hshows₂⟩ := h.plain
  have hnew₁ : published m m₁ = new₁ := published_eq happlied₁
  have hnew₂ : published m m₂ = new₂ := published_eq happlied₂
  -- the plain pass publishes targets only, and their sources have reported
  have htarget : ∀ u ∈ new₂, Targeted m u.meas.channel u.index := by
    intro u hu
    exact (Shows.exists_mem hshows₂).mp ⟨u, hu, rfl, rfl⟩
  have hscripted : ∀ u ∈ new₁, Invoked m u.meas.channel ∧ Scripted m u.meas.channel u.index := by
    intro u hu
    exact (Shows.exists_mem hshows₁).mp ⟨u, hu, rfl, rfl⟩
  constructor
  · intro hagree
    refine ⟨fun c i => (h.lastUpdate_eq_iff hm hlisted c i).mp (hagree.same c i), ?_, ?_⟩
    · intro c i hinvoked hi
      obtain ⟨u, hu, rfl, rfl⟩ := (Shows.exists_mem hshows₁).mpr ⟨hinvoked, hi⟩
      exact hagree.reported u (List.mem_append_left _ (hnew₁ ▸ hu))
    · intro hdown hinvoked i hi
      obtain ⟨u, hu, -⟩ := (Shows.exists_mem hshows₁).mpr ⟨hinvoked, hi⟩
      have hnil := (hagree.silent hdown).1
      rw [hnew₁] at hnil
      exact List.not_mem_nil (hnil ▸ hu)
  · intro hharmless
    refine ⟨fun c i => (h.lastUpdate_eq_iff hm hlisted c i).mpr (hharmless.standing c i), ?_, ?_⟩
    · intro u hu
      rw [hnew₁, hnew₂, List.mem_append] at hu
      rcases hu with hu | hu
      · exact hharmless.reported _ _ (hscripted u hu).1 (hscripted u hu).2
      · obtain ⟨src, dp, hmem, hup, htype, hindex⟩ := htarget u hu
        intro hn
        exact hn.2 src dp hmem htype hindex (hflag _ src hup)
    · intro hdown
      rw [hnew₁, hnew₂]
      constructor
      · rw [List.eq_nil_iff_forall_not_mem]
        intro u hu
        obtain ⟨hinvoked, hi⟩ := hscripted u hu
        obtain ⟨src, -, hrun⟩ := id hinvoked
        have hc : u.meas.channel = .counter := by
          rcases hrun with hc | hup
          · exact hc
          · rw [hdown] at hup
            cases hup
        rw [hc] at hinvoked hi
        exact hharmless.silent hdown hinvoked _ hi
      · rw [List.eq_nil_iff_forall_not_mem]
        intro u hu
        obtain ⟨src, dp, -, hup, -⟩ := htarget u hu
        rw [hdown] at hup
        cases hup

end

/-! ## Runs -/

/-- What happens to an outstation: a callback or a plain pass, or a pass with the script. -/
inductive LuaEvent where
  | event (e : Event)
  | inject

def LuaEvent.exec (env : LuaEnv) : LuaEvent → MappingOutstation → LuaM MappingOutstation
  | .event e, m => Lua.lift (e.exec m)
  | .inject, m => injectDataChanges env m

def runLua (env : LuaEnv) : List LuaEvent → MappingOutstation → LuaM MappingOutstation
  | [], m => pure m
  | e :: es, m => do
    let m ← e.exec env m
    runLua env es m

/-- The callbacks and plain passes of a run. -/
def events (es : List LuaEvent) : List Event :=
  es.filterMap (fun | .event e => some e | .inject => none)

/-- The counter values of a callback are below 2 ^ 31. -/
def Event.Small : Event → Prop
  | .counter _ values => ∀ p ∈ values, p.value.toNat < 2 ^ 31
  | _ => True

theorem Event.Small.plain {e : Event} (h : e.Small) {c : Channel} {src : String}
    {pairs : List (Indexed Double)} (he : e.callback? = some (c, src, pairs)) :
    ∀ p ∈ pairs, Plain c p.value := by
  intro p hp
  cases e with
  | pass => cases he
  | analog src values =>
    cases he
    trivial
  | binary src values =>
    cases he
    obtain ⟨v, -, rfl⟩ := List.mem_map.mp hp
    exact ⟨v.value, rfl⟩
  | counter src values =>
    cases he
    obtain ⟨v, hv, rfl⟩ := List.mem_map.mp hp
    exact ⟨v.value, h v hv, rfl⟩

theorem plain_foldl_storePair {c : Channel} {pairs : List (Indexed Double)}
    (hpairs : ∀ p ∈ pairs, Plain c p.value) {pts : List Dnp3Point}
    (hpts : ∀ pt ∈ pts, Plain c pt.value) : ∀ pt ∈ pairs.foldl storePair pts, Plain c pt.value := by
  induction pairs generalizing pts with
  | nil => exact hpts
  | cons pair pairs ih =>
    obtain ⟨hpair, hpairs⟩ := List.forall_mem_cons.mp hpairs
    apply ih hpairs
    intro pt hpt
    unfold storePair at hpt
    split at hpt
    · exact hpts pt hpt
    · split at hpt
      · exact hpts pt hpt
      · rcases List.mem_or_eq_of_mem_set hpt with hpt | rfl
        · exact hpts pt hpt
        · exact hpair

/-- A callback with plain values leaves the arrays ready. -/
theorem Ready.process {m : MappingOutstation} (h : Ready m) {c : Channel} {src : String}
    {pairs : List (Indexed Double)} (hpairs : ∀ p ∈ pairs, Plain c p.value) :
    Ready (process c src pairs m) where
  fitsIn d s dp hmem htype := by
    have hin := h.fitsIn d s dp hmem htype
    rw [input_process]
    split
    · rwa [length_foldl_storePair]
    · exact hin
  fitsOut := h.fitsOut
  int := h.int
  plainIn d s := by
    rw [input_process]
    split
    · next heq => exact plain_foldl_storePair (heq.1 ▸ hpairs) (h.plainIn d s)
    · exact h.plainIn d s
  plainOut := h.plainOut

theorem plain_zero (c : Channel) : Plain c Dnp3Point.zero.value := by
  cases c with
  | analog => trivial
  | binary => exact ⟨false, rfl⟩
  | counter => exact ⟨0, by decide, rfl⟩

theorem ready_sized {node : Node} (hnonneg : ∀ c : Channel, 0 ≤ sizeAt node.dbSize c.pointType)
    (hint : ∀ c : Channel, sizeAt node.dbSize c.pointType ≤ 2147483647) (hin : FitsIn (sized node))
    (hout : FitsOut (sized node)) : Ready (sized node) where
  fitsIn := hin
  fitsOut := hout
  int c := by
    have hlength : ((((sized node).outValues c).length : ℕ) : Int) = sizeAt node.dbSize c.pointType :=
      length_zeros (hnonneg c)
    have hle := hint c
    omega
  plainIn c src pt hpt := input_sized_zero hpt ▸ plain_zero c
  plainOut c pt hpt := by
    have hzero : pt = .zero := eq_zero_of_mem_zeros hpt
    exact hzero ▸ plain_zero c

/-- What holds after the events `es`. -/
structure Reaches (fn : Channel → ℕ) (node : Node) (es : List LuaEvent) (m : MappingOutstation)
    (L : Lua) : Prop where
  node : m.node = node
  ready : Ready m
  reported : ∀ c src, m.flag c src = true → Reported (events es) c src
  defined : Defines fn L.world

section
variable {env : LuaEnv} {fn : Channel → ℕ} {node : Node} {es : List LuaEvent}
variable {m m' : MappingOutstation} {L L' : Lua}

theorem Reaches.callback (h : Reaches fn node es m L) {e : Event} (he : e.Small) {c : Channel}
    {src : String} {pairs : List (Indexed Double)} (hcallback : e.callback? = some (c, src, pairs)) :
    Reaches fn node (es ++ [.event e]) (process c src pairs m) L where
  node := h.node
  ready := h.ready.process (he.plain hcallback)
  reported d s hup := by
    have hevents : events (es ++ [.event e]) = events es ++ [e] := by simp [events]
    rw [hevents, reported_snoc, hcallback]
    by_cases hthis : d = c ∧ s = src
    · obtain ⟨rfl, rfl⟩ := hthis
      exact Or.inr ⟨pairs, rfl⟩
    · simp only [process, setCell_of_ne _ _ _ _ _ _ hthis] at hup
      exact Or.inl (h.reported d s hup)
  defined := h.defined

/-- A pass of either kind. -/
theorem Reaches.passed (h : Reaches fn node es m L) {e : LuaEvent} (hnode : m'.node = m.node)
    (hready : Ready m') (hflag : ∀ c src, m'.flag c src = true → m.flag c src = true)
    (hL' : Defines fn L'.world) : Reaches fn node (es ++ [e]) m' L' where
  node := hnode.trans h.node
  ready := hready
  reported c src hup := by
    obtain ⟨a, ha, hcallback⟩ := h.reported c src (hflag c src hup)
    refine ⟨a, ?_, hcallback⟩
    rw [events, List.filterMap_append]
    exact List.mem_append_left _ ha
  defined := hL'

/-- One event of a run. -/
theorem Reaches.exec (h : Reaches fn node es m L) (hscript : IdentityScript env fn) {e : LuaEvent}
    (he : ∀ a, e = .event a → a.Small) (hexec : e.exec env m L = .ok (m', L')) :
    Reaches fn node (es ++ [e]) m' L' := by
  -- either pass is one side of the comparison, so both keep what it says
  obtain ⟨m₁, L₁, m₂, hinject, hpass, hcompared⟩ := compared hscript h.ready h.defined
  cases e with
  | inject =>
    cases hinject.symm.trans hexec
    exact h.passed hcompared.node₁ hcompared.ready₁ hcompared.flag₁ hcompared.defined
  | event a =>
    cases hcallback : a.callback? with
    | none =>
      cases Event.eq_pass_of_callback hcallback
      cases (Lua.lift_ok hpass L).symm.trans hexec
      exact h.passed hcompared.node₂ hcompared.ready₂ hcompared.flag₂ h.defined
    | some callback =>
      obtain ⟨c, src, pairs⟩ := callback
      cases (Lua.lift_ok (Event.exec_of_callback hcallback m) L).symm.trans hexec
      exact h.callback (he a rfl) hcallback

/-- A whole run. -/
theorem Reaches.runLua {more : List LuaEvent} (h : Reaches fn node es m L)
    (hscript : IdentityScript env fn) (hsmall : ∀ e, .event e ∈ more → e.Small)
    (hrun : Dnp3.runLua env more m L = .ok (m', L')) : Reaches fn node (es ++ more) m' L' := by
  induction more generalizing es m L with
  | nil =>
    cases hrun
    rwa [List.append_nil]
  | cons e more ih =>
    obtain ⟨m₁, L₁, hexec, hrest⟩ := Lua.bind_eq_ok.mp hrun
    have he : ∀ a, e = .event a → a.Small := by
      intro a ha
      exact hsmall a (ha ▸ List.mem_cons_self)
    rw [List.append_cons]
    exact ih (h.exec hscript he hexec) (fun a ha => hsmall a (List.mem_cons_of_mem e ha)) hrest

end

/-- The events `es` take an outstation from `m₀` to `m`. Its station is read from a tree, its
indexes fit the arrays, the counter values of the callbacks are below 2 ^ 31, and its script
changes nothing. -/
structure IdentityRun (env : LuaEnv) (fn : Channel → ℕ) (nodeTree : PTree) (station node : Node)
    (es : List LuaEvent) (m₀ : MappingOutstation) (L₀ : Lua) (m : MappingOutstation) (L : Lua) :
    Prop where
  script : IdentityScript env fn
  defined : Defines fn L₀.world
  sources : station.dataSources = .empty
  read : readMappedDataGenerationSpecs nodeTree station = .ok node
  int : ∀ c : Channel, sizeAt node.dbSize c.pointType ≤ 2147483647
  start : (new node).start = .ok m₀
  fitsIn : FitsIn m₀
  fitsOut : FitsOut m₀
  small : ∀ e, .event e ∈ es → e.Small
  run : runLua env es m₀ L₀ = .ok (m, L)

/-- **When the two passes agree.** From every state of a run both passes return, and they agree
exactly if the scripts that are invoked do no harm in that state. -/
theorem paths_agree_iff {env : LuaEnv} {fn : Channel → ℕ} {nodeTree : PTree} {station node : Node}
    {es : List LuaEvent} {m₀ m : MappingOutstation} {L₀ L : Lua}
    (h : IdentityRun env fn nodeTree station node es m₀ L₀ m L) : ∃ m₁ L₁ m₂,
    injectDataChanges env m L = .ok (m₁, L₁) ∧ m.passThruDataChanges = .ok m₂ ∧
      (PathsAgree (Reported (events es)) m m₁ m₂ ↔ Harmless (Reported (events es)) m) := by
  obtain ⟨-, hnonneg, rfl⟩ := start_ok.mp h.start
  have hlisted : Listed node := by
    refine Listed.readMappedDataGenerationSpecs (fun src dp hmem => ?_) h.read
    simp [Node.mapped, h.sources, Dict.empty] at hmem
  have hstart : Reaches fn node [] (sized node) L₀ :=
    { node := rfl
      ready := ready_sized hnonneg h.int h.fitsIn h.fitsOut
      reported := fun _ _ hup => absurd hup (by simp [sized])
      defined := h.defined }
  have hreach := hstart.runLua h.script h.small h.run
  rw [List.nil_append] at hreach
  obtain ⟨m₁, L₁, m₂, hinject, hpass, hcompared⟩ := compared h.script hreach.ready hreach.defined
  refine ⟨m₁, L₁, m₂, hinject, hpass, ?_⟩
  exact hcompared.agree_iff hreach.ready (hreach.node ▸ hlisted) hreach.reported

/-! ## A script -/

def Channel.function : Channel → ℕ
  | .analog => 0
  | .binary => 1
  | .counter => 2

/-- `function modify_analog(t) analog_data = t; return t end`, and the same for the other two. -/
def identityEnv : LuaEnv where
  maxInteger := 9223372036854775807
  maxInteger_ge := by decide
  traversal t := t.entries.entries
  traversal_perm _ := List.Perm.refl _
  tonumber _ := none
  callFunction f args W :=
    let c : Channel := match f with
      | 0 => .analog
      | 1 => .binary
      | _ => .counter
    .ok (args, { W with globals := W.globals.set c.dataTable (args.headD .nil) })

/-- `lua_State` with the script loaded. -/
def identityState : Lua :=
  { world :=
      { globals := .ofList [("modify_analog", .function 0), ("modify_binary", .function 1),
          ("modify_counter", .function 2)]
        tables := [] }
    stack := [] }

theorem identityState_defines : Defines Channel.function identityState.world := by
  intro c
  cases c <;> decide

theorem identityEnv_script : IdentityScript identityEnv Channel.function where
  call c W ref t hW ht := by
    have hnames : ∀ d : Channel, d.modifyFunction ≠ c.dataTable := by
      intro d
      cases c <;> cases d <;> decide
    have hcall : identityEnv.callFunction c.function [.table ref] W =
        .ok ([.table ref], { W with globals := W.globals.set c.dataTable (.table ref) }) := by
      cases c <;> rfl
    refine ⟨_, ref, ref, t, t, hcall, ?_, ht, fun _ => rfl, ?_, ht, fun _ => rfl⟩
    · intro d
      rw [Dict.get?_set, if_neg (hnames d)]
      exact hW d
    · rw [Dict.get?_set, if_pos rfl]

/-! ## One counter -/

/-- One counter of the source "O2". -/
def oneCounter : PTree :=
  .node "" [("Data Sources", .node "" [("", .node "" [
    ("Source", .leaf "O2"),
    ("Mapped Data", .node "" [("", .node "" [("Type", .leaf "Counter"),
      ("Event Class", .leaf "2"), ("sVariation", .leaf "5"), ("eVariation", .leaf "5"),
      ("InputIndex", .leaf "0"), ("Index", .leaf "0")])])])])]

/-- What the parser makes of `oneCounter`. -/
def oneCounterNode : Node :=
  { dataPoints := [⟨0, 5, 5, 2, "Counter", none⟩]
    dataSources := ⟨[("O2", [⟨0, 0, "Counter"⟩])], List.nodup_singleton _⟩
    dbSize := Node.new.dbSize.insert "Counter" 1
    evtBufferSize := Node.new.evtBufferSize.insert "Counter" 100 }

theorem mem_oneCounterNode {c : Channel} {src : String} {dp : MappedDataPoint}
    (hmem : (src, dp) ∈ oneCounterNode.mapped) (htype : dp.pointType = c.pointType) :
    c = .counter ∧ src = "O2" ∧ dp = ⟨0, 0, "Counter"⟩ := by
  have hdp : src = "O2" ∧ dp = ⟨0, 0, "Counter"⟩ := by
    simpa [Node.mapped, oneCounterNode] using hmem
  obtain ⟨rfl, rfl⟩ := hdp
  exact ⟨(Channel.pointType_inj (d := .counter) htype.symm), rfl, rfl⟩

theorem oneCounter_run {es : List LuaEvent} {m : MappingOutstation}
    (hsmall : ∀ e, .event e ∈ es → e.Small)
    (hrun : runLua identityEnv es (sized oneCounterNode) identityState = .ok (m, identityState)) :
    IdentityRun identityEnv Channel.function oneCounter .new oneCounterNode es
      (sized oneCounterNode) identityState m identityState where
  script := identityEnv_script
  defined := identityState_defines
  sources := rfl
  read := by decide
  int c := by cases c <;> decide
  start := start_ok.mpr ⟨by decide, fun c => by cases c <;> decide, rfl⟩
  fitsIn c src dp hmem htype := by
    obtain ⟨rfl, rfl, rfl⟩ := mem_oneCounterNode hmem htype
    decide
  fitsOut c src dp hmem htype := by
    obtain ⟨rfl, rfl, rfl⟩ := mem_oneCounterNode hmem htype
    decide
  small := hsmall
  run := hrun

def counterCallback : Event := .counter "O2" [⟨0, 7, 30⟩]

/-- After a callback of its source the two passes agree on the counter. -/
theorem paths_agree_counter : ∃ m m₁ L₁ m₂,
    runLua identityEnv [.event counterCallback] (sized oneCounterNode) identityState =
      .ok (m, identityState) ∧
    injectDataChanges identityEnv m identityState = .ok (m₁, L₁) ∧
    m.passThruDataChanges = .ok m₂ ∧
    PathsAgree (Reported (events [.event counterCallback])) m m₁ m₂ := by
  let m := processCounter "O2" [⟨0, 7, 30⟩] (sized oneCounterNode)
  have hsmall : ∀ e, LuaEvent.event e ∈ [LuaEvent.event counterCallback] → e.Small := by
    intro e he
    cases List.mem_singleton.mp he
    show ∀ p ∈ [(⟨0, 7, 30⟩ : Indexed UInt32)], p.value.toNat < 2 ^ 31
    simp
  obtain ⟨m₁, L₁, m₂, hinject, hpass, hiff⟩ := paths_agree_iff (oneCounter_run (m := m) hsmall rfl)
  have hpoint : ("O2", ⟨0, 0, "Counter"⟩) ∈ m.node.mapped := by
    show _ ∈ oneCounterNode.mapped
    decide
  have hup : m.flag .counter "O2" = true := by simp [m, processCounter, process]
  have hreported : Reported (events [.event counterCallback]) .counter "O2" :=
    ⟨counterCallback, List.mem_singleton_self _, _, rfl⟩
  have honly : ∀ c i, Scripted m c i → c = .counter ∧ i = 0 := by
    intro c i hi
    obtain ⟨p, hp, htype, rfl⟩ := mem_configuredIndexes.mp hi.1
    cases List.mem_singleton.mp hp
    exact ⟨Channel.pointType_inj (d := .counter) htype.symm, rfl⟩
  refine ⟨m, m₁, L₁, m₂, rfl, hinject, hpass, hiff.mpr ⟨?_, ?_, ?_⟩⟩
  · intro c i _ hi hn
    obtain ⟨rfl, rfl⟩ := honly c i hi
    exact absurd ⟨"O2", ⟨0, 0, "Counter"⟩, hpoint, hup, rfl, rfl⟩ hn
  · intro c i _ hi hn
    obtain ⟨rfl, rfl⟩ := honly c i hi
    exact hn.2 "O2" ⟨0, 0, "Counter"⟩ hpoint rfl rfl hreported
  · intro hdown
    rw [hdown] at hup
    cases hup

/-- Before any callback the script publishes the counter. -/
theorem paths_disagree_counter :
    ¬ ∀ env fn nodeTree station node es m₀ L₀ m L,
      IdentityRun env fn nodeTree station node es m₀ L₀ m L → ∃ m₁ L₁ m₂,
        injectDataChanges env m L = .ok (m₁, L₁) ∧ m.passThruDataChanges = .ok m₂ ∧
          PathsAgree (Reported (events es)) m m₁ m₂ := by
  intro h
  have hrun : IdentityRun identityEnv Channel.function oneCounter .new oneCounterNode []
      (sized oneCounterNode) identityState (sized oneCounterNode) identityState :=
    oneCounter_run (by simp) rfl
  obtain ⟨m₁, L₁, m₂, hinject, -, hagree⟩ := h _ _ _ _ _ _ _ _ _ _ hrun
  have happlied : (injectDataChanges identityEnv (sized oneCounterNode) identityState).map
      (fun r => r.1.applied) = .ok [⟨.counter 0, .online, 0, 0⟩] := by decide +kernel
  rw [hinject] at happlied
  have hm₁ : m₁.applied = [⟨.counter 0, .online, 0, 0⟩] := Except.ok.inj happlied
  have hnil := (hagree.silent fun _ _ => rfl).1
  rw [published, hm₁] at hnil
  cases hnil

end IcsTrafficGen.Dnp3
