import IcsTrafficGen.Dnp3.DataPoints
import IcsTrafficGen.Dnp3.LuaRuns
import IcsTrafficGen.Dnp3.ReturnedTables

/- `LuaInvokeAnalogScript`, `LuaInvokeBinaryScript` and `LuaInvokeCounterScript` with an
   arbitrary script. The time of an update is read from the out array at an index that is
   compared with the configured ones only. They lie inside the array: the parser grows the
   database with every point, and the array has the size of the database (`CoversConfigured`).
   So an invocation hands over the out cells and publishes what comes back, as far as both
   survive their conversions (`luaInvoke_faithful`). -/
namespace IcsTrafficGen.Dnp3
namespace MappingOutstation

/-- The functions of the source, one for each channel. -/
def luaInvoke (env : LuaEnv) : Channel → MappingOutstation → LuaM MappingOutstation
  | .analog => luaInvokeAnalogScript env
  | .binary => luaInvokeBinaryScript env
  | .counter => luaInvokeCounterScript env

theorem luaInvoke_eq (env : LuaEnv) (c : Channel) : luaInvoke env c = luaInvokeScript env c := by
  cases c <;> rfl

/-! ## What an invocation is for -/

/-- The table has the out cells of the channel, each under the key one above its index. -/
def HasOutCells (env : LuaEnv) (c : Channel) (m : MappingOutstation) (t : LuaTable) : Prop :=
  ∀ q, q ∈ t.entries.entries ↔ ∃ (i : ℕ) (pt : Dnp3Point) (d : Double),
    (m.outValues c)[i]? = some pt ∧ cellNumber env c pt.value = .ok d ∧
      q = (intKey (i + 1), .number d)

/-- The time of an out cell. -/
def cellTime (c : Channel) (m : MappingOutstation) (i : Int) : Cpp Int :=
  (Cpp.vecGet (m.outValues c) i).map Dnp3Point.timestamp

/-- An invocation hands its function a new table with the out cells. If a table comes back that
satisfies `Left`, every configured key of it becomes one update, and the stack is empty. -/
def Faithful (env : LuaEnv) (c : Channel) (m : MappingOutstation) (W : LuaWorld) (f : ℕ)
    (Left : LuaTable → Prop) : Prop :=
  ∀ stack, ∃ t, HasOutCells env c m t ∧
    (∀ e, env.callFunction f [.table W.tables.length] { W with tables := W.tables ++ [t] } =
      .error e → luaInvoke env c m ⟨W, stack⟩ = .error e) ∧
    ∀ results W' data left,
      env.callFunction f [.table W.tables.length] { W with tables := W.tables ++ [t] } =
        .ok (results, W') → W'.globals.get? c.dataTable = some (.table data) →
      W'.tables[data]? = some left → Left left → ∃ updates,
        luaInvoke env c m ⟨W, stack⟩ =
          .ok ({ m with applied := m.applied ++ updates }, ⟨W', []⟩) ∧
        List.Forall₂ (IsUpdate (asCell env c) (cellTime c m))
          ((env.traversal left).filter fun p => StandsFor (configuredIndexes m.node c) p.1) updates

/-- The table has `int` keys and numbers, and the entries that are read survive their
conversions. -/
structure Converts (env : LuaEnv) (c : Channel) (m : MappingOutstation) (t : LuaTable) :
    Prop where
  keyed : IntKeyed t
  min : ∀ k v, (intKey k, .number v) ∈
    readEntries env ((dpTypeIndexMap m.node).get? c.pointType) t → -env.maxInteger ≤ k
  meas : ∀ k v, (intKey k, .number v) ∈
    readEntries env ((dpTypeIndexMap m.node).get? c.pointType) t → ∃ meas, asCell env c v = .ok meas

/-! ## The out array -/

section
variable {node : Node} {m : MappingOutstation} {c : Channel}

/-- The out array of a channel reaches as far as the configured indexes. -/
structure CoversConfigured (c : Channel) (m : MappingOutstation) : Prop where
  int : (m.outValues c).length ≤ 2147483647
  index : ∀ i ∈ configuredIndexes m.node c, 0 ≤ i ∧ i < (m.outValues c).length

theorem coversConfigured_of_fitted (hfitted : Fitted m.node)
    (hindexes : ∀ dp ∈ m.node.dataPoints, 0 ≤ dp.index ∧ dp.index < 2147483647)
    (hlength : ((m.outValues c).length : Int) = sizeAt m.node.dbSize c.pointType) :
    CoversConfigured c m where
  int := by
    rcases hfitted.tight c.pointType with hzero | ⟨q, hq, -, hsize⟩
    · omega
    · obtain ⟨dp, hdp, rfl⟩ := List.mem_map.mp hq
      have hlt := (hindexes dp hdp).2
      dsimp only at hsize
      omega
  index i hi := by
    obtain ⟨dp, hdp, htype, rfl⟩ := mem_configuredIndexes.mp hi
    have hcovers := hfitted.covers (dp.pointType, dp.index) (List.mem_map_of_mem hdp)
    rw [htype] at hcovers
    exact ⟨(hindexes dp hdp).1, hlength ▸ hcovers⟩

/-- An index that is compared with the configured ones and found is one of an out cell. -/
theorem CoversConfigured.outCell (h : CoversConfigured c m) {i : Int}
    (hi : i ∈ configuredIndexes m.node c) : ∃ pt, Cpp.vecGet (m.outValues c) i = .ok pt := by
  obtain ⟨hnonneg, hlt⟩ := h.index i hi
  have hin : i.toNat < (m.outValues c).length := by omega
  exact ⟨_, Cpp.vecGet_ok.mpr ⟨hnonneg, List.getElem?_eq_getElem hin⟩⟩

end

/-! ## An entry -/

section
variable {env : LuaEnv} {c : Channel} {m : MappingOutstation} {k : Int} {v : Double}
variable {W : LuaWorld} {stack : List LuaValue}

/-- An entry of a configured type. -/
theorem publishEntry_some {indexes : List Int}
    (hmap : (dpTypeIndexMap m.node).get? c.pointType = some indexes)
    (hindexes : ∀ i ∈ indexes, Cpp.InInt i)
    (hcells : ∀ i ∈ indexes, ∃ pt, Cpp.vecGet (m.outValues c) i = .ok pt) (hk : Cpp.InInt k)
    (hfits : Fits env (asCell env c) indexes k v) (updates : List Update) :
    publishEntry env c m updates ⟨W, .number v :: intKey k :: stack⟩ =
      .ok ((true, updates ++
        (entryUpdate (asCell env c) (cellTime c m) indexes (intKey k, .number v)).toList),
        ⟨W, intKey k :: stack⟩) := by
  obtain ⟨meas, hmeas⟩ := hfits.meas
  rw [publishEntry, Lua.bind_ok (keyIndex_ok env hk hfits.min rfl),
    Lua.bind_ok (readCell_ok hmeas W _), hmap]
  dsimp only
  simp only [wrapInt_mem hindexes hk hfits.wrap]
  by_cases hstands : StandsFor indexes (intKey k)
  · have hmem := standsFor_intKey.mp hstands
    have hindex : Cpp.wrapInt (k - 1) = k - 1 := Cpp.wrapInt_of_inInt (hindexes _ hmem)
    obtain ⟨pt, hpt⟩ := hcells _ hmem
    have htime : cellTime c m (k - 1) = .ok pt.timestamp := by
      rw [cellTime, hpt]
      rfl
    rw [if_pos hstands, entryUpdate_of_standsFor hstands hmeas htime, hindex, publishCell,
      Lua.bind_ok (Lua.lift_ok hpt _)]
    rfl
  · rw [if_neg hstands, entryUpdate_of_not hstands, Option.toList_none, List.append_nil]
    rfl

/-- An entry of a type that is not configured: the loop is left with the entry on the stack. -/
theorem publishEntry_none (hmap : (dpTypeIndexMap m.node).get? c.pointType = none)
    (hk : Cpp.InInt k) (hfits : Fits env (asCell env c) [] k v) (updates : List Update) :
    publishEntry env c m updates ⟨W, .number v :: intKey k :: stack⟩ =
      .ok ((false, updates), ⟨W, .number v :: intKey k :: stack⟩) := by
  obtain ⟨meas, hmeas⟩ := hfits.meas
  rw [publishEntry, Lua.bind_ok (keyIndex_ok env hk hfits.min rfl),
    Lua.bind_ok (readCell_ok hmeas W _), hmap]
  rfl

end

/-! ## The table that comes back -/

section
variable {env : LuaEnv} {c : Channel} {m : MappingOutstation} {W : LuaWorld} {ref : ℕ}
variable {t : LuaTable}

/-- The updates for a table, in the order of the traversal. -/
def tableUpdates (env : LuaEnv) (c : Channel) (m : MappingOutstation) (t : LuaTable) :
    List Update :=
  (env.traversal t).filterMap
    (entryUpdate (asCell env c) (cellTime c m) (configuredIndexes m.node c))

theorem Converts.fits (h : Converts env c m t) (hm : CoversConfigured c m) {k : Int} {v : Double}
    (hread : (intKey k, .number v) ∈
      readEntries env ((dpTypeIndexMap m.node).get? c.pointType) t) :
    Fits env (asCell env c) (configuredIndexes m.node c) k v where
  min := h.min k v hread
  wrap _ hmem := by
    have hlt := (hm.index _ hmem).2
    have hint := hm.int
    omega
  meas := h.meas k v hread

theorem CoversConfigured.inInt (hm : CoversConfigured c m) :
    ∀ i ∈ configuredIndexes m.node c, Cpp.InInt i := by
  intro i hi
  have hindex := hm.index i hi
  have hint := hm.int
  unfold Cpp.InInt
  omega

/-- The loop over the table. It stops at the first entry if no index of the type is configured. -/
theorem publishLoop_converts (hm : CoversConfigured c m) (hW : W.tables[ref]? = some t)
    (ht : Converts env c m t) {p : LuaValue × LuaValue} (hp : (env.traversal t).head? = some p)
    (stack : List LuaValue) : ∃ stack', Lua.whileNext env (publishEntry env c m) []
      ⟨W, .nil :: .table ref :: stack⟩ = .ok (tableUpdates env c m t, ⟨W, stack'⟩) := by
  have hperm := env.traversal_perm t
  cases hmap : (dpTypeIndexMap m.node).get? c.pointType with
  | none =>
    have hconf : configuredIndexes m.node c = [] := by rw [configuredIndexes, hmap]; rfl
    have hnone : tableUpdates env c m t = [] := by
      rw [tableUpdates, hconf]
      exact List.filterMap_eq_nil_iff.mpr fun p _ => entryUpdate_nil p
    obtain ⟨rest, hrest⟩ := List.head?_eq_some_iff.mp hp
    obtain ⟨k, v, hk, rfl⟩ := ht.keyed p (hperm.mem_iff.mp (List.mem_of_mem_head? hp))
    have hread : (intKey k, .number v) ∈
        readEntries env ((dpTypeIndexMap m.node).get? c.pointType) t := by
      rw [hmap, readEntries, hrest]
      exact List.mem_cons_self
    have hfits := hconf ▸ ht.fits hm hread
    rw [hnone]
    exact ⟨_, Lua.whileNext_break hW hp (publishEntry_none hmap hk hfits [])⟩
  | some indexes =>
    have hconf : configuredIndexes m.node c = indexes := by rw [configuredIndexes, hmap]; rfl
    let add (s : List Update) (p : LuaValue × LuaValue) : List Update :=
      s ++ (entryUpdate (asCell env c) (cellTime c m) (configuredIndexes m.node c) p).toList
    refine ⟨.table ref :: stack, (Lua.whileNext_ok (g := add) hW ?_ []).trans ?_⟩
    · intro p hp updates
      obtain ⟨k, v, hk, rfl⟩ := ht.keyed p hp
      have hread : (intKey k, .number v) ∈
          readEntries env ((dpTypeIndexMap m.node).get? c.pointType) t := by
        rw [hmap]
        exact hperm.mem_iff.mpr hp
      exact publishEntry_some (hconf ▸ hmap) hm.inInt (fun i hi => hm.outCell hi) hk
        (ht.fits hm hread) updates
    · rw [foldl_entryUpdate]
      rfl

/-- The end of an invocation. -/
theorem publishTable_converts (hm : CoversConfigured c m) (hW : W.tables[ref]? = some t)
    (ht : Converts env c m t) (stack : List LuaValue) :
    publishTable env c m ⟨W, .nil :: .table ref :: stack⟩ =
      .ok ({ m with applied := m.applied ++ tableUpdates env c m t }, ⟨W, []⟩) := by
  refine publishTable_loop hW (fun hnil => ?_) fun p hp => publishLoop_converts hm hW ht hp stack
  rw [tableUpdates, hnil]
  rfl

/-- Each entry that stands for a configured index has its update. -/
theorem tableUpdates_forall₂ (hm : CoversConfigured c m) (ht : Converts env c m t) :
    List.Forall₂ (IsUpdate (asCell env c) (cellTime c m))
      ((env.traversal t).filter fun p => StandsFor (configuredIndexes m.node c) p.1)
      (tableUpdates env c m t) := by
  have hperm := env.traversal_perm t
  refine entryUpdates_forall₂ fun p hp => ?_
  obtain ⟨k, v, hk, rfl⟩ := ht.keyed p (hperm.mem_iff.mp hp)
  refine ⟨k, v, rfl, fun hstands => ?_⟩
  have hmem := standsFor_intKey.mp hstands
  obtain ⟨pt, hpt⟩ := hm.outCell hmem
  refine ⟨ht.meas k v (mem_readEntries hp hstands), pt.timestamp, ?_⟩
  rw [cellTime, hpt]
  rfl

end

/-! ## A whole invocation -/

section
variable {env : LuaEnv} {c : Channel} {m : MappingOutstation} {W : LuaWorld} {f : ℕ}

/-- An invocation with an out array that reaches far enough. -/
theorem CoversConfigured.faithful (hm : CoversConfigured c m)
    (hcells : ∀ pt ∈ m.outValues c, ∃ d, cellNumber env c pt.value = .ok d)
    (hf : W.globals.get? c.modifyFunction = some (.function f)) :
    Faithful env c m W f (Converts env c m) := by
  intro stack
  let number (p : Dnp3Point × ℕ) : Double := (cellNumber env c p.1.value).toOption.getD .zero
  have hnumber {pt : Dnp3Point} {d : Double} (i : ℕ) (h : cellNumber env c pt.value = .ok d) :
      number (pt, i) = d := by
    simp [number, h, Except.toOption]
  have hpushed : ∀ p ∈ (m.outValues c).zipIdx,
      p.2 < 2147483647 ∧ cellNumber env c p.1.value = .ok (number p) := by
    intro p hp
    have hlen := List.snd_lt_of_mem_zipIdx hp
    have hint := hm.int
    obtain ⟨d, hd⟩ := hcells p.1 (List.fst_mem_of_mem_zipIdx hp)
    exact ⟨by omega, hd.trans (congrArg _ (hnumber p.2 hd).symm)⟩
  obtain ⟨t, hentries, herror, hinvoke⟩ := luaInvokeScript_eq hpushed hf stack
  refine ⟨t, fun q => ?_, fun e he => ?_, fun results W' data left hcall hglobal hleft ht => ?_⟩
  · rw [mem_outTable hentries]
    constructor
    · rintro ⟨i, pt, hpt, rfl⟩
      obtain ⟨d, hd⟩ := hcells pt (List.mem_of_getElem? hpt)
      exact ⟨i, pt, d, hpt, hd, by rw [hnumber i hd]; rfl⟩
    · rintro ⟨i, pt, d, hpt, hd, rfl⟩
      exact ⟨i, pt, hpt, by rw [hnumber i hd]; rfl⟩
  · rw [luaInvoke_eq]
    exact herror e he
  · rw [luaInvoke_eq, hinvoke results W' data hcall hglobal]
    exact ⟨_, publishTable_converts hm hleft ht _, tableUpdates_forall₂ hm ht⟩

/-- **Scripts.** The three invocations of a parsed station hand over the out cells and publish what
comes back, where both survive their conversions. -/
theorem luaInvoke_faithful {propTree : PTree} {p : CfgJsonParser}
    (h : CfgJsonParser.new propTree = .ok p) {o : StationNode} (ho : o ∈ p.nodes)
    (hindexes : ∀ dp ∈ o.dataPoints, 0 ≤ dp.index ∧ dp.index < 2147483647)
    {m₀ : MappingOutstation} (hstart : (new o.toNode).start = .ok m₀) (hnode : m.node = o.toNode)
    (hlength : (m.outValues c).length = (m₀.outValues c).length)
    (hcells : ∀ pt ∈ m.outValues c, ∃ d, cellNumber env c pt.value = .ok d)
    (hf : W.globals.get? c.modifyFunction = some (.function f)) :
    Faithful env c m W f (Converts env c m) := by
  obtain ⟨-, hnonneg, rfl⟩ := start_ok.mp hstart
  have hsize : (((sized o.toNode).outValues c).length : Int) = sizeAt o.dbSize c.pointType :=
    length_zeros (hnonneg c)
  have hfitted : Fitted m.node := hnode ▸ new_fitted h o ho
  have hcovers : CoversConfigured c m :=
    coversConfigured_of_fitted hfitted (hnode ▸ hindexes) (by rw [hlength, hnode, hsize])
  exact hcovers.faithful hcells hf

end

/-! ## One mapped point -/

/-- The data of an outstation with one point, mapped from the source "O2". -/
def mappedPoint (c : Channel) : List (String × PTree) :=
  [("Data Sources", .node "" [("", .node "" [("Source", .leaf "O2"),
    ("Mapped Data", .node "" [("", .node "" [("Type", .leaf c.pointType),
      ("Event Class", .leaf "2"), ("sVariation", .leaf "5"), ("eVariation", .leaf "1"),
      ("InputIndex", .leaf "0"), ("Index", .leaf "0")])])])])]

/-- What the parser makes of `mappedPoint`. -/
def mappedNode (c : Channel) : Node :=
  { dataPoints := [⟨0, 5, 1, 2, c.pointType, none⟩]
    dataSources := ⟨[("O2", [⟨0, 0, c.pointType⟩])], List.nodup_singleton _⟩
    dbSize := Node.new.dbSize.insert c.pointType 1
    evtBufferSize := Node.new.evtBufferSize.insert c.pointType 100 }

/-- The station has the point of `mappedPoint`. -/
structure MappedStation (c : Channel) (p : CfgJsonParser) (o : StationNode) : Prop where
  parsed : CfgJsonParser.new (pairConfig (mappedPoint c)) = .ok p
  station : o ∈ p.nodes
  node : o.toNode = mappedNode c

theorem exists_mappedStation (c : Channel) : ∃ p o, MappedStation c p o := by
  have hnodes : (CfgJsonParser.new (pairConfig (mappedPoint c))).map
      (fun p => p.nodes.map fun n => n.toNode) = .ok [Node.new, mappedNode c] := by
    cases c <;> decide +kernel
  obtain ⟨p, o, hp, ho, hnode⟩ := exists_station hnodes (a := mappedNode c) (by simp)
  exact ⟨p, o, hp, ho, hnode⟩

/-- A `modify_analog`, `modify_binary` or `modify_counter` that leaves a table with one entry. -/
def leavingEnv (c : Channel) (wide : Bool) (k : Int) (v : Double) : LuaEnv :=
  plainEnv wide fun _ _ W => .ok ([],
    { globals := W.globals.set c.dataTable (.table W.tables.length)
      tables := W.tables ++ [intEntry k v] })

/-- The out cells all have the same value. -/
def filled (node : Node) (v : Double) : MappingOutstation :=
  { sized node with
    outValues := fun c => ((sized node).outValues c).map fun pt => { pt with value := v } }

section
variable {c : Channel} {p : CfgJsonParser} {o : StationNode}

theorem MappedStation.indexes (h : MappedStation c p o) :
    ∀ dp ∈ o.dataPoints, 0 ≤ dp.index ∧ dp.index < 2147483647 := by
  rw [h.node]
  cases c <;> decide

theorem MappedStation.start (h : MappedStation c p o) :
    (new o.toNode).start = .ok (sized o.toNode) := by
  rw [h.node]
  refine start_ok.mpr ⟨?_, fun d => ?_, rfl⟩
  · cases c <;> decide
  · cases c <;> cases d <;> decide

/-- An invocation that stops although its script leaves a table is not faithful to it. -/
theorem not_faithful_of_stop {wide : Bool} {k : Int} {v : Double} {m : MappingOutstation}
    {W : LuaWorld} {f : ℕ} {Left : LuaTable → Prop}
    (hleft : Left (intEntry k v))
    (hstop : (luaInvoke (leavingEnv c wide k v) c m ⟨W, []⟩).toBool = false) :
    ¬ Faithful (leavingEnv c wide k v) c m W f Left := by
  intro hfaithful
  obtain ⟨t, -, -, hreturns⟩ := hfaithful []
  let W₁ : LuaWorld := { W with tables := W.tables ++ [t] }
  have hglobal : (W₁.globals.set c.dataTable (.table W₁.tables.length)).get? c.dataTable =
      some (.table W₁.tables.length) := by
    rw [Dict.get?_set, if_pos rfl]
  obtain ⟨updates, hok, -⟩ := hreturns [] _ W₁.tables.length _ rfl hglobal
    (List.getElem?_concat_length ..) hleft
  rw [hok] at hstop
  cases hstop

/-- One entry is all that is read of a table with one. -/
theorem converts_intEntry {env : LuaEnv} {k : Int} {v : Double} {meas : Meas}
    (hk : Cpp.InInt k) (hmin : -env.maxInteger ≤ k) (hmeas : asCell env c v = .ok meas)
    (m : MappingOutstation) : Converts env c m (intEntry k v) := by
  refine ⟨intKeyed_intEntry hk v, fun k' v' hread => ?_, fun k' v' hread => ?_⟩
  all_goals
    have hentry := List.mem_singleton.mp (mem_of_mem_readEntries hread)
    obtain ⟨hkey, hvalue⟩ := Prod.mk.inj hentry
  · rwa [intKey_inj hkey]
  · cases hvalue
    exact ⟨meas, hmeas⟩

end

/-- A counter 7 for the script, and a 3 that it leaves. -/
theorem luaInvoke_faithful_counter : ∃ p o, MappedStation .counter p o ∧
    Converts (leavingEnv .counter true 1 (.fin 3)) .counter (filled o.toNode (.fin 7))
      (intEntry 1 (.fin 3)) ∧
    Faithful (leavingEnv .counter true 1 (.fin 3)) .counter (filled o.toNode (.fin 7))
      identityState.world Channel.counter.function
      (Converts (leavingEnv .counter true 1 (.fin 3)) .counter (filled o.toNode (.fin 7))) := by
  obtain ⟨p, o, h⟩ := exists_mappedStation .counter
  have hread : asCell (leavingEnv .counter true 1 (.fin 3)) .counter (.fin 3) =
      .ok (.counter 3) := by decide +kernel
  have hgiven : cellNumber (leavingEnv .counter true 1 (.fin 3)) .counter (.fin 7) =
      .ok (.fin 7) := by decide +kernel
  refine ⟨p, o, h, converts_intEntry (by decide) (by decide) hread _, ?_⟩
  refine luaInvoke_faithful h.parsed h.station h.indexes h.start rfl (List.length_map ..) ?_
    (identityState_defines .counter)
  intro pt hpt
  obtain ⟨pt₀, -, rfl⟩ := List.mem_map.mp hpt
  exact ⟨.fin 7, hgiven⟩

/-- The out cells hold `cell`, the script leaves a table with the entry `k`, `left`, and the
invocation is not faithful to it. -/
def Unfaithful (c : Channel) (wide : Bool) (k : Int) (cell left : Double) : Prop :=
  IntKeyed (intEntry k left) ∧ ∃ p o, MappedStation c p o ∧
    ¬ Faithful (leavingEnv c wide k left) c (filled o.toNode cell) identityState.world c.function
      IntKeyed

theorem unfaithful_of_stop {c : Channel} {wide : Bool} {k : Int} {cell left : Double}
    (hk : Cpp.InInt k) (hstop : (luaInvoke (leavingEnv c wide k left) c
      (filled (mappedNode c) cell) ⟨identityState.world, []⟩).toBool = false) :
    Unfaithful c wide k cell left := by
  obtain ⟨p, o, h⟩ := exists_mappedStation c
  refine ⟨intKeyed_intEntry hk left, p, o, h, not_faithful_of_stop (intKeyed_intEntry hk left) ?_⟩
  rwa [h.node]

/-- A binary out cell and a counter from the script that are no `lua_Integer`, and a key whose
predecessor is none. -/
theorem luaInvoke_not_faithful :
    Unfaithful .binary true 1 .nan .zero ∧ Unfaithful .counter true 1 .zero (.inf false) ∧
      Unfaithful .analog false (-2147483648) .zero .zero := by
  refine ⟨unfaithful_of_stop (by decide) ?_, unfaithful_of_stop (by decide) ?_,
    unfaithful_of_stop (by decide) ?_⟩
  all_goals decide +kernel

end MappingOutstation
end IcsTrafficGen.Dnp3
