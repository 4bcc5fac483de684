import IcsTrafficGen.Lib.LuaLog
import IcsTrafficGen.Dnp3.ReturnedTables

/- `OutStation::LuaInvokeScript`: the script of an outstation leaves its data in the global table
   "data", one table for each of three point types, and the configured points of each are put
   into one `Apply`. The three passages differ in how a value is converted, and only a value
   that the conversion of its type can represent is safe to read; then every lookup is in the
   table that it is meant for, and the `Apply` has one update for each configured key
   (`generateData_applies`). -/
namespace IcsTrafficGen.Dnp3
namespace OutStation

/-! ## The invocation -/

/-- The value at the index -1. The counter is converted to `uint32_t` from a `double`. -/
def readValue (env : LuaEnv) : Channel → LuaM Meas
  | .analog => do
    let dvalue ← Lua.toNumber env 1
    pure (.analog dvalue)
  | .counter => do
    let d ← Lua.toNumber env 1
    let cvalue ← Lua.lift d.toUInt32
    pure (.counter cvalue)
  | .binary => do
    let n ← Lua.toInteger env 1
    pure (.binary (n != 0))

section
variable (env : LuaEnv) (timestamp : Int) (dpTypeIndexMap : Dict String (List Int))

/-- The body of the loop over the table of a point type. -/
def dataEntry (c : Channel) (updates : List Update) : LuaM (Bool × List Update) := do
  let index ← keyIndex env
  let meas ← readValue env c
  match dpTypeIndexMap.get? c.pointType with
  | none => do
    -- the key goes too, since the loop is left
    Lua.pop 2
    pure (false, updates)
  | some indexes =>
    if index ∈ indexes then do
      Lua.pop 1
      pure (true,
        updates ++ [{ meas := meas, quality := .online, time := timestamp, index := index }])
    else do
      Lua.pop 1
      pure (true, updates)

/-- The passage for a point type. It leaves what "data" has for the type on the stack. -/
def dataSection (c : Channel) (updates : List Update) : LuaLogM (List Update) := do
  LuaLog.run (Lua.pushString c.pointType)
  LuaLog.getTable 2
  let isTable ← LuaLog.run (Lua.isTable 1)
  if isTable then do
    LuaLog.run Lua.pushNil
    LuaLog.whileNext env
      (fun updates => LuaLog.run (dataEntry env timestamp dpTypeIndexMap c updates)) updates
  else pure updates

/-- The end of an invocation, with "data" on the stack and `nil` on top. -/
def applyData : LuaLogM (Option (List Update)) := do
  let any ← LuaLog.next env 2
  if any then do
    LuaLog.run (Lua.pop 2)
    let updates ← dataSection env timestamp dpTypeIndexMap .analog []
    LuaLog.run (Lua.pop 1)
    let updates ← dataSection env timestamp dpTypeIndexMap .counter updates
    LuaLog.run (Lua.pop 1)
    let updates ← dataSection env timestamp dpTypeIndexMap .binary updates
    LuaLog.run Lua.clear
    pure (some updates)
  else do
    LuaLog.run Lua.clear
    pure none

/-- The updates of the one `Apply`, if it comes to that. -/
def luaInvokeScript : LuaLogM (Option (List Update)) := do
  LuaLog.run (Lua.getGlobal "generate_data")
  LuaLog.run (Lua.call env 0 1)
  LuaLog.run (Lua.getGlobal "data")
  LuaLog.run Lua.pushNil
  applyData env timestamp dpTypeIndexMap

end

/-! ## What the invocation is for -/

/-- A value as the type of its point has it. -/
def asMeas (env : LuaEnv) : Channel → Double → Cpp Meas
  | .analog, v => .ok (.analog v)
  | .counter, v => v.toUInt32.map .counter
  | .binary, v => (v.toInt (-env.maxInteger - 1) env.maxInteger).map fun n => .binary (n != 0)

/-- All updates of an invocation have its timestamp. -/
def stamp (timestamp : Int) (_ : Int) : Cpp Int := .ok timestamp

/-! ## An entry -/

section
variable {env : LuaEnv} {timestamp : Int} {c : Channel} {k : Int} {v : Double} {meas : Meas}
variable {W : LuaWorld} {stack : List LuaValue}

theorem readValue_ok (h : asMeas env c v = .ok meas) :
    readValue env c ⟨W, .number v :: stack⟩ = .ok (meas, ⟨W, .number v :: stack⟩) := by
  cases c with
  | analog =>
    cases h
    rfl
  | counter =>
    obtain ⟨n, hn, rfl⟩ := Fallible.map_ok.mp h
    have hnum : Lua.toNumber env 1 ⟨W, .number v :: stack⟩ =
        .ok (v, ⟨W, .number v :: stack⟩) := rfl
    rw [readValue, Lua.bind_ok hnum, Lua.bind_ok (Lua.lift_ok hn _)]
    rfl
  | binary =>
    obtain ⟨n, hn, rfl⟩ := Fallible.map_ok.mp h
    exact Lua.bind_ok (Lua.toInteger_number rfl hn)

variable {dpTypeIndexMap : Dict String (List Int)}

/-- An entry of a configured type. -/
theorem dataEntry_some {indexes : List Int} (hmap : dpTypeIndexMap.get? c.pointType = some indexes)
    (hindexes : ∀ i ∈ indexes, Cpp.InInt i) (hk : Cpp.InInt k)
    (hfits : Fits env (asMeas env c) indexes k v) (updates : List Update) :
    dataEntry env timestamp dpTypeIndexMap c updates ⟨W, .number v :: intKey k :: stack⟩ =
      .ok ((true, updates ++
        (entryUpdate (asMeas env c) (stamp timestamp) indexes (intKey k, .number v)).toList),
        ⟨W, intKey k :: stack⟩) := by
  obtain ⟨meas, hmeas⟩ := hfits.meas
  rw [dataEntry, Lua.bind_ok (keyIndex_ok env hk hfits.min rfl), Lua.bind_ok (readValue_ok hmeas),
    hmap]
  dsimp only
  simp only [wrapInt_mem hindexes hk hfits.wrap]
  by_cases hstands : StandsFor indexes (intKey k)
  · have hindex : Cpp.wrapInt (k - 1) = k - 1 :=
      Cpp.wrapInt_of_inInt (hindexes _ (standsFor_intKey.mp hstands))
    have htime : stamp timestamp (k - 1) = .ok timestamp := rfl
    rw [if_pos hstands, entryUpdate_of_standsFor hstands hmeas htime, hindex]
    rfl
  · rw [if_neg hstands, entryUpdate_of_not hstands, Option.toList_none, List.append_nil]
    rfl

/-- An entry of a type that is not configured. -/
theorem dataEntry_none (hmap : dpTypeIndexMap.get? c.pointType = none) (hk : Cpp.InInt k)
    (hfits : Fits env (asMeas env c) [] k v) (updates : List Update) :
    dataEntry env timestamp dpTypeIndexMap c updates ⟨W, .number v :: intKey k :: stack⟩ =
      .ok ((false, updates), ⟨W, stack⟩) := by
  obtain ⟨meas, hmeas⟩ := hfits.meas
  rw [dataEntry, Lua.bind_ok (keyIndex_ok env hk hfits.min rfl), Lua.bind_ok (readValue_ok hmeas),
    hmap]
  rfl

end

/-! ## A passage -/

/-- The table that "data" has for a point type, if it has one. -/
def innerTable (W : LuaWorld) (t : LuaTable) (c : Channel) : Option (ℕ × LuaTable) :=
  match t.rawGet (.string c.pointType) with
  | .table ref => W.tables[ref]?.map fun inner => (ref, inner)
  | _ => none

theorem innerTable_eq_some {W : LuaWorld} {t inner : LuaTable} {c : Channel} {ref : ℕ} :
    innerTable W t c = some (ref, inner) ↔
      t.rawGet (.string c.pointType) = .table ref ∧ W.tables[ref]? = some inner := by
  unfold innerTable
  split
  · next ref' href =>
    simp only [href, LuaValue.table.injEq, Option.map_eq_some_iff, Prod.mk.injEq]
    constructor
    · rintro ⟨inner', hinner, rfl, rfl⟩
      exact ⟨rfl, hinner⟩
    · rintro ⟨rfl, hinner⟩
      exact ⟨inner, hinner, rfl, rfl⟩
  · next hother => exact iff_of_false (by rintro ⟨⟩) fun h => hother ref h.1

theorem innerTable_none {W : LuaWorld} {t : LuaTable} {c : Channel}
    (h : ∀ ref, t.rawGet (.string c.pointType) ≠ .table ref) : innerTable W t c = none := by
  unfold innerTable
  split
  · next ref href => exact absurd href (h ref)
  · rfl

/-- The updates for a point type, in the order of the traversal. -/
def typeUpdates (env : LuaEnv) (timestamp : Int) (indexes : List Int) (W : LuaWorld) (t : LuaTable)
    (c : Channel) : List Update :=
  match innerTable W t c with
  | none => []
  | some (_, inner) =>
    (env.traversal inner).filterMap (entryUpdate (asMeas env c) (stamp timestamp) indexes)

/-- The accesses for a point type: its name in "data", and, if a table is found there, its entries
from `nil` on, or only the first if no index of the type is configured. -/
def typeLog (env : LuaEnv) (indexes : Option (List Int)) (W : LuaWorld) (data : ℕ) (t : LuaTable)
    (c : Channel) : List LuaAccess :=
  ⟨data, .string c.pointType⟩ :: match innerTable W t c with
    | none => []
    | some (ref, inner) =>
      ⟨ref, .nil⟩ :: if indexes.isSome then (env.traversal inner).map fun p => ⟨ref, p.1⟩ else []

/-- What "data" has for a point type is no table, or one with `int` keys and numbers. -/
def IntTables (W : LuaWorld) (t : LuaTable) : Prop :=
  ∀ (c : Channel) ref, t.rawGet (.string c.pointType) = .table ref →
    ∃ inner, W.tables[ref]? = some inner ∧ IntKeyed inner

/-- Every entry that is read for a point type fits. -/
def TypeFits (env : LuaEnv) (indexes : Option (List Int)) (W : LuaWorld) (t : LuaTable)
    (c : Channel) : Prop :=
  ∀ ref inner, innerTable W t c = some (ref, inner) → ∀ k v,
    (intKey k, .number v) ∈ readEntries env indexes inner →
      Fits env (asMeas env c) (indexes.getD []) k v

/-! ### The loop -/

section
variable {env : LuaEnv} {timestamp : Int} {dpTypeIndexMap : Dict String (List Int)} {c : Channel}
variable {W : LuaWorld} {ref : ℕ} {inner : LuaTable}

theorem dataLoop_some {indexes : List Int}
    (hmap : dpTypeIndexMap.get? c.pointType = some indexes)
    (hindexes : ∀ i ∈ indexes, Cpp.InInt i) (hinner : W.tables[ref]? = some inner)
    (hkeys : IntKeyed inner) (hfits : ∀ k v, (intKey k, .number v) ∈ env.traversal inner →
      Fits env (asMeas env c) indexes k v)
    (stack : List LuaValue) (log : List LuaAccess) (updates : List Update) :
    LuaLog.whileNext env
        (fun updates => LuaLog.run (dataEntry env timestamp dpTypeIndexMap c updates)) updates
        ⟨⟨W, .nil :: .table ref :: stack⟩, log⟩ =
      .ok (updates ++ (env.traversal inner).filterMap
          (entryUpdate (asMeas env c) (stamp timestamp) indexes),
        ⟨⟨W, .table ref :: stack⟩,
          log ++ ⟨ref, .nil⟩ :: (env.traversal inner).map fun p => ⟨ref, p.1⟩⟩) := by
  have hperm := env.traversal_perm inner
  let add (s : List Update) (p : LuaValue × LuaValue) : List Update :=
    s ++ (entryUpdate (asMeas env c) (stamp timestamp) indexes p).toList
  refine (LuaLog.whileNext_ok hinner (g := add) ?_ updates).trans ?_
  · intro p hp s log
    obtain ⟨k, v, hk, rfl⟩ := hkeys p hp
    have hread := hfits k v (hperm.mem_iff.mpr hp)
    exact LuaLog.run_ok (dataEntry_some hmap hindexes hk hread s) log
  · rw [foldl_entryUpdate]

/-- Without an index of the type the loop stops at the first entry. -/
theorem dataLoop_none (hmap : dpTypeIndexMap.get? c.pointType = none)
    (hinner : W.tables[ref]? = some inner) (hkeys : IntKeyed inner)
    (hfits : ∀ k v, (intKey k, .number v) ∈ (env.traversal inner).take 1 →
      Fits env (asMeas env c) [] k v)
    (stack : List LuaValue) (log : List LuaAccess) (updates : List Update) :
    LuaLog.whileNext env
        (fun updates => LuaLog.run (dataEntry env timestamp dpTypeIndexMap c updates)) updates
        ⟨⟨W, .nil :: .table ref :: stack⟩, log⟩ =
      .ok (updates, ⟨⟨W, .table ref :: stack⟩, log ++ [⟨ref, .nil⟩]⟩) := by
  have hperm := env.traversal_perm inner
  cases hp : (env.traversal inner).head? with
  | none =>
    have hempty : env.traversal inner = [] := List.head?_eq_none_iff.mp hp
    have hentries : inner.entries.entries = [] := (hempty ▸ hperm).nil_eq.symm
    refine (LuaLog.whileNext_ok hinner (g := fun s _ => s) ?_ updates).trans ?_
    · rw [hentries]
      simp
    · rw [hempty]
      rfl
  | some p =>
    have hmem : p ∈ (env.traversal inner).take 1 := by
      obtain ⟨rest, hrest⟩ := List.head?_eq_some_iff.mp hp
      rw [hrest]
      exact List.mem_cons_self
    obtain ⟨k, v, hk, rfl⟩ := hkeys p (hperm.mem_iff.mp (List.mem_of_mem_head? hp))
    exact LuaLog.whileNext_break hinner hp
      (LuaLog.run_ok (dataEntry_none hmap hk (hfits k v hmem) updates) _)

/-- The loop over the table of a point type. -/
theorem dataLoop_ok (hindexes : ∀ i ∈ (dpTypeIndexMap.get? c.pointType).getD [], Cpp.InInt i)
    (hinner : W.tables[ref]? = some inner) (hkeys : IntKeyed inner)
    (hfits : ∀ k v,
      (intKey k, .number v) ∈ readEntries env (dpTypeIndexMap.get? c.pointType) inner →
      Fits env (asMeas env c) ((dpTypeIndexMap.get? c.pointType).getD []) k v)
    (stack : List LuaValue) (log : List LuaAccess) (updates : List Update) :
    LuaLog.whileNext env
        (fun updates => LuaLog.run (dataEntry env timestamp dpTypeIndexMap c updates)) updates
        ⟨⟨W, .nil :: .table ref :: stack⟩, log⟩ =
      .ok (updates ++ (env.traversal inner).filterMap
          (entryUpdate (asMeas env c) (stamp timestamp)
            ((dpTypeIndexMap.get? c.pointType).getD [])),
        ⟨⟨W, .table ref :: stack⟩, log ++ ⟨ref, .nil⟩ ::
          if (dpTypeIndexMap.get? c.pointType).isSome then
            (env.traversal inner).map fun p => ⟨ref, p.1⟩
          else []⟩) := by
  cases hmap : dpTypeIndexMap.get? c.pointType with
  | some indexes =>
    rw [hmap] at hindexes hfits
    exact dataLoop_some hmap hindexes hinner hkeys hfits stack log updates
  | none =>
    rw [hmap] at hfits
    have hnone : (env.traversal inner).filterMap
        (entryUpdate (asMeas env c) (stamp timestamp) []) = [] :=
      List.filterMap_eq_nil_iff.mpr fun p _ => entryUpdate_nil p
    rw [Option.getD_none, hnone, List.append_nil]
    exact dataLoop_none hmap hinner hkeys hfits stack log updates

end

theorem dataSection_ok {env : LuaEnv} (timestamp : Int) {dpTypeIndexMap : Dict String (List Int)}
    {c : Channel} {W : LuaWorld} {data : ℕ} {t : LuaTable}
    (hindexes : ∀ i ∈ (dpTypeIndexMap.get? c.pointType).getD [], Cpp.InInt i)
    (ht : W.tables[data]? = some t) (htables : IntTables W t)
    (hfits : TypeFits env (dpTypeIndexMap.get? c.pointType) W t c)
    (stack : List LuaValue) (log : List LuaAccess) (updates : List Update) :
    dataSection env timestamp dpTypeIndexMap c updates ⟨⟨W, .table data :: stack⟩, log⟩ =
      .ok (updates ++
          typeUpdates env timestamp ((dpTypeIndexMap.get? c.pointType).getD []) W t c,
        ⟨⟨W, t.rawGet (.string c.pointType) :: .table data :: stack⟩,
          log ++ typeLog env (dpTypeIndexMap.get? c.pointType) W data t c⟩) := by
  have hpush : Lua.pushString c.pointType ⟨W, .table data :: stack⟩ =
      .ok ((), ⟨W, .string c.pointType :: .table data :: stack⟩) := rfl
  rw [dataSection, LuaLog.bind_ok (LuaLog.run_ok hpush log),
    LuaLog.bind_ok (LuaLog.getTable_ok ht (.string c.pointType))]
  by_cases htable : ∃ ref, t.rawGet (.string c.pointType) = .table ref
  · obtain ⟨ref, href⟩ := htable
    obtain ⟨inner, hinner, hkeys⟩ := htables c ref href
    have hfound := innerTable_eq_some.mpr ⟨href, hinner⟩
    have hnil : Lua.pushNil ⟨W, .table ref :: .table data :: stack⟩ =
        .ok ((), ⟨W, .nil :: .table ref :: .table data :: stack⟩) := rfl
    have hread := hfits ref inner hfound
    rw [href, LuaLog.bind_ok (LuaLog.run_ok (Lua.isTable_true ref) _), if_pos rfl,
      LuaLog.bind_ok (LuaLog.run_ok hnil _), dataLoop_ok hindexes hinner hkeys hread, typeUpdates,
      typeLog, hfound]
    simp only [List.append_assoc, List.singleton_append]
  · have hother : ∀ ref, t.rawGet (.string c.pointType) ≠ .table ref := not_exists.mp htable
    rw [LuaLog.bind_ok (LuaLog.run_ok (Lua.isTable_false hother) _), if_neg (by decide),
      typeUpdates, typeLog, innerTable_none hother, List.append_nil]
    rfl

/-! ## The whole invocation -/

/-- The script runs, and leaves a table in the global "data". -/
structure LeavesData (env : LuaEnv) (W W' : LuaWorld) (data : ℕ) (t : LuaTable) : Prop where
  call : ∃ f results, W.globals.get? "generate_data" = some (.function f) ∧
    env.callFunction f [] W = .ok (results, W')
  global : W'.globals.get? "data" = some (.table data)
  table : W'.tables[data]? = some t

/-- The accesses of an invocation: a look whether "data" is empty, and then the point types in the
order of the passages. -/
def dataLog (env : LuaEnv) (dpTypeIndexMap : Dict String (List Int)) (W : LuaWorld) (data : ℕ)
    (t : LuaTable) : List LuaAccess :=
  ⟨data, .nil⟩ :: if t.entries.entries = [] then [] else
    [Channel.analog, .counter, .binary].flatMap fun c =>
      typeLog env (dpTypeIndexMap.get? c.pointType) W data t c

/-- The entries for a point type whose keys stand for configured indexes. -/
def configuredEntries (env : LuaEnv) (indexes : List Int) (W : LuaWorld) (t : LuaTable)
    (c : Channel) : List (LuaValue × LuaValue) :=
  match innerTable W t c with
  | none => []
  | some (_, inner) => (env.traversal inner).filter fun p => StandsFor indexes p.1

section
variable {env : LuaEnv} {timestamp : Int} {W W' : LuaWorld} {data : ℕ} {t : LuaTable}

/-- A point type gets one update for each entry that stands for a configured index. -/
theorem typeUpdates_forall₂ {c : Channel} {indexes : Option (List Int)}
    (htables : IntTables W t) (hfits : TypeFits env indexes W t c) :
    List.Forall₂ (IsUpdate (asMeas env c) (stamp timestamp))
      (configuredEntries env (indexes.getD []) W t c)
      (typeUpdates env timestamp (indexes.getD []) W t c) := by
  unfold configuredEntries typeUpdates
  cases hinner : innerTable W t c with
  | none => exact .nil
  | some found =>
    obtain ⟨ref, inner⟩ := found
    obtain ⟨href, hget⟩ := innerTable_eq_some.mp hinner
    obtain ⟨inner', hget', hkeys⟩ := htables c ref href
    cases hget.symm.trans hget'
    have hperm := env.traversal_perm inner
    refine entryUpdates_forall₂ fun p hp => ?_
    obtain ⟨k, v, hk, rfl⟩ := hkeys p (hperm.mem_iff.mp hp)
    refine ⟨k, v, rfl, fun hstands => ⟨?_, timestamp, rfl⟩⟩
    exact (hfits ref inner hinner k v (mem_readEntries hp hstands)).meas

/-- An invocation returns with the stack empty and each access made to the table and with the key
it is meant for. It applies once if "data" has an entry, and then one update for each configured
key of each point type. -/
def Applies (env : LuaEnv) (timestamp : Int) (dpTypeIndexMap : Dict String (List Int))
    (W W' : LuaWorld) (data : ℕ) (t : LuaTable) : Prop :=
  ∀ stack log, ∃ applied,
    luaInvokeScript env timestamp dpTypeIndexMap ⟨⟨W, stack⟩, log⟩ =
      .ok (applied, ⟨⟨W', []⟩, log ++ dataLog env dpTypeIndexMap W' data t⟩) ∧
    (applied = none ↔ t.entries.entries = []) ∧
    ∀ updates ∈ applied, ∃ part : Channel → List Update,
      updates = part .analog ++ part .counter ++ part .binary ∧
      ∀ c, List.Forall₂ (IsUpdate (asMeas env c) (stamp timestamp))
        (configuredEntries env ((dpTypeIndexMap.get? c.pointType).getD []) W' t c) (part c)

/-- The end of an invocation, where "data" is empty. -/
theorem applyData_empty {dpTypeIndexMap : Dict String (List Int)} (ht : W.tables[data]? = some t)
    (hempty : t.entries.entries = []) (stack : List LuaValue) (log : List LuaAccess) :
    applyData env timestamp dpTypeIndexMap ⟨⟨W, .nil :: .table data :: stack⟩, log⟩ =
      .ok (none, ⟨⟨W, []⟩, log ++ dataLog env dpTypeIndexMap W data t⟩) := by
  have hnil : env.traversal t = [] := (hempty ▸ env.traversal_perm t).eq_nil
  have hsucc : Lua.successor (env.traversal t) .nil = .ok none := by rw [hnil]; rfl
  rw [applyData, LuaLog.bind_ok (LuaLog.next_ok ht (Lua.next_none ht hsucc)), if_neg (by decide),
    LuaLog.bind_ok (LuaLog.run_ok (Lua.clear_ok _) _), dataLog, if_pos hempty]
  rfl

/-- The end of an invocation, where "data" has an entry: the three passages. -/
theorem applyData_ok {dpTypeIndexMap : Dict String (List Int)}
    (hindexes : ∀ c : Channel, ∀ i ∈ (dpTypeIndexMap.get? c.pointType).getD [], Cpp.InInt i)
    (ht : W.tables[data]? = some t) (hentries : t.entries.entries ≠ []) (htables : IntTables W t)
    (hfits : ∀ c : Channel, TypeFits env (dpTypeIndexMap.get? c.pointType) W t c)
    (stack : List LuaValue) (log : List LuaAccess) :
    applyData env timestamp dpTypeIndexMap ⟨⟨W, .nil :: .table data :: stack⟩, log⟩ =
      .ok (some ([Channel.analog, .counter, .binary].flatMap fun c =>
          typeUpdates env timestamp ((dpTypeIndexMap.get? c.pointType).getD []) W t c),
        ⟨⟨W, []⟩, log ++ dataLog env dpTypeIndexMap W data t⟩) := by
  have hsucc := Lua.successor_nil (env.traversal t)
  have hperm := env.traversal_perm t
  cases hp : (env.traversal t).head? with
  | none => exact absurd (List.head?_eq_none_iff.mp hp ▸ hperm).nil_eq.symm hentries
  | some p =>
    rw [hp] at hsucc
    have hpop : Lua.pop 2 ⟨W, p.2 :: p.1 :: .table data :: stack⟩ =
        .ok ((), ⟨W, .table data :: stack⟩) := by simp [Lua.pop]
    have hdrop (v : LuaValue) : Lua.pop 1 ⟨W, v :: .table data :: stack⟩ =
        .ok ((), ⟨W, .table data :: stack⟩) := by simp [Lua.pop]
    have hpassage (c : Channel) :=
      dataSection_ok timestamp (hindexes c) ht htables (hfits c) stack
    rw [applyData, LuaLog.bind_ok (LuaLog.next_ok ht (Lua.next_some ht hsucc)), if_pos rfl,
      LuaLog.bind_ok (LuaLog.run_ok hpop _),
      LuaLog.bind_ok (hpassage .analog _ []),
      LuaLog.bind_ok (LuaLog.run_ok (hdrop _) _),
      LuaLog.bind_ok (hpassage .counter _ _),
      LuaLog.bind_ok (LuaLog.run_ok (hdrop _) _),
      LuaLog.bind_ok (hpassage .binary _ _),
      LuaLog.bind_ok (LuaLog.run_ok (Lua.clear_ok _) _), dataLog, if_neg hentries]
    show Except.ok _ = Except.ok _
    simp

/-- An invocation up to the look at "data". -/
theorem luaInvokeScript_eq {dpTypeIndexMap : Dict String (List Int)}
    (h : LeavesData env W W' data t) (stack : List LuaValue) (log : List LuaAccess) :
    ∃ below, luaInvokeScript env timestamp dpTypeIndexMap ⟨⟨W, stack⟩, log⟩ =
      applyData env timestamp dpTypeIndexMap ⟨⟨W', .nil :: .table data :: below⟩, log⟩ := by
  obtain ⟨f, results, hf, hcall⟩ := h.call
  let below := (Lua.adjust 1 results).reverse ++ stack
  have hfun : Lua.getGlobal "generate_data" ⟨W, stack⟩ = .ok ((), ⟨W, .function f :: stack⟩) := by
    simp [Lua.getGlobal, Lua.push, hf]
  have hinvoke : Lua.call env 0 1 ⟨W, .function f :: stack⟩ = .ok ((), ⟨W', below⟩) := by
    simp [Lua.call, hcall, below, bind, Except.bind]
  have hdata : Lua.getGlobal "data" ⟨W', below⟩ = .ok ((), ⟨W', .table data :: below⟩) := by
    simp [Lua.getGlobal, Lua.push, h.global]
  have hnil : Lua.pushNil ⟨W', .table data :: below⟩ =
      .ok ((), ⟨W', .nil :: .table data :: below⟩) := rfl
  refine ⟨below, ?_⟩
  rw [luaInvokeScript, LuaLog.bind_ok (LuaLog.run_ok hfun log),
    LuaLog.bind_ok (LuaLog.run_ok hinvoke log), LuaLog.bind_ok (LuaLog.run_ok hdata log),
    LuaLog.bind_ok (LuaLog.run_ok hnil log)]

/-- **Data generation.** An invocation applies the configured points where every entry that is read
fits its conversions. -/
theorem generateData_applies {dpTypeIndexMap : Dict String (List Int)}
    (hindexes : ∀ c : Channel, ∀ i ∈ (dpTypeIndexMap.get? c.pointType).getD [], Cpp.InInt i)
    (h : LeavesData env W W' data t) (htables : IntTables W' t)
    (hfits : ∀ c : Channel, TypeFits env (dpTypeIndexMap.get? c.pointType) W' t c) :
    Applies env timestamp dpTypeIndexMap W W' data t := by
  intro stack log
  obtain ⟨below, hinvoke⟩ := luaInvokeScript_eq h stack log
  rw [hinvoke]
  by_cases hempty : t.entries.entries = []
  · exact ⟨none, applyData_empty h.table hempty below log, iff_of_true rfl hempty, by rintro _ ⟨⟩⟩
  · refine ⟨_, applyData_ok hindexes h.table hempty htables hfits below log,
      iff_of_false (Option.some_ne_none _) hempty, ?_⟩
    rintro updates ⟨⟩
    refine ⟨fun c => typeUpdates env timestamp ((dpTypeIndexMap.get? c.pointType).getD []) W' t c,
      by simp, fun c => typeUpdates_forall₂ htables (hfits c)⟩

end

/-! ## Data with two tables -/

/-- `function generate_data() return data end` -/
def generateEnv : LuaEnv := plainEnv true fun _ _ W => .ok ([.table 0], W)

/-- Two analog values and two counters; there is no table of binary values. -/
def twoTables : LuaTable where
  entries := ⟨[(.string "Analog Input", .table 1), (.string "Counter", .table 2)], by decide⟩
  nil_notMem := by decide

def analogTable : LuaTable := intTable [(3, .fin 7), (1, .fin (5 / 2))] (by decide)

def counterTable : LuaTable := intTable [(1, .fin 4), (9, .fin 6)] (by decide)

def twoTablesWorld : LuaWorld where
  globals := ⟨[("generate_data", .function 0), ("data", .table 0)], by decide⟩
  tables := [twoTables, analogTable, counterTable]

/-- Both analog keys are configured, and one of the counters. -/
def threeTypes : Dict String (List Int) :=
  ⟨[("Analog Input", [0, 2]), ("Binary Input", [1]), ("Counter", [0])], by decide⟩

theorem innerTable_twoTables (c : Channel) :
    innerTable twoTablesWorld twoTables c = match c with
      | .analog => some (1, analogTable)
      | .counter => some (2, counterTable)
      | .binary => none := by
  cases c <;> decide +kernel

theorem intTables_twoTables : IntTables twoTablesWorld twoTables := by
  intro c ref href
  cases c with
  | analog =>
    cases href
    exact ⟨analogTable, rfl, intKeyed_intTable (by decide)⟩
  | counter =>
    cases href
    exact ⟨counterTable, rfl, intKeyed_intTable (by decide)⟩
  | binary => cases href

theorem typeFits_intTable {env : LuaEnv} {W : LuaWorld} {t : LuaTable} {c : Channel} {ref : ℕ}
    {es : List (Int × Double)} {hes : (es.map Prod.fst).Nodup} {indexes : Option (List Int)}
    (hinner : innerTable W t c = some (ref, intTable es hes))
    (hfits : ∀ e ∈ es, Fits env (asMeas env c) (indexes.getD []) e.1 e.2) :
    TypeFits env indexes W t c := by
  intro ref' inner' hinner' k v hread
  cases hinner.symm.trans hinner'
  obtain ⟨e, he, heq⟩ := mem_intTable.mp (mem_of_mem_readEntries hread)
  obtain ⟨hk, hv⟩ := Prod.mk.inj heq
  cases intKey_inj hk
  cases hv
  exact hfits e he

theorem generateData_applies_two_tables :
    Applies generateEnv 0 threeTypes twoTablesWorld twoTablesWorld 0 twoTables := by
  refine generateData_applies (fun c => by cases c <;> decide) ⟨⟨0, [.table 0], rfl, rfl⟩, rfl, rfl⟩
    intTables_twoTables fun c => ?_
  cases c with
  | analog =>
    refine typeFits_intTable (innerTable_twoTables .analog) fun e he => ?_
    obtain rfl | rfl : e = (3, .fin 7) ∨ e = (1, .fin (5 / 2)) := by simpa using he
    · exact ⟨by decide, by decide, .analog (.fin 7), rfl⟩
    · exact ⟨by decide, by decide, .analog (.fin (5 / 2)), rfl⟩
  | counter =>
    refine typeFits_intTable (innerTable_twoTables .counter) fun e he => ?_
    obtain rfl | rfl : e = (1, .fin 4) ∨ e = (9, .fin 6) := by simpa using he
    · exact ⟨by decide, by decide, .counter 4, by decide +kernel⟩
    · exact ⟨by decide, by decide, .counter 6, by decide +kernel⟩
  | binary =>
    intro ref inner hinner
    cases (innerTable_twoTables .binary).symm.trans hinner

/-! ## Data with one entry -/

/-- "data" with a table for one point type. -/
def oneTable (c : Channel) : LuaTable := oneEntry (.string c.pointType) (.table 1) nofun

def oneEntryWorld (c : Channel) (k : Int) (v : Double) : LuaWorld where
  globals := ⟨[("generate_data", .function 0), ("data", .table 0)], by decide⟩
  tables := [oneTable c, intEntry k v]

def oneIndex (c : Channel) (i : Int) : Dict String (List Int) :=
  ⟨[(c.pointType, [i])], List.nodup_singleton _⟩

section
variable (c : Channel) (k : Int) (v : Double)

theorem leavesData_oneEntry : LeavesData generateEnv (oneEntryWorld c k v) (oneEntryWorld c k v) 0
    (oneTable c) :=
  ⟨⟨0, [.table 0], rfl, rfl⟩, rfl, rfl⟩

theorem rawGet_oneTable (d : Channel) :
    (oneTable c).rawGet (.string d.pointType) = if d = c then .table 1 else .nil := by
  cases c <;> cases d <;> decide

theorem intTables_oneEntry (hk : Cpp.InInt k) : IntTables (oneEntryWorld c k v) (oneTable c) := by
  intro d ref h
  rw [rawGet_oneTable] at h
  split at h
  · cases h
    exact ⟨_, rfl, intKeyed_intEntry hk v⟩
  · cases h

end

/-- The script leaves "data" with the entry `k`, `v` for the type, and what is applied is not what
belongs to the index `i`. -/
def Misapplied (c : Channel) (k : Int) (v : Double) (i : Int) : Prop :=
  LeavesData generateEnv (oneEntryWorld c k v) (oneEntryWorld c k v) 0 (oneTable c) ∧
    IntTables (oneEntryWorld c k v) (oneTable c) ∧
    ¬ Applies generateEnv 0 (oneIndex c i) (oneEntryWorld c k v) (oneEntryWorld c k v) 0
      (oneTable c)

theorem misapplied_of_stop {c : Channel} {k : Int} {v : Double} {i : Int} (hk : Cpp.InInt k)
    (hstop : (luaInvokeScript generateEnv 0 (oneIndex c i)
      ⟨⟨oneEntryWorld c k v, []⟩, []⟩).toBool = false) : Misapplied c k v i := by
  refine ⟨leavesData_oneEntry c k v, intTables_oneEntry c k v hk, fun happlies => ?_⟩
  obtain ⟨applied, hrun, -⟩ := happlies [] []
  rw [hrun] at hstop
  cases hstop

/-- No key stands for an index, and yet it gets an update. -/
theorem misapplied_of_update {c : Channel} {k : Int} {v : Double} {i : Int} {u : Update}
    (hk : Cpp.InInt k) (hupdate : (luaInvokeScript generateEnv 0 (oneIndex c i)
      ⟨⟨oneEntryWorld c k v, []⟩, []⟩).map Prod.fst = .ok (some [u]))
    (hnone : ∀ d : Channel, configuredEntries generateEnv
      (((oneIndex c i).get? d.pointType).getD []) (oneEntryWorld c k v) (oneTable c) d = []) :
    Misapplied c k v i := by
  refine ⟨leavesData_oneEntry c k v, intTables_oneEntry c k v hk, fun happlies => ?_⟩
  obtain ⟨applied, hrun, -, hparts⟩ := happlies [] []
  rw [hrun] at hupdate
  cases Except.ok.inj hupdate
  obtain ⟨part, heq, hall⟩ := hparts _ rfl
  have hempty (d : Channel) : part d = [] := by
    have hd := hall d
    rw [hnone d] at hd
    exact List.forall₂_nil_left_iff.mp hd
  rw [hempty, hempty, hempty] at heq
  cases heq

/-- A counter below zero, a binary value that is no `lua_Integer`, and the smallest `int` as the key
of an index that it wraps around to. -/
theorem generateData_not_applies :
    Misapplied .counter 1 (.fin (-1)) 0 ∧ Misapplied .binary 1 (.inf false) 0 ∧
      Misapplied .analog (-2147483648) .zero 2147483647 := by
  refine ⟨misapplied_of_stop (by decide) ?_, misapplied_of_stop (by decide) ?_,
    misapplied_of_update (u := ⟨.analog .zero, .online, 0, 2147483647⟩) (by decide) ?_ ?_⟩
  · decide +kernel
  · decide +kernel
  · decide +kernel
  · intro d
    cases d <;> decide +kernel

end OutStation
end IcsTrafficGen.Dnp3
