import IcsTrafficGen.Lib.Lua
import IcsTrafficGen.Dnp3.CfgJsonParser
import IcsTrafficGen.Dnp3.MultiplexerRuns

/- `MappingOutstation::injectDataChanges`: the pass of an outstation with a Lua script.
   It copies the cells of a flagged source as `passThruDataChanges` does, and then hands
   the whole out array of the channel to the script and publishes the table that the
   script leaves, as far as its indexes are configured. `luaInvokeScript_ok` says what
   that is for a script that leaves the table it was given. -/
namespace IcsTrafficGen.Dnp3

/-! ## `ConfigureDatabase` -/

/-- The point types whose indexes `ConfigureDatabase` records. -/
def recordedTypes : List String :=
  ["Analog Input", "Binary Input", "Double Binary Input", "Counter", "Frozen Counter"]

/-- `dpTypeIndexMap`; the sets are only asked for members. -/
def dpTypeIndexMap (node : Node) : Dict String (List Int) :=
  node.dataPoints.foldl
    (fun d dp =>
      if dp.pointType ∈ recordedTypes then
        d.insert dp.pointType (dp.index :: (d.get? dp.pointType).getD [])
      else d) .empty

/-! ## The scripts -/

def Channel.modifyFunction : Channel → String
  | .analog => "modify_analog"
  | .binary => "modify_binary"
  | .counter => "modify_counter"

def Channel.dataTable : Channel → String
  | .analog => "analog_data"
  | .binary => "binary_data"
  | .counter => "counter_data"

/-- The value of an out cell for the script: `lua_pushnumber` or, converted to
`lua_Integer`, `lua_pushinteger`. -/
def pushCell (env : LuaEnv) : Channel → Double → LuaM Unit
  | .analog, v => Lua.pushNumber v
  | .binary, v | .counter, v => do
    let n ← Lua.lift (v.toInt (-env.maxInteger - 1) env.maxInteger)
    Lua.pushInteger n

/-- `int index = lua_tointeger(L, -2)-1;` -/
def keyIndex (env : LuaEnv) : LuaM Int := do
  let key ← Lua.toInteger env 2
  let n ← Lua.lift (Lua.subInteger env key 1)
  pure (Cpp.wrapInt n)

/-- The value at the index -1, as the measurement type of the channel. -/
def readCell (env : LuaEnv) : Channel → LuaM Meas
  | .analog => do
    let d ← Lua.toNumber env 1
    pure (.analog d)
  | .binary => do
    let n ← Lua.toInteger env 1
    pure (.binary (n != 0))
  | .counter => do
    let n ← Lua.toInteger env 1
    pure (.counter (.ofInt n))

namespace MappingOutstation

/-- One pass of the loop that fills the table at the index -1. -/
def pushOutCell (env : LuaEnv) (c : Channel) (cell : Dnp3Point × ℕ) : LuaM Unit := do
  let key ← Lua.lift (Cpp.addInt cell.2 1)
  Lua.pushInteger key
  pushCell env c cell.1.value
  Lua.setTable 3

def pushOutValues (env : LuaEnv) (c : Channel) : List (Dnp3Point × ℕ) → LuaM Unit
  | [] => pure ()
  | cell :: cells => do
    pushOutCell env c cell
    pushOutValues env c cells

/-- The update for an index that is configured; its timestamp is that of the out cell. -/
def publishCell (c : Channel) (m : MappingOutstation) (index : Int) (meas : Meas)
    (updates : List Update) : LuaM (Bool × List Update) := do
  let pt ← Lua.lift (Cpp.vecGet (m.outValues c) index)
  Lua.pop 1
  pure (true, updates ++ [{ meas := meas, quality := .online, time := pt.timestamp, index := index }])

/-- The body of the loop over the table of the script. -/
def publishEntry (env : LuaEnv) (c : Channel) (m : MappingOutstation) (updates : List Update) :
    LuaM (Bool × List Update) := do
  let index ← keyIndex env
  let meas ← readCell env c
  -- `break` without a map of the type, `continue` without the index in it
  match (dpTypeIndexMap m.node).get? c.pointType with
  | none => pure (false, updates)
  | some indexes =>
    if index ∈ indexes then publishCell c m index meas updates
    else do
      Lua.pop 1
      pure (true, updates)

/-- The end of a script's invocation, with its table on the stack and `nil` on top. -/
def publishTable (env : LuaEnv) (c : Channel) (m : MappingOutstation) : LuaM MappingOutstation := do
  let any ← Lua.next env 2
  if any then do
    -- only a look whether there is an entry; the loop starts again from `nil`
    Lua.pop 2
    Lua.pushNil
    let updates ← Lua.whileNext env (publishEntry env c m) []
    Lua.clear
    pure { m with applied := m.applied ++ updates }
  else do
    Lua.clear
    pure m

def luaInvokeScript (env : LuaEnv) (c : Channel) (m : MappingOutstation) :
    LuaM MappingOutstation := do
  Lua.getGlobal c.modifyFunction
  Lua.newTable
  pushOutValues env c (m.outValues c).zipIdx
  Lua.call env 1 1
  Lua.getGlobal c.dataTable
  Lua.pushNil
  publishTable env c m

def luaInvokeAnalogScript (env : LuaEnv) : MappingOutstation → LuaM MappingOutstation :=
  luaInvokeScript env .analog

def luaInvokeBinaryScript (env : LuaEnv) : MappingOutstation → LuaM MappingOutstation :=
  luaInvokeScript env .binary

def luaInvokeCounterScript (env : LuaEnv) : MappingOutstation → LuaM MappingOutstation :=
  luaInvokeScript env .counter

/-! ## `injectDataChanges` -/

def injectAnalog (env : LuaEnv) (source : String × List MappedDataPoint) (m : MappingOutstation) :
    LuaM MappingOutstation :=
  if m.flag .analog source.1 then do
    let m ← Lua.lift (copyPoints .analog source.1 source.2 m)
    luaInvokeAnalogScript env m
  else pure m

def injectBinary (env : LuaEnv) (source : String × List MappedDataPoint) (m : MappingOutstation) :
    LuaM MappingOutstation :=
  if m.flag .binary source.1 then do
    let m ← Lua.lift (copyPoints .binary source.1 source.2 m)
    luaInvokeBinaryScript env m
  else pure m

def copyCounters (source : String × List MappedDataPoint) (m : MappingOutstation) :
    Cpp MappingOutstation :=
  if m.flag .counter source.1 then copyPoints .counter source.1 source.2 m else pure m

/-- The script is invoked whether the flag is up or not. -/
def injectCounter (env : LuaEnv) (source : String × List MappedDataPoint) (m : MappingOutstation) :
    LuaM MappingOutstation := do
  let m ← Lua.lift (copyCounters source m)
  luaInvokeCounterScript env m

def injectSource (env : LuaEnv) (m : MappingOutstation) (source : String × List MappedDataPoint) :
    LuaM MappingOutstation := do
  let m ← injectAnalog env source m
  let m ← injectBinary env source m
  injectCounter env source m

def injectDataChanges (env : LuaEnv) (m : MappingOutstation) : LuaM MappingOutstation :=
  m.node.dataSources.entries.foldlM (injectSource env) m

end MappingOutstation

/-! ## One cell through the script -/

/-- The values that the script gets and gives back unchanged: any analog value, binary
values 0 and 1, and counter values below 2 ^ 31. -/
def Plain : Channel → Double → Prop
  | .analog, _ => True
  | .binary, v => ∃ b, v = .ofBool b
  | .counter, v => ∃ n : UInt32, n.toNat < 2 ^ 31 ∧ v = .ofUInt32 n

theorem Plain.meas {c : Channel} {v : Double} (h : Plain c v) : ∃ meas, c.meas v = .ok meas := by
  cases c with
  | analog => exact ⟨.analog v, rfl⟩
  | binary => exact ⟨.binary v.toBool, rfl⟩
  | counter =>
    obtain ⟨n, -, rfl⟩ := h
    exact ⟨.counter n, Fallible.bind_ok.mpr ⟨n, Double.toUInt32_ofUInt32 n, rfl⟩⟩

/-- A plain value that is not analog is a small natural number. -/
theorem Plain.natural {c : Channel} {v : Double} (h : Plain c v) (hc : c ≠ .analog) :
    ∃ n : ℕ, n < 2 ^ 31 ∧ v = .fin ((n : Int) : ℚ) := by
  cases c with
  | analog => exact absurd rfl hc
  | binary =>
    obtain ⟨b, rfl⟩ := h
    cases b
    · exact ⟨0, by omega, by simp [Double.ofBool]⟩
    · exact ⟨1, by omega, by simp [Double.ofBool]⟩
  | counter =>
    obtain ⟨n, hn, rfl⟩ := h
    exact ⟨n.toNat, hn, by simp [Double.ofUInt32]⟩

/-- What the script gets for the value of an out cell. -/
def cellNumber (env : LuaEnv) : Channel → Double → Cpp Double
  | .analog, v => .ok v
  | .binary, v | .counter, v => (v.toInt (-env.maxInteger - 1) env.maxInteger).map .ofInt

/-- What the program reads from a value that the script leaves. -/
def asCell (env : LuaEnv) : Channel → Double → Cpp Meas
  | .analog, v => .ok (.analog v)
  | .binary, v => (v.toInt (-env.maxInteger - 1) env.maxInteger).map fun n => .binary (n != 0)
  | .counter, v => (v.toInt (-env.maxInteger - 1) env.maxInteger).map fun n => .counter (.ofInt n)

theorem pushCell_ok {env : LuaEnv} {c : Channel} {v d : Double} (h : cellNumber env c v = .ok d)
    (L : Lua) : pushCell env c v L = .ok ((), { L with stack := .number d :: L.stack }) := by
  cases c with
  | analog =>
    cases h
    rfl
  | binary | counter =>
    obtain ⟨n, hn, rfl⟩ := Fallible.map_ok.mp h
    exact Lua.bind_ok (Lua.lift_ok hn L)

theorem readCell_ok {env : LuaEnv} {c : Channel} {v : Double} {meas : Meas}
    (h : asCell env c v = .ok meas) (W : LuaWorld) (stack : List LuaValue) :
    readCell env c ⟨W, .number v :: stack⟩ = .ok (meas, ⟨W, .number v :: stack⟩) := by
  have htop : Lua.valueAt 1 ⟨W, .number v :: stack⟩ = .ok (.number v) := rfl
  cases c with
  | analog =>
    cases h
    rfl
  | binary | counter =>
    obtain ⟨n, hn, rfl⟩ := Fallible.map_ok.mp h
    exact Lua.bind_ok (Lua.toInteger_number htop hn)

/-- A small natural number as a `lua_Integer`. -/
theorem toInt_natural (env : LuaEnv) {n : ℕ} (hn : n < 2 ^ 31) :
    (Double.fin ((n : Int) : ℚ)).toInt (-env.maxInteger - 1) env.maxInteger = .ok n := by
  have hmax := env.maxInteger_ge
  exact Double.toInt_intCast (by omega)

theorem Plain.cellNumber (env : LuaEnv) {c : Channel} {v : Double} (h : Plain c v) :
    cellNumber env c v = .ok v := by
  cases c with
  | analog => rfl
  | binary | counter =>
    obtain ⟨n, hn, rfl⟩ := h.natural nofun
    refine Fallible.map_ok.mpr ⟨n, toInt_natural env hn, ?_⟩
    exact Double.ofInt_of_lt (by omega)

/-- Reading a plain value back gives its measurement. -/
theorem Plain.asCell (env : LuaEnv) {c : Channel} {v : Double} {meas : Meas} (h : Plain c v)
    (hmeas : c.meas v = .ok meas) : asCell env c v = .ok meas := by
  cases c with
  | analog => exact hmeas
  | binary =>
    obtain ⟨b, rfl⟩ := h
    cases hmeas
    have hv : Double.ofBool b = .fin (((b.toNat : ℕ) : Int) : ℚ) := by
      cases b <;> simp [Double.ofBool]
    refine Fallible.map_ok.mpr ⟨b.toNat, hv ▸ toInt_natural env (by cases b <;> decide), ?_⟩
    cases b <;> rfl
  | counter =>
    obtain ⟨n, hn, rfl⟩ := h
    obtain ⟨k, hk, hmeas⟩ := Fallible.bind_ok.mp hmeas
    cases (Double.toUInt32_ofUInt32 n).symm.trans hk
    cases hmeas
    have hv : Double.ofUInt32 n = .fin ((n.toNat : Int) : ℚ) := by simp [Double.ofUInt32]
    have hwrap : UInt32.ofInt n.toNat = n := by
      have hlt : (n.toNat : Int) < 2 ^ 32 := by omega
      rw [UInt32.ofInt, Int.emod_eq_of_lt (Int.natCast_nonneg _) hlt, Int.toNat_natCast,
        UInt32.ofNat_toNat]
    exact Fallible.map_ok.mpr ⟨n.toNat, hv ▸ toInt_natural env hn, congrArg Meas.counter hwrap⟩

theorem toInteger_ok (env : LuaEnv) {n : Int} (hn : Cpp.InInt n) {k : ℕ} {L : Lua}
    (hk : Lua.valueAt k L = .ok (.number (.fin (n : ℚ)))) :
    Lua.toInteger env k L = .ok (n, L) := by
  unfold Cpp.InInt at hn
  have hmax := env.maxInteger_ge
  exact Lua.toInteger_number hk (Double.toInt_intCast (by omega))

/-- The index of an `int` key: one less, unless that is no `lua_Integer`. -/
theorem keyIndex_ok (env : LuaEnv) {k : Int} (hk : Cpp.InInt k) (hmin : -env.maxInteger ≤ k)
    {L : Lua} (hkey : Lua.valueAt 2 L = .ok (.number (.fin (k : ℚ)))) :
    keyIndex env L = .ok (Cpp.wrapInt (k - 1), L) := by
  have hsub : Lua.subInteger env k 1 = .ok (k - 1) := by
    unfold Cpp.InInt at hk
    have hmax := env.maxInteger_ge
    exact Lua.subInteger_ok (by omega)
  rw [keyIndex, Lua.bind_ok (toInteger_ok env hk hkey), Lua.bind_ok (Lua.lift_ok hsub L)]
  rfl

/-! ## The table for the script -/

/-- The key of the out cell `i`. -/
def luaKey (i : ℕ) : LuaValue := .number (.fin (((i : Int) + 1 : Int) : ℚ))

def cellEntry (p : Dnp3Point × ℕ) : LuaValue × LuaValue := (luaKey p.2, .number p.1.value)

theorem luaKey_inj {i j : ℕ} (h : luaKey i = luaKey j) : i = j := by
  simp only [luaKey, LuaValue.number.injEq, Double.fin.injEq, Int.cast_inj] at h
  omega

theorem rawSet_luaKey (t : LuaTable) (i : ℕ) (v : Double) : ∃ t' : LuaTable,
    t.rawSet (luaKey i) (.number v) = .ok t' ∧ t'.entries = t.entries.set (luaKey i) (.number v) :=
  ⟨_, rfl, rfl⟩

theorem setTable_ok {W : LuaWorld} {ref : ℕ} {t : LuaTable} (ht : W.tables[ref]? = some t) (i : ℕ)
    (v : Double) (stack : List LuaValue) : ∃ t' : LuaTable,
    t'.entries = t.entries.set (luaKey i) (.number v) ∧
    Lua.setTable 3 ⟨W, .number v :: luaKey i :: .table ref :: stack⟩ =
      .ok ((), ⟨{ W with tables := W.tables.set ref t' }, .table ref :: stack⟩) := by
  obtain ⟨t', hset, hentries⟩ := rawSet_luaKey t i v
  refine ⟨t', hentries, ?_⟩
  have htable : Lua.tableAt .throws 3 ⟨W, .number v :: luaKey i :: .table ref :: stack⟩ =
      .ok (ref, t) := by
    simp [Lua.tableAt, Lua.valueAt, bind, Except.bind, ht]
  simp only [Lua.setTable, htable, hset, bind, Except.bind]

namespace MappingOutstation

/-- The loop leaves one entry for each cell. -/
theorem pushOutValues_ok {env : LuaEnv} {c : Channel} {number : Dnp3Point × ℕ → Double}
    {cells : List (Dnp3Point × ℕ)} (hcells : ∀ p ∈ cells, p.2 < 2147483647 ∧
      cellNumber env c p.1.value = .ok (number p)) {W : LuaWorld} {ref : ℕ}
    {t : LuaTable} (ht : W.tables[ref]? = some t) (stack : List LuaValue) : ∃ t' : LuaTable,
    t'.entries = t.entries.update (cells.map fun p => (luaKey p.2, .number (number p))) ∧
    pushOutValues env c cells ⟨W, .table ref :: stack⟩ =
      .ok ((), ⟨{ W with tables := W.tables.set ref t' }, .table ref :: stack⟩) := by
  induction cells generalizing W t with
  | nil =>
    obtain ⟨hlt, rfl⟩ := List.getElem?_eq_some_iff.mp ht
    refine ⟨W.tables[ref], rfl, ?_⟩
    rw [List.set_getElem_self]
    rfl
  | cons p cells ih =>
    obtain ⟨⟨hindex, hnumber⟩, hcells⟩ := List.forall_mem_cons.mp hcells
    obtain ⟨t₁, ht₁, hset⟩ := setTable_ok ht p.2 (number p) stack
    have hlt := (List.getElem?_eq_some_iff.mp ht).1
    obtain ⟨t₂, ht₂, hrest⟩ := ih hcells (W := { W with tables := W.tables.set ref t₁ })
      (List.getElem?_set_self hlt)
    refine ⟨t₂, by rw [ht₂, ht₁]; rfl, ?_⟩
    have hkey : Cpp.addInt p.2 1 = .ok ((p.2 : Int) + 1) :=
      Cpp.addInt_ok.mpr ⟨by unfold Cpp.InInt; omega, rfl⟩
    have hpush : Lua.pushInteger ((p.2 : Int) + 1) ⟨W, .table ref :: stack⟩ =
        .ok ((), ⟨W, luaKey p.2 :: .table ref :: stack⟩) := by
      rw [Lua.pushInteger, Double.ofInt_of_lt (by omega)]
      rfl
    have hcell : pushOutCell env c p ⟨W, .table ref :: stack⟩ =
        .ok ((), ⟨{ W with tables := W.tables.set ref t₁ }, .table ref :: stack⟩) := by
      rw [pushOutCell, Lua.bind_ok (Lua.lift_ok hkey _), Lua.bind_ok hpush,
        Lua.bind_ok (pushCell_ok hnumber _)]
      exact hset
    rw [pushOutValues, Lua.bind_ok hcell]
    simpa using hrest

/-- The table that the loop leaves has an entry for each cell and no other. -/
theorem mem_outTable {number : Dnp3Point × ℕ → Double} {cells : List Dnp3Point} {t : LuaTable}
    (ht : t.entries =
      Dict.empty.update (cells.zipIdx.map fun p => (luaKey p.2, .number (number p))))
    (q : LuaValue × LuaValue) : q ∈ t.entries.entries ↔
      ∃ i pt, cells[i]? = some pt ∧ q = (luaKey i, .number (number (pt, i))) := by
  rw [← Dict.get?_eq_some, ht]
  constructor
  · intro hq
    obtain ⟨⟨pt, i⟩, hcell, heq⟩ := List.mem_map.mp (Dict.mem_of_get?_ofList hq)
    exact ⟨i, pt, List.mem_zipIdx_iff_getElem?.mp hcell, heq.symm⟩
  · intro hq
    obtain ⟨i, pt, hpt, rfl⟩ := hq
    have hcell : (pt, i) ∈ cells.zipIdx := List.mem_zipIdx_iff_getElem?.mpr hpt
    refine @Dict.get?_ofList_map _ _ _ _ cells.zipIdx (fun p => luaKey p.2)
      (fun p => LuaValue.number (number p)) (pt, i) hcell fun r hr hkey => ?_
    have hr' := List.mem_zipIdx_iff_getElem?.mp hr
    have hsame : r.2 = i := luaKey_inj hkey
    rw [hsame, hpt] at hr'
    have hcell' : r = (pt, i) := Prod.ext (Option.some.inj hr').symm hsame
    rw [hcell']

/-- An invocation up to the look at the table that the script leaves. -/
theorem luaInvokeScript_eq {env : LuaEnv} {c : Channel} {m : MappingOutstation}
    {number : Dnp3Point × ℕ → Double} (hcells : ∀ p ∈ (m.outValues c).zipIdx,
      p.2 < 2147483647 ∧ cellNumber env c p.1.value = .ok (number p)) {W : LuaWorld} {f : ℕ}
    (hf : W.globals.get? c.modifyFunction = some (.function f)) (stack : List LuaValue) :
    ∃ t : LuaTable, t.entries = Dict.empty.update
        ((m.outValues c).zipIdx.map fun p => (luaKey p.2, .number (number p))) ∧
      (∀ e, env.callFunction f [.table W.tables.length] { W with tables := W.tables ++ [t] } =
        .error e → luaInvokeScript env c m ⟨W, stack⟩ = .error e) ∧
      ∀ results W' data,
        env.callFunction f [.table W.tables.length] { W with tables := W.tables ++ [t] } =
          .ok (results, W') → W'.globals.get? c.dataTable = some (.table data) →
        luaInvokeScript env c m ⟨W, stack⟩ = publishTable env c m
          ⟨W', .nil :: .table data :: ((Lua.adjust 1 results).reverse ++ stack)⟩ := by
  let ref := W.tables.length
  let below := LuaValue.function f :: stack
  let W₁ : LuaWorld := { W with tables := W.tables ++ [.empty] }
  have hfun : Lua.getGlobal c.modifyFunction ⟨W, stack⟩ = .ok ((), ⟨W, below⟩) := by
    simp [Lua.getGlobal, Lua.push, hf, below]
  have hnew : Lua.newTable ⟨W, below⟩ = .ok ((), ⟨W₁, .table ref :: below⟩) := rfl
  have hempty : W₁.tables[ref]? = some .empty := List.getElem?_concat_length ..
  obtain ⟨t, hentries, hpush⟩ := pushOutValues_ok hcells hempty below
  have hset : W₁.tables.set ref t = W.tables ++ [t] := by simp [W₁, ref]
  rw [hset] at hpush
  refine ⟨t, hentries, fun e he => ?_, fun results W' data hcall hglobal => ?_⟩
  · have hinvoke : Lua.call env 1 1 ⟨{ W with tables := W.tables ++ [t] }, .table ref :: below⟩ =
        .error e := by
      simp [Lua.call, below, ref, he, bind, Except.bind]
    rw [luaInvokeScript, Lua.bind_ok hfun, Lua.bind_ok hnew, Lua.bind_ok hpush,
      Lua.bind_error hinvoke]
  · let rest := (Lua.adjust 1 results).reverse ++ stack
    have hinvoke : Lua.call env 1 1 ⟨{ W with tables := W.tables ++ [t] }, .table ref :: below⟩ =
        .ok ((), ⟨W', rest⟩) := by
      simp [Lua.call, below, ref, rest, hcall, bind, Except.bind]
    have hread : Lua.getGlobal c.dataTable ⟨W', rest⟩ = .ok ((), ⟨W', .table data :: rest⟩) := by
      simp [Lua.getGlobal, Lua.push, hglobal]
    have hnil : Lua.pushNil ⟨W', .table data :: rest⟩ =
        .ok ((), ⟨W', .nil :: .table data :: rest⟩) := rfl
    rw [luaInvokeScript, Lua.bind_ok hfun, Lua.bind_ok hnew, Lua.bind_ok hpush,
      Lua.bind_ok hinvoke, Lua.bind_ok hread, Lua.bind_ok hnil]

/-- The end of an invocation, given what its loop does on a table with an entry. -/
theorem publishTable_loop {env : LuaEnv} {c : Channel} {m : MappingOutstation} {W : LuaWorld}
    {ref : ℕ} {t : LuaTable} {stack : List LuaValue} {updates : List Update}
    (hW : W.tables[ref]? = some t) (hempty : env.traversal t = [] → updates = [])
    (hloop : ∀ p, (env.traversal t).head? = some p → ∃ stack',
      Lua.whileNext env (publishEntry env c m) [] ⟨W, .nil :: .table ref :: stack⟩ =
        .ok (updates, ⟨W, stack'⟩)) :
    publishTable env c m ⟨W, .nil :: .table ref :: stack⟩ =
      .ok ({ m with applied := m.applied ++ updates }, ⟨W, []⟩) := by
  have hsucc := Lua.successor_nil (env.traversal t)
  cases hp : (env.traversal t).head? with
  | none =>
    rw [hp] at hsucc
    rw [publishTable, Lua.bind_ok (Lua.next_none hW hsucc), if_neg (by decide),
      Lua.bind_ok (Lua.clear_ok _), hempty (List.head?_eq_none_iff.mp hp), List.append_nil]
    rfl
  | some p =>
    rw [hp] at hsucc
    obtain ⟨stack', hloop⟩ := hloop p hp
    have hpop : Lua.pop 2 ⟨W, p.2 :: p.1 :: .table ref :: stack⟩ =
        .ok ((), ⟨W, .table ref :: stack⟩) := by simp [Lua.pop]
    have hnil : Lua.pushNil ⟨W, .table ref :: stack⟩ =
        .ok ((), ⟨W, .nil :: .table ref :: stack⟩) := rfl
    rw [publishTable, Lua.bind_ok (Lua.next_some hW hsucc), if_pos rfl, Lua.bind_ok hpop,
      Lua.bind_ok hnil, Lua.bind_ok hloop, Lua.bind_ok (Lua.clear_ok _)]
    rfl

/-! ## What is published -/

/-- The update that publishes the out cell `i`. -/
def onlineUpdate (c : Channel) (m : MappingOutstation) (i : Int) : Option Update :=
  match Cpp.vecGet (m.outValues c) i with
  | .ok pt => (c.meas pt.value).toOption.map fun meas =>
      { meas := meas, quality := .online, time := pt.timestamp, index := i }
  | .error _ => none

/-- The indexes of the channel that are configured. -/
def configuredIndexes (node : Node) (c : Channel) : List Int :=
  ((dpTypeIndexMap node).get? c.pointType).getD []

/-- The out cells of a channel are no more than an `int` counts, and hold plain values. -/
structure Scriptable (c : Channel) (m : MappingOutstation) : Prop where
  int : (m.outValues c).length ≤ 2147483647
  plain : ∀ pt ∈ m.outValues c, Plain c pt.value

theorem onlineUpdate_eq {c : Channel} {m : MappingOutstation} {i : ℕ} {pt : Dnp3Point} {meas : Meas}
    (hpt : (m.outValues c)[i]? = some pt) (hmeas : c.meas pt.value = .ok meas) :
    onlineUpdate c m i =
      some { meas := meas, quality := .online, time := pt.timestamp, index := i } := by
  have hget : Cpp.vecGet (m.outValues c) i = .ok pt :=
    Cpp.vecGet_ok.mpr ⟨Int.natCast_nonneg i, by simpa using hpt⟩
  simp [onlineUpdate, hget, hmeas, Except.toOption]

/-- What the entry of an out cell adds to the builder. -/
def entryUpdates (c : Channel) (m : MappingOutstation) (p : LuaValue × LuaValue) : List Update :=
  match p.1 with
  | .number (.fin q) =>
    if ⌊q⌋ - 1 ∈ configuredIndexes m.node c then (onlineUpdate c m (⌊q⌋ - 1)).toList else []
  | _ => []

theorem entryUpdates_cell (c : Channel) (m : MappingOutstation) (i : ℕ) (v : LuaValue) :
    entryUpdates c m (luaKey i, v) =
      if (i : Int) ∈ configuredIndexes m.node c then (onlineUpdate c m i).toList else [] := by
  simp only [entryUpdates, luaKey, Int.floor_intCast, add_sub_cancel_right]

section
variable {env : LuaEnv} {c : Channel} {m : MappingOutstation} {i : ℕ} {pt : Dnp3Point}
variable {meas : Meas}

/-- The body of the loop on the entry of an out cell, up to the look-up of its type. -/
theorem publishEntry_eq (hm : Scriptable c m) (hpt : (m.outValues c)[i]? = some pt)
    (hmeas : c.meas pt.value = .ok meas) (W : LuaWorld) (stack : List LuaValue)
    (updates : List Update) :
    publishEntry env c m updates ⟨W, .number pt.value :: luaKey i :: stack⟩ =
      (match (dpTypeIndexMap m.node).get? c.pointType with
        | none => pure (false, updates)
        | some indexes =>
          if (i : Int) ∈ indexes then publishCell c m i meas updates
          else do
            Lua.pop 1
            pure (true, updates) : LuaM (Bool × List Update))
        ⟨W, .number pt.value :: luaKey i :: stack⟩ := by
  have hlen := (List.getElem?_eq_some_iff.mp hpt).1
  have hint := hm.int
  have hmax := env.maxInteger_ge
  have hkey : keyIndex env ⟨W, .number pt.value :: luaKey i :: stack⟩ =
      .ok (Cpp.wrapInt ((i : Int) + 1 - 1), ⟨W, .number pt.value :: luaKey i :: stack⟩) :=
    keyIndex_ok env (by unfold Cpp.InInt; omega) (by omega) rfl
  have hindex : Cpp.wrapInt ((i : Int) + 1 - 1) = i := by
    rw [Cpp.wrapInt_of_inInt (by unfold Cpp.InInt; omega)]
    omega
  have hplain := hm.plain pt (List.mem_of_getElem? hpt)
  rw [publishEntry, Lua.bind_ok hkey, Lua.bind_ok (readCell_ok (hplain.asCell env hmeas) W _),
    hindex]

/-- An index of a configured type is published if it is configured itself. -/
theorem publishEntry_ok (hm : Scriptable c m) (hpt : (m.outValues c)[i]? = some pt)
    {indexes : List Int} (hindexes : (dpTypeIndexMap m.node).get? c.pointType = some indexes)
    (W : LuaWorld) (stack : List LuaValue) (updates : List Update) :
    publishEntry env c m updates ⟨W, .number pt.value :: luaKey i :: stack⟩ =
      .ok ((true, updates ++ entryUpdates c m (luaKey i, .number pt.value)),
        ⟨W, luaKey i :: stack⟩) := by
  obtain ⟨meas, hmeas⟩ := (hm.plain pt (List.mem_of_getElem? hpt)).meas
  have hconf : configuredIndexes m.node c = indexes := by rw [configuredIndexes, hindexes]; rfl
  rw [publishEntry_eq hm hpt hmeas, hindexes, entryUpdates_cell, hconf]
  by_cases hmem : (i : Int) ∈ indexes
  · have hget : Cpp.vecGet (m.outValues c) i = .ok pt :=
      Cpp.vecGet_ok.mpr ⟨Int.natCast_nonneg i, by simpa using hpt⟩
    simp only [hmem, if_true]
    rw [publishCell, Lua.bind_ok (Lua.lift_ok hget _), onlineUpdate_eq hpt hmeas]
    rfl
  · simp only [hmem, if_false, List.append_nil]
    rfl

/-- Without configured indexes of its type the loop ends at once. -/
theorem publishEntry_break (hm : Scriptable c m) (hpt : (m.outValues c)[i]? = some pt)
    (hnone : (dpTypeIndexMap m.node).get? c.pointType = none)
    (W : LuaWorld) (stack : List LuaValue) (updates : List Update) :
    publishEntry env c m updates ⟨W, .number pt.value :: luaKey i :: stack⟩ =
      .ok ((false, updates), ⟨W, .number pt.value :: luaKey i :: stack⟩) := by
  obtain ⟨meas, hmeas⟩ := (hm.plain pt (List.mem_of_getElem? hpt)).meas
  rw [publishEntry_eq hm hpt hmeas, hnone]
  rfl

end

/-- The table has one entry for each out cell. -/
def HoldsCells (c : Channel) (m : MappingOutstation) (t : LuaTable) : Prop :=
  ∀ p, p ∈ t.entries.entries ↔
    ∃ i pt, (m.outValues c)[i]? = some pt ∧ p = (luaKey i, .number pt.value)

theorem holdsCells_of_get? {c : Channel} {m : MappingOutstation} {t t' : LuaTable}
    (ht : HoldsCells c m t) (hsame : ∀ k, t'.entries.get? k = t.entries.get? k) :
    HoldsCells c m t' := by
  intro p
  rw [← ht p, ← Dict.get?_eq_some, hsame, Dict.get?_eq_some]

theorem holdsCells_update {c : Channel} {m : MappingOutstation} {t : LuaTable}
    (ht : t.entries = Dict.empty.update ((m.outValues c).zipIdx.map cellEntry)) :
    HoldsCells c m t := fun p => mem_outTable ht p

section
variable {env : LuaEnv} {c : Channel} {m : MappingOutstation} {W : LuaWorld} {ref : ℕ}
variable {t : LuaTable}

theorem mem_entryUpdates (ht : HoldsCells c m t) {u : Update} :
    u ∈ (env.traversal t).flatMap (entryUpdates c m) ↔
      ∃ i ∈ configuredIndexes m.node c, onlineUpdate c m i = some u := by
  rw [List.mem_flatMap]
  constructor
  · intro hu
    obtain ⟨p, hp, hu⟩ := hu
    obtain ⟨i, pt, -, rfl⟩ := (ht p).mp ((env.traversal_perm t).mem_iff.mp hp)
    rw [entryUpdates_cell] at hu
    split at hu
    · next hmem => exact ⟨i, hmem, Option.mem_toList.mp hu⟩
    · cases hu
  · intro hu
    obtain ⟨i, hmem, hu⟩ := hu
    -- an update of the index `i` comes from an out cell, so the table has an entry for it
    cases hget : Cpp.vecGet (m.outValues c) i with
    | error e => simp [onlineUpdate, hget] at hu
    | ok pt =>
      obtain ⟨h0, hpt⟩ := Cpp.vecGet_ok.mp hget
      have hi : ((i.toNat : ℕ) : Int) = i := Int.toNat_of_nonneg h0
      refine ⟨_, (env.traversal_perm t).mem_iff.mpr ((ht _).mpr ⟨i.toNat, pt, hpt, rfl⟩), ?_⟩
      rw [entryUpdates_cell, hi, if_pos hmem]
      exact Option.mem_toList.mpr hu

/-- The loop over the table of the script. -/
theorem publishLoop_ok (hm : Scriptable c m) (hW : W.tables[ref]? = some t) (ht : HoldsCells c m t)
    {p : LuaValue × LuaValue} (hp : (env.traversal t).head? = some p) (stack : List LuaValue) :
    ∃ updates stack', Lua.whileNext env (publishEntry env c m) []
        ⟨W, .nil :: .table ref :: stack⟩ = .ok (updates, ⟨W, stack'⟩) ∧
      ∀ u, u ∈ updates ↔ ∃ i ∈ configuredIndexes m.node c, onlineUpdate c m i = some u := by
  cases hindexes : (dpTypeIndexMap m.node).get? c.pointType with
  | none =>
    have hmem : p ∈ t.entries.entries :=
      (env.traversal_perm t).mem_iff.mp (List.mem_of_mem_head? hp)
    obtain ⟨i, pt, hpt, rfl⟩ := (ht p).mp hmem
    refine ⟨[], _, Lua.whileNext_break hW hp (publishEntry_break hm hpt hindexes W _ []), ?_⟩
    simp [configuredIndexes, hindexes]
  | some indexes =>
    refine ⟨_, _, Lua.whileNext_ok (g := fun s p => s ++ entryUpdates c m p) hW ?_ [], ?_⟩
    · intro p hp updates
      obtain ⟨i, pt, hpt, rfl⟩ := (ht p).mp hp
      exact publishEntry_ok hm hpt hindexes W _ updates
    · intro u
      rw [← List.flatMap_eq_foldl]
      exact mem_entryUpdates ht

/-- The script's table is published as far as its indexes are configured. -/
theorem publishTable_ok (hm : Scriptable c m) (hW : W.tables[ref]? = some t)
    (ht : HoldsCells c m t) (stack : List LuaValue) : ∃ updates,
    publishTable env c m ⟨W, .nil :: .table ref :: stack⟩ =
      .ok ({ m with applied := m.applied ++ updates }, ⟨W, []⟩) ∧
    ∀ u, u ∈ updates ↔ ∃ i ∈ configuredIndexes m.node c, onlineUpdate c m i = some u := by
  cases hp : (env.traversal t).head? with
  | none =>
    have hnil : env.traversal t = [] := List.head?_eq_none_iff.mp hp
    refine ⟨[], publishTable_loop hW (fun _ => rfl) fun p hp' => ?_, fun u => ?_⟩
    · rw [hp] at hp'
      cases hp'
    · have hmem := @mem_entryUpdates env c m t ht u
      rwa [hnil, List.flatMap_nil] at hmem
  | some p =>
    obtain ⟨updates, stack', hloop, hupdates⟩ := publishLoop_ok hm hW ht hp stack
    refine ⟨updates, publishTable_loop hW (fun hnil => ?_) (fun _ _ => ⟨stack', hloop⟩), hupdates⟩
    rw [hnil] at hp
    cases hp

end

/-! ## A script that changes nothing -/

/-- The globals under which the program finds the functions of the script. -/
def Defines (fn : Channel → ℕ) (W : LuaWorld) : Prop :=
  ∀ c : Channel, W.globals.get? c.modifyFunction = some (.function (fn c))

/-- The functions return a table with the entries of the one they are given, and leave such
a table in the global that the program reads. -/
structure IdentityScript (env : LuaEnv) (fn : Channel → ℕ) : Prop where
  call : ∀ (c : Channel) (W : LuaWorld) (ref : ℕ) (t : LuaTable), Defines fn W →
    W.tables[ref]? = some t → ∃ W' ret data tret tdata,
      env.callFunction (fn c) [.table ref] W = .ok ([.table ret], W') ∧ Defines fn W' ∧
      W'.tables[ret]? = some tret ∧ (∀ k, tret.entries.get? k = t.entries.get? k) ∧
      W'.globals.get? c.dataTable = some (.table data) ∧
      W'.tables[data]? = some tdata ∧ ∀ k, tdata.entries.get? k = t.entries.get? k

/-- An invocation publishes the out cells whose indexes are configured, and empties the stack. -/
theorem luaInvokeScript_ok {env : LuaEnv} {fn : Channel → ℕ} (hscript : IdentityScript env fn)
    {c : Channel} {m : MappingOutstation} (hm : Scriptable c m) {W : LuaWorld} (hW : Defines fn W)
    (stack : List LuaValue) : ∃ updates W',
    luaInvokeScript env c m ⟨W, stack⟩ =
      .ok ({ m with applied := m.applied ++ updates }, ⟨W', []⟩) ∧ Defines fn W' ∧
    ∀ u, u ∈ updates ↔ ∃ i ∈ configuredIndexes m.node c, onlineUpdate c m i = some u := by
  have hcells : ∀ p ∈ (m.outValues c).zipIdx,
      p.2 < 2147483647 ∧ cellNumber env c p.1.value = .ok p.1.value := by
    intro p hp
    have hlen := List.snd_lt_of_mem_zipIdx hp
    have hint := hm.int
    exact ⟨by omega, (hm.plain _ (List.fst_mem_of_mem_zipIdx hp)).cellNumber env⟩
  obtain ⟨t, hentries, -, hinvoke⟩ := luaInvokeScript_eq hcells (hW c) stack
  have ht : (W.tables ++ [t])[W.tables.length]? = some t := List.getElem?_concat_length ..
  obtain ⟨W', ret, data, _, tdata, hcall, hW', -, -, hglobal, hdata, hsame⟩ :=
    hscript.call c { W with tables := W.tables ++ [t] } W.tables.length t hW ht
  have hholds : HoldsCells c m tdata := holdsCells_of_get? (holdsCells_update hentries) hsame
  obtain ⟨updates, hpublish, hupdates⟩ := publishTable_ok hm hdata hholds (.table ret :: stack)
  exact ⟨updates, W', (hinvoke _ _ _ hcall hglobal).trans hpublish, hW', hupdates⟩

end MappingOutstation
end IcsTrafficGen.Dnp3
