import IcsTrafficGen.Modbus.Grouping

/- `outstation`: the blocks that the server of a node gets, and the loops that fill them with
   what the scripts return. Of the library the code relies on how a store is indexed, which
   of the four blocks of a unit a table is, and that the blocks count their cells from 1
   where requests count from 0 (`Pymodbus`, `Pymodbus.Documented`). A list can be multiplied
   by an int and not by a float; whether the file has a count as `2` or as `2.0`, which `Json`
   does not tell, is the parameter `isInt`. -/
namespace IcsTrafficGen.Modbus

/-- `start_address`. -/
def blockStart : ℕ := 0x01

/-- The keys of the blocks of a unit: discrete inputs, coils, input and holding registers. -/
inductive Table where
  | d | c | i | h
  deriving DecidableEq, Repr

/-- `ModbusSequentialDataBlock(address, values)`. -/
structure SequentialBlock (V : Type) where
  address : ℕ
  values : List V
  deriving DecidableEq, Repr

/-- `ModbusSlaveContext(di, co, hr, ir)`. -/
structure SlaveContext (V : Type) where
  di : SequentialBlock V
  co : SequentialBlock V
  hr : SequentialBlock V
  ir : SequentialBlock V
  deriving DecidableEq, Repr

/-- `ModbusServerContext(slaves, single)`: one unit for every id, or one by id. -/
inductive ServerContext (V : Type) where
  | single (slave : SlaveContext V)
  | slaves (store : Dict Scalar (SlaveContext V))

/-- What the library does with the contexts. -/
structure Pymodbus (V : Type) where
  /-- `context[unit_id]`. -/
  getItem : ServerContext V → Scalar → Py (SlaveContext V)
  /-- `slave.store.get(table)`. -/
  block : SlaveContext V → Table → SequentialBlock V
  /-- The cell that an address of a request is. -/
  cell : ℕ → ℕ

structure Pymodbus.Documented {V : Type} (P : Pymodbus V) : Prop where
  single : ∀ slave unitId, P.getItem (.single slave) unitId = .ok slave
  slaves : ∀ store unitId slave, store.get? unitId = some slave →
    P.getItem (.slaves store) unitId = .ok slave
  d : ∀ slave, P.block slave .d = slave.di
  c : ∀ slave, P.block slave .c = slave.co
  i : ∀ slave, P.block slave .i = slave.ir
  h : ∀ slave, P.block slave .h = slave.hr
  cell : ∀ address, P.cell address = address + 1

variable {V : Type}

/-! ## The blocks -/

section
variable [Zero V]

/-- `[0x00]*data_count`. -/
def zerosOf (isInt : Bool) : Json → Py (List V)
  | .scalar (.num q) =>
    if isInt ∧ q.den = 1 then .ok (List.replicate q.num.toNat 0) else .error .typeError
  | _ => .error .typeError

def sequentialBlock (isInt : Bool) (dataCount : Json) : Py (SequentialBlock V) := do
  let values ← zerosOf isInt dataCount
  pure { address := blockStart, values := values }

def slaveContext (isInt : Bool) (dataCount : Json) : Py (SlaveContext V) := do
  let di ← sequentialBlock isInt dataCount
  let co ← sequentialBlock isInt dataCount
  let hr ← sequentialBlock isInt dataCount
  let ir ← sequentialBlock isInt dataCount
  pure { di := di, co := co, hr := hr, ir := ir }

/-- `store[unit_id] = slave`. -/
def ServerContext.setItem (unitId : Scalar) (slave : SlaveContext V) :
    ServerContext V → Py (ServerContext V)
  | .slaves store => .ok (.slaves (store.set unitId slave))
  | .single _ => .error .typeError

/-- One pass of the loop over the datastore of a node. -/
def addUnit (isInt : Scalar → Bool) (datastore : Dict Scalar Json) (store : ServerContext V)
    (e : Scalar × Json) : Py (ServerContext V) := do
  let slave ← slaveContext (isInt e.1) e.2
  if datastore.entries.length = 1 then pure (.single slave) else store.setItem e.1 slave

/-- `outstation.__init__`, as far as it makes the context. -/
def outstationContext (isInt : Scalar → Bool) (node : OutstationNode) : Py (ServerContext V) :=
  node.datastore.entries.foldlM (addUnit isInt node.datastore) (.slaves .empty)

theorem zerosOf_ok {isInt : Bool} {dataCount : Json} {values : List V} :
    zerosOf isInt dataCount = .ok values ↔
      isInt ∧ ∃ n : ℤ, dataCount = .num n ∧ values = List.replicate n.toNat 0 := by
  constructor
  · intro h
    unfold zerosOf at h
    split at h
    · next q =>
      split at h
      · next hint =>
        cases h
        exact ⟨hint.1, q.num, by rw [Json.num, (Rat.den_eq_one_iff q).mp hint.2], rfl⟩
      · cases h
    · cases h
  · intro h
    obtain ⟨rfl, n, rfl, rfl⟩ := h
    simp [zerosOf, Json.num]

/-- One call makes each of the four blocks. -/
theorem slaveContext_of_zerosOf {isInt : Bool} {dataCount : Json} {values : List V}
    (h : zerosOf isInt dataCount = .ok values) :
    let block : SequentialBlock V := { address := blockStart, values := values }
    slaveContext isInt dataCount = .ok { di := block, co := block, hr := block, ir := block } :=
  have hblock : sequentialBlock isInt dataCount = .ok { address := blockStart, values := values } :=
    Fallible.bind_ok.mpr ⟨values, h, rfl⟩
  Fallible.bind_ok.mpr ⟨_, hblock, Fallible.bind_ok.mpr ⟨_, hblock,
    Fallible.bind_ok.mpr ⟨_, hblock, Fallible.bind_ok.mpr ⟨_, hblock, rfl⟩⟩⟩⟩

/-- All blocks of a unit begin at the first cell and have as many cells as the count says. -/
theorem slaveContext_ok {isInt : Bool} {dataCount : Json} {slave : SlaveContext V} {P : Pymodbus V}
    (hP : P.Documented) (h : slaveContext isInt dataCount = .ok slave) :
    ∃ n : ℤ, dataCount = .num n ∧
      ∀ t, P.block slave t = { address := blockStart, values := List.replicate n.toNat 0 } := by
  obtain ⟨values, hvalues⟩ : ∃ values, zerosOf isInt dataCount = .ok values := by
    obtain ⟨_, hblock, -⟩ := Fallible.bind_ok.mp h
    obtain ⟨values, hvalues, -⟩ := Fallible.bind_ok.mp hblock
    exact ⟨values, hvalues⟩
  obtain ⟨-, n, hcount, rfl⟩ := zerosOf_ok.mp hvalues
  cases (slaveContext_of_zerosOf hvalues).symm.trans h
  refine ⟨n, hcount, fun t => ?_⟩
  cases t with
  | d => exact hP.d _
  | c => exact hP.c _
  | i => exact hP.i _
  | h => exact hP.h _

/-- The loop over several units sets each of them. -/
theorem addUnits_ok {isInt : Scalar → Bool} {datastore : Dict Scalar Json}
    (hlen : datastore.entries.length ≠ 1) {es : List (Scalar × Json)}
    (hnodup : (es.map Prod.fst).Nodup) {store : Dict Scalar (SlaveContext V)}
    {context : ServerContext V}
    (h : es.foldlM (addUnit isInt datastore) (.slaves store) = .ok context) :
    ∃ store', context = .slaves store' ∧
      (∀ e ∈ es, ∃ slave, slaveContext (isInt e.1) e.2 = .ok slave ∧
        store'.get? e.1 = some slave) ∧
      ∀ unitId, unitId ∉ es.map Prod.fst → store'.get? unitId = store.get? unitId := by
  induction es generalizing store with
  | nil =>
    cases h
    exact ⟨store, rfl, by simp, fun _ _ => rfl⟩
  | cons e es ih =>
    obtain ⟨context₁, h₁, h⟩ := Fallible.bind_ok.mp h
    obtain ⟨slave, hslave, h₁⟩ := Fallible.bind_ok.mp h₁
    rw [if_neg hlen] at h₁
    cases h₁
    obtain ⟨hne, hnodup⟩ := List.nodup_cons.mp hnodup
    obtain ⟨store', rfl, hall, hothers⟩ := ih hnodup h
    refine ⟨store', rfl, List.forall_mem_cons.mpr ⟨⟨slave, hslave, ?_⟩, hall⟩, fun unitId hmem => ?_⟩
    · rw [hothers e.1 hne, Dict.get?_set_self]
    · rw [List.map_cons, List.mem_cons, not_or] at hmem
      rw [hothers unitId hmem.2, Dict.get?_set_of_ne _ _ hmem.1]

theorem addUnits_total {isInt : Scalar → Bool} {datastore : Dict Scalar Json}
    (hlen : datastore.entries.length ≠ 1) {es : List (Scalar × Json)}
    (hslave : ∀ e ∈ es, ∃ slave : SlaveContext V, slaveContext (isInt e.1) e.2 = .ok slave)
    (store : Dict Scalar (SlaveContext V)) :
    ∃ context, es.foldlM (addUnit isInt datastore) (.slaves store) = .ok context := by
  induction es generalizing store with
  | nil => exact ⟨_, rfl⟩
  | cons e es ih =>
    obtain ⟨⟨slave, hslave⟩, hes⟩ := List.forall_mem_cons.mp hslave
    obtain ⟨context, hcontext⟩ := ih hes (store.set e.1 slave)
    refine ⟨context, Fallible.bind_ok.mpr ⟨_, Fallible.bind_ok.mpr ⟨slave, hslave, ?_⟩, hcontext⟩⟩
    rw [if_neg hlen]
    rfl

/-- The context of a node leads from each of its unit ids to blocks of the size of its count. -/
theorem outstationContext_ok {P : Pymodbus V} (hP : P.Documented) {isInt : Scalar → Bool}
    {node : OutstationNode} {context : ServerContext V}
    (h : outstationContext isInt node = .ok context) {unitId : Scalar} {dataCount : Json}
    (hget : node.datastore.get? unitId = some dataCount) :
    ∃ slave, slaveContext (isInt unitId) dataCount = .ok slave ∧
      P.getItem context unitId = .ok slave := by
  have hentry := Dict.get?_eq_some.mp hget
  by_cases hlen : node.datastore.entries.length = 1
  · obtain ⟨e, hentries⟩ := List.length_eq_one_iff.mp hlen
    rw [hentries, List.mem_singleton] at hentry
    rw [outstationContext, hentries, ← hentry] at h
    obtain ⟨context₁, h₁, h⟩ := Fallible.bind_ok.mp h
    obtain ⟨slave, hslave, h₁⟩ := Fallible.bind_ok.mp h₁
    rw [if_pos hlen] at h₁
    cases h₁
    cases h
    exact ⟨slave, hslave, hP.single slave unitId⟩
  · obtain ⟨store, rfl, hall, -⟩ := addUnits_ok hlen node.datastore.nodup_keys h
    obtain ⟨slave, hslave, hstore⟩ := hall _ hentry
    exact ⟨slave, hslave, hP.slaves store unitId slave hstore⟩

/-- The counts are ints, and no block is without cells. -/
def CountsFit (isInt : Scalar → Bool) (node : OutstationNode) : Prop :=
  ∀ unitId dataCount, node.datastore.get? unitId = some dataCount →
    isInt unitId ∧ ∃ m : ℕ, 0 < m ∧ dataCount = .num m

/-- The context of such a node can be made. -/
theorem CountsFit.context {isInt : Scalar → Bool} {node : OutstationNode}
    (h : CountsFit isInt node) :
    ∃ context : ServerContext V, outstationContext isInt node = .ok context := by
  have hslave : ∀ e ∈ node.datastore.entries, ∃ slave : SlaveContext V,
      slaveContext (isInt e.1) e.2 = .ok slave := by
    intro e he
    obtain ⟨hint, m, -, hcount⟩ := h e.1 e.2 (Dict.get?_eq_some.mpr he)
    exact ⟨_, slaveContext_of_zerosOf (zerosOf_ok.mpr ⟨hint, m, by simpa using hcount, rfl⟩)⟩
  by_cases hlen : node.datastore.entries.length = 1
  · obtain ⟨e, hentries⟩ := List.length_eq_one_iff.mp hlen
    obtain ⟨slave, hslave⟩ := hslave e (hentries ▸ List.mem_singleton_self e)
    rw [outstationContext, hentries]
    refine ⟨.single slave, Fallible.bind_ok.mpr ⟨.single slave, ?_, rfl⟩⟩
    exact Fallible.bind_ok.mpr ⟨slave, hslave, if_pos hlen⟩
  · exact addUnits_total hlen hslave .empty

end

/-! ## The loop of an outstation -/

def luaPymodDtypeMap : List (String × Table) :=
  [("Discretes Input", .d), ("Coils", .c), ("Input Registers", .i), ("Holding Registers", .h)]

/-- What `generate_data` returns: nothing, or a table with the values of the types it has. -/
abbrev GeneratedData (V : Type) := Option (Dict String (List V))

/-- `setValues(start_address, values)` of a block of a unit. -/
structure TableWrite (V : Type) where
  unitId : Scalar
  table : Table
  values : List V
  deriving DecidableEq, Repr

/-- What is written of one type. -/
def writeOfType (unitId : Scalar) (dataCount : Json) (data : Dict String (List V))
    (e : String × Table) : Option (TableWrite V) :=
  match data.get? e.1 with
  | some values =>
    if values.length = 0 ∨ (Json.num values.length).eqv dataCount = false then none
    else some { unitId := unitId, table := e.2, values := values }
  | none => none

/-- One pass of the loop of `ping_outstation`. -/
def pingOutstation (P : Pymodbus V) (node : OutstationNode) (context : ServerContext V)
    (outstnName : String) (data : GeneratedData V) : Py (List (TableWrite V)) := do
  let unitId ← node.nameIdMap.getItem outstnName
  let _ ← P.getItem context unitId
  let dataCount ← node.datastore.getItem unitId
  match data with
  | none => pure []
  | some data => pure (luaPymodDtypeMap.filterMap (writeOfType unitId dataCount data))

/-- A write is for the unit of the outstation and as long as its blocks. -/
theorem pingOutstation_ok {P : Pymodbus V} {node : OutstationNode} {context : ServerContext V}
    {outstnName : String} {data : GeneratedData V} {writes : List (TableWrite V)}
    (h : pingOutstation P node context outstnName data = .ok writes) {t : TableWrite V}
    (ht : t ∈ writes) :
    node.nameIdMap.get? outstnName = some t.unitId ∧
      node.datastore.get? t.unitId = some (.num t.values.length) := by
  obtain ⟨unitId, hunit, h⟩ := Fallible.bind_ok.mp h
  obtain ⟨-, -, h⟩ := Fallible.bind_ok.mp h
  obtain ⟨dataCount, hcount, h⟩ := Fallible.bind_ok.mp h
  cases data with
  | none =>
    cases h
    cases ht
  | some data =>
    cases h
    obtain ⟨e, -, he⟩ := List.mem_filterMap.mp ht
    unfold writeOfType at he
    split at he
    · split at he
      · cases he
      · next hlen =>
        cases he
        rw [not_or, Bool.not_eq_false] at hlen
        rw [Dict.getItem_ok.mp hunit, Dict.getItem_ok.mp hcount]
        exact ⟨rfl, congrArg some (Json.eq_of_scalar_eqv hlen.2)⟩
    · cases he

/-! ## One outstation -/

/-- The library as documented. -/
def plainPymodbus (V : Type) : Pymodbus V where
  getItem
    | .single slave, _ => .ok slave
    | .slaves store, unitId => store.getItem unitId
  block slave
    | .d => slave.di
    | .c => slave.co
    | .i => slave.ir
    | .h => slave.hr
  cell address := address + 1

theorem plainPymodbus_documented : (plainPymodbus V).Documented where
  single _ _ := rfl
  slaves _ _ _ h := Dict.getItem_ok.mpr h
  d _ := rfl
  c _ := rfl
  i _ := rfl
  h _ := rfl
  cell _ := rfl

/-- A master and its outstation, which has two values of each type. -/
def pairConfig : Config :=
  Dict.ofList [
    ("Master Nodes", .arr [entry "M1" "10.1.0.1" ["S1"]]),
    ("S1", .obj [("IP Address", .str "192.13.13.12"), ("Data Count", .num 2)])]

def pairNode : OutstationNode :=
  { names := ["S1"], ipaddr := .str "192.13.13.12", vnic := none, port := .num 502
    simulate := .num 1, datastore := ⟨[(.num 0, .num 2)], by decide⟩
    nameIdMap := ⟨[("S1", .num 0)], by decide⟩ }

theorem pairConfig_accepted : ∃ nodes w', processNodes plainEnv pairConfig freshWorld = .ok nodes w' ∧
    nodes.outstations = [pairNode] ∧
    nodes.masters.map (fun k => (k.node.outstationAddr, k.node.outstationInfo)) =
      [(.scalar pairNode.ipaddr, pairNode.datastore)] :=
  ⟨_, _, rfl, rfl, rfl⟩

end IcsTrafficGen.Modbus
