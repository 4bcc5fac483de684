import IcsTrafficGen.Dnp3.MasterCommands

/- The two traversals of `LuaInvokeScript`. Whatever the stack held before the call, and in
   whatever order the entries of an element come, the elements of `data` are read one by
   one, each into its own `cmdStruct`, in the order in which `data` is traversed. -/
namespace IcsTrafficGen.Dnp3
open MasterStation

/-! ## Elements -/

/-- An element of `data`, as the script means it. -/
structure Element where
  funcType : String
  funcName : String
  index : ℕ
  value : Double
  deriving DecidableEq, Repr

/-- The table of an element; its names are read as C strings. -/
structure IsElement (t : LuaTable) (e : Element) : Prop where
  index_le : e.index ≤ 65535
  entries : ∃ funcType funcName index, Cpp.cString funcType = e.funcType ∧
    Cpp.cString funcName = e.funcName ∧ index.eqv (.fin e.index) = true ∧
    t.entries.entries.Perm
      [(.number (.fin 1), .string funcType), (.number (.fin 2), .string funcName),
        (.number (.fin 3), .number index), (.number (.fin 4), .number e.value)]

/-- The elements that are tables, in the order of the entries. -/
def elementRefs (pairs : List (LuaValue × LuaValue)) : List ℕ :=
  pairs.filterMap fun p => match p.2 with
    | .table ref => some ref
    | _ => none

/-- The tables among the elements hold the elements `es`. -/
def HoldsElements (W : LuaWorld) (pairs : List (LuaValue × LuaValue)) (es : List Element) : Prop :=
  List.Forall₂ (fun ref e => ∃ t, W.tables[ref]? = some t ∧ IsElement t e) (elementRefs pairs) es

def Element.cmd (e : Element) : CmdStruct :=
  { fName := e.funcName, fType := e.funcType, index := e.index, value := e.value }

/-! ## Reading an element -/

/-- What the loop over an element does with an entry. -/
def setField (cmd : CmdStruct) (p : LuaValue × LuaValue) : CmdStruct :=
  match p with
  | (.number (.fin k), .string s) =>
    if k = 1 then { cmd with fType := Cpp.cString s }
    else if k = 2 then { cmd with fName := Cpp.cString s }
    else cmd
  | (.number (.fin k), .number d) =>
    if k = 3 then { cmd with index := (toInt32 d).toOption.getD 0 }
    else if k = 4 then { cmd with value := d }
    else cmd
  | _ => cmd

theorem toInt32_of_eqv {d : Double} {n : ℕ} (hn : n ≤ 65535) (h : d.eqv (.fin n) = true) :
    toInt32 d = .ok n := by
  cases d with
  | nan => cases h
  | inf neg => cases h
  | negZero =>
    have hzero : n = 0 := by simpa [Double.eqv] using h
    rw [hzero]
    rfl
  | fin q =>
    have hq : q = (n : ℤ) := by simpa [Double.eqv] using h
    rw [hq]
    apply Double.toInt_intCast
    omega

section
variable {env : LuaEnv} {format : Double → String} {W : LuaWorld}

theorem pushValue_two (v w : LuaValue) (stack : List LuaValue) :
    Lua.pushValue 2 ⟨W, v :: w :: stack⟩ = .ok ((), ⟨W, w :: v :: w :: stack⟩) := rfl

theorem pop_two (v w : LuaValue) (stack : List LuaValue) :
    Lua.pop 2 ⟨W, v :: w :: stack⟩ = .ok ((), ⟨W, stack⟩) := by
  rw [Lua.pop, if_pos (by simp)]
  rfl

theorem pop_one (v : LuaValue) (stack : List LuaValue) :
    Lua.pop 1 ⟨W, v :: stack⟩ = .ok ((), ⟨W, stack⟩) := by
  rw [Lua.pop, if_pos (by simp)]
  rfl

theorem toInteger_small (env : LuaEnv) {n : ℤ} (hn : 0 ≤ n ∧ n ≤ 4) (stack : List LuaValue) :
    Lua.toInteger env 1 ⟨W, .number (.fin n) :: stack⟩ =
      .ok (n, ⟨W, .number (.fin n) :: stack⟩) := by
  have hmax := env.maxInteger_ge
  have hnum : Lua.toNumber env 1 ⟨W, .number (.fin n) :: stack⟩ =
      .ok (.fin n, ⟨W, .number (.fin n) :: stack⟩) := rfl
  rw [Lua.toInteger, Lua.bind_ok hnum]
  apply Lua.lift_ok
  apply Double.toInt_intCast
  omega

/-- The pass over an entry, given what its `switch` does. -/
theorem readEntry_ok {k : ℤ} (hk : 0 ≤ k ∧ k ≤ 4) {v : LuaValue} {cmd cmd' : CmdStruct}
    {stack : List LuaValue}
    (h : storeEntry env format cmd (k - 1)
        ⟨W, .number (.fin k) :: v :: .number (.fin k) :: stack⟩ =
      .ok (cmd', ⟨W, .number (.fin k) :: v :: .number (.fin k) :: stack⟩)) :
    readEntry env format cmd ⟨W, v :: .number (.fin k) :: stack⟩ =
      .ok ((true, cmd'), ⟨W, .number (.fin k) :: stack⟩) := by
  have hwrap : Cpp.wrapInt (k - 1) = k - 1 := by
    apply Cpp.wrapInt_of_inInt
    unfold Cpp.InInt
    omega
  have hmax := env.maxInteger_ge
  have hsub : Lua.subInteger env k 1 = .ok (k - 1) := Lua.subInteger_ok (by omega)
  rw [readEntry, Lua.bind_ok (pushValue_two v _ stack), Lua.bind_ok (toInteger_small env hk _),
    Lua.bind_ok (Lua.lift_ok hsub _), hwrap, Lua.bind_ok h, Lua.bind_ok (pop_two _ v _)]
  rfl

/-- Every entry of an element is stored in its field. -/
theorem readEntry_setField {t : LuaTable} {e : Element} (h : IsElement t e)
    {p : LuaValue × LuaValue} (hp : p ∈ t.entries.entries) (cmd : CmdStruct)
    (stack : List LuaValue) :
    readEntry env format cmd ⟨W, p.2 :: p.1 :: stack⟩ =
      .ok ((true, setField cmd p), ⟨W, p.1 :: stack⟩) := by
  obtain ⟨funcType, funcName, index, -, -, hindex, hperm⟩ := h.entries
  have hmem := hperm.mem_iff.mp hp
  simp only [List.mem_cons, List.not_mem_nil, or_false] at hmem
  rcases hmem with rfl | rfl | rfl | rfl
  · show readEntry env format cmd ⟨W, _ :: .number (.fin ((1 : ℤ) : ℚ)) :: stack⟩ = _
    apply readEntry_ok (by omega)
    rfl
  · show readEntry env format cmd ⟨W, _ :: .number (.fin ((2 : ℤ) : ℚ)) :: stack⟩ = _
    apply readEntry_ok (by omega)
    rfl
  · show readEntry env format cmd ⟨W, _ :: .number (.fin ((3 : ℤ) : ℚ)) :: stack⟩ = _
    apply readEntry_ok (by omega)
    have hint := toInt32_of_eqv h.index_le hindex
    have hstore : setField cmd (.number (.fin 3), .number index) = { cmd with index := e.index } := by
      simp [setField, hint, Except.toOption]
    have hnum (L : Lua) (hL : Lua.valueAt 2 L = .ok (.number index)) :
        Lua.toNumber env 2 L = .ok (index, L) := by
      simp [Lua.toNumber, hL, bind, Except.bind]
    rw [hstore, storeEntry, if_neg (by decide), if_neg (by decide), if_pos (by decide),
      Lua.bind_ok (hnum _ rfl), Lua.bind_ok (Lua.lift_ok hint _)]
    rfl
  · show readEntry env format cmd ⟨W, _ :: .number (.fin ((4 : ℤ) : ℚ)) :: stack⟩ = _
    apply readEntry_ok (by omega)
    rfl

/-- The fields of an element come from different entries, so the order of the entries does
not matter. -/
theorem foldl_setField {t : LuaTable} {e : Element} (h : IsElement t e)
    {pairs : List (LuaValue × LuaValue)} (hpairs : pairs.Perm t.entries.entries) :
    pairs.foldl setField .new = e.cmd := by
  obtain ⟨funcType, funcName, index, htype, hname, hindex, hperm⟩ := h.entries
  have hint := toInt32_of_eqv h.index_le hindex
  rw [(hpairs.trans hperm).foldl_eq']
  · simp [setField, Element.cmd, CmdStruct.new, hint, htype, hname, Except.toOption]
  · intro p hp q hq cmd
    have hp := (hpairs.trans hperm).mem_iff.mp hp
    have hq := (hpairs.trans hperm).mem_iff.mp hq
    simp only [List.mem_cons, List.not_mem_nil, or_false] at hp hq
    rcases hp with rfl | rfl | rfl | rfl <;> rcases hq with rfl | rfl | rfl | rfl <;>
      simp [setField]

/-- An element that is a table is read in one pass, and leaves the stack as it was. -/
theorem readElement_ok {ref : ℕ} {t : LuaTable} {e : Element} (ht : W.tables[ref]? = some t)
    (h : IsElement t e) (cmdList : List CmdStruct) (key : LuaValue) (stack : List LuaValue) :
    readElement env format cmdList ⟨W, key :: .table ref :: stack⟩ =
      .ok (cmdList ++ [e.cmd], ⟨W, key :: .table ref :: stack⟩) := by
  have hloop : Lua.whileNext env (readEntry env format) .new
      ⟨W, .nil :: .table ref :: key :: .table ref :: stack⟩ =
      .ok (e.cmd, ⟨W, .table ref :: key :: .table ref :: stack⟩) := by
    rw [Lua.whileNext_ok ht fun p hp cmd => readEntry_setField h hp cmd _,
      foldl_setField h (env.traversal_perm t)]
  have hpush : Lua.pushNil ⟨W, .table ref :: key :: .table ref :: stack⟩ =
      .ok ((), ⟨W, .nil :: .table ref :: key :: .table ref :: stack⟩) := rfl
  rw [readElement, Lua.bind_ok (pushValue_two key _ stack), Lua.bind_ok hpush, Lua.bind_ok hloop,
    Lua.bind_ok (pop_one _ _)]
  rfl

theorem HoldsElements.table {key : LuaValue} {ref : ℕ} {es : List Element}
    (h : HoldsElements W [(key, .table ref)] es) :
    ∃ t e, W.tables[ref]? = some t ∧ IsElement t e ∧ es = [e] := by
  obtain ⟨e, es, helement, hnil, rfl⟩ := List.forall₂_cons_left_iff.mp h
  obtain ⟨t, ht, he⟩ := helement
  cases hnil
  exact ⟨t, e, ht, he, rfl⟩

/-- One pass over `data`: the commands of the elements that are tables, in order. -/
theorem readData_ok {p : LuaValue × LuaValue} {es : List Element} (h : HoldsElements W [p] es)
    (cmdList : List CmdStruct) (stack : List LuaValue) :
    readData env format cmdList ⟨W, p.2 :: p.1 :: stack⟩ =
      .ok ((true, cmdList ++ es.map Element.cmd), ⟨W, p.1 :: stack⟩) := by
  obtain ⟨key, v⟩ := p
  have hread : readIfTable env format cmdList ⟨W, key :: v :: key :: stack⟩ =
      .ok (cmdList ++ es.map Element.cmd, ⟨W, key :: v :: key :: stack⟩) := by
    cases v with
    | table ref =>
      obtain ⟨t, e, ht, he, rfl⟩ := h.table
      exact readElement_ok ht he cmdList key _
    | _ =>
      cases h
      rw [List.map_nil, List.append_nil]
      rfl
  rw [readData, Lua.bind_ok (pushValue_two v key stack), Lua.bind_ok hread,
    Lua.bind_ok (pop_two key v _)]
  rfl

/-! ## Reading `data` -/

/-- The commands that an entry of `data` comes to. -/
def commandsAt (env : LuaEnv) (W : LuaWorld) (p : LuaValue × LuaValue) : List CmdStruct :=
  match p.2 with
  | .table ref => (W.tables[ref]?).toList.map fun t => (env.traversal t).foldl setField .new
  | _ => []

theorem HoldsElements.cons {p : LuaValue × LuaValue} {pairs : List (LuaValue × LuaValue)}
    {es : List Element} (h : HoldsElements W (p :: pairs) es) :
    ∃ es₁ es₂, HoldsElements W [p] es₁ ∧ HoldsElements W pairs es₂ ∧ es = es₁ ++ es₂ := by
  have hrefs : elementRefs (p :: pairs) = elementRefs [p] ++ elementRefs pairs :=
    List.filterMap_append (l := [p])
  rw [HoldsElements, hrefs] at h
  exact ⟨_, _, (List.forall₂_take_append _ _ _ h.flip).flip,
    (List.forall₂_drop_append _ _ _ h.flip).flip, (List.take_append_drop _ es).symm⟩

theorem HoldsElements.commandsAt {p : LuaValue × LuaValue} {es : List Element}
    (h : HoldsElements W [p] es) : commandsAt env W p = es.map Element.cmd := by
  obtain ⟨key, v⟩ := p
  cases v with
  | table ref =>
    obtain ⟨t, e, ht, he, rfl⟩ := h.table
    simp [Dnp3.commandsAt, ht, foldl_setField he (env.traversal_perm t)]
  | _ =>
    cases h
    rfl

theorem HoldsElements.flatMap_commandsAt {pairs : List (LuaValue × LuaValue)} {es : List Element}
    (h : HoldsElements W pairs es) : pairs.flatMap (Dnp3.commandsAt env W) = es.map Element.cmd := by
  induction pairs generalizing es with
  | nil =>
    cases h
    rfl
  | cons p pairs ih =>
    obtain ⟨es₁, es₂, h₁, h₂, rfl⟩ := h.cons
    rw [List.flatMap_cons, h₁.commandsAt, ih h₂, List.map_append]

theorem HoldsElements.mem {pairs : List (LuaValue × LuaValue)} {es : List Element}
    (h : HoldsElements W pairs es) {p : LuaValue × LuaValue} (hp : p ∈ pairs) : ∃ es', HoldsElements W [p] es' := by
  induction pairs generalizing es with
  | nil => cases hp
  | cons q pairs ih =>
    obtain ⟨es₁, es₂, h₁, h₂, -⟩ := h.cons
    rcases List.mem_cons.mp hp with rfl | hp
    · exact ⟨es₁, h₁⟩
    · exact ih h₂ hp

/-- The loop over `data` reads its elements in the order of the traversal. -/
theorem readData_loop {data : ℕ} {t : LuaTable} {es : List Element}
    (ht : W.tables[data]? = some t) (hes : HoldsElements W (env.traversal t) es)
    (stack : List LuaValue) :
    Lua.whileNext env (readData env format) [] ⟨W, .nil :: .table data :: stack⟩ =
      .ok (es.map Element.cmd, ⟨W, .table data :: stack⟩) := by
  have hbody : ∀ p ∈ t.entries.entries, ∀ cmdList : List CmdStruct,
      readData env format cmdList ⟨W, p.2 :: p.1 :: .table data :: stack⟩ =
        .ok ((true, cmdList ++ commandsAt env W p), ⟨W, p.1 :: .table data :: stack⟩) := by
    intro p hp cmdList
    obtain ⟨es', h⟩ := hes.mem ((env.traversal_perm t).mem_iff.mpr hp)
    rw [readData_ok h, h.commandsAt]
  have hcmds : (env.traversal t).flatMap (commandsAt env W) = es.map Element.cmd :=
    hes.flatMap_commandsAt
  rw [Lua.whileNext_ok ht hbody, ← hcmds, List.flatMap_eq_foldl]

/-- The whole call: the elements are read and fired off. Four values stay on the stack, the
result of the script and what the look at the first entry has left. -/
theorem luaInvokeScript_eq {L : Lua} {f data : ℕ} {results : List LuaValue} {t : LuaTable}
    {es : List Element} (master : List Request)
    (hf : L.world.globals.get? "operate_outstation" = some (.function f))
    (hcall : env.callFunction f [] L.world = .ok (results, W))
    (hdata : W.globals.get? "data" = some (.table data)) (ht : W.tables[data]? = some t)
    {p : LuaValue × LuaValue} (hp : (env.traversal t).head? = some p)
    (hes : HoldsElements W (env.traversal t) es) :
    luaInvokeScript env format master L = (fireOffMasterCommand master (es.map Element.cmd)).map
      fun requests => (requests,
        ⟨W, p.2 :: p.1 :: .table data :: results.head?.getD .nil :: L.stack⟩) := by
  have hsucc : Lua.successor (env.traversal t) .nil = .ok (some p) := by
    rw [Lua.successor_nil, hp]
  have hfunction : Lua.getGlobal "operate_outstation" L =
      .ok ((), ⟨L.world, .function f :: L.stack⟩) := by
    rw [Lua.getGlobal, hf]
    rfl
  have hresult : Lua.call env 0 1 ⟨L.world, .function f :: L.stack⟩ =
      .ok ((), ⟨W, results.head?.getD .nil :: L.stack⟩) := by
    simp only [Lua.call, List.drop_zero, List.take_zero, List.reverse_nil, hcall, bind, Except.bind]
    cases results <;> rfl
  have htable (stack : List LuaValue) :
      Lua.getGlobal "data" ⟨W, stack⟩ = .ok ((), ⟨W, .table data :: stack⟩) := by
    rw [Lua.getGlobal, hdata]
    rfl
  have hnil (stack : List LuaValue) :
      Lua.pushNil ⟨W, stack⟩ = .ok ((), ⟨W, .nil :: stack⟩) := rfl
  rw [luaInvokeScript, Lua.bind_ok hfunction, Lua.bind_ok hresult, Lua.bind_ok (htable _),
    Lua.bind_ok (hnil _), Lua.bind_ok (Lua.next_some ht hsucc)]
  show readCommands env format master _ = _
  -- the second look at `data` starts above what the first one has left
  rw [readCommands, Lua.bind_ok (htable _), Lua.bind_ok (hnil _),
    Lua.bind_ok (readData_loop ht hes _), Lua.bind_ok (pop_one _ _)]
  rfl

end
end IcsTrafficGen.Dnp3
