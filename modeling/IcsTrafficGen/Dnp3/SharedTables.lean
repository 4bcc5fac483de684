import IcsTrafficGen.Dnp3.ConfigureDatabase
import IcsTrafficGen.Lib.CppString
import Mathlib.Data.List.Induction

/- What configuring the stations does to the tables they share. A variation is checked before
   it is looked up, so the variation tables stay as they are; a class is not, and a number that
   is no class is inserted (`tablesKept_iff`). A master that is set up later takes the new
   entry for a class. -/
namespace IcsTrafficGen.Dnp3

/-- The databases of the stations, configured one after the other. -/
def configureStations (env : ConfigureEnv) (nodes : List Node) : Tables × List DatabaseEntry :=
  nodes.foldl (fun s node =>
      let c := configureDatabase env s.1 node
      (c.tables, s.2 ++ c.view)) (.initial, [])

/-- The entry has the variations and a class that are listed. -/
structure DatabaseEntry.Listed (e : DatabaseEntry) : Prop where
  svariation : e.svariation ∈ (Tables.initial.sVarMap e.kind).values
  evariation : e.evariation ∈ (Tables.initial.eVarMap e.kind).values
  clazz : e.clazz ∈ Tables.initial.pointClassVarMap.values

/-- Everything that was written is listed, the tables are as they were, and so are the scans of
any master. -/
structure TablesKept (tables : Tables) (entries : List DatabaseEntry) : Prop where
  listed : ∀ e ∈ entries, e.Listed
  same : tables = .initial
  scans : ∀ pollPoints, addClassScans tables.pointClassVarMap pollPoints =
    addClassScans Tables.initial.pointClassVarMap pollPoints

/-- The class of a point is one of the four, if its type is one that is configured. -/
def HasClass (dp : DataPoint) : Prop :=
  (kindOf dp.pointType).isSome → 0 ≤ dp.eventClass ∧ dp.eventClass ≤ 3

/-! ## Looking up -/

section
variable {κ υ : Type} [LinearOrder κ]

theorem subscript_found {init v : υ} {map : Dict κ υ} {key : κ} (h : map.get? key = some v) :
    subscript init map key = (v, map) := by
  rw [subscript, h]

/-- Afterwards the key is there, and so are those that were there. -/
theorem mem_keys_subscript {init : υ} {map : Dict κ υ} {key k : κ} (h : k = key ∨ k ∈ map.keys) :
    k ∈ (subscript init map key).2.keys := by
  cases hget : map.get? key with
  | some v =>
    rw [subscript_found hget]
    rcases h with rfl | h
    · exact Dict.mem_keys.mpr ⟨v, hget⟩
    · exact h
  | none =>
    rw [subscript, hget]
    refine Dict.mem_keys.mpr ?_
    rw [Dict.get?_insert]
    split
    · exact ⟨init, rfl⟩
    · next hne => exact Dict.mem_keys.mp (h.resolve_left hne)

end

/-- A checked variation is in the table. -/
theorem checkedVariation_found {map : Dict Int GroupVariation} {fallback : Int}
    (h : (map.get? fallback).isSome) (variation : Int) :
    ∃ v, map.get? (checkedVariation map fallback variation) = some v := by
  rw [← Option.isSome_iff_exists, checkedVariation]
  split
  · next hfound => exact hfound
  · exact h

theorem pointClassVarMap_isSome (c : Int) :
    (Tables.initial.pointClassVarMap.get? (toString c)).isSome ↔ 0 ≤ c ∧ c ≤ 3 := by
  have hkeys : Tables.initial.pointClassVarMap.keys =
      [toString (0 : Int), toString (1 : Int), toString (2 : Int), toString (3 : Int)] := by decide
  have hinj (n : Int) : toString c = toString n ↔ c = n :=
    ⟨CppString.toString_inj, fun h => h ▸ rfl⟩
  rw [Option.isSome_iff_exists, ← Dict.mem_keys, hkeys]
  simp only [List.mem_cons, List.not_mem_nil, or_false, hinj]
  omega

/-! ## One point -/

theorem configurePoint_listed (env : ConfigureEnv) (kind : PointKind) {s : Configuring}
    {dp : DataPoint} (hs : s.tables = .initial) (hclass : 0 ≤ dp.eventClass ∧ dp.eventClass ≤ 3) :
    (configurePoint env kind s dp).tables = .initial ∧
      ∃ e, (configurePoint env kind s dp).view = s.view ++ [e] ∧ e.Listed := by
  have hfallbacks : ∀ kind : PointKind,
      ((Tables.initial.sVarMap kind).get? kind.fallback.1).isSome ∧
        ((Tables.initial.eVarMap kind).get? kind.fallback.2).isSome := by
    intro kind
    cases kind <;> decide
  obtain ⟨sv, hsv⟩ := checkedVariation_found (hfallbacks kind).1 dp.sVariation
  obtain ⟨ev, hev⟩ := checkedVariation_found (hfallbacks kind).2 dp.eVariation
  obtain ⟨c, hc⟩ := Option.isSome_iff_exists.mp ((pointClassVarMap_isSome dp.eventClass).mpr hclass)
  unfold configurePoint
  simp only [hs, subscript_found hsv, subscript_found hev, subscript_found hc,
    Function.update_eq_self]
  refine ⟨trivial, _, rfl, ?_⟩
  exact ⟨Dict.mem_values_of_get? hsv, Dict.mem_values_of_get? hev, Dict.mem_values_of_get? hc⟩

theorem configureDataPoint_listed (env : ConfigureEnv) {s : Configuring} {dp : DataPoint}
    (hs : s.tables = .initial) (hlisted : ∀ e ∈ s.view, e.Listed) (hclass : HasClass dp) :
    (configureDataPoint env s dp).tables = .initial ∧
      ∀ e ∈ (configureDataPoint env s dp).view, e.Listed := by
  unfold HasClass at hclass
  unfold configureDataPoint
  cases hkind : kindOf dp.pointType with
  | none => exact ⟨hs, hlisted⟩
  | some kind =>
    obtain ⟨htables, e, hview, he⟩ := configurePoint_listed env kind hs
      (hclass (by rw [hkind]; rfl))
    refine ⟨htables, ?_⟩
    show ∀ e ∈ (configurePoint env kind s dp).view, e.Listed
    rw [hview, List.forall_mem_append]
    exact ⟨hlisted, by simpa using he⟩

/-- A class that was looked up stays in the table. -/
theorem configureDataPoint_keys {env : ConfigureEnv} {s : Configuring} {dp : DataPoint} {k : String}
    (h : k ∈ s.tables.pointClassVarMap.keys ∨
      (kindOf dp.pointType).isSome ∧ k = toString dp.eventClass) :
    k ∈ (configureDataPoint env s dp).tables.pointClassVarMap.keys := by
  unfold configureDataPoint
  cases hkind : kindOf dp.pointType with
  | none =>
    rw [hkind] at h
    exact h.resolve_right (by simp)
  | some kind => exact mem_keys_subscript (h.symm.imp_left And.right)

/-! ## A station -/

section
variable {env : ConfigureEnv}

variable (env) in
theorem configureDataPoints_listed {points : List DataPoint} {s : Configuring}
    (hs : s.tables = .initial) (hlisted : ∀ e ∈ s.view, e.Listed)
    (h : ∀ dp ∈ points, HasClass dp) :
    (points.foldl (configureDataPoint env) s).tables = .initial ∧
      ∀ e ∈ (points.foldl (configureDataPoint env) s).view, e.Listed := by
  induction points generalizing s with
  | nil => exact ⟨hs, hlisted⟩
  | cons dp points ih =>
    obtain ⟨hdp, h⟩ := List.forall_mem_cons.mp h
    obtain ⟨hs, hlisted⟩ := configureDataPoint_listed env hs hlisted hdp
    exact ih hs hlisted h

/-- A key of the class table stays, and the class of every point that is configured becomes one. -/
theorem configureDataPoints_keys {points : List DataPoint} {s : Configuring} {k : String}
    (h : k ∈ s.tables.pointClassVarMap.keys ∨
      ∃ dp ∈ points, (kindOf dp.pointType).isSome ∧ k = toString dp.eventClass) :
    k ∈ (points.foldl (configureDataPoint env) s).tables.pointClassVarMap.keys := by
  induction points generalizing s with
  | nil => exact h.resolve_right (by simp)
  | cons dp points ih =>
    apply ih
    rcases h with h | ⟨dp', hmem, hdp'⟩
    · exact Or.inl (configureDataPoint_keys (Or.inl h))
    · rcases List.mem_cons.mp hmem with rfl | hmem
      · exact Or.inl (configureDataPoint_keys (Or.inr hdp'))
      · exact Or.inr ⟨dp', hmem, hdp'⟩

/-- The indexes that the station records do not depend on the tables. -/
theorem configureDatabase_dpTypeIndexMap (tables : Tables) (node : Node) :
    (configureDatabase env tables node).dpTypeIndexMap = dpTypeIndexMap node := by
  have hkind (dp : DataPoint) : (kindOf dp.pointType).isSome ↔ dp.pointType ∈ recordedTypes := by
    unfold kindOf recordedTypes
    split_ifs <;> simp_all
  have hpoint (s : Configuring) (dp : DataPoint) : (configureDataPoint env s dp).dpTypeIndexMap =
      if dp.pointType ∈ recordedTypes then s.dpTypeIndexMap.insert dp.pointType
        (dp.index :: (s.dpTypeIndexMap.get? dp.pointType).getD []) else s.dpTypeIndexMap := by
    cases hk : kindOf dp.pointType with
    | none =>
      have hother : dp.pointType ∉ recordedTypes := by rw [← hkind, hk]; simp
      rw [if_neg hother, configureDataPoint, hk]
    | some kind =>
      have hrecorded : dp.pointType ∈ recordedTypes := by rw [← hkind, hk]; rfl
      rw [if_pos hrecorded, configureDataPoint, hk]
      rfl
  have hpoints : ∀ (points : List DataPoint) (s : Configuring),
      (points.foldl (configureDataPoint env) s).dpTypeIndexMap = points.foldl (fun d dp =>
        if dp.pointType ∈ recordedTypes then
          d.insert dp.pointType (dp.index :: (d.get? dp.pointType).getD []) else d)
        s.dpTypeIndexMap := by
    intro points
    induction points with
    | nil => exact fun s => rfl
    | cons dp points ih =>
      intro s
      rw [List.foldl_cons, ih, hpoint, List.foldl_cons]
  exact hpoints node.dataPoints _

/-! ## All stations -/

theorem configureStations_append (nodes : List Node) (node : Node) :
    configureStations env (nodes ++ [node]) =
      ((configureDatabase env (configureStations env nodes).1 node).tables,
        (configureStations env nodes).2 ++
          (configureDatabase env (configureStations env nodes).1 node).view) := by
  rw [configureStations, List.foldl_append]
  rfl

variable (env) in
theorem configureStations_listed {nodes : List Node}
    (h : ∀ node ∈ nodes, ∀ dp ∈ node.dataPoints, HasClass dp) :
    (configureStations env nodes).1 = .initial ∧
      ∀ e ∈ (configureStations env nodes).2, e.Listed := by
  induction nodes using List.reverseRecOn with
  | nil => exact ⟨rfl, by simp [configureStations]⟩
  | append_singleton nodes node ih =>
    obtain ⟨hnodes, hnode⟩ := List.forall_mem_append.mp h
    obtain ⟨htables, hlisted⟩ := ih hnodes
    rw [configureStations_append]
    have hview := configureDataPoints_listed env
      (s := { tables := (configureStations env nodes).1, view := [], dpTypeIndexMap := .empty })
      htables (by simp) (hnode node List.mem_cons_self)
    exact ⟨hview.1, List.forall_mem_append.mpr ⟨hlisted, hview.2⟩⟩

variable (env) in
theorem configureStations_keys {nodes : List Node} {node : Node} (hnode : node ∈ nodes)
    {dp : DataPoint} (hdp : dp ∈ node.dataPoints) (hkind : (kindOf dp.pointType).isSome) :
    toString dp.eventClass ∈ (configureStations env nodes).1.pointClassVarMap.keys := by
  induction nodes using List.reverseRecOn with
  | nil => cases hnode
  | append_singleton nodes last ih =>
    rw [configureStations_append]
    apply configureDataPoints_keys
    rcases List.mem_append.mp hnode with hnode | hnode
    · exact Or.inl (ih hnode)
    · cases List.mem_singleton.mp hnode
      exact Or.inr ⟨dp, hdp, hkind, rfl⟩

/-- Configuring stations writes listed variations and classes and leaves the tables, and with them
the scans of all masters, as they were, exactly if every point that is configured has one of the
four classes. The indexes that a station records are those of its own points, whatever the tables
have become. -/
theorem tablesKept_iff (nodes : List Node) :
    (TablesKept (configureStations env nodes).1 (configureStations env nodes).2 ↔
      ∀ node ∈ nodes, ∀ dp ∈ node.dataPoints, HasClass dp) ∧
    ∀ node, (configureDatabase env (configureStations env nodes).1 node).dpTypeIndexMap =
      dpTypeIndexMap node := by
  refine ⟨?_, configureDatabase_dpTypeIndexMap _⟩
  constructor
  · intro h node hnode dp hdp hkind
    have hmem := configureStations_keys env hnode hdp hkind
    rw [h.same, Dict.mem_keys, ← Option.isSome_iff_exists, pointClassVarMap_isSome] at hmem
    exact hmem
  · intro h
    obtain ⟨htables, hlisted⟩ := configureStations_listed env h
    exact ⟨hlisted, htables, fun _ => by rw [htables]⟩

end

/-! ## A class that is none -/

/-- An outstation with one analog point of a class. -/
def classNode (eventClass : Int) : Node :=
  { Node.new with dataPoints :=
      [{ DataPoint.new with eventClass := eventClass, pointType := "Analog Input" }] }

/-- A library whose classes are named from 1 on. -/
def unnamedZero : ConfigureEnv :=
  { zeroVariation := ⟨30, 1⟩, zeroClass := .other 0, readFloat := fun _ => none }

/-- After a point with the class 7 the table has a fifth class, and a master that polls the class
"7" gets a scan. -/
theorem class_inserted :
    addClassScans Tables.initial.pointClassVarMap [{ frequency := 5, eventClass := "7" }] = [] ∧
    addClassScans (configureStations unnamedZero [classNode 7]).1.pointClassVarMap
      [{ frequency := 5, eventClass := "7" }] = [(.ofClass (.other 0), 5)] ∧
    ¬ TablesKept (configureStations unnamedZero [classNode 7]).1
      (configureStations unnamedZero [classNode 7]).2 := by
  have hbefore : addClassScans Tables.initial.pointClassVarMap
      [{ frequency := 5, eventClass := "7" }] = [] := by decide
  have hafter : addClassScans (configureStations unnamedZero [classNode 7]).1.pointClassVarMap
      [{ frequency := 5, eventClass := "7" }] = [(.ofClass (.other 0), 5)] := by decide +kernel
  refine ⟨hbefore, hafter, fun h => ?_⟩
  have hsame := h.scans [{ frequency := 5, eventClass := "7" }]
  rw [hbefore, hafter] at hsame
  exact List.cons_ne_nil _ _ hsame

end IcsTrafficGen.Dnp3
