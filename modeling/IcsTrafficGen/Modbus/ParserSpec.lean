import IcsTrafficGen.Modbus.CfgJsonParser
import Mathlib.Data.List.Dedup

/- What each function of the parser says about the configuration when it returns. The
   fields of an outstation are read by `field`, which needs no exceptions; where a
   parser function returns, it has found every outstation it was given to be an
   object, and has the values of `field`. -/
namespace IcsTrafficGen.Modbus

/-! ## Fields -/

/-- `cfg[name].get(key, default)` where it does not raise. -/
def field (cfg : Config) (key : String) (default : Json) (name : String) : Json :=
  match cfg.get? name with
  | some (.obj fields) => ((Dict.ofList fields).get? key).getD default
  | _ => default

/-- The key a value is, where it is one. -/
def keyOf : Json → Scalar
  | .scalar s => s
  | _ => .null

def idOf (cfg : Config) (name : String) : Scalar := keyOf (field cfg "Unit ID" (.num 0) name)

def countOf (cfg : Config) (name : String) : Json := field cfg "Data Count" (.num 10) name

def ipOf (cfg : Config) (name : String) : Json := field cfg "IP Address" .null name

def portOf (cfg : Config) (name : String) : Scalar := keyOf (field cfg "Port" .null name)

/-- The name is that of an object of the configuration. -/
def IsObject (cfg : Config) (name : String) : Prop := ∃ fields, cfg.get? name = some (.obj fields)

def IsScalar (j : Json) : Prop := ∃ s, j = .scalar s

/-- What all entries of a literal configuration have in a field, any outstation has there. -/
theorem field_ofList {l : List (String × Json)} {key : String} {default : Json} {P : Json → Prop}
    (name : String) (hdefault : P default) (h : ∀ e ∈ l, ∀ fields, e.2 = .obj fields →
      P (((Dict.ofList fields).get? key).getD default)) :
    P (field (Dict.ofList l) key default name) := by
  unfold field
  split
  · next fields hfields => exact h _ (Dict.mem_of_get?_ofList hfields) fields rfl
  · exact hdefault

theorem outstationGet_iff {cfg : Config} {key : String} {default : Json} (name : String) (j : Json) :
    outstationGet cfg key default name = .ok j ↔ IsObject cfg name ∧ j = field cfg key default name := by
  unfold outstationGet outstationDict field IsObject
  rw [Fallible.bind_ok]
  cases cfg.get? name with
  | none => simp
  | some v =>
    cases v with
    | obj fields => simpa [Json.asDict, Fallible.pure_ok] using eq_comm
    | _ => simp [Json.asDict]

theorem mapM_outstationGet_iff {cfg : Config} {key : String} {default : Json} {names : List String}
    {js : List Json} :
    names.mapM (outstationGet cfg key default) = .ok js ↔
      (∀ name ∈ names, IsObject cfg name) ∧ js = names.map (field cfg key default) :=
  Fallible.mapM_ok_map outstationGet_iff

theorem hash_iff (j : Json) (s : Scalar) : j.hash = .ok s ↔ IsScalar j ∧ s = keyOf j := by
  rw [Json.hash_ok]
  constructor
  · intro h
    subst h
    exact ⟨⟨s, rfl⟩, rfl⟩
  · intro h
    obtain ⟨⟨t, rfl⟩, rfl⟩ := h
    rfl

/-- The keys of a field of all outstations. -/
theorem mapM_hash_iff {cfg : Config} {key : String} {default : Json} {names : List String}
    {keys : List Scalar} :
    (names.map (field cfg key default)).mapM Json.hash = .ok keys ↔
      (∀ name ∈ names, IsScalar (field cfg key default name)) ∧
        keys = names.map fun name => keyOf (field cfg key default name) := by
  rw [Fallible.mapM_ok_map hash_iff, List.forall_mem_map, List.map_map]
  rfl

theorem dedup_length_le_one {α : Type} [DecidableEq α] {l : List α} :
    ¬ 1 < l.dedup.length ↔ ∀ a ∈ l, ∀ b ∈ l, a = b := by
  constructor
  · intro hlen a ha b hb
    rw [← List.mem_dedup] at ha hb
    match hd : l.dedup with
    | [] => simp [hd] at ha
    | [c] => rw [hd, List.mem_singleton] at ha hb; rw [ha, hb]
    | _ :: _ :: _ => simp [hd] at hlen
  · intro hall hlen
    match hd : l.dedup with
    | [] => simp [hd] at hlen
    | [c] => simp [hd] at hlen
    | a :: b :: rest =>
      have hnodup := hd ▸ l.nodup_dedup
      have hmem : ∀ c ∈ a :: b :: rest, c ∈ l := fun c hc => List.mem_dedup.mp (hd ▸ hc)
      exact (List.nodup_cons.mp hnodup).1 (hall a (hmem a (by simp)) b (hmem b (by simp)) ▸ by simp)

theorem commonField_iff {cfg : Config} {key : String} {default : Json} {names : List String}
    {keys : List Scalar} :
    commonField cfg key default names = .ok keys ↔
      (∀ name ∈ names, IsObject cfg name) ∧
      (∀ name ∈ names, IsScalar (field cfg key default name)) ∧
      (∀ s ∈ names, ∀ t ∈ names, keyOf (field cfg key default s) = keyOf (field cfg key default t)) ∧
      keys = names.map fun name => keyOf (field cfg key default name) := by
  have hsame : (∀ s ∈ names, ∀ t ∈ names,
      keyOf (field cfg key default s) = keyOf (field cfg key default t)) ↔
      ¬ 1 < (names.map fun name => keyOf (field cfg key default name)).dedup.length := by
    simp only [dedup_length_le_one, List.forall_mem_map]
  simp only [commonField, Fallible.bind_ok, mapM_outstationGet_iff, hsame]
  constructor
  · intro h
    obtain ⟨_, ⟨hobj, rfl⟩, _, hkeys, h⟩ := h
    obtain ⟨hscalar, rfl⟩ := mapM_hash_iff.mp hkeys
    split at h
    · cases h
    · next hlen => exact ⟨hobj, hscalar, hlen, (Fallible.pure_ok.mp h).symm⟩
  · intro h
    obtain ⟨hobj, hscalar, hlen, rfl⟩ := h
    refine ⟨_, ⟨hobj, rfl⟩, _, mapM_hash_iff.mpr ⟨hscalar, rfl⟩, ?_⟩
    rw [if_neg hlen]
    rfl

/-- The outstations have a common port, or none. -/
structure CommonPort (cfg : Config) (names : List String) : Prop where
  object : ∀ name ∈ names, IsObject cfg name
  scalar : ∀ name ∈ names, IsScalar (field cfg "Port" .null name)
  same : ∀ s ∈ names, ∀ t ∈ names, portOf cfg s = portOf cfg t

theorem getOutstationPort_iff {cfg : Config} {names : List String} {port : Scalar} :
    getOutstationPort cfg names = .ok port ↔
      CommonPort cfg names ∧ port = choosePort (names.map (portOf cfg)) := by
  simp only [getOutstationPort, Fallible.bind_ok, commonField_iff, Fallible.pure_ok]
  constructor
  · intro h
    obtain ⟨_, ⟨hobj, hscalar, hsame, rfl⟩, rfl⟩ := h
    exact ⟨⟨hobj, hscalar, hsame⟩, rfl⟩
  · intro h
    obtain ⟨⟨hobj, hscalar, hsame⟩, rfl⟩ := h
    exact ⟨_, ⟨hobj, hscalar, hsame, rfl⟩, rfl⟩

theorem getOutstationPort_ok {cfg : Config} {names : List String} {port : Scalar}
    (h : getOutstationPort cfg names = .ok port) :
    port = choosePort (names.map (portOf cfg)) ∧
      ∀ s ∈ names, ∀ t ∈ names, portOf cfg s = portOf cfg t := by
  obtain ⟨hport, rfl⟩ := getOutstationPort_iff.mp h
  exact ⟨rfl, hport.same⟩

/-- The outstations are objects with unit ids that can be keys. -/
structure HasIds (cfg : Config) (names : List String) : Prop where
  object : ∀ name ∈ names, IsObject cfg name
  scalar : ∀ name ∈ names, IsScalar (field cfg "Unit ID" (.num 0) name)

theorem getOutstationDatastore_iff {cfg : Config} {names : List String} {d : Dict Scalar Json} :
    getOutstationDatastore cfg names = .ok d ↔
      HasIds cfg names ∧ d = Dict.ofList (names.map fun name => (idOf cfg name, countOf cfg name)) := by
  have hentry : ∀ (name : String) (e : Scalar × Json),
      (do
        let id ← unitId cfg name
        let count ← dataCount cfg name
        let key ← id.hash
        pure (key, count) : Py (Scalar × Json)) = .ok e ↔
        (IsObject cfg name ∧ IsScalar (field cfg "Unit ID" (.num 0) name)) ∧
          e = (idOf cfg name, countOf cfg name) := by
    intro name e
    simp only [Fallible.bind_ok, Fallible.pure_ok, unitId, dataCount, outstationGet_iff, hash_iff]
    constructor
    · intro h
      obtain ⟨_, ⟨hobj, rfl⟩, _, ⟨-, rfl⟩, _, ⟨hscalar, rfl⟩, rfl⟩ := h
      exact ⟨⟨hobj, hscalar⟩, rfl⟩
    · intro h
      obtain ⟨⟨hobj, hscalar⟩, rfl⟩ := h
      exact ⟨_, ⟨hobj, rfl⟩, _, ⟨hobj, rfl⟩, _, ⟨hscalar, rfl⟩, rfl⟩
  simp only [getOutstationDatastore, Fallible.bind_ok, Fallible.pure_ok,
    Fallible.mapM_ok_map hentry]
  constructor
  · intro h
    obtain ⟨_, ⟨hall, rfl⟩, rfl⟩ := h
    exact ⟨⟨fun name hname => (hall name hname).1, fun name hname => (hall name hname).2⟩, rfl⟩
  · intro h
    obtain ⟨⟨hobj, hscalar⟩, rfl⟩ := h
    exact ⟨_, ⟨fun name hname => ⟨hobj name hname, hscalar name hname⟩, rfl⟩, rfl⟩

theorem getOutstationDatastore_ok {cfg : Config} {names : List String} {d : Dict Scalar Json}
    (h : getOutstationDatastore cfg names = .ok d) :
    d = Dict.ofList (names.map (fun name => (idOf cfg name, countOf cfg name))) :=
  (getOutstationDatastore_iff.mp h).2

/-- The unit ids are different, and the largest is at most 247. -/
def GoodIds (ids : List Scalar) : Prop :=
  ids.Nodup ∧ ∃ top n, Scalar.max ids = .ok top ∧ top.int = .ok n ∧ n ≤ 247

theorem getOutstationUnitids_iff {cfg : Config} {names : List String} {d : Dict String Scalar} :
    getOutstationUnitids cfg names = .ok d ↔
      HasIds cfg names ∧ GoodIds d.values ∧
        d = Dict.ofList (names.map fun name => (name, idOf cfg name)) := by
  have hzip : names.zip (names.map fun name => keyOf (field cfg "Unit ID" (.num 0) name)) =
      names.map fun name => (name, idOf cfg name) := by
    have hzip := List.zip_map' (f := id) (g := idOf cfg) (l := names)
    rwa [List.map_id] at hzip
  simp only [getOutstationUnitids, Fallible.bind_ok, unitId]
  constructor
  · intro h
    obtain ⟨_, hids, _, hkeys, h⟩ := h
    obtain ⟨hobj, rfl⟩ := mapM_outstationGet_iff.mp hids
    obtain ⟨hscalar, rfl⟩ := mapM_hash_iff.mp hkeys
    rw [hzip] at h
    split at h
    · cases h
    · next hnodup =>
      obtain ⟨top, htop, h⟩ := Fallible.bind_ok.mp h
      obtain ⟨n, hn, h⟩ := Fallible.bind_ok.mp h
      split at h
      · obtain ⟨-, -, h⟩ := Fallible.bind_ok.mp h
        cases h
      · next hle =>
        cases Fallible.pure_ok.mp h
        exact ⟨⟨hobj, hscalar⟩, ⟨not_not.mp hnodup, top, n, htop, hn, not_lt.mp hle⟩, rfl⟩
  · intro h
    obtain ⟨⟨hobj, hscalar⟩, ⟨hnodup, top, n, htop, hn, hle⟩, rfl⟩ := h
    refine ⟨_, mapM_outstationGet_iff.mpr ⟨hobj, rfl⟩, _, mapM_hash_iff.mpr ⟨hscalar, rfl⟩, ?_⟩
    rw [hzip, if_neg (not_not.mpr hnodup)]
    refine Fallible.bind_ok.mpr ⟨top, htop, Fallible.bind_ok.mpr ⟨n, hn, ?_⟩⟩
    rw [if_neg (not_lt.mpr hle)]
    rfl

theorem getOutstationUnitids_ok {cfg : Config} {names : List String} {d : Dict String Scalar}
    (h : getOutstationUnitids cfg names = .ok d) :
    d = Dict.ofList (names.map (fun name => (name, idOf cfg name))) ∧ d.values.Nodup ∧
      ∀ i : Int, .num i ∈ d.values → i ≤ 247 := by
  obtain ⟨-, ⟨hnodup, top, n, htop, hn, hle⟩, hd⟩ := getOutstationUnitids_iff.mp h
  refine ⟨hd, hnodup, fun i hi => ?_⟩
  obtain ⟨p, rfl, hip⟩ := Scalar.le_max htop hi
  have := Scalar.le_int hn hip
  omega

/-! ## Interfaces -/

/-- Whether the call of `ifconfig` comes back depends on the interface and the address and
not on the number behind the interface. -/
def Env.Brings (env : Env) (starts : String → String → Prop) : Prop :=
  ∀ interface n ip, env.ifconfig (interface ++ ":" ++ toString (n : ℕ)) ip = none ↔
    starts interface ip

/-- The interface of the configuration can have the address. -/
def Allocates (cfg : Config) (starts : String → String → Prop) (ip : Json) : Prop :=
  ∃ interface a, virtualInterface cfg = .ok interface ∧ ip = .scalar (.str a) ∧ starts interface a

/-- What `allocate` does: the generator keeps its addresses. -/
theorem allocate_iff {env : Env} {cfg : Config} {ip : Json} {vnic : Option String} {w w' : World} :
    allocate env cfg ip w = .ok vnic w' ↔
      ∃ interface a, virtualInterface cfg = .ok interface ∧ ip = .scalar (.str a) ∧
        env.ifconfig (interface ++ ":" ++ toString w.vnictrack) a = none ∧
        vnic = some (interface ++ ":" ++ toString w.vnictrack) ∧
        w' = { w with
          vnictrack := w.vnictrack + 1
          up := w.up ++ [(interface ++ ":" ++ toString w.vnictrack, a)] } := by
  constructor
  · intro h
    obtain ⟨interface, hinterface, h⟩ := PyM.lift_bind_ok.mp h
    obtain ⟨_, _, hget, h⟩ := PyM.bind_ok.mp h
    cases hget
    obtain ⟨_, w₁, hcall, h⟩ := PyM.bind_ok.mp h
    obtain ⟨rfl, rfl⟩ := PyM.pure_ok.mp h
    match ip with
    | .scalar (.str a) =>
      simp only [callIfconfig] at hcall
      split at hcall
      · cases hcall
      · next hnone =>
        cases hcall
        exact ⟨interface, a, hinterface, rfl, hnone, rfl, rfl⟩
    | .scalar .null | .scalar (.num _) | .arr _ | .obj _ => cases hcall
  · intro h
    obtain ⟨interface, a, hinterface, rfl, hcall, rfl, rfl⟩ := h
    refine PyM.lift_bind_ok.mpr ⟨interface, hinterface, ?_⟩
    refine PyM.bind_ok.mpr ⟨w, w, rfl, PyM.bind_ok.mpr ⟨(), _, ?_, rfl⟩⟩
    simp only [callIfconfig, hcall]

theorem exists_allocate {env : Env} {cfg : Config} {starts : String → String → Prop}
    (hstarts : env.Brings starts) {ip : Json} {w : World} :
    (∃ vnic w', allocate env cfg ip w = .ok vnic w') ↔ Allocates cfg starts ip := by
  constructor
  · intro h
    obtain ⟨vnic, w', h⟩ := h
    obtain ⟨interface, a, hinterface, hip, hcall, -⟩ := allocate_iff.mp h
    exact ⟨interface, a, hinterface, hip, (hstarts _ _ _).mp hcall⟩
  · intro h
    obtain ⟨interface, a, hinterface, hip, hcall⟩ := h
    exact ⟨_, _, allocate_iff.mpr
      ⟨interface, a, hinterface, hip, (hstarts _ _ _).mpr hcall, rfl, rfl⟩⟩

/-- A node gets no interface where an address is configured for one of its outstations. -/
theorem outstationVnic_iff {env : Env} {cfg : Config} {key : Scalar} {names : List String}
    {vnic : Option String} {w w' : World} :
    outstationVnic env cfg key names w = .ok vnic w' ↔
      (∀ name ∈ names, IsObject cfg name) ∧
        ((∃ name ∈ names, (ipOf cfg name).truthy = true) ∧ vnic = none ∧ w' = w ∨
          (∀ name ∈ names, (ipOf cfg name).truthy = false) ∧
            allocate env cfg (.scalar key) w = .ok vnic w') := by
  have hany : (names.map (field cfg "IP Address" .null)).any Json.truthy = true ↔
      ∃ name ∈ names, (ipOf cfg name).truthy = true := by simp [ipOf]
  constructor
  · intro h
    obtain ⟨ips, hips, h⟩ := PyM.lift_bind_ok.mp h
    obtain ⟨hobj, rfl⟩ := mapM_outstationGet_iff.mp hips
    refine ⟨hobj, ?_⟩
    split at h
    · next htruthy =>
      obtain ⟨rfl, rfl⟩ := PyM.pure_ok.mp h
      exact Or.inl ⟨hany.mp htruthy, rfl, rfl⟩
    · next hfalsy => exact Or.inr ⟨by simpa [ipOf] using hfalsy, h⟩
  · intro h
    obtain ⟨hobj, h⟩ := h
    refine PyM.lift_bind_ok.mpr ⟨_, mapM_outstationGet_iff.mpr ⟨hobj, rfl⟩, ?_⟩
    obtain ⟨htruthy, rfl, rfl⟩ | ⟨hfalsy, h⟩ := h
    · rw [if_pos (hany.mpr htruthy)]
      rfl
    · rw [if_neg (mt hany.mp (by simpa using hfalsy))]
      exact h

/-! ## Outstations -/

theorem cidrAddrOf_ok {addrs : Dict String String} {name addr : String} :
    cidrAddrOf addrs name = .ok addr ↔ addrs.get? name = some addr := by
  unfold cidrAddrOf
  cases addrs.get? name <;> simp

/-- The address at which an outstation ends up. -/
inductive HostedAt (cfg : Config) (st : ParserState) (name : String) (key : Scalar) : Prop
  | configured (htruthy : (ipOf cfg name).truthy = true) (hip : ipOf cfg name = .scalar key)
  | generated (a : String) (hfalsy : (ipOf cfg name).truthy = false)
      (haddr : st.outstationCidrAddrs.get? name = some a) (hkey : key = .str a)

theorem hostAddr_iff {cfg : Config} {st : ParserState} {name : String} {key : Scalar} :
    hostAddr cfg st name = .ok key ↔ IsObject cfg name ∧ HostedAt cfg st name key := by
  constructor
  · intro h
    obtain ⟨ip, hip, h⟩ := Fallible.bind_ok.mp h
    obtain ⟨hobj, rfl⟩ := (outstationGet_iff name ip).mp hip
    refine ⟨hobj, ?_⟩
    split at h
    · next htruthy => exact .configured htruthy (Json.hash_ok.mp h)
    · next hfalsy =>
      obtain ⟨a, ha, h⟩ := Fallible.bind_ok.mp h
      have hkey := (Fallible.pure_ok.mp h).symm
      exact .generated a (by simpa [ipOf] using hfalsy) (cidrAddrOf_ok.mp ha) hkey
  · intro h
    obtain ⟨hobj, hat⟩ := h
    refine Fallible.bind_ok.mpr ⟨ipOf cfg name, (outstationGet_iff name _).mpr ⟨hobj, rfl⟩, ?_⟩
    cases hat with
    | configured htruthy hip =>
      rw [if_pos htruthy]
      exact Json.hash_ok.mpr hip
    | generated a hfalsy haddr hkey =>
      rw [if_neg (by simp [hfalsy])]
      exact Fallible.bind_ok.mpr ⟨a, cidrAddrOf_ok.mpr haddr, Fallible.pure_ok.mpr hkey.symm⟩

theorem hostAddr_ok {cfg : Config} {st : ParserState} {name : String} {key : Scalar}
    (h : hostAddr cfg st name = .ok key) : HostedAt cfg st name key := (hostAddr_iff.mp h).2

theorem HostedAt.of_truthy {cfg : Config} {st : ParserState} {name : String} {key : Scalar}
    (h : HostedAt cfg st name key) (htruthy : (ipOf cfg name).truthy = true) :
    ipOf cfg name = .scalar key := by
  cases h with
  | configured _ hip => exact hip
  | generated _ hfalsy _ _ =>
    rw [hfalsy] at htruthy
    cases htruthy

theorem HostedAt.of_falsy {cfg : Config} {st : ParserState} {name : String} {key : Scalar}
    (h : HostedAt cfg st name key) (hfalsy : (ipOf cfg name).truthy = false) :
    ∃ a, st.outstationCidrAddrs.get? name = some a ∧ key = .str a := by
  cases h with
  | configured htruthy _ =>
    rw [hfalsy] at htruthy
    cases htruthy
  | generated a _ haddr hkey => exact ⟨a, haddr, hkey⟩

/-- The address of an outstation, where the second loop finds one. -/
def keyAt (cfg : Config) (st : ParserState) (name : String) : Scalar :=
  match hostAddr cfg st name with
  | .ok key => key
  | .error _ => .null

theorem groupOutstation_ok {cfg : Config} {st : ParserState} {m m' : Dict Scalar (List String)}
    {name : String} (h : groupOutstation cfg st m name = .ok m') :
    hostAddr cfg st name = .ok (keyAt cfg st name) ∧
      m' = m.set (keyAt cfg st name) ((m.get? (keyAt cfg st name)).getD [] ++ [name]) := by
  obtain ⟨key, hkey, h⟩ := Fallible.bind_ok.mp h
  have : keyAt cfg st name = key := by rw [keyAt, hkey]
  rw [this]
  exact ⟨hkey, (Fallible.pure_ok.mp h).symm⟩

/-- The second loop puts every outstation into the list of its address. -/
theorem groupOutstations_ok {cfg : Config} {st : ParserState} {l : List String}
    {m m' : Dict Scalar (List String)} (h : l.foldlM (groupOutstation cfg st) m = .ok m') :
    (∀ name ∈ l, hostAddr cfg st name = .ok (keyAt cfg st name)) ∧
      (∀ key, (m'.get? key).getD [] =
        (m.get? key).getD [] ++ l.filter (fun name => keyAt cfg st name = key)) ∧
      ((∀ key names, m.get? key = some names → names ≠ []) →
        ∀ key names, m'.get? key = some names → names ≠ []) := by
  induction l generalizing m with
  | nil =>
    rw [Fallible.pure_ok.mp h]
    simp
  | cons name l ih =>
    obtain ⟨m₁, h₁, h⟩ := Fallible.bind_ok.mp h
    obtain ⟨haddr, rfl⟩ := groupOutstation_ok h₁
    obtain ⟨hall, hget, hne⟩ := ih h
    refine ⟨List.forall_mem_cons.mpr ⟨haddr, hall⟩, fun key => ?_, fun h0 => hne ?_⟩
    · rw [hget, Dict.get?_set]
      by_cases hkey : keyAt cfg st name = key
      · simp [hkey]
      · have hkey' : ¬ key = keyAt cfg st name := fun e => hkey e.symm
        simp [hkey, hkey']
    · intro key names hnames
      rw [Dict.get?_set] at hnames
      split at hnames
      · cases hnames
        simp
      · exact h0 key names hnames

/-- The node `n` is the one made for the address and the list of the entry `e`. -/
structure NodeOf (cfg : Config) (e : Scalar × List String) (n : OutstationNode) : Prop where
  names : n.names = e.2
  ipaddr : n.ipaddr = e.1
  port : getOutstationPort cfg e.2 = .ok n.port
  simulate : getOutstationSim cfg e.2 = .ok n.simulate
  datastore : getOutstationDatastore cfg e.2 = .ok n.datastore
  nameIdMap : getOutstationUnitids cfg e.2 = .ok n.nameIdMap

theorem ipaddrs_eq {cfg : Config} {es : List (Scalar × List String)} {nodes : List OutstationNode}
    (h : List.Forall₂ (NodeOf cfg) es nodes) :
    nodes.map (fun n => n.ipaddr) = es.map Prod.fst := by
  induction h with
  | nil => rfl
  | cons hn _ ih => rw [List.map_cons, List.map_cons, ih, hn.ipaddr]

/-- The node `n` is made of the entry `e` in the world `w`. -/
structure MakesNode (env : Env) (cfg : Config) (e : Scalar × List String) (n : OutstationNode)
    (w w' : World) : Prop extends NodeOf cfg e n where
  interface : outstationVnic env cfg e.1 e.2 w = .ok n.vnic w'
  printable : n.port.formatInt = .ok ()

theorem outstationNode_iff {env : Env} {cfg : Config} {nodes nodes' : List OutstationNode} {e : Scalar × List String}
    {w w' : World} :
    outstationNode env cfg nodes e w = .ok nodes' w' ↔
      ∃ n, nodes' = nodes ++ [n] ∧ MakesNode env cfg e n w w' := by
  constructor
  · intro h
    obtain ⟨port, hport, h⟩ := PyM.lift_bind_ok.mp h
    obtain ⟨simulate, hsim, h⟩ := PyM.lift_bind_ok.mp h
    obtain ⟨datastore, hdatastore, h⟩ := PyM.lift_bind_ok.mp h
    obtain ⟨nameIdMap, hids, h⟩ := PyM.lift_bind_ok.mp h
    obtain ⟨vnic, w₁, hvnic, h⟩ := PyM.bind_ok.mp h
    obtain ⟨⟨⟩, hprint, h⟩ := PyM.lift_bind_ok.mp h
    obtain ⟨rfl, rfl⟩ := PyM.pure_ok.mp h
    exact ⟨_, rfl, ⟨rfl, rfl, hport, hsim, hdatastore, hids⟩, hvnic, hprint⟩
  · intro h
    obtain ⟨n, rfl, hn⟩ := h
    refine PyM.lift_bind_ok.mpr ⟨_, hn.port, ?_⟩
    refine PyM.lift_bind_ok.mpr ⟨_, hn.simulate, ?_⟩
    refine PyM.lift_bind_ok.mpr ⟨_, hn.datastore, ?_⟩
    refine PyM.lift_bind_ok.mpr ⟨_, hn.nameIdMap, ?_⟩
    refine PyM.bind_ok.mpr ⟨_, w', hn.interface, ?_⟩
    refine PyM.lift_bind_ok.mpr ⟨(), hn.printable, ?_⟩
    refine PyM.pure_ok.mpr ⟨?_, rfl⟩
    rw [← hn.names, ← hn.ipaddr]

theorem outstationNode_ok {env : Env} {cfg : Config} {nodes nodes' : List OutstationNode}
    {e : Scalar × List String} {w w' : World}
    (h : outstationNode env cfg nodes e w = .ok nodes' w') :
    ∃ n, nodes' = nodes ++ [n] ∧ NodeOf cfg e n := by
  obtain ⟨n, hnodes, hn⟩ := outstationNode_iff.mp h
  exact ⟨n, hnodes, hn.toNodeOf⟩

theorem outstationNodes_ok {env : Env} {cfg : Config} {es : List (Scalar × List String)}
    {nodes nodes' : List OutstationNode} {w w' : World}
    (h : es.foldlM (outstationNode env cfg) nodes w = .ok nodes' w') :
    ∃ new, nodes' = nodes ++ new ∧ List.Forall₂ (NodeOf cfg) es new := by
  induction es generalizing nodes w with
  | nil =>
    obtain ⟨rfl, -⟩ := PyM.pure_ok.mp h
    exact ⟨[], by simp, .nil⟩
  | cons e es ih =>
    obtain ⟨nodes₁, w₁, h₁, h⟩ := PyM.bind_ok.mp h
    obtain ⟨n, rfl, hn⟩ := outstationNode_ok h₁
    obtain ⟨new, rfl, hnew⟩ := ih h
    exact ⟨n :: new, by simp, .cons hn hnew⟩

/-- What the first two loops leave when they end. -/
structure Collects (env : Env) (cfg : Config) (w : World) (st : ParserState)
    (groups : Dict Scalar (List String)) : Prop where
  masters : ∃ entries w', masterEntries cfg = .ok entries ∧
    entries.foldlM (processMaster env cfg) .init w = .ok st w'
  groups_ok : (env.iter st.outstationSet).foldlM (groupOutstation cfg st) .empty = .ok groups

theorem collectOutstations_ok {env : Env} {cfg : Config} {w w' : World} {st : ParserState}
    {groups : Dict Scalar (List String)}
    (h : collectOutstations env cfg w = .ok (st, groups) w') : Collects env cfg w st groups := by
  obtain ⟨entries, hentries, h⟩ := PyM.lift_bind_ok.mp h
  obtain ⟨st', w₂, hst, h⟩ := PyM.bind_ok.mp h
  obtain ⟨groups', hgroups, h⟩ := PyM.lift_bind_ok.mp h
  obtain ⟨heq, -⟩ := PyM.pure_ok.mp h
  obtain ⟨rfl, rfl⟩ := Prod.mk.inj heq
  exact ⟨⟨entries, w₂, hentries, hst⟩, hgroups⟩

/-- A call that returns: its masters and nodes are those of the collected outstations. -/
structure Returns (env : Env) (cfg : Config) (w : World) (nodes : Nodes) (st : ParserState)
    (groups : Dict Scalar (List String)) : Prop extends Collects env cfg w st groups where
  masters_eq : nodes.masters = st.masterNodes
  outstations : List.Forall₂ (NodeOf cfg) groups.entries nodes.outstations

theorem processNodes_ok {env : Env} {cfg : Config} {nodes : Nodes} {w w' : World}
    (h : processNodes env cfg w = .ok nodes w') :
    ∃ st groups w₁, collectOutstations env cfg w = .ok (st, groups) w₁ ∧
      Returns env cfg w nodes st groups := by
  obtain ⟨⟨st, groups⟩, w₁, hcollect, h⟩ := PyM.bind_ok.mp h
  obtain ⟨out, w₂, hout, h⟩ := PyM.bind_ok.mp h
  obtain ⟨rfl, -⟩ := PyM.pure_ok.mp h
  obtain ⟨new, rfl, hnew⟩ := outstationNodes_ok hout
  exact ⟨st, groups, w₁, hcollect, collectOutstations_ok hcollect, rfl, hnew⟩

end IcsTrafficGen.Modbus
