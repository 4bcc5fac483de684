import IcsTrafficGen.Modbus.MasterPass

/- The two views of the configuration agree. While the masters are read, `Grouped` holds:
   every outstation a kept master lists is in the set and has the address that the
   master was given, and no later master changes it. Afterwards the list of an
   address is the filter of the set by that address, so the nodes partition the set. -/
namespace IcsTrafficGen.Modbus

/-! ## The loop over the masters -/

/-- The address of an outstation while the masters are read. -/
inductive AddrOf (cfg : Config) (st : ParserState) (name : String) (addr : Json) : Prop
  | configured (htruthy : (ipOf cfg name).truthy = true) (heqv : (ipOf cfg name).eqv addr = true)
  | generated (a : String) (hfalsy : (ipOf cfg name).truthy = false)
      (haddr : st.outstationCidrAddrs.get? name = some a) (heq : addr = .str a)

structure Grouped (cfg : Config) (st : ParserState) : Prop where
  nodup : st.outstationSet.Nodup
  cidr : ∀ name addr, st.outstationCidrAddrs.get? name = some addr → name ∈ st.outstationSet
  mem : ∀ k ∈ st.masterNodes, ∀ name ∈ k.outstations, name ∈ st.outstationSet
  addr : ∀ k ∈ st.masterNodes, ∀ name ∈ k.outstations, AddrOf cfg st name k.node.outstationAddr
  info : ∀ k ∈ st.masterNodes, getOutstationDatastore cfg k.outstations = .ok k.node.outstationInfo
  port : ∀ k ∈ st.masterNodes, getOutstationPort cfg k.outstations = .ok k.node.port

theorem grouped_init (cfg : Config) : Grouped cfg .init where
  nodup := List.nodup_nil
  cidr _ _ h := by cases h
  mem _ h := by cases h
  addr _ h := by cases h
  info _ h := by cases h
  port _ h := by cases h

/-- A generated address does not change any more once the outstation is in the set. -/
theorem SharesAddr.keeps {cfg : Config} {st : ParserState} {names : List String} {addr : Json}
    {cidrAddrs : Dict String String} (h : SharesAddr cfg st names addr cidrAddrs) {name : String}
    (hset : name ∈ st.outstationSet) :
    cidrAddrs.get? name = st.outstationCidrAddrs.get? name := by
  cases h with
  | configured _ _ hsame => rw [hsame]
  | generated a _ _ hold hnew =>
    rw [hnew, Dict.get?_update_fromKeys]
    split
    · next hname => exact (hold name hset hname).symm
    · rfl

/-- The outstations of the new master have its address. -/
theorem SharesAddr.addrOf {cfg : Config} {st st' : ParserState} {names : List String} {addr : Json}
    (h : SharesAddr cfg st names addr st'.outstationCidrAddrs) {name : String}
    (hname : name ∈ names) : AddrOf cfg st' name addr := by
  cases h with
  | configured htruthy heqv hsame =>
    obtain ⟨other, hother, htruthy⟩ := htruthy
    have hname' : (ipOf cfg name).truthy = true := by
      rw [Json.truthy_of_eqv (heqv name hname), ← Json.truthy_of_eqv (heqv other hother), htruthy]
    exact .configured hname' (heqv name hname)
  | generated a hfalsy haddr hold hnew =>
    refine .generated a (hfalsy name hname) ?_ haddr
    rw [hnew, Dict.get?_update_fromKeys, if_pos hname]

theorem SharesAddr.mem_of_get? {cfg : Config} {st : ParserState} {names : List String} {addr : Json}
    {cidrAddrs : Dict String String} (h : SharesAddr cfg st names addr cidrAddrs) {name a : String}
    (hget : cidrAddrs.get? name = some a) :
    name ∈ names ∨ st.outstationCidrAddrs.get? name = some a := by
  cases h with
  | configured _ _ hsame => exact Or.inr (hsame ▸ hget)
  | generated b _ _ _ hnew =>
    by_cases hname : name ∈ names
    · exact Or.inl hname
    · right
      rwa [hnew, Dict.get?_update_fromKeys, if_neg hname] at hget

theorem Grouped.step {cfg : Config} {st st' : ParserState} {k : KeptMaster} (hg : Grouped cfg st)
    (h : AddsMaster cfg st st' k) : Grouped cfg st' := by
  have hmem : ∀ name, name ∈ st'.outstationSet ↔ name ∈ st.outstationSet ∨ name ∈ k.outstations :=
    fun name => by rw [h.set, mem_setUpdate]
  have hmasters : ∀ k', k' ∈ st'.masterNodes ↔ k' ∈ st.masterNodes ∨ k' = k :=
    fun k' => by rw [h.masters, List.mem_append, List.mem_singleton]
  refine ⟨?_, fun name addr hget => ?_, fun k' hk' name hname => ?_, fun k' hk' name hname => ?_,
    fun k' hk' => ?_, fun k' hk' => ?_⟩
  · rw [h.set]
    exact nodup_setUpdate hg.nodup
  · rcases h.addr.mem_of_get? hget with hname | hold
    · exact (hmem name).mpr (Or.inr hname)
    · exact (hmem name).mpr (Or.inl (hg.cidr name addr hold))
  · rcases (hmasters k').mp hk' with hk' | rfl
    · exact (hmem name).mpr (Or.inl (hg.mem k' hk' name hname))
    · exact (hmem name).mpr (Or.inr hname)
  · rcases (hmasters k').mp hk' with hk' | rfl
    · have hkeeps := h.addr.keeps (hg.mem k' hk' name hname)
      cases hg.addr k' hk' name hname with
      | configured htruthy heqv => exact .configured htruthy heqv
      | generated a hfalsy haddr heq => exact .generated a hfalsy (hkeeps.trans haddr) heq
    · exact h.addr.addrOf hname
  · rcases (hmasters k').mp hk' with hk' | rfl
    · exact hg.info k' hk'
    · exact h.info
  · rcases (hmasters k').mp hk' with hk' | rfl
    · exact hg.port k' hk'
    · exact h.port

theorem Grouped.pass {env : Env} {cfg : Config} {j : Json} {st st' : ParserState} {w w' : World}
    (hg : Grouped cfg st) (h : processMaster env cfg st j w = .ok st' w') : Grouped cfg st' := by
  obtain ⟨_, -, rfl⟩ | ⟨_, _, _, k, -, hadds, -⟩ := processMaster_ok h
  · exact hg
  · exact hg.step hadds

theorem Grouped.run {env : Env} {cfg : Config} {entries : List Json} {st : ParserState}
    {w w' : World} (h : entries.foldlM (processMaster env cfg) .init w = .ok st w') :
    Grouped cfg st :=
  PyM.foldlM_invariant (fun st _ => Grouped cfg st) (fun _ _ _ _ _ _ hg hpass => hg.pass hpass)
    (grouped_init cfg) h

/-! ## The nodes of the outstations -/

theorem HostedAt.addr_eq {cfg : Config} {st : ParserState} {name : String} {key : Scalar}
    {addr : Json} (h : HostedAt cfg st name key) (ha : AddrOf cfg st name addr) :
    addr = .scalar key := by
  cases h with
  | configured htruthy hip =>
    cases ha with
    | configured _ heqv => exact Json.eq_of_scalar_eqv (hip ▸ heqv)
    | generated _ hfalsy _ _ => rw [hfalsy] at htruthy; cases htruthy
  | generated a hfalsy haddr hkey =>
    cases ha with
    | configured htruthy _ => rw [hfalsy] at htruthy; cases htruthy
    | generated b _ haddr' heq =>
      rw [haddr'] at haddr
      cases haddr
      rw [heq, hkey]
      rfl

section
variable {env : Env} {cfg : Config} {w : World} {nodes : Nodes}
variable {st : ParserState} {groups : Dict Scalar (List String)} {n : OutstationNode} {s : String}

theorem Returns.grouped (h : Returns env cfg w nodes st groups) : Grouped cfg st := by
  obtain ⟨_, _, -, hloop⟩ := h.masters
  exact Grouped.run hloop

theorem Returns.mem_iter (_ : Returns env cfg w nodes st groups) :
    s ∈ env.iter st.outstationSet ↔ s ∈ st.outstationSet :=
  (env.iter_perm st.outstationSet).mem_iff

/-- The nodes have the addresses of the groups. -/
theorem Returns.ipaddrs (h : Returns env cfg w nodes st groups) :
    nodes.outstations.map (fun n => n.ipaddr) = groups.keys := ipaddrs_eq h.outstations

/-- Every node is made of the outstations of its address. -/
theorem Returns.node (h : Returns env cfg w nodes st groups) (hn : n ∈ nodes.outstations) :
    NodeOf cfg (n.ipaddr, n.names) n ∧ n.names ≠ [] ∧
      n.names = (env.iter st.outstationSet).filter (fun name => keyAt cfg st name = n.ipaddr) := by
  obtain ⟨e, he, hnode⟩ := Fallible.exists_left h.outstations hn
  obtain ⟨-, hget, hne⟩ := groupOutstations_ok h.groups_ok
  have hentry : groups.get? n.ipaddr = some n.names := by
    rw [hnode.ipaddr, hnode.names]
    exact Dict.get?_eq_some.mpr he
  have hnames := hget n.ipaddr
  rw [hentry] at hnames
  have heq : e = (n.ipaddr, n.names) := by rw [hnode.ipaddr, hnode.names]
  exact ⟨heq ▸ hnode, hne (by simp) _ _ hentry, by simpa using hnames⟩

/-- An outstation is in the list of the node at its address, and in no other. -/
theorem Returns.hosts (h : Returns env cfg w nodes st groups) (hn : n ∈ nodes.outstations) :
    s ∈ n.names ↔ s ∈ st.outstationSet ∧ keyAt cfg st s = n.ipaddr := by
  rw [(h.node hn).2.2, List.mem_filter, h.mem_iter, decide_eq_true_eq]

theorem Returns.exists_host (h : Returns env cfg w nodes st groups)
    (hs : s ∈ st.outstationSet) : ∃ n ∈ nodes.outstations, s ∈ n.names := by
  obtain ⟨-, hget, -⟩ := groupOutstations_ok h.groups_ok
  have hmem : s ∈ (groups.get? (keyAt cfg st s)).getD [] := by
    rw [hget]
    simpa [h.mem_iter] using hs
  have hkey : keyAt cfg st s ∈ groups.keys := by
    rw [Dict.mem_keys]
    cases hg : groups.get? (keyAt cfg st s) with
    | none => simp [hg] at hmem
    | some names => exact ⟨names, rfl⟩
  rw [← h.ipaddrs, List.mem_map] at hkey
  obtain ⟨n, hn, hip⟩ := hkey
  exact ⟨n, hn, (h.hosts hn).mpr ⟨hs, hip.symm⟩⟩

theorem Returns.ipaddr_nodup (h : Returns env cfg w nodes st groups) :
    (nodes.outstations.map (fun n => n.ipaddr)).Nodup := by
  rw [h.ipaddrs]
  exact groups.nodup_keys

theorem Returns.host_unique (h : Returns env cfg w nodes st groups) {n' : OutstationNode}
    (hn : n ∈ nodes.outstations) (hn' : n' ∈ nodes.outstations) (hs : s ∈ n.names)
    (hs' : s ∈ n'.names) : n = n' :=
  List.inj_on_of_nodup_map h.ipaddr_nodup hn hn'
    (((h.hosts hn).mp hs).2.symm.trans ((h.hosts hn').mp hs').2)

/-- The address of a master is that of the node of each of its outstations. -/
theorem Returns.addr_eq (h : Returns env cfg w nodes st groups) {k : KeptMaster}
    (hk : k ∈ nodes.masters) (hs : s ∈ k.outstations) (hn : n ∈ nodes.outstations)
    (hsn : s ∈ n.names) : k.node.outstationAddr = .scalar n.ipaddr := by
  rw [h.masters_eq] at hk
  have hg := h.grouped
  obtain ⟨hhost, -, -⟩ := groupOutstations_ok h.groups_ok
  have hat := hostAddr_ok (hhost s (h.mem_iter.mpr (hg.mem k hk s hs)))
  rw [hat.addr_eq (hg.addr k hk s hs), ((h.hosts hn).mp hsn).2]

/-! ## Unit ids and data counts -/

/-- A hosted outstation is in the map with its unit id. -/
theorem Returns.nameIdMap_get? (h : Returns env cfg w nodes st groups)
    (hn : n ∈ nodes.outstations) (hs : s ∈ n.names) : n.nameIdMap.get? s = some (idOf cfg s) := by
  rw [(getOutstationUnitids_ok (h.node hn).1.nameIdMap).1]
  exact Dict.get?_ofList_map hs fun t _ ht => ht ▸ rfl

/-- No two outstations of a node have one unit id. -/
theorem Returns.idOf_inj (h : Returns env cfg w nodes st groups)
    (hn : n ∈ nodes.outstations) {t : String} (hs : s ∈ n.names) (ht : t ∈ n.names)
    (heq : idOf cfg s = idOf cfg t) : s = t := by
  have hs' := h.nameIdMap_get? hn hs
  rw [heq] at hs'
  exact Dict.eq_of_get?_of_values_nodup (getOutstationUnitids_ok (h.node hn).1.nameIdMap).2.1 hs'
    (h.nameIdMap_get? hn ht)

theorem Returns.datastore_get? (h : Returns env cfg w nodes st groups)
    (hn : n ∈ nodes.outstations) (hs : s ∈ n.names) :
    n.datastore.get? (idOf cfg s) = some (countOf cfg s) := by
  rw [getOutstationDatastore_ok (h.node hn).1.datastore]
  exact Dict.get?_ofList_map hs fun t ht heq => by rw [h.idOf_inj hn ht hs heq]

theorem Returns.datastore_keys (h : Returns env cfg w nodes st groups)
    (hn : n ∈ nodes.outstations) {key : Scalar} :
    key ∈ n.datastore.keys ↔ ∃ s ∈ n.names, n.nameIdMap.get? s = some key := by
  rw [getOutstationDatastore_ok (h.node hn).1.datastore, Dict.mem_keys_ofList_map]
  constructor
  · intro hx
    obtain ⟨s, hs, rfl⟩ := hx
    exact ⟨s, hs, h.nameIdMap_get? hn hs⟩
  · intro hx
    obtain ⟨s, hs, hkey⟩ := hx
    rw [h.nameIdMap_get? hn hs, Option.some_inj] at hkey
    exact ⟨s, hs, hkey⟩

/-- One node hosts all outstations of a master. -/
theorem Returns.same_host (h : Returns env cfg w nodes st groups) {k : KeptMaster}
    (hk : k ∈ nodes.masters) (hn : n ∈ nodes.outstations) (hs : s ∈ k.outstations)
    (hsn : s ∈ n.names) {t : String} (ht : t ∈ k.outstations) : t ∈ n.names := by
  obtain ⟨n', hn', htn'⟩ := h.exists_host (h.grouped.mem k (h.masters_eq ▸ hk) t ht)
  have heq := (h.addr_eq hk hs hn hsn).symm.trans (h.addr_eq hk ht hn' htn')
  have hip : n.ipaddr = n'.ipaddr := by simpa using heq
  rwa [List.inj_on_of_nodup_map h.ipaddr_nodup hn hn' hip]

/-- What a master knows about the data of its outstations. -/
theorem Returns.info_keys (h : Returns env cfg w nodes st groups) {k : KeptMaster}
    (hk : k ∈ nodes.masters) {key : Scalar} :
    key ∈ k.node.outstationInfo.keys ↔ ∃ t ∈ k.outstations, idOf cfg t = key := by
  rw [getOutstationDatastore_ok (h.grouped.info k (h.masters_eq ▸ hk))]
  exact Dict.mem_keys_ofList_map

/-- For every outstation it is what their node has. -/
theorem Returns.info_get? (h : Returns env cfg w nodes st groups) {k : KeptMaster}
    (hk : k ∈ nodes.masters) (hn : n ∈ nodes.outstations) (hs : s ∈ k.outstations)
    (hsn : s ∈ n.names) {t : String} (ht : t ∈ k.outstations) :
    k.node.outstationInfo.get? (idOf cfg t) = some (countOf cfg t) := by
  rw [getOutstationDatastore_ok (h.grouped.info k (h.masters_eq ▸ hk))]
  refine Dict.get?_ofList_map ht fun u hu heq => ?_
  rw [h.idOf_inj hn (h.same_host hk hn hs hsn ht) (h.same_host hk hn hs hsn hu) heq.symm]

end

/-- The "Unit ID" values of the file are integers. -/
def IntegerUnitIds (cfg : Config) : Prop :=
  ∀ name fields j, cfg.get? name = some (.obj fields) →
    (Dict.ofList fields).get? "Unit ID" = some j → ∃ i : Int, j = .num i

theorem IntegerUnitIds.idOf {cfg : Config} (h : IntegerUnitIds cfg) (name : String) :
    ∃ i : Int, Modbus.idOf cfg name = .num i := by
  unfold Modbus.idOf field
  split
  · next fields hfields =>
    cases hj : (Dict.ofList fields).get? "Unit ID" with
    | none => exact ⟨0, by simp [Json.num, keyOf]⟩
    | some j =>
      obtain ⟨i, rfl⟩ := h name fields j hfields hj
      exact ⟨i, rfl⟩
  · exact ⟨0, by simp [Json.num, keyOf]⟩

/-- **Masters and outstations agree.** Of a configuration that is accepted: each listed
outstation is hosted by exactly one node, at the address its masters were given; the
nodes have different addresses; within a node the unit ids are distinct and at most 247
and lead to the configured data counts; and a master has the data of its outstations. -/
theorem grouping_agrees {env : Env} {cfg : Config} {w w' : World} {nodes : Nodes}
    (hids : IntegerUnitIds cfg) (h : processNodes env cfg w = .ok nodes w') :
    (∀ k ∈ nodes.masters, ∀ s ∈ k.outstations, ∃! n, n ∈ nodes.outstations ∧ s ∈ n.names) ∧
    (nodes.outstations.map (fun n => n.ipaddr)).Nodup ∧
    (∀ k ∈ nodes.masters, ∀ s ∈ k.outstations, ∀ n ∈ nodes.outstations, s ∈ n.names →
      k.node.outstationAddr = .scalar n.ipaddr) ∧
    (∀ n ∈ nodes.outstations,
      (∀ s ∈ n.names, ∃ i : Int, n.nameIdMap.get? s = some (.num i) ∧ i ≤ 247 ∧
        n.datastore.get? (.num i) = some (countOf cfg s)) ∧
      (∀ s ∈ n.names, ∀ t ∈ n.names, n.nameIdMap.get? s = n.nameIdMap.get? t → s = t) ∧
      (∀ key, key ∈ n.datastore.keys ↔ ∃ s ∈ n.names, n.nameIdMap.get? s = some key)) ∧
    (∀ k ∈ nodes.masters, ∀ n ∈ nodes.outstations, (∃ s ∈ k.outstations, s ∈ n.names) →
      (∀ key count, k.node.outstationInfo.get? key = some count →
        n.datastore.get? key = some count) ∧
      (∀ s ∈ k.outstations, ∃ key, n.nameIdMap.get? s = some key ∧
        key ∈ k.node.outstationInfo.keys)) := by
  obtain ⟨st, groups, -, -, hr⟩ := processNodes_ok h
  refine ⟨fun k hk s hs => ?_, hr.ipaddr_nodup, fun k hk s hs n hn hsn => hr.addr_eq hk hs hn hsn,
    fun n hn => ⟨fun s hs => ?_, fun s hs t ht heq => ?_, fun key => hr.datastore_keys hn⟩,
    fun k hk n hn hshare => ?_⟩
  · obtain ⟨n, hn, hsn⟩ := hr.exists_host (hr.grouped.mem k (hr.masters_eq ▸ hk) s hs)
    exact ⟨n, ⟨hn, hsn⟩, fun n' hn' => hr.host_unique hn'.1 hn hn'.2 hsn⟩
  · obtain ⟨i, hi⟩ := hids.idOf s
    have hget := hr.nameIdMap_get? hn hs
    have hdata := hr.datastore_get? hn hs
    rw [hi] at hget hdata
    exact ⟨i, hget, (getOutstationUnitids_ok (hr.node hn).1.nameIdMap).2.2 i
      (Dict.mem_values_of_get? hget), hdata⟩
  · rw [hr.nameIdMap_get? hn hs, hr.nameIdMap_get? hn ht, Option.some_inj] at heq
    exact hr.idOf_inj hn hs ht heq
  · obtain ⟨s, hs, hsn⟩ := hshare
    refine ⟨fun key count hget => ?_, fun t ht => ?_⟩
    · obtain ⟨t, ht, rfl⟩ := (hr.info_keys hk).mp (Dict.mem_keys.mpr ⟨count, hget⟩)
      rw [hr.info_get? hk hn hs hsn ht] at hget
      rw [hr.datastore_get? hn (hr.same_host hk hn hs hsn ht), hget]
    · exact ⟨idOf cfg t, hr.nameIdMap_get? hn (hr.same_host hk hn hs hsn ht),
        (hr.info_keys hk).mpr ⟨t, ht, rfl⟩⟩

/-! ## A configuration -/

/-- Sets that keep the order of their members, and an `ifconfig` that succeeds. -/
def plainEnv : Env where
  ifconfig _ _ := none
  iter := id
  iter_perm _ := List.Perm.refl _
  pop := List.head?
  pop_mem l hl := by
    cases l with
    | nil => exact absurd rfl hl
    | cons s l => exact ⟨s, List.mem_cons_self, rfl⟩

def entry (name ip : String) (outstations : List String) : Json :=
  .obj [("Name", .str name), ("IP Address", .str ip), ("Outstations", .arr (outstations.map .str))]

/-- Two masters that share an outstation, and an outstation without an address. -/
def sharedConfig : Config :=
  Dict.ofList [
    ("Virtual Interface", .str "eth0"),
    ("Master Nodes", .arr [entry "M1" "10.1.0.1" ["S1", "S2"], entry "M2" "10.1.0.2" ["S1"],
      entry "M3" "10.1.0.3" ["S3"]]),
    ("S1", .obj [("IP Address", .str "192.13.13.12"), ("Data Count", .num 17), ("Unit ID", .num 1)]),
    ("S2", .obj [("IP Address", .str "192.13.13.12"), ("Data Count", .num 15), ("Unit ID", .num 2)]),
    ("S3", .obj [])]

def freshWorld : World :=
  { cidr := some ["10.0.0.1", "10.0.0.2", "10.0.0.3", "10.0.0.4"], vnictrack := 0, up := [] }

theorem integerUnitIds_sharedConfig : IntegerUnitIds sharedConfig := by
  intro name fields j hfields hj
  have hname := Dict.mem_of_get?_ofList hfields
  have hid := Dict.mem_of_get?_ofList hj
  simp only [List.mem_cons, Prod.mk.injEq, Json.obj.injEq, List.not_mem_nil, or_false, Json.str,
    reduceCtorEq, and_false, false_or] at hname
  rcases hname with ⟨-, rfl⟩ | ⟨-, rfl⟩ | ⟨-, rfl⟩
  · exact ⟨1, by simpa using hid⟩
  · exact ⟨2, by simpa using hid⟩
  · simp at hid

theorem grouping_agrees_shared : ∃ nodes w', processNodes plainEnv sharedConfig freshWorld =
      .ok nodes w' ∧ nodes.outstations.map (fun n => n.names) = [["S1", "S2"], ["S3"]] ∧
    ∀ k ∈ nodes.masters, ∀ s ∈ k.outstations, ∃! n, n ∈ nodes.outstations ∧ s ∈ n.names := by
  have hrun : ∃ nodes w', processNodes plainEnv sharedConfig freshWorld = .ok nodes w' ∧
      nodes.outstations.map (fun n => n.names) = [["S1", "S2"], ["S3"]] := ⟨_, _, rfl, rfl⟩
  obtain ⟨nodes, w', h, hnames⟩ := hrun
  exact ⟨nodes, w', h, hnames, (grouping_agrees integerUnitIds_sharedConfig h).1⟩

end IcsTrafficGen.Modbus
