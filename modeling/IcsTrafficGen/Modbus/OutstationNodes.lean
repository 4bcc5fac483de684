import IcsTrafficGen.Modbus.GroupChecks

/- The second half of `process_nodes`, as far as it can fail and as it depends on the order
   of the outstations. It returns exactly if every outstation has an address and every group
   passes its checks and gets its interface, in whatever order the groups come
   (`Matches.returns`); and two calls that put the same outstations together make the same
   nodes (`Matches.same_nodes`). -/
namespace IcsTrafficGen.Modbus

/-! ## The groups -/

variable {env env' : Env} {cfg : Config} {st st' : ParserState} {l : List String}

/-- The second loop returns if every outstation has an address. -/
theorem groupOutstations_total (h : ∀ name ∈ l, ∃ key, hostAddr cfg st name = .ok key) :
    ∃ groups, l.foldlM (groupOutstation cfg st) .empty = .ok groups := by
  obtain ⟨groups, hgroups, -⟩ := Fallible.foldlM_total (f := groupOutstation cfg st)
    (fun _ => True) (l := l) (s := .empty) (fun name hname m _ => by
      obtain ⟨key, hkey⟩ := h name hname
      exact ⟨_, Fallible.bind_ok.mpr ⟨key, hkey, rfl⟩, trivial⟩) trivial
  exact ⟨groups, hgroups⟩

/-- The group of an address is the outstations that have it, as the loop met them. -/
theorem mem_groups {groups : Dict Scalar (List String)}
    (h : l.foldlM (groupOutstation cfg st) .empty = .ok groups) {e : Scalar × List String}
    (he : e ∈ groups.entries) :
    e.2 = l.filter (fun name => keyAt cfg st name = e.1) ∧ e.2 ≠ [] := by
  obtain ⟨-, hget, hne⟩ := groupOutstations_ok h
  have hentry : groups.get? e.1 = some e.2 := Dict.get?_eq_some.mpr he
  have hnames := hget e.1
  rw [hentry] at hnames
  exact ⟨by simpa using hnames, hne (by simp) _ _ hentry⟩

/-! ## The nodes -/

theorem exists_outstationVnic {starts : String → String → Prop} (hstarts : env.Brings starts)
    (cfg : Config) (key : Scalar) (names : List String) (w : World) :
    (∃ vnic w', outstationVnic env cfg key names w = .ok vnic w') ↔
      (∀ s ∈ names, IsObject cfg s) ∧
        ((∀ s ∈ names, (ipOf cfg s).truthy = false) → Allocates cfg starts (.scalar key)) := by
  constructor
  · intro h
    obtain ⟨vnic, w', h⟩ := h
    obtain ⟨hobj, h⟩ := outstationVnic_iff.mp h
    refine ⟨hobj, fun hfalsy => ?_⟩
    obtain ⟨⟨s, hs, htruthy⟩, -⟩ | ⟨-, halloc⟩ := h
    · rw [hfalsy s hs] at htruthy
      cases htruthy
    · exact (exists_allocate hstarts).mp ⟨vnic, w', halloc⟩
  · intro h
    obtain ⟨hobj, hfalsy⟩ := h
    by_cases hall : ∀ s ∈ names, (ipOf cfg s).truthy = false
    · obtain ⟨vnic, w', halloc⟩ := (exists_allocate (w := w) hstarts).mpr (hfalsy hall)
      exact ⟨vnic, w', outstationVnic_iff.mpr ⟨hobj, Or.inr ⟨hall, halloc⟩⟩⟩
    · have hsome : ∃ s ∈ names, (ipOf cfg s).truthy = true := by simpa using hall
      exact ⟨none, w, outstationVnic_iff.mpr ⟨hobj, Or.inl ⟨hsome, rfl, rfl⟩⟩⟩

/-- Every entry got its node at some point of the loop. -/
theorem outstationNodes_makes {es : List (Scalar × List String)}
    {nodes nodes' : List OutstationNode} {w w' : World}
    (h : es.foldlM (outstationNode env cfg) nodes w = .ok nodes' w') {e : Scalar × List String}
    (he : e ∈ es) : ∃ n w₁ w₂, MakesNode env cfg e n w₁ w₂ := by
  induction es generalizing nodes w with
  | nil => cases he
  | cons e' es ih =>
    obtain ⟨nodes₁, w₁, h₁, h⟩ := PyM.bind_ok.mp h
    obtain rfl | he := List.mem_cons.mp he
    · obtain ⟨n, -, hn⟩ := outstationNode_iff.mp h₁
      exact ⟨n, _, _, hn⟩
    · exact ih h he

theorem processNodes_iff {nodes : Nodes} {w w' : World} :
    processNodes env cfg w = .ok nodes w' ↔
      ∃ entries st w₁ groups, masterEntries cfg = .ok entries ∧
        entries.foldlM (processMaster env cfg) .init w = .ok st w₁ ∧
        (env.iter st.outstationSet).foldlM (groupOutstation cfg st) .empty = .ok groups ∧
        groups.entries.foldlM (outstationNode env cfg) [] w₁ = .ok nodes.outstations w' ∧
        nodes.masters = st.masterNodes := by
  constructor
  · intro h
    obtain ⟨⟨st, groups⟩, w₁, hcollect, h⟩ := PyM.bind_ok.mp h
    obtain ⟨out, w₂, hout, h⟩ := PyM.bind_ok.mp h
    obtain ⟨rfl, rfl⟩ := PyM.pure_ok.mp h
    obtain ⟨entries, hentries, h⟩ := PyM.lift_bind_ok.mp hcollect
    obtain ⟨st', w₃, hloop, h⟩ := PyM.bind_ok.mp h
    obtain ⟨groups', hgroups, h⟩ := PyM.lift_bind_ok.mp h
    obtain ⟨heq, rfl⟩ := PyM.pure_ok.mp h
    obtain ⟨rfl, rfl⟩ := Prod.mk.inj heq
    exact ⟨entries, _, _, _, hentries, hloop, hgroups, hout, rfl⟩
  · intro h
    obtain ⟨entries, st, w₁, groups, hentries, hloop, hgroups, hout, hmasters⟩ := h
    have hcollect : collectOutstations env cfg w = .ok (st, groups) w₁ := by
      refine PyM.lift_bind_ok.mpr ⟨entries, hentries, ?_⟩
      refine PyM.bind_ok.mpr ⟨st, w₁, hloop, ?_⟩
      exact PyM.lift_bind_ok.mpr ⟨groups, hgroups, rfl⟩
    refine PyM.bind_ok.mpr ⟨_, w₁, hcollect, PyM.bind_ok.mpr ⟨_, w', hout, ?_⟩⟩
    refine PyM.pure_ok.mpr ⟨?_, rfl⟩
    rw [← hmasters]

/-- The files say the same, apart from the entries of "Master Nodes". -/
structure SameFile (cfg cfg' : Config) : Prop where
  get : outstationGet cfg' = outstationGet cfg
  keys : cfg'.keys = cfg.keys
  interface : virtualInterface cfg' = virtualInterface cfg

namespace SameFile
variable {cfg' : Config}

theorem refl (cfg : Config) : SameFile cfg cfg := ⟨rfl, rfl, rfl⟩

/-- Another list under "Master Nodes". -/
theorem set {entries : List Json} (hcfg : cfg.get? "Master Nodes" = some (.arr entries))
    (entries' : List Json) : SameFile cfg (cfg.set "Master Nodes" (.arr entries')) := by
  have hdict : outstationDict (cfg.set "Master Nodes" (.arr entries')) = outstationDict cfg := by
    funext name
    unfold outstationDict
    by_cases hname : name = "Master Nodes"
    · -- neither list is an outstation
      rw [hname, Dict.get?_set_self, hcfg]
      rfl
    · rw [Dict.get?_set_of_ne _ _ hname]
  refine ⟨?_, ?_, ?_⟩
  · funext key default name
    rw [outstationGet, hdict, outstationGet]
  · rw [Dict.keys_set, if_pos (Dict.mem_keys.mpr ⟨_, hcfg⟩)]
  · rw [virtualInterface, Dict.get?_set_of_ne _ _ (by decide), virtualInterface]

variable (h : SameFile cfg cfg')
include h

theorem definedNames : definedNames cfg' = Modbus.definedNames cfg := by
  funext items
  simp only [Modbus.definedNames, h.keys]

theorem datastore : getOutstationDatastore cfg' = getOutstationDatastore cfg := by
  funext names
  simp only [getOutstationDatastore, unitId, dataCount, h.get]

theorem port : getOutstationPort cfg' = getOutstationPort cfg := by
  funext names
  simp only [getOutstationPort, commonField, h.get]

theorem sim : getOutstationSim cfg' = getOutstationSim cfg := by
  funext names
  simp only [getOutstationSim, commonField, h.get]

theorem unitids : getOutstationUnitids cfg' = getOutstationUnitids cfg := by
  funext names
  simp only [getOutstationUnitids, unitId, h.get]

theorem allocate (env : Env) : allocate env cfg' = Modbus.allocate env cfg := by
  funext ip
  simp only [Modbus.allocate, h.interface]

theorem processMaster (env : Env) : processMaster env cfg' = Modbus.processMaster env cfg := by
  funext st j
  simp only [Modbus.processMaster, addMaster, masterVnic, outstationAddr, configuredAddr, h.get,
    h.definedNames, h.datastore, h.port, h.allocate]

theorem hostAddr : hostAddr cfg' = Modbus.hostAddr cfg := by
  funext st name
  simp only [Modbus.hostAddr, h.get]

theorem keyAt : keyAt cfg' = Modbus.keyAt cfg := by
  funext st name
  simp only [Modbus.keyAt, h.hostAddr]

theorem groupOutstation : groupOutstation cfg' = Modbus.groupOutstation cfg := by
  funext st m name
  simp only [Modbus.groupOutstation, h.hostAddr]

theorem outstationNode (env : Env) : outstationNode env cfg' = Modbus.outstationNode env cfg := by
  funext nodes e
  simp only [Modbus.outstationNode, outstationVnic, h.get, h.port, h.sim, h.datastore, h.unitids,
    h.allocate]

theorem nodeOf {e : Scalar × List String} {n : OutstationNode} (hn : NodeOf cfg' e n) :
    NodeOf cfg e n :=
  ⟨hn.names, hn.ipaddr, h.port ▸ hn.port, h.sim ▸ hn.simulate, h.datastore ▸ hn.datastore,
    h.unitids ▸ hn.nameIdMap⟩

end SameFile

/-! ## Two calls -/

/-- Two calls with the same outstations, of which the same are at one address. -/
structure Matches (cfg : Config) (starts : String → String → Prop) (st st' : ParserState) :
    Prop where
  set : ∀ s, s ∈ st.outstationSet ↔ s ∈ st'.outstationSet
  nodup : st.outstationSet.Nodup
  nodup' : st'.outstationSet.Nodup
  hosted : ∀ s ∈ st'.outstationSet, ∃ key, hostAddr cfg st' s = .ok key
  together : ∀ s ∈ st.outstationSet, ∀ t ∈ st.outstationSet,
    keyAt cfg st s = keyAt cfg st t ↔ keyAt cfg st' s = keyAt cfg st' t
  allocates : ∀ s ∈ st.outstationSet, (ipOf cfg s).truthy = false →
    Allocates cfg starts (.scalar (keyAt cfg st s)) →
      Allocates cfg starts (.scalar (keyAt cfg st' s))

variable {starts : String → String → Prop} {groups : Dict Scalar (List String)}

theorem nodup_iter (h : st.outstationSet.Nodup) : (env.iter st.outstationSet).Nodup :=
  (env.iter_perm st.outstationSet).nodup_iff.mpr h

/-- The groups with one outstation in common have all of them in common. -/
theorem Matches.perm (hm : Matches cfg starts st st') {s : String} (hs : s ∈ st.outstationSet) :
    ((env.iter st.outstationSet).filter fun name => keyAt cfg st name = keyAt cfg st s).Perm
      ((env'.iter st'.outstationSet).filter fun name => keyAt cfg st' name = keyAt cfg st' s) := by
  rw [List.perm_ext_iff_of_nodup ((nodup_iter hm.nodup).filter _) ((nodup_iter hm.nodup').filter _)]
  intro t
  simp only [List.mem_filter, (env.iter_perm _).mem_iff, (env'.iter_perm _).mem_iff, ← hm.set,
    decide_eq_true_eq]
  exact and_congr_right fun ht => hm.together t ht s hs

/-- A group gets its node from one state if it does from a matching one. -/
theorem Matches.makes (hm : Matches cfg starts st st') (hstarts : env.Brings starts)
    (hstarts' : env'.Brings starts) {out : List OutstationNode} {w w₁ : World}
    {groups' : Dict Scalar (List String)}
    (hgroups : (env.iter st.outstationSet).foldlM (groupOutstation cfg st) .empty = .ok groups)
    (hout : groups.entries.foldlM (outstationNode env cfg) [] w = .ok out w₁)
    (hgroups' :
      (env'.iter st'.outstationSet).foldlM (groupOutstation cfg st') .empty = .ok groups')
    {e' : Scalar × List String} (he' : e' ∈ groups'.entries) (nodes : List OutstationNode)
    (w' : World) : ∃ nodes' w₁', outstationNode env' cfg nodes e' w' = .ok nodes' w₁' := by
  obtain ⟨hnames', hne⟩ := mem_groups hgroups' he'
  obtain ⟨s, hs⟩ := List.exists_mem_of_ne_nil _ hne
  rw [hnames', List.mem_filter, decide_eq_true_eq, (env'.iter_perm _).mem_iff] at hs
  obtain ⟨hset', hkey'⟩ := hs
  have hset := (hm.set s).mpr hset'
  -- the group of the same outstation in the other call
  obtain ⟨-, hget, -⟩ := groupOutstations_ok hgroups
  have hmem : s ∈ (groups.get? (keyAt cfg st s)).getD [] := by
    rw [hget]
    simpa [(env.iter_perm _).mem_iff] using hset
  obtain ⟨names, hentry⟩ : ∃ names, groups.get? (keyAt cfg st s) = some names := by
    cases hg : groups.get? (keyAt cfg st s) with
    | none => simp [hg] at hmem
    | some names => exact ⟨names, rfl⟩
  have he := Dict.get?_eq_some.mp hentry
  obtain ⟨hnames, -⟩ := mem_groups hgroups he
  have hperm : names.Perm e'.2 := by
    rw [hnames', show names = _ from hnames, ← hkey']
    exact hm.perm hset
  obtain ⟨n, w₁, w₂, hn⟩ := outstationNodes_makes hout he
  obtain ⟨hobj, halloc⟩ := (exists_outstationVnic hstarts cfg _ _ _).mp ⟨_, _, hn.interface⟩
  have hallocates (hfalsy : ∀ t ∈ e'.2, (ipOf cfg t).truthy = false) :
      Allocates cfg starts (.scalar e'.1) := by
    have hs : s ∈ e'.2 := by
      rw [hnames', List.mem_filter, (env'.iter_perm _).mem_iff]
      exact ⟨hset', decide_eq_true hkey'⟩
    rw [← hkey']
    exact hm.allocates s hset (hfalsy s hs) (halloc fun t ht => hfalsy t (hperm.mem_iff.mp ht))
  obtain ⟨vnic, w₃, hvnic⟩ := (exists_outstationVnic hstarts' cfg e'.1 e'.2 w').mpr
    ⟨fun t ht => hobj t (hperm.mem_iff.mpr ht), hallocates⟩
  have hnodup : names.Nodup := by
    rw [show names = _ from hnames]
    exact (nodup_iter hm.nodup).filter _
  obtain ⟨n', hn', rfl, hsame⟩ := hn.toNodeOf.perm e' hnodup hperm vnic
  exact ⟨_, w₃, outstationNode_iff.mpr ⟨n', rfl, hn', hvnic, hsame.port ▸ hn.printable⟩⟩

/-- The second half of the call returns from one state if it does from a matching one. -/
theorem Matches.returns (hm : Matches cfg starts st st') (hstarts : env.Brings starts)
    (hstarts' : env'.Brings starts) {out : List OutstationNode} {w w₁ : World}
    (hgroups : (env.iter st.outstationSet).foldlM (groupOutstation cfg st) .empty = .ok groups)
    (hout : groups.entries.foldlM (outstationNode env cfg) [] w = .ok out w₁) (w' : World) :
    ∃ groups' out' w₁',
      (env'.iter st'.outstationSet).foldlM (groupOutstation cfg st') .empty = .ok groups' ∧
        groups'.entries.foldlM (outstationNode env' cfg) [] w' = .ok out' w₁' := by
  obtain ⟨groups', hgroups'⟩ := groupOutstations_total (l := env'.iter st'.outstationSet)
    fun s hs => hm.hosted s ((env'.iter_perm _).mem_iff.mp hs)
  obtain ⟨out', w₁', hout', -⟩ := PyM.foldlM_total (f := outstationNode env' cfg)
    (fun _ _ => True) (l := groups'.entries) (b := []) (s := w') (fun e' he' nodes w _ => by
      obtain ⟨nodes', w₁', h⟩ := hm.makes hstarts hstarts' hgroups hout hgroups' he' nodes w
      exact ⟨nodes', w₁', h, trivial⟩) trivial
  exact ⟨groups', out', w₁', hgroups', hout'⟩

/-- Two calls that return make the same nodes, at the addresses that each of them gives. -/
theorem Matches.same_nodes (hm : Matches cfg starts st st') {cfg' : Config}
    (hfile : SameFile cfg cfg') {w w' : World} {nodes nodes' : Nodes}
    {groups' : Dict Scalar (List String)} (h : Returns env cfg w nodes st groups)
    (h' : Returns env' cfg' w' nodes' st' groups') {n : OutstationNode}
    (hn : n ∈ nodes.outstations) :
    ∃ n' ∈ nodes'.outstations, SameNode n n' ∧
      ∀ s ∈ n.names, keyAt cfg st s = n.ipaddr ∧ keyAt cfg st' s = n'.ipaddr := by
  obtain ⟨hnode, hne, hnames⟩ := h.node hn
  obtain ⟨s, hs⟩ := List.exists_mem_of_ne_nil _ hne
  obtain ⟨hset, hkey⟩ := (h.hosts hn).mp hs
  obtain ⟨n', hn', hs'⟩ := h'.exists_host ((hm.set s).mp hset)
  have hhosts' : ∀ t, t ∈ n'.names ↔ t ∈ st'.outstationSet ∧ keyAt cfg st' t = n'.ipaddr :=
    fun t => hfile.keyAt ▸ h'.hosts hn'
  obtain ⟨hnode', -, hnames'⟩ := h'.node hn'
  rw [hfile.keyAt] at hnames'
  replace hnode' := hfile.nodeOf hnode'
  have hkey' := ((hhosts' s).mp hs').2
  have hperm : n.names.Perm n'.names := by
    rw [hnames, hnames', ← hkey, ← hkey']
    exact hm.perm hset
  have hnodup : n.names.Nodup := by
    rw [hnames]
    exact (nodup_iter hm.nodup).filter _
  obtain ⟨m, hm', -, hsame⟩ := hnode.perm (n'.ipaddr, n'.names) hnodup hperm none
  refine ⟨n', hn', ⟨hperm, ?_, ?_, fun key => ?_, fun t => ?_⟩, fun t ht => ?_⟩
  · rw [hsame.port]
    exact Except.ok.inj (hm'.port.symm.trans hnode'.port)
  · rw [hsame.simulate]
    exact Except.ok.inj (hm'.simulate.symm.trans hnode'.simulate)
  · rw [hsame.datastore, Except.ok.inj (hm'.datastore.symm.trans hnode'.datastore)]
  · rw [hsame.nameIdMap, Except.ok.inj (hm'.nameIdMap.symm.trans hnode'.nameIdMap)]
  · exact ⟨((h.hosts hn).mp ht).2, ((hhosts' t).mp (hperm.mem_iff.mp ht)).2⟩

end IcsTrafficGen.Modbus
