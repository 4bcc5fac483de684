import IcsTrafficGen.Modbus.AddrConflicts
import IcsTrafficGen.Modbus.MasterLoop

/- The order of the masters. It matters in one place: a master that lists outstations of two
   groups is refused where both groups are there before it, and joins them where it comes
   first (`order_matters`). Apart from this, another order of the entries gives the same
   groups: which outstations share a generated address is decided by the lists as a set
   (`Linked`), and every entry is read by itself (`Admits`). So two orders that are both
   mergeable are accepted together, and with the same groups (`master_order`). That
   generated addresses do not meet addresses of the file is assumed of both orders. -/
namespace IcsTrafficGen.Modbus

/-- No address that is given away for the entries is an address of the file. -/
def Free (cfg : Config) (hosts : List String) (entries : List Json) : Prop :=
  ∀ a ∈ handedOut cfg ⟨hosts, []⟩ entries, ¬ ExplicitAddr cfg entries a

/-- Two outstations have the same address in the file, or none, and then a chain of lists
leads from one to the other. -/
def SameGroup (cfg : Config) (lists : List (List String)) (s t : String) : Prop :=
  (ipOf cfg s).truthy = true ∧ ipOf cfg s = ipOf cfg t ∨
    (ipOf cfg s).truthy = false ∧ (ipOf cfg t).truthy = false ∧ Linked lists s t

section
variable {env env' : Env} {cfg : Config} {entries entries' : List Json} {w w' w₁ : World}
variable {st st' : ParserState} {hosts given given' left left' : List String}
variable {starts : String → String → Prop}

/-! ## Addresses and groups -/

/-- Two outstations are at one address if they are of one group. -/
theorem Allots.key_eq_iff (ha : Allots cfg entries w st left given)
    (hfree : ∀ a ∈ given, ¬ ExplicitAddr cfg entries a) {s t : String}
    (hs : hostAddr cfg st s = .ok (keyAt cfg st s)) (ht : hostAddr cfg st t = .ok (keyAt cfg st t)) :
    keyAt cfg st s = keyAt cfg st t ↔ SameGroup cfg (groupLists cfg st.masterNodes) s t := by
  unfold SameGroup
  -- an address of the file is not one that has been given away
  have happart : ∀ {s t a}, ipOf cfg s = .scalar (keyAt cfg st s) →
      st.outstationCidrAddrs.get? t = some a → keyAt cfg st t = .str a →
      keyAt cfg st s ≠ keyAt cfg st t := by
    intro s t a hip hget hkey heq
    exact hfree a (ha.labels t a hget) (Or.inl ⟨s, by rw [hip, heq, hkey]; rfl⟩)
  cases hostAddr_ok hs with
  | configured htruthy hip =>
    simp only [htruthy, true_and, Bool.true_eq_false, false_and, or_false]
    cases hostAddr_ok ht with
    | configured _ hip' => rw [hip, hip', Json.scalar.injEq]
    | generated a hfalsy hget hkey =>
      refine iff_of_false (happart hip hget hkey) fun heq => ?_
      rw [heq, hfalsy] at htruthy
      cases htruthy
  | generated a hfalsy hget hkey =>
    simp only [hfalsy, Bool.false_eq_true, false_and, false_or, true_and]
    cases hostAddr_ok ht with
    | configured htruthy hip =>
      refine iff_of_false (fun heq => happart hip hget hkey heq.symm) fun hboth => ?_
      rw [hboth.1] at htruthy
      cases htruthy
    | generated b hfalsy' hget' hkey' =>
      rw [hkey, hkey', and_iff_right hfalsy', Scalar.str.injEq,
        ← ha.labelled.eq_iff ((ha.labelled.covers s).mpr ⟨a, hget⟩), hget, hget', Option.some_inj]

/-! ## Two orders -/

/-- What the loop over the entries leaves. -/
structure Ends (cfg : Config) (entries : List Json) (w : World) (st : ParserState)
    (left given : List String) : Prop extends Allots cfg entries w st left given where
  grouped : Grouped cfg st
  kept : List.Forall₂ (KeptOf cfg) (entries.filter (hasKey "Name")) st.masterNodes

theorem exists_ends (hnodup : hosts.Nodup) (hcidr : w.cidr = some hosts)
    (henough : 2 * entries.length ≤ hosts.length)
    (h : entries.foldlM (processMaster env cfg) .init w = .ok st w₁) :
    ∃ left given, Ends cfg entries w st left given := by
  have hnodup' : (w.cidr.getD []).Nodup := by rw [hcidr]; exact hnodup
  have henough' : Enough hosts (2 * entries.length) w := ⟨hosts, hcidr, fun _ ha => ha, henough⟩
  obtain ⟨given, ha⟩ := exists_allots hnodup' h
  obtain ⟨ks, hks, hkept⟩ := loop_keeps henough' h
  have hks : st.masterNodes = ks := hks
  exact ⟨_, given, ha, Grouped.run h, hks ▸ hkept⟩

theorem Ends.mem_set (he : Ends cfg entries w st left given) {s : String} :
    s ∈ st.outstationSet ↔ Listed (namedLists entries) s := by
  rw [← lists_of_keptOf he.kept]
  simp only [Listed, List.mem_map, exists_exists_and_eq_and]
  constructor
  · exact he.covers s
  · intro h
    obtain ⟨k, hk, hs⟩ := h
    exact he.grouped.mem k hk s hs

theorem namedLists_perm (h : entries.Perm entries') :
    (namedLists entries).Perm (namedLists entries') := h.filterMap _

theorem entryLists_perm (h : entries.Perm entries') :
    (entryLists cfg entries).Perm (entryLists cfg entries') := (namedLists_perm h).filter _

/-- Two orders of the entries leave matching states. -/
theorem Ends.matches (he : Ends cfg entries w st left given)
    (he' : Ends cfg entries' w' st' left' given') (hperm : entries.Perm entries')
    (hfree : ∀ a ∈ given, ¬ ExplicitAddr cfg entries a)
    (hfree' : ∀ a ∈ given', ¬ ExplicitAddr cfg entries' a) (huniform : Uniform starts hosts)
    (hgiven : ∀ a ∈ given, a ∈ hosts) (hgiven' : ∀ a ∈ given', a ∈ hosts)
    (hhosted : ∀ s ∈ st.outstationSet, hostAddr cfg st s = .ok (keyAt cfg st s)) :
    Matches cfg starts st st' := by
  have hset : ∀ s, s ∈ st.outstationSet ↔ s ∈ st'.outstationSet := fun s => by
    rw [he.mem_set, he'.mem_set, Listed.perm (namedLists_perm hperm)]
  have hhosted' : ∀ s ∈ st'.outstationSet, hostAddr cfg st' s = .ok (keyAt cfg st' s) := by
    intro s hs
    obtain ⟨hobj, hat⟩ := hostAddr_iff.mp (hhosted s ((hset s).mpr hs))
    have hat' : ∃ key, HostedAt cfg st' s key := by
      cases hat with
      | configured htruthy hip => exact ⟨_, .configured htruthy hip⟩
      | generated _ hfalsy _ _ =>
        obtain ⟨a, ha⟩ := he'.label_of_seen he'.grouped hs hfalsy
        exact ⟨_, .generated a hfalsy ha rfl⟩
    obtain ⟨key, hat'⟩ := hat'
    have hkey := hostAddr_iff.mpr ⟨hobj, hat'⟩
    rw [keyAt, hkey]
  refine ⟨hset, he.grouped.nodup, he'.grouped.nodup, fun s hs => ⟨_, hhosted' s hs⟩,
    fun s hs t ht => ?_, fun s hs hfalsy halloc => ?_⟩
  · rw [he.key_eq_iff hfree (hhosted s hs) (hhosted t ht),
      he'.key_eq_iff hfree' (hhosted' s ((hset s).mp hs)) (hhosted' t ((hset t).mp ht)), SameGroup,
      SameGroup, groupLists_of_keptOf he.kept, groupLists_of_keptOf he'.kept,
      Linked.perm (entryLists_perm hperm)]
  · obtain ⟨a, hget, hkey⟩ := (hostAddr_ok (hhosted s hs)).of_falsy hfalsy
    obtain ⟨b, hget', hkey'⟩ := (hostAddr_ok (hhosted' s ((hset s).mp hs))).of_falsy hfalsy
    rw [hkey] at halloc
    rw [hkey']
    exact halloc.other huniform (hgiven a (he.labels s a hget)) (hgiven' b (he'.labels s b hget'))

/-! ## Acceptance -/

/-- Two orders of the entries, with enough addresses for either, of which none that is given
away is in the file. -/
structure Reorders (cfg : Config) (starts : String → String → Prop) (hosts : List String)
    (entries entries' : List Json) : Prop where
  perm : entries.Perm entries'
  nodup : hosts.Nodup
  enough : 2 * entries.length ≤ hosts.length
  uniform : Uniform starts hosts
  free : Free cfg hosts entries
  free' : Free cfg hosts entries'

theorem Reorders.symm (h : Reorders cfg starts hosts entries entries') :
    Reorders cfg starts hosts entries' entries where
  perm := h.perm.symm
  nodup := h.nodup
  enough := h.perm.length_eq ▸ h.enough
  uniform := h.uniform
  free := h.free'
  free' := h.free

/-- The call returns, for a list of entries under "Master Nodes". -/
def Accepts (env : Env) (cfg : Config) (entries : List Json) (w : World) : Prop :=
  ∃ st w₁ groups out w', entries.foldlM (processMaster env cfg) .init w = .ok st w₁ ∧
    (env.iter st.outstationSet).foldlM (groupOutstation cfg st) .empty = .ok groups ∧
    groups.entries.foldlM (outstationNode env cfg) [] w₁ = .ok out w'

theorem accepts_iff {cfg' : Config} (hfile : SameFile cfg cfg')
    (hentries : masterEntries cfg' = .ok entries) :
    (∃ nodes w', processNodes env cfg' w = .ok nodes w') ↔ Accepts env cfg entries w := by
  constructor
  · intro h
    obtain ⟨nodes, w', h⟩ := h
    obtain ⟨_, st, w₁, groups, hentries', hloop, hgroups, hout, -⟩ := processNodes_iff.mp h
    cases hentries.symm.trans hentries'
    rw [hfile.processMaster] at hloop
    rw [hfile.groupOutstation] at hgroups
    rw [hfile.outstationNode] at hout
    exact ⟨st, w₁, groups, _, w', hloop, hgroups, hout⟩
  · intro h
    obtain ⟨st, w₁, groups, out, w', hloop, hgroups, hout⟩ := h
    rw [← hfile.processMaster] at hloop
    rw [← hfile.groupOutstation] at hgroups
    rw [← hfile.outstationNode] at hout
    exact ⟨⟨st.masterNodes, out⟩, w', processNodes_iff.mpr
      ⟨entries, st, w₁, groups, hentries, hloop, hgroups, hout, rfl⟩⟩

theorem Reorders.loop_iff (h : Reorders cfg starts hosts entries entries')
    (hstarts : env.Brings starts) (hcidr : w.cidr = some hosts) :
    (∃ st w₁, entries.foldlM (processMaster env cfg) .init w = .ok st w₁) ↔
      (∀ j ∈ entries, hasKey "Name" j = true → ∃ m, Admits cfg starts hosts j m) ∧
        Mergeable [] (entryLists cfg entries) := by
  have hnodup : (w.cidr.getD []).Nodup := by rw [hcidr]; exact h.nodup
  exact Modbus.loop_iff hstarts h.uniform (issued_init cfg hnodup) (grouped_init cfg)
    ⟨hosts, hcidr, fun _ ha => ha, h.enough⟩

/-- The states that the two loops leave match. -/
theorem Reorders.matches (h : Reorders cfg starts hosts entries entries')
    (hcidr : w.cidr = some hosts) (he : Ends cfg entries w st left given)
    (he' : Ends cfg entries' w st' left' given')
    (hhosted : ∀ s ∈ st.outstationSet, hostAddr cfg st s = .ok (keyAt cfg st s)) :
    Matches cfg starts st st' := by
  have hgiven : ∀ a ∈ given, a ∈ handedOut cfg ⟨hosts, []⟩ entries := fun a ha => by
    have := (he.given a).mp (Or.inr ha)
    rwa [hcidr] at this
  have hgiven' : ∀ a ∈ given', a ∈ handedOut cfg ⟨hosts, []⟩ entries' := fun a ha => by
    have := (he'.given a).mp (Or.inr ha)
    rwa [hcidr] at this
  exact he.matches he' h.perm (fun a ha => h.free a (hgiven a ha))
    (fun a ha => h.free' a (hgiven' a ha)) h.uniform
    (fun a ha => (handedOut_sublist cfg _ _).subset (hgiven a ha))
    (fun a ha => (handedOut_sublist cfg _ _).subset (hgiven' a ha)) hhosted

/-- What is accepted in one order is accepted in another that is mergeable. -/
theorem Reorders.accepts (h : Reorders cfg starts hosts entries entries')
    (hstarts : env.Brings starts) (hstarts' : env'.Brings starts) (hcidr : w.cidr = some hosts)
    (haccepts : Accepts env cfg entries w) (hmerge : Mergeable [] (entryLists cfg entries')) :
    Accepts env' cfg entries' w := by
  obtain ⟨st, w₁, groups, out, w', hloop, hgroups, hout⟩ := haccepts
  obtain ⟨hadmits, -⟩ := (h.loop_iff hstarts hcidr).mp ⟨st, w₁, hloop⟩
  obtain ⟨st', w₂, hloop'⟩ := (h.symm.loop_iff hstarts' hcidr).mpr
    ⟨fun j hj => hadmits j (h.perm.mem_iff.mpr hj), hmerge⟩
  obtain ⟨left, given, he⟩ := exists_ends h.nodup hcidr h.enough hloop
  obtain ⟨left', given', he'⟩ := exists_ends h.nodup hcidr h.symm.enough hloop'
  have hm := h.matches hcidr he he' fun s hs =>
    (groupOutstations_ok hgroups).1 s ((env.iter_perm _).mem_iff.mpr hs)
  obtain ⟨groups', out', w₃, hgroups', hout'⟩ := hm.returns hstarts hstarts' hgroups hout w₂
  exact ⟨st', w₂, groups', out', w₃, hloop', hgroups', hout'⟩

/-! ## Results -/

/-- Two masters that differ in their generated addresses and interface numbers at most. -/
structure SameMaster (cfg : Config) (k k' : KeptMaster) : Prop where
  entry : k.entry = k'.entry
  outstations : k.outstations = k'.outstations
  name : k.node.name = k'.node.name
  ipaddr : k.entry.get? "IP Address" ≠ none → k.node.ipaddr = k'.node.ipaddr
  vnic : k.node.vnic.isSome = k'.node.vnic.isSome
  outstationAddr : ¬ Unaddressed cfg k.outstations → k.node.outstationAddr = k'.node.outstationAddr
  pollDict : k.node.pollDict = k'.node.pollDict
  simulate : k.node.simulate = k'.node.simulate
  info : k.node.outstationInfo = k'.node.outstationInfo
  port : k.node.port = k'.node.port

theorem KeptOf.sameMaster {j : Json} {k k' : KeptMaster} (h : KeptOf cfg j k)
    (h' : KeptOf cfg j k') : SameMaster cfg k k' := by
  obtain ⟨m, host, vnic, addr, hreads, hname, hvnic, haddr⟩ := h
  obtain ⟨m', host', vnic', addr', hreads', hname', hvnic', haddr'⟩ := h'
  have hentry : m.entry = m'.entry := Except.ok.inj (hreads.entry.symm.trans hreads'.entry)
  rw [← hentry] at hname'
  obtain rfl := hreads.unique hreads' (Option.some_inj.mp (hname.symm.trans hname'))
  refine ⟨rfl, rfl, rfl, fun hip => ?_, hvnic.trans hvnic'.symm, fun hsome => ?_, rfl, rfl, rfl, rfl⟩
  · obtain ⟨ip, hip⟩ := Option.ne_none_iff_exists'.mp hip
    show (m.entry.get? "IP Address").getD _ = (m.entry.get? "IP Address").getD _
    rw [show m.entry.get? "IP Address" = some ip from hip]
    rfl
  · have haddr := haddr.resolve_left hsome
    exact Except.ok.inj (haddr.symm.trans (haddr'.resolve_left hsome))

/-- The same result, up to the generated addresses and the numbers of interfaces. -/
structure SameResult (cfg : Config) (nodes nodes' : Nodes) : Prop where
  masters : ∃ ks, List.Forall₂ (SameMaster cfg) nodes.masters ks ∧ ks.Perm nodes'.masters
  forth : ∀ n ∈ nodes.outstations, ∃ n' ∈ nodes'.outstations, SameNode n n' ∧
    (¬ Unaddressed cfg n.names → n.ipaddr = n'.ipaddr)
  back : ∀ n' ∈ nodes'.outstations, ∃ n ∈ nodes.outstations, SameNode n n'
  /-- Masters with the same list have the same group. -/
  group : ∀ k ∈ nodes.masters, ∀ k' ∈ nodes'.masters, k.outstations = k'.outstations →
    k.outstations ≠ [] → ∃ n ∈ nodes.outstations, ∃ n' ∈ nodes'.outstations,
      k.node.outstationAddr = .scalar n.ipaddr ∧ k'.node.outstationAddr = .scalar n'.ipaddr ∧
        SameNode n n'

theorem forall₂_sameMaster {js : List Json} {ks ks' : List KeptMaster}
    (h : List.Forall₂ (KeptOf cfg) js ks) (h' : List.Forall₂ (KeptOf cfg) js ks') :
    List.Forall₂ (SameMaster cfg) ks ks' := by
  induction h generalizing ks' with
  | nil =>
    cases h'
    exact List.Forall₂.nil
  | cons hk _ ih =>
    cases h' with
    | cons hk' hks' => exact List.Forall₂.cons (hk.sameMaster hk') (ih hks')

theorem Reorders.sameResult (h : Reorders cfg starts hosts entries entries') {cfg' : Config}
    (hfile : SameFile cfg cfg') (hentries : masterEntries cfg = .ok entries)
    (hentries' : masterEntries cfg' = .ok entries') (hcidr : w.cidr = some hosts)
    {nodes nodes' : Nodes} {w₁ w₂ : World} (hrun : processNodes env cfg w = .ok nodes w₁)
    (hrun' : processNodes env' cfg' w = .ok nodes' w₂) : SameResult cfg nodes nodes' := by
  obtain ⟨st, groups, _, -, hr⟩ := processNodes_ok hrun
  obtain ⟨st', groups', _, -, hr'⟩ := processNodes_ok hrun'
  obtain ⟨_, _, hmasters, hloop⟩ := hr.masters
  cases hentries.symm.trans hmasters
  obtain ⟨_, _, hmasters', hloop'⟩ := hr'.masters
  cases hentries'.symm.trans hmasters'
  rw [hfile.processMaster] at hloop'
  obtain ⟨left, given, he⟩ := exists_ends h.nodup hcidr h.enough hloop
  obtain ⟨left', given', he'⟩ := exists_ends h.nodup hcidr h.symm.enough hloop'
  have hm := h.matches hcidr he he' fun s hs =>
    (groupOutstations_ok hr.groups_ok).1 s (hr.mem_iter.mpr hs)
  -- the node of an outstation in either result
  have hsame : ∀ n ∈ nodes.outstations, ∃ n' ∈ nodes'.outstations, SameNode n n' ∧
      ∀ s ∈ n.names, keyAt cfg st s = n.ipaddr ∧ keyAt cfg st' s = n'.ipaddr :=
    fun n hn => hm.same_nodes hfile hr hr' hn
  have hat : ∀ s n' , n' ∈ nodes'.outstations → s ∈ n'.names → ∀ n ∈ nodes.outstations,
      s ∈ n.names → SameNode n n' := by
    intro s n' hn' hs' n hn hs
    obtain ⟨m, hmem, hnm, -⟩ := hsame n hn
    rwa [hr'.host_unique hn' hmem hs' (hnm.names.mem_iff.mp hs)]
  refine ⟨?_, fun n hn => ?_, fun n' hn' => ?_, fun k hk k' hk' heq hne => ?_⟩
  · obtain ⟨ks, hks, hperm⟩ := List.perm_comp_forall₂ (h.perm.filter _) he'.kept
    rw [hr.masters_eq, hr'.masters_eq]
    exact ⟨ks, forall₂_sameMaster he.kept hks, hperm⟩
  · obtain ⟨n', hn', hnn', hkeys⟩ := hsame n hn
    refine ⟨n', hn', hnn', fun haddressed => ?_⟩
    obtain ⟨s, hs, htruthy⟩ : ∃ s ∈ n.names, (ipOf cfg s).truthy = true := by
      simpa [Unaddressed] using haddressed
    obtain ⟨hkey, hkey'⟩ := hkeys s hs
    obtain ⟨hset, -⟩ := (hr.hosts hn).mp hs
    obtain ⟨key', hhost'⟩ := hm.hosted s ((hm.set s).mp hset)
    have hfirst := (hostAddr_ok ((groupOutstations_ok hr.groups_ok).1 s
      (hr.mem_iter.mpr hset))).of_truthy htruthy
    have hsecond := (hostAddr_ok hhost').of_truthy htruthy
    have hfound : keyAt cfg st' s = key' := by rw [keyAt, hhost']
    rw [← hkey, ← hkey', hfound]
    exact Json.scalar.inj (hfirst.symm.trans hsecond)
  · obtain ⟨s, hs'⟩ := List.exists_mem_of_ne_nil _ (hr'.node hn').2.1
    obtain ⟨n, hn, hs⟩ := hr.exists_host ((hm.set s).mpr ((hr'.hosts hn').mp hs').1)
    exact ⟨n, hn, hat s n' hn' hs' n hn hs⟩
  · obtain ⟨s, hs⟩ := List.exists_mem_of_ne_nil _ hne
    have hset : s ∈ st.outstationSet := hr.grouped.mem k (hr.masters_eq ▸ hk) s hs
    obtain ⟨n, hn, hsn⟩ := hr.exists_host hset
    obtain ⟨n', hn', hsn'⟩ := hr'.exists_host ((hm.set s).mp hset)
    exact ⟨n, hn, n', hn', hr.addr_eq hk hs hn hsn, hr'.addr_eq hk' (heq ▸ hs) hn' hsn',
      hat s n' hn' hsn' n hn hsn⟩

end

/-- **The order of the masters.** A configuration is accepted only if no list of unaddressed
outstations joins two groups that the lists before it formed. Of two orders of its entries
for which this holds, it accepts both or none. And where it accepts two orders, both give
the same masters and the same groups, up to the generated addresses. -/
theorem master_order {env env' : Env} {cfg : Config} {starts : String → String → Prop}
    {hosts : List String} {entries entries' : List Json} {w : World}
    (hcfg : cfg.get? "Master Nodes" = some (.arr entries)) (hcidr : w.cidr = some hosts)
    (h : Reorders cfg starts hosts entries entries') (hstarts : env.Brings starts)
    (hstarts' : env'.Brings starts) :
    ((∃ nodes w', processNodes env cfg w = .ok nodes w') →
      Mergeable [] (entryLists cfg entries)) ∧
    ((∃ nodes w', processNodes env' (cfg.set "Master Nodes" (.arr entries')) w = .ok nodes w') →
      Mergeable [] (entryLists cfg entries')) ∧
    (Mergeable [] (entryLists cfg entries) → Mergeable [] (entryLists cfg entries') →
      ((∃ nodes w', processNodes env cfg w = .ok nodes w') ↔
        ∃ nodes w', processNodes env' (cfg.set "Master Nodes" (.arr entries')) w =
          .ok nodes w')) ∧
    ∀ nodes w₁ nodes' w₂, processNodes env cfg w = .ok nodes w₁ →
      processNodes env' (cfg.set "Master Nodes" (.arr entries')) w = .ok nodes' w₂ →
      SameResult cfg nodes nodes' := by
  have hfile := SameFile.set hcfg entries'
  have hentries : masterEntries cfg = .ok entries := by rw [masterEntries, hcfg]; rfl
  have hentries' : masterEntries (cfg.set "Master Nodes" (.arr entries')) = .ok entries' := by
    rw [masterEntries, Dict.get?_set_self]
    rfl
  rw [accepts_iff (SameFile.refl cfg) hentries, accepts_iff hfile hentries']
  refine ⟨fun haccepts => ?_, fun haccepts => ?_, fun hmerge hmerge' => ⟨fun haccepts => ?_,
    fun haccepts => ?_⟩, fun nodes w₁ nodes' w₂ hrun hrun' => ?_⟩
  · obtain ⟨st, w₁, _, _, _, hloop, -⟩ := haccepts
    exact ((h.loop_iff hstarts hcidr).mp ⟨st, w₁, hloop⟩).2
  · obtain ⟨st, w₁, _, _, _, hloop, -⟩ := haccepts
    exact ((h.symm.loop_iff hstarts' hcidr).mp ⟨st, w₁, hloop⟩).2
  · exact h.accepts hstarts hstarts' hcidr haccepts hmerge'
  · exact h.symm.accepts hstarts' hstarts hcidr haccepts hmerge
  · exact h.sameResult hfile hentries hentries' hcidr hrun hrun'

/-! ## A configuration -/

def pairMaster : Json := entry "M3" "10.1.0.3" ["S1", "S2"]

def soloMasters : List Json := [entry "M1" "10.1.0.1" ["S1"], entry "M2" "10.1.0.2" ["S2"]]

/-- A master with two outstations, and behind it two masters with one of them each. -/
def joinedConfig : Config :=
  Dict.ofList [
    ("Virtual Interface", .str "eth0"),
    ("Master Nodes", .arr (pairMaster :: soloMasters)),
    ("S1", .obj [("Unit ID", .num 1)]),
    ("S2", .obj [("Unit ID", .num 2)])]

def wideWorld : World :=
  { cidr := some ["10.0.0.1", "10.0.0.2", "10.0.0.3", "10.0.0.4", "10.0.0.5", "10.0.0.6"]
    vnictrack := 0, up := [] }

theorem ipOf_joinedConfig (s : String) : ipOf joinedConfig s = .null := by
  refine field_ofList (P := (· = .null)) s rfl ?_
  intro e he fields hfields
  simp only [List.mem_cons, List.not_mem_nil, or_false] at he
  obtain rfl | rfl | rfl | rfl := he <;> cases hfields <;> rfl

theorem free_joinedConfig {hosts : List String} {entries : List Json}
    (hgiven : handedOut joinedConfig ⟨hosts, []⟩ entries = ["10.0.0.2"])
    (hperm : (pairMaster :: soloMasters).Perm entries) : Free joinedConfig hosts entries := by
  intro a ha hfile
  rw [hgiven, List.mem_singleton] at ha
  subst ha
  obtain ⟨s, hs⟩ | ⟨j, hj, e, he, hip⟩ := hfile
  · exact absurd ((ipOf_joinedConfig s).symm.trans hs) (by simp [Json.null, Json.str])
  · rw [← hperm.mem_iff] at hj
    simp only [pairMaster, soloMasters, List.mem_cons, List.not_mem_nil, or_false] at hj
    obtain rfl | rfl | rfl := hj <;> exact absurd (entry_ip he hip) (by simp [Json.str])

theorem master_order_joined : ∃ nodes w₁ nodes' w₂,
    processNodes plainEnv joinedConfig wideWorld = .ok nodes w₁ ∧
    processNodes plainEnv (joinedConfig.set "Master Nodes" (.arr (pairMaster :: soloMasters.reverse)))
      wideWorld = .ok nodes' w₂ ∧ SameResult joinedConfig nodes nodes' := by
  have hrun : ∃ nodes w₁ nodes' w₂, processNodes plainEnv joinedConfig wideWorld = .ok nodes w₁ ∧
      processNodes plainEnv (joinedConfig.set "Master Nodes"
        (.arr (pairMaster :: soloMasters.reverse))) wideWorld = .ok nodes' w₂ :=
    ⟨_, _, _, _, rfl, rfl⟩
  obtain ⟨nodes, w₁, nodes', w₂, h, h'⟩ := hrun
  have hperm : (pairMaster :: soloMasters).Perm (pairMaster :: soloMasters.reverse) :=
    (List.reverse_perm soloMasters).symm.cons _
  have hbrings : plainEnv.Brings fun _ _ => True := fun _ _ _ => by simp [plainEnv]
  have hreorders : Reorders joinedConfig (fun _ _ => True) (wideWorld.cidr.getD [])
      (pairMaster :: soloMasters) (pairMaster :: soloMasters.reverse) :=
    ⟨hperm, by decide, by decide, fun _ _ _ _ _ _ => trivial,
      free_joinedConfig (by decide) (List.Perm.refl _), free_joinedConfig (by decide) hperm⟩
  exact ⟨nodes, w₁, nodes', w₂, h, h',
    (master_order rfl rfl hreorders hbrings hbrings).2.2.2 nodes w₁ nodes' w₂ h h'⟩

/-- Behind the others, the same master is refused. -/
theorem order_matters : ¬ ∀ env cfg entries entries' hosts w,
    cfg.get? "Master Nodes" = some (.arr entries) → entries.Perm entries' →
    w.cidr = some hosts → hosts.Nodup → 2 * entries.length ≤ hosts.length →
    ((∃ nodes w', processNodes env cfg w = .ok nodes w') ↔
      ∃ nodes w', processNodes env (cfg.set "Master Nodes" (.arr entries')) w = .ok nodes w') := by
  intro hiff
  have hperm : (pairMaster :: soloMasters).Perm (soloMasters ++ [pairMaster]) :=
    (List.perm_append_singleton pairMaster soloMasters).symm
  obtain ⟨nodes, w', h⟩ := (hiff plainEnv joinedConfig _ _ _ wideWorld rfl hperm rfl (by decide)
    (by decide)).mp ⟨_, _, rfl⟩
  have hrefused : ∃ w', processNodes plainEnv (joinedConfig.set "Master Nodes"
      (.arr (soloMasters ++ [pairMaster]))) wideWorld = .error .systemExit w' := ⟨_, rfl⟩
  obtain ⟨w'', hrefused⟩ := hrefused
  rw [hrefused] at h
  cases h

end IcsTrafficGen.Modbus
