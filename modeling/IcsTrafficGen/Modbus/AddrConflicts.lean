import IcsTrafficGen.Modbus.GeneratedAddrs

/- Conflicts of addresses. The generated addresses of masters and groups differ from one
   another, but nothing compares them with the addresses of the file. So there is no
   conflict exactly if no address that is given away is in the file (`no_conflict_iff`).
   If one is, an outstation that has it in the file ends up in the node of a group that
   was given it, or at the address of a master. -/
namespace IcsTrafficGen.Modbus

/-- No generated address is an address of the file or of another node; and the outstations
of a node have the same address in the file, or none of them has one. -/
structure NoConflict (cfg : Config) (entries : List Json) (nodes : Nodes) : Prop where
  master : ∀ k ∈ nodes.masters, k.entry.get? "IP Address" = none →
    ∀ a, k.node.ipaddr = .str a → ¬ ExplicitAddr cfg entries a
  group : ∀ k ∈ nodes.masters, Unaddressed cfg k.outstations →
    ∀ a, k.node.outstationAddr = .str a → ¬ ExplicitAddr cfg entries a
  masters_apart : nodes.masters.Pairwise fun k k' =>
    k.entry.get? "IP Address" = none ∨ k'.entry.get? "IP Address" = none →
      k.node.ipaddr ≠ k'.node.ipaddr
  group_apart : ∀ k ∈ nodes.masters, Unaddressed cfg k.outstations → ∀ k' ∈ nodes.masters,
    k'.node.ipaddr ≠ k.node.outstationAddr
  master_apart : ∀ k ∈ nodes.masters, k.entry.get? "IP Address" = none →
    ∀ n ∈ nodes.outstations, k.node.ipaddr ≠ .scalar n.ipaddr
  /-- The node at the address of a group has the group and nothing else. -/
  alone : ∀ k ∈ nodes.masters, Unaddressed cfg k.outstations → ∀ n ∈ nodes.outstations,
    k.node.outstationAddr = .scalar n.ipaddr → ∀ t ∈ n.names,
      ∃ s ∈ k.outstations, Linked (groupLists cfg nodes.masters) s t
  alike : ∀ n ∈ nodes.outstations, Unaddressed cfg n.names ∨
    ∃ ip : Json, ip.truthy = true ∧ ∀ s ∈ n.names, ipOf cfg s = ip

theorem nameOf?_eq_some {j : Json} {a : String} : nameOf? j = some a ↔ j = .str a := by
  unfold nameOf?
  split <;> simp_all [Json.str]

theorem mem_ownAddrs {ks : List KeptMaster} {a : String} :
    a ∈ ownAddrs ks ↔
      ∃ k ∈ ks, k.entry.get? "IP Address" = none ∧ k.node.ipaddr = .str a := by
  rw [ownAddrs, List.mem_filterMap]
  refine exists_congr fun k => and_congr_right fun _ => ?_
  split
  · next hnone => rw [nameOf?_eq_some, and_iff_right hnone]
  · next hsome => simp [hsome]

section
variable {cfg : Config} {entries : List Json} {w : World} {st : ParserState}
variable {hosts given : List String}

theorem Allots.not_both (ha : Allots cfg entries w st hosts given) {a : String}
    (hown : a ∈ ownAddrs st.masterNodes) : a ∉ given := by
  intro hgiven
  exact List.disjoint_of_nodup_append (ha.fresh.of_append_left) hown hgiven

/-- A configured address of a kept master is one of the file. -/
theorem Allots.explicit (ha : Allots cfg entries w st hosts given) {k : KeptMaster}
    (hk : k ∈ st.masterNodes) {a : String} (hip : k.node.ipaddr = .str a) :
    ExplicitAddr cfg entries a ∨ k.entry.get? "IP Address" = none ∧ a ∈ ownAddrs st.masterNodes := by
  obtain hfile | ⟨hnone, b, hb⟩ := ha.own k hk
  · obtain ⟨j, hj, hentry⟩ := ha.entry k hk
    exact Or.inl (Or.inr ⟨j, hj, k.entry, hentry, hip ▸ hfile⟩)
  · exact Or.inr ⟨hnone, mem_ownAddrs.mpr ⟨k, hk, hnone, hip⟩⟩

/-- Who is at an address has it in the file, or has been given it. -/
theorem hosted_at (entries : List Json) {s a : String}
    (hhost : hostAddr cfg st s = .ok (keyAt cfg st s)) (hkey : keyAt cfg st s = .str a) :
    ExplicitAddr cfg entries a ∨
      (ipOf cfg s).truthy = false ∧ st.outstationCidrAddrs.get? s = some a := by
  cases hostAddr_ok hhost with
  | configured _ hip => exact Or.inl (Or.inl ⟨s, by rw [hip, hkey]; rfl⟩)
  | generated b hfalsy haddr hb =>
    rw [hkey, Scalar.str.injEq] at hb
    exact Or.inr ⟨hfalsy, hb ▸ haddr⟩

theorem Allots.own_addr (ha : Allots cfg entries w st hosts given) {k : KeptMaster}
    (hk : k ∈ st.masterNodes) (hnone : k.entry.get? "IP Address" = none) :
    ∃ a ∈ ownAddrs st.masterNodes, k.node.ipaddr = .str a := by
  obtain hsome | ⟨-, a, hip⟩ := ha.own k hk
  · rw [hnone] at hsome
    cases hsome
  · exact ⟨a, mem_ownAddrs.mpr ⟨k, hk, hnone, hip⟩, hip⟩

end

/-! ## No conflict -/

section
variable {env : Env} {cfg : Config} {entries : List Json} {w : World} {nodes : Nodes}
variable {st : ParserState} {groups : Dict Scalar (List String)} {hosts given : List String}

theorem Returns.hosted (hr : Returns env cfg w nodes st groups) {n : OutstationNode}
    (hn : n ∈ nodes.outstations) {s : String} (hs : s ∈ n.names) :
    hostAddr cfg st s = .ok (keyAt cfg st s) ∧ keyAt cfg st s = n.ipaddr := by
  obtain ⟨hset, hkey⟩ := (hr.hosts hn).mp hs
  exact ⟨(groupOutstations_ok hr.groups_ok).1 s (hr.mem_iter.mpr hset), hkey⟩

/-- Two masters of which one has a generated address do not have the same. -/
theorem Allots.masters_apart (ha : Allots cfg entries w st hosts given)
    (hfree : ∀ a ∈ ownAddrs st.masterNodes, ¬ ExplicitAddr cfg entries a) :
    st.masterNodes.Pairwise fun k k' =>
      k.entry.get? "IP Address" = none ∨ k'.entry.get? "IP Address" = none →
        k.node.ipaddr ≠ k'.node.ipaddr := by
  have hnodup : (ownAddrs st.masterNodes).Nodup := ha.fresh.of_append_left.of_append_left
  rw [ownAddrs, List.Nodup, List.pairwise_filterMap] at hnodup
  refine hnodup.imp_of_mem fun {k k'} hk hk' hdiffer hnone heq => ?_
  obtain hnone | hnone := hnone
  · obtain ⟨a, hown, hip⟩ := ha.own_addr hk hnone
    obtain hfile | ⟨hnone', -⟩ := ha.explicit hk' (heq ▸ hip)
    · exact hfree a hown hfile
    · refine hdiffer a ?_ a ?_ rfl
      · rw [if_pos hnone, nameOf?_eq_some, hip]
      · rw [if_pos hnone', nameOf?_eq_some, ← heq, hip]
  · obtain ⟨a, hown, hip⟩ := ha.own_addr hk' hnone
    obtain hfile | ⟨hnone', -⟩ := ha.explicit hk (heq ▸ hip)
    · exact hfree a hown hfile
    · refine hdiffer a ?_ a ?_ rfl
      · rw [if_pos hnone', nameOf?_eq_some, heq, hip]
      · rw [if_pos hnone, nameOf?_eq_some, hip]

/-- The node at the address of a group has the group and nothing else. -/
theorem Returns.group_alone (hr : Returns env cfg w nodes st groups)
    (ha : Allots cfg entries w st hosts given)
    (hfree : ∀ a ∈ given, ¬ ExplicitAddr cfg entries a) {k : KeptMaster}
    (hk : k ∈ st.masterNodes) (hnone : Unaddressed cfg k.outstations) {n : OutstationNode}
    (hn : n ∈ nodes.outstations) (haddr : k.node.outstationAddr = .scalar n.ipaddr) {t : String}
    (ht : t ∈ n.names) : ∃ s ∈ k.outstations, Linked (groupLists cfg st.masterNodes) s t := by
  obtain ⟨a, hgiven, ha'⟩ := ha.group k hk hnone
  have hip : n.ipaddr = .str a := Json.scalar.inj (haddr.symm.trans ha')
  obtain ⟨hhost, hkey⟩ := hr.hosted hn ht
  obtain hfile | ⟨-, hlabel⟩ := hosted_at entries hhost (hkey.trans hip)
  · exact absurd hfile (hfree a hgiven)
  cases hnames : k.outstations with
  | nil => exact absurd hlabel (ha.alone k hk hnames a ha' t)
  | cons s names =>
    have hs : s ∈ k.outstations := by rw [hnames]; exact List.mem_cons_self
    refine ⟨s, List.mem_cons_self, ha.labelled.linked s t a ?_ hlabel⟩
    cases hr.grouped.addr k hk s hs with
    | configured htruthy _ =>
      rw [hnone s hs] at htruthy
      cases htruthy
    | generated b _ hget hb =>
      have hab : b = a := Json.str_inj.mp (hb.symm.trans ha')
      rw [hget, hab]

/-- The outstations of a node have the same address in the file, or none has one. -/
theorem Returns.alike (hr : Returns env cfg w nodes st groups)
    (ha : Allots cfg entries w st hosts given)
    (hfree : ∀ a ∈ given, ¬ ExplicitAddr cfg entries a) {n : OutstationNode}
    (hn : n ∈ nodes.outstations) : Unaddressed cfg n.names ∨
      ∃ ip : Json, ip.truthy = true ∧ ∀ s ∈ n.names, ipOf cfg s = ip := by
  by_cases hnone : Unaddressed cfg n.names
  · exact Or.inl hnone
  right
  obtain ⟨t, ht, htruthy⟩ : ∃ t ∈ n.names, (ipOf cfg t).truthy = true := by
    simpa [Unaddressed] using hnone
  have hip : ipOf cfg t = .scalar n.ipaddr := by
    obtain ⟨hhost, hkey⟩ := hr.hosted hn ht
    rw [(hostAddr_ok hhost).of_truthy htruthy, hkey]
  refine ⟨.scalar n.ipaddr, hip ▸ htruthy, fun s hs => ?_⟩
  obtain ⟨hhost, hkey⟩ := hr.hosted hn hs
  cases hostAddr_ok hhost with
  | configured _ hip' => rw [hip', hkey]
  | generated a _ hlabel ha' =>
    -- the address would be in the file with the other outstation
    have hfile : ExplicitAddr cfg entries a := Or.inl ⟨t, by rw [hip, ← hkey, ha']; rfl⟩
    exact absurd hfile (hfree a (ha.labels s a hlabel))

theorem Returns.noConflict_iff (hr : Returns env cfg w nodes st groups)
    (ha : Allots cfg entries w st hosts given) :
    NoConflict cfg entries nodes ↔
      ∀ a ∈ handedOut cfg ⟨w.cidr.getD [], []⟩ entries, ¬ ExplicitAddr cfg entries a := by
  constructor
  · intro hx a hgiven
    obtain hown | hgroup := (ha.given a).mpr hgiven
    · obtain ⟨k, hk, hnone, hip⟩ := mem_ownAddrs.mp hown
      exact hx.master k (hr.masters_eq ▸ hk) hnone a hip
    · obtain ⟨k, hk, hnone, haddr⟩ := ha.used a hgroup
      exact hx.group k (hr.masters_eq ▸ hk) hnone a haddr
  · intro hfree
    have hown : ∀ a ∈ ownAddrs st.masterNodes, ¬ ExplicitAddr cfg entries a :=
      fun a h => hfree a ((ha.given a).mp (Or.inl h))
    have hgroup : ∀ a ∈ given, ¬ ExplicitAddr cfg entries a :=
      fun a h => hfree a ((ha.given a).mp (Or.inr h))
    refine ⟨fun k hk hnone a hip => ?_, fun k hk hnone a haddr => ?_, ?_, fun k hk hnone k' hk' => ?_,
      fun k hk hnone n hn => ?_, fun k hk hnone n hn haddr t ht => ?_,
      fun n hn => hr.alike ha hgroup hn⟩
    all_goals rw [hr.masters_eq] at *
    · exact hown a (mem_ownAddrs.mpr ⟨k, hk, hnone, hip⟩)
    · obtain ⟨b, hb, hb'⟩ := ha.group k hk hnone
      have hab : a = b := Json.str_inj.mp (haddr.symm.trans hb')
      exact hab ▸ hgroup b hb
    · exact ha.masters_apart hown
    · obtain ⟨a, hgiven, haddr⟩ := ha.group k hk hnone
      intro heq
      obtain hfile | ⟨-, hmine⟩ := ha.explicit hk' (heq.trans haddr)
      · exact hgroup a hgiven hfile
      · exact ha.not_both hmine hgiven
    · obtain ⟨a, hmine, hip⟩ := ha.own_addr hk hnone
      intro heq
      obtain ⟨s, hs⟩ := List.exists_mem_of_ne_nil _ (hr.node hn).2.1
      obtain ⟨hhost, hkey⟩ := hr.hosted hn hs
      have hat : n.ipaddr = .str a := Json.scalar.inj (heq.symm.trans hip)
      obtain hfile | ⟨-, hlabel⟩ := hosted_at entries hhost (hkey.trans hat)
      · exact hown a hmine hfile
      · exact ha.not_both hmine (ha.labels s a hlabel)
    · exact hr.group_alone ha hgroup hk hnone hn haddr ht

end

/-- **When generated addresses conflict.** Of a configuration that is accepted, with a
generator that yields no address twice, there is no conflict exactly if no address that
is given away is an "IP Address" of the file. -/
theorem no_conflict_iff {env : Env} {cfg : Config} {w w' : World} {nodes : Nodes}
    {entries : List Json} (hentries : masterEntries cfg = .ok entries)
    (hnodup : (w.cidr.getD []).Nodup) (h : processNodes env cfg w = .ok nodes w') :
    NoConflict cfg entries nodes ↔
      ∀ a ∈ handedOut cfg ⟨w.cidr.getD [], []⟩ entries, ¬ ExplicitAddr cfg entries a := by
  obtain ⟨st, groups, -, -, hr⟩ := processNodes_ok h
  obtain ⟨entries', w₁, hentries', hloop⟩ := hr.masters
  cases hentries.symm.trans hentries'
  obtain ⟨given, ha⟩ := exists_allots hnodup hloop
  exact hr.noConflict_iff ha

theorem ipOf_sharedConfig (s : String) :
    ipOf sharedConfig s = .null ∨ ipOf sharedConfig s = .str "192.13.13.12" := by
  refine field_ofList (P := fun j => j = .null ∨ j = .str "192.13.13.12") s (Or.inl rfl) ?_
  intro e he fields hfields
  simp only [List.mem_cons, List.not_mem_nil, or_false] at he
  obtain rfl | rfl | rfl | rfl | rfl := he <;> cases hfields
  · exact Or.inr rfl
  · exact Or.inr rfl
  · exact Or.inl rfl

/-- The address of an entry is the one written into it. -/
theorem entry_ip {name ip : String} {outstations : List String} {e : Dict String Json} {j : Json}
    (he : (entry name ip outstations).asDict = .ok e) (hj : e.get? "IP Address" = some j) :
    j = .str ip := by
  cases he
  have hmem := Dict.mem_of_get?_ofList hj
  simpa using hmem

theorem no_conflict_shared : ∃ nodes w', processNodes plainEnv sharedConfig freshWorld =
      .ok nodes w' ∧ handedOut sharedConfig ⟨freshWorld.cidr.getD [], []⟩ sharedEntries =
      ["10.0.0.4"] ∧ NoConflict sharedConfig sharedEntries nodes := by
  have hrun : ∃ nodes w', processNodes plainEnv sharedConfig freshWorld = .ok nodes w' :=
    ⟨_, _, rfl⟩
  obtain ⟨nodes, w', h⟩ := hrun
  have hgiven : handedOut sharedConfig ⟨freshWorld.cidr.getD [], []⟩ sharedEntries =
    ["10.0.0.4"] := by decide
  refine ⟨nodes, w', h, hgiven, (no_conflict_iff rfl (by decide) h).mpr fun a ha hfile => ?_⟩
  rw [hgiven, List.mem_singleton] at ha
  subst ha
  obtain ⟨s, hs⟩ | ⟨j, hj, e, he, hip⟩ := hfile
  · obtain hnull | hip := ipOf_sharedConfig s
    · cases hnull.symm.trans hs
    · exact absurd (hip.symm.trans hs) (by simp [Json.str])
  · simp only [sharedEntries, List.mem_cons, List.not_mem_nil, or_false] at hj
    obtain rfl | rfl | rfl := hj <;> exact absurd (entry_ip he hip) (by simp [Json.str])

/-- An outstation without an address, and one with the second address of the generator. -/
def clashConfig : Config :=
  Dict.ofList [
    ("Virtual Interface", .str "eth0"),
    ("Master Nodes", .arr [entry "M1" "10.1.0.1" ["S1"], entry "M2" "10.1.0.2" ["S2"]]),
    ("S1", .obj [("Unit ID", .num 1)]),
    ("S2", .obj [("IP Address", .str "10.0.0.2"), ("Unit ID", .num 2)])]

/-- They end up in one node, which then has no interface. -/
theorem addresses_conflict : ¬ ∀ env cfg w nodes w' entries, masterEntries cfg = .ok entries →
    (w.cidr.getD []).Nodup → processNodes env cfg w = .ok nodes w' →
    NoConflict cfg entries nodes := by
  intro hnone
  have hrun : ∃ n m w', processNodes plainEnv clashConfig freshWorld =
        .ok { masters := m, outstations := [n] } w' ∧
      n.names = ["S1", "S2"] ∧ n.vnic = none := ⟨_, _, _, rfl, rfl, rfl⟩
  obtain ⟨n, m, w', h, hnames, -⟩ := hrun
  obtain hfalsy | ⟨ip, htruthy, hall⟩ :=
    (hnone _ _ _ _ _ _ rfl (by decide) h).alike n (List.mem_singleton_self n)
  · exact absurd (hfalsy "S2" (by simp [hnames])) (by decide)
  · rw [← hall "S1" (by simp [hnames])] at htruthy
    exact absurd htruthy (by decide)

end IcsTrafficGen.Modbus
