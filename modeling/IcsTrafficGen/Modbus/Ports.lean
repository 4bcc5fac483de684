import IcsTrafficGen.Modbus.Grouping

/- The ports of masters and nodes. `get_outstation_port` takes the configured port of a
   list with one name only, and 502 for every longer list, whatever its outstations
   have configured. So a list gets its configured port exactly if it fits this. -/
namespace IcsTrafficGen.Modbus

/-- The port a list of outstations with the port `p` in the file should have. -/
def effectivePort (p : Scalar) : Scalar := if p = .null then .num 502 else p

/-- The list is short enough for its port: no port but 502 is configured, or it has one
name only, with a port that Python takes for true. -/
def PortFits (cfg : Config) (names : List String) : Prop :=
  (∀ s ∈ names, portOf cfg s = .null ∨ portOf cfg s = .num 502) ∨
    ∃ s, names = [s] ∧ (portOf cfg s).truthy = true

theorem portFits_iff {cfg : Config} {names : List String} {s : String} (hs : s ∈ names)
    (hsame : ∀ t ∈ names, portOf cfg t = portOf cfg s) :
    PortFits cfg names ↔ choosePort (names.map (portOf cfg)) = effectivePort (portOf cfg s) := by
  unfold PortFits effectivePort
  match names with
  | [] => cases hs
  | [t] =>
    rw [List.mem_singleton] at hs
    subst hs
    rw [List.map_singleton, choosePort]
    by_cases hnull : portOf cfg s = .null
    · simp [hnull, Scalar.truthy]
    · by_cases htruthy : (portOf cfg s).truthy = true
      · simp [hnull, htruthy]
      · simpa [hnull, htruthy] using eq_comm
  | t :: u :: rest =>
    have hall : (∀ x ∈ t :: u :: rest, portOf cfg x = .null ∨ portOf cfg x = .num 502) ↔
        portOf cfg s = .null ∨ portOf cfg s = .num 502 :=
      ⟨fun h => h s hs, fun h x hx => by rwa [hsame x hx]⟩
    rw [hall, List.map_cons, List.map_cons, choosePort]
    · by_cases hnull : portOf cfg s = .null
      · simp [hnull]
      · simpa [hnull] using eq_comm
    · simp

/-- Masters and nodes have the same ports, and a node has the port of its outstations. -/
def PortsAgree (cfg : Config) (nodes : Nodes) : Prop :=
  (∀ k ∈ nodes.masters, k.outstations ≠ [] → ∃ n ∈ nodes.outstations,
    k.node.outstationAddr = .scalar n.ipaddr ∧ k.node.port = n.port) ∧
  (∀ n ∈ nodes.outstations, ∀ p, p ≠ .null → (∀ s ∈ n.names, portOf cfg s = p) → n.port = p) ∧
  (∀ n ∈ nodes.outstations, (∀ s ∈ n.names, portOf cfg s = .null) → n.port = .num 502)

section
variable {env : Env} {cfg : Config} {w : World} {nodes : Nodes} {st : ParserState}
variable {groups : Dict Scalar (List String)} {n : OutstationNode} {s : String}

theorem Returns.node_port (h : Returns env cfg w nodes st groups) (hn : n ∈ nodes.outstations)
    (hs : s ∈ n.names) :
    (∀ t ∈ n.names, portOf cfg t = portOf cfg s) ∧
      (PortFits cfg n.names ↔ n.port = effectivePort (portOf cfg s)) := by
  obtain ⟨hport, hsame⟩ := getOutstationPort_ok (h.node hn).1.port
  refine ⟨fun t ht => hsame t ht s hs, ?_⟩
  rw [hport]
  exact portFits_iff hs fun t ht => hsame t ht s hs

theorem Returns.master_port (h : Returns env cfg w nodes st groups) {k : KeptMaster}
    (hk : k ∈ nodes.masters) (hs : s ∈ k.outstations) :
    PortFits cfg k.outstations ↔ k.node.port = effectivePort (portOf cfg s) := by
  obtain ⟨hport, hsame⟩ := getOutstationPort_ok (h.grouped.port k (h.masters_eq ▸ hk))
  rw [hport]
  exact portFits_iff hs fun t ht => hsame t ht s hs

/-- The lists of the nodes are the collected ones. -/
theorem Returns.forall_names (h : Returns env cfg w nodes st groups) {P : List String → Prop} :
    (∀ e ∈ groups.entries, P e.2) ↔ ∀ n ∈ nodes.outstations, P n.names := by
  constructor
  · intro hP n hn
    obtain ⟨e, he, hnode⟩ := Fallible.exists_left h.outstations hn
    exact hnode.names ▸ hP e he
  · intro hP e he
    obtain ⟨n, hn, hnode⟩ := Fallible.exists_right h.outstations he
    exact hnode.names ▸ hP n hn

theorem Returns.portsAgree_iff (h : Returns env cfg w nodes st groups) :
    PortsAgree cfg nodes ↔ (∀ k ∈ nodes.masters, PortFits cfg k.outstations) ∧
      ∀ n ∈ nodes.outstations, PortFits cfg n.names := by
  constructor
  · intro hx
    obtain ⟨hmaster, hport, hdefault⟩ := hx
    have hnode : ∀ n ∈ nodes.outstations, PortFits cfg n.names := by
      intro n hn
      obtain ⟨s, hs⟩ := List.exists_mem_of_ne_nil _ (h.node hn).2.1
      obtain ⟨hsame, hiff⟩ := h.node_port hn hs
      rw [hiff, effectivePort]
      split
      · next hnull => exact hdefault n hn fun t ht => (hsame t ht).trans hnull
      · next hnull => exact hport n hn _ hnull hsame
    refine ⟨fun k hk => ?_, hnode⟩
    by_cases hnil : k.outstations = []
    · exact Or.inl (by simp [hnil])
    · obtain ⟨s, hs⟩ := List.exists_mem_of_ne_nil _ hnil
      obtain ⟨n, hn, hsn⟩ := h.exists_host (h.grouped.mem k (h.masters_eq ▸ hk) s hs)
      obtain ⟨n', hn', haddr, hkport⟩ := hmaster k hk hnil
      have hip : n'.ipaddr = n.ipaddr := by
        simpa using haddr.symm.trans (h.addr_eq hk hs hn hsn)
      have heq := List.inj_on_of_nodup_map h.ipaddr_nodup hn' hn hip
      rw [h.master_port hk hs, hkport, heq, ← (h.node_port hn hsn).2]
      exact hnode n hn
  · intro hx
    obtain ⟨hmaster, hnode⟩ := hx
    refine ⟨fun k hk hne => ?_, fun n hn p hp hall => ?_, fun n hn hall => ?_⟩
    · obtain ⟨s, hs⟩ := List.exists_mem_of_ne_nil _ hne
      obtain ⟨n, hn, hsn⟩ := h.exists_host (h.grouped.mem k (h.masters_eq ▸ hk) s hs)
      refine ⟨n, hn, h.addr_eq hk hs hn hsn, ?_⟩
      rw [(h.master_port hk hs).mp (hmaster k hk), (h.node_port hn hsn).2.mp (hnode n hn)]
    · obtain ⟨s, hs⟩ := List.exists_mem_of_ne_nil _ (h.node hn).2.1
      rw [(h.node_port hn hs).2.mp (hnode n hn), hall s hs, effectivePort, if_neg hp]
    · obtain ⟨s, hs⟩ := List.exists_mem_of_ne_nil _ (h.node hn).2.1
      rw [(h.node_port hn hs).2.mp (hnode n hn), hall s hs, effectivePort, if_pos rfl]

end

/-- **When the ports agree.** Of a configuration that is accepted, the ports agree exactly
if every list of names that `get_outstation_port` is called with fits its port: the
list of each kept master, and the outstations collected at each address. -/
theorem ports_agree_iff {env : Env} {cfg : Config} {w w₁ w' : World} {nodes : Nodes}
    {st : ParserState} {groups : Dict Scalar (List String)}
    (hcollect : collectOutstations env cfg w = .ok (st, groups) w₁)
    (h : processNodes env cfg w = .ok nodes w') :
    PortsAgree cfg nodes ↔ (∀ k ∈ st.masterNodes, PortFits cfg k.outstations) ∧
      ∀ e ∈ groups.entries, PortFits cfg e.2 := by
  obtain ⟨st', groups', w₂, hcollect', hr⟩ := processNodes_ok h
  cases hcollect.symm.trans hcollect'
  rw [hr.portsAgree_iff, hr.forall_names (P := PortFits cfg), hr.masters_eq]

theorem portOf_sharedConfig (s : String) : portOf sharedConfig s = .null := by
  refine field_ofList (P := fun j => keyOf j = .null) s rfl ?_
  intro e he fields hfields
  simp only [List.mem_cons, List.not_mem_nil, or_false] at he
  obtain rfl | rfl | rfl | rfl | rfl := he <;> cases hfields <;> rfl

theorem ports_agree_shared : ∃ nodes w', processNodes plainEnv sharedConfig freshWorld =
    .ok nodes w' ∧ PortsAgree sharedConfig nodes := by
  have hrun : ∃ st groups w₁ nodes w',
      collectOutstations plainEnv sharedConfig freshWorld = .ok (st, groups) w₁ ∧
      processNodes plainEnv sharedConfig freshWorld = .ok nodes w' := ⟨_, _, _, _, _, rfl, rfl⟩
  obtain ⟨st, groups, w₁, nodes, w', hcollect, h⟩ := hrun
  have hfits : ∀ names, PortFits sharedConfig names := fun names =>
    Or.inl fun s _ => Or.inl (portOf_sharedConfig s)
  exact ⟨nodes, w', h, (ports_agree_iff hcollect h).mpr ⟨fun _ _ => hfits _, fun _ _ => hfits _⟩⟩

/-- Two masters with one outstation each, at one address and with one port. -/
def portConfig : Config :=
  Dict.ofList [
    ("Master Nodes", .arr [entry "M1" "10.1.0.1" ["S1"], entry "M2" "10.1.0.2" ["S2"]]),
    ("S1", .obj [("IP Address", .str "10.2.0.1"), ("Unit ID", .num 1), ("Port", .num 1502)]),
    ("S2", .obj [("IP Address", .str "10.2.0.1"), ("Unit ID", .num 2), ("Port", .num 1502)])]

/-- The masters dial 1502, and their outstations listen on 502. -/
theorem ports_disagree : ¬ ∀ env cfg w nodes w', processNodes env cfg w = .ok nodes w' →
    PortsAgree cfg nodes := by
  intro hagree
  have hrun : ∃ n m w', processNodes plainEnv portConfig freshWorld =
        .ok { masters := m, outstations := [n] } w' ∧
      n.names = ["S1", "S2"] ∧ n.port = .num 502 := ⟨_, _, _, rfl, rfl, rfl⟩
  obtain ⟨n, m, w', h, hnames, hport⟩ := hrun
  have hp := (hagree _ _ _ _ _ h).2.1 n (List.mem_singleton_self n) (.num 1502) (by decide)
    (by rw [hnames]; decide)
  rw [hport] at hp
  exact absurd hp (by decide)

end IcsTrafficGen.Modbus
