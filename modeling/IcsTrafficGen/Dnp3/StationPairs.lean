import IcsTrafficGen.Dnp3.ParseConfig

/- Whether the two stations of an entry can talk to each other. The readers of the IP and the
   DNP3 addresses tell the master where its outstation is; the reader of the ports gives each
   station its own, and the master dials its own (`pair_connects_iff`). -/
namespace IcsTrafficGen.Dnp3
open CfgJsonParser

/-- Where `MasterStation::run` connects to: the arguments of `AddTCPClient`. -/
def StationNode.dials (m : StationNode) : String × Int := (m.remoteIPAddress, m.port)

/-- Where `OutStation::run` listens: the arguments of `AddTCPServer`. -/
def StationNode.serves (o : StationNode) : String × Int := (o.localIPAddress, o.port)

/-- The master dials what the outstation serves, and each has the other's DNP3 address. -/
structure Connects (m o : StationNode) : Prop where
  endpoint : m.dials = o.serves
  outstationAddr : m.remoteDNP3Addr = o.localDNP3Addr
  masterAddr : o.remoteDNP3Addr = m.localDNP3Addr

/-- The port that an entry gives to a role. -/
def portOf (nodeTree : PTree) (role : String) : Int :=
  (nodeTree.getOptional PTree.asInt ["IP Port", role]).getD 20000

/-- How many stations an entry names. -/
def stationCount (nodeTree : PTree) : ℕ :=
  (namedStation nodeTree "Master").toList.length + (namedStation nodeTree "Outstation").toList.length

/-! ## What the readers change -/

theorem readPollingSpecs_ok {nodeTree : PTree} {s s' : StationNode}
    (h : readPollingSpecs nodeTree s = .ok s') : ∃ pts, s' = { s with pollPoints := pts } := by
  unfold readPollingSpecs at h
  split at h
  · cases h
    exact ⟨_, rfl⟩
  · refine Fallible.foldlM_invariant (fun t => ∃ pts, t = { s with pollPoints := pts }) ?_ ⟨_, rfl⟩ h
    intro pTree _ t t' ht ht'
    obtain ⟨pts, rfl⟩ := ht
    obtain ⟨eventClass, -, ht'⟩ := Fallible.bind_ok.mp ht'
    obtain ⟨frequency, -, ht'⟩ := Fallible.bind_ok.mp ht'
    cases ht'
    exact ⟨_, rfl⟩

theorem readData_passes {nodeTree : PTree} {s s' : StationNode} (h : readData nodeTree s = .ok s') :
    ∃ n₁ n₂ n₃, readDataGenerationSpecs nodeTree s.toNode = .ok n₁ ∧
      readMappedDataGenerationSpecs nodeTree n₁ = .ok n₂ ∧
      readEventBufferSpecs nodeTree n₂ = .ok n₃ ∧ s' = { s with toNode := n₃ } := by
  obtain ⟨n₁, h₁, h⟩ := Fallible.bind_ok.mp h
  obtain ⟨n₂, h₂, h⟩ := Fallible.bind_ok.mp h
  obtain ⟨n₃, h₃, h⟩ := Fallible.bind_ok.mp h
  cases h
  exact ⟨n₁, n₂, n₃, h₁, h₂, h₃, rfl⟩

/-- An address, given or generated, is all that a station gets. -/
theorem assignIfNamed_ok {ipAddr : Option String} {p p' : CfgJsonParser}
    {node node' : Option StationNode} (h : assignIfNamed ipAddr p node = .ok (p', node')) :
    p'.nodes = p.nodes ∧ p'.localDnp3Addrs = p.localDnp3Addrs ∧
      ∃ ip vnic, node' = node.map fun n => { n with localIPAddress := ip, vnic := vnic } := by
  cases node with
  | none =>
    cases h
    exact ⟨rfl, rfl, "", "", rfl⟩
  | some node =>
    obtain ⟨⟨p₁, node₁⟩, h₁, h⟩ := Fallible.bind_ok.mp h
    cases h
    unfold assignIpAddress at h₁
    split at h₁
    · cases h₁
      exact ⟨rfl, rfl, _, node.vnic, rfl⟩
    · obtain ⟨vnictrack, -, h₁⟩ := Fallible.bind_ok.mp h₁
      cases h₁
      exact ⟨rfl, rfl, _, _, rfl⟩
    · cases h₁
      exact ⟨rfl, rfl, node.localIPAddress, node.vnic, rfl⟩

theorem readRole_ok {read : StationNode → Cpp StationNode} {station : Option StationNode}
    {l : List StationNode} (h : readRole read station = .ok l) :
    List.Forall₂ (fun s s' => read s = .ok s') station.toList l := by
  cases station with
  | none =>
    cases h
    exact .nil
  | some s =>
    obtain ⟨s', hs, h⟩ := Fallible.bind_ok.mp h
    cases h
    exact .cons hs .nil

theorem readAssignIpAddresses_ok {nodeTree : PTree} {p p' : CfgJsonParser} {pair pair' : StationPair}
    (h : readAssignIpAddresses nodeTree p pair = .ok (p', pair')) :
    p'.nodes = p.nodes ∧ p'.localDnp3Addrs = p.localDnp3Addrs ∧
      (∃ ip vnic, pair'.outstation = pair.outstation.map fun n =>
        { n with localIPAddress := ip, vnic := vnic }) ∧
      ∃ ip vnic, pair'.master = pair.master.map fun n =>
        setRemoteIp (nodeTree.getOptional PTree.asString ["IP Address", "Outstation"])
          pair'.outstation { n with localIPAddress := ip, vnic := vnic } := by
  obtain ⟨⟨p₁, master⟩, h₁, h⟩ := Fallible.bind_ok.mp h
  obtain ⟨⟨p₂, outstation⟩, h₂, h⟩ := Fallible.bind_ok.mp h
  cases h
  obtain ⟨hnodes₁, haddrs₁, ip₁, vnic₁, rfl⟩ := assignIfNamed_ok h₁
  obtain ⟨hnodes₂, haddrs₂, ip₂, vnic₂, rfl⟩ := assignIfNamed_ok h₂
  refine ⟨hnodes₂.trans hnodes₁, haddrs₂.trans haddrs₁, ⟨ip₂, vnic₂, rfl⟩, ip₁, vnic₁, ?_⟩
  rw [Option.map_map]
  rfl

/-- The passes of `readNode`, taken apart. -/
theorem readNode_ok {nodeTree : PTree} {p p' : CfgJsonParser} (h : readNode p nodeTree = .ok p') :
    ∃ p₁ pair masters outstations,
      readAssignIpAddresses nodeTree p
        ⟨namedStation nodeTree "Master", namedStation nodeTree "Outstation"⟩ = .ok (p₁, pair) ∧
      readRole (readPollingSpecs nodeTree)
        (readIpPorts nodeTree (readAssignDNP3Addresses nodeTree p₁ pair).2).master = .ok masters ∧
      readRole (readData nodeTree)
        (readIpPorts nodeTree (readAssignDNP3Addresses nodeTree p₁ pair).2).outstation =
          .ok outstations ∧
      p' = { (readAssignDNP3Addresses nodeTree p₁ pair).1 with
        nodes := p₁.nodes ++ masters ++ outstations } := by
  obtain ⟨⟨p₁, pair⟩, h₁, h⟩ := Fallible.bind_ok.mp h
  obtain ⟨masters, h₂, h⟩ := Fallible.bind_ok.mp h
  obtain ⟨outstations, h₃, h⟩ := Fallible.bind_ok.mp h
  cases h
  exact ⟨p₁, pair, masters, outstations, h₁, h₂, h₃, rfl⟩

theorem setRemoteIp_toNode (ipAddr : Option String) (outstation : Option StationNode)
    (m : StationNode) : (setRemoteIp ipAddr outstation m).toNode = m.toNode := by
  unfold setRemoteIp
  split <;> rfl

theorem setRemoteIp_role (ipAddr : Option String) (outstation : Option StationNode)
    (m : StationNode) : (setRemoteIp ipAddr outstation m).role = m.role := by
  unfold setRemoteIp
  split <;> rfl

/-- An entry appends its master, whose data is left as it is, and its outstation, whose data is
read. -/
theorem readNode_stations {nodeTree : PTree} {p p' : CfgJsonParser}
    (h : readNode p nodeTree = .ok p') :
    ∃ masters outstations, p'.nodes = p.nodes ++ (masters ++ outstations) ∧
      List.Forall₂ (fun m₀ m => m.role = m₀.role ∧ m.toNode = m₀.toNode)
        (namedStation nodeTree "Master").toList masters ∧
      List.Forall₂ (fun o₀ o => o.role = o₀.role ∧
          ∃ s, s.toNode = o₀.toNode ∧ readData nodeTree s = .ok o)
        (namedStation nodeTree "Outstation").toList outstations := by
  obtain ⟨p₁, pair, masters, outstations, h₁, h₂, h₃, rfl⟩ := readNode_ok h
  obtain ⟨hnodes, -, ⟨ip₂, vnic₂, hpo⟩, ip₁, vnic₁, hpm⟩ := readAssignIpAddresses_ok h₁
  refine ⟨masters, outstations, by rw [hnodes, List.append_assoc], ?_, ?_⟩
  · have hread := readRole_ok h₂
    simp only [readIpPorts, readAssignDNP3Addresses, hpm, Option.toList_map, List.map_map,
      List.forall₂_map_left_iff] at hread
    refine hread.imp fun m₀ m hm => ?_
    obtain ⟨pts, rfl⟩ := readPollingSpecs_ok hm
    exact ⟨setRemoteIp_role _ _ _, setRemoteIp_toNode _ _ _⟩
  · have hread := readRole_ok h₃
    simp only [readIpPorts, readAssignDNP3Addresses, hpo, Option.toList_map, List.map_map,
      List.forall₂_map_left_iff] at hread
    refine hread.imp fun o₀ o ho => ?_
    refine ⟨?_, _, ?_, ho⟩
    · obtain ⟨-, -, n, -, -, -, hsame⟩ := readData_passes ho
      rw [hsame]
      rfl
    · rfl

/-- An entry that names both roles appends its two stations. -/
theorem readNode_both {nodeTree : PTree} {p p' : CfgJsonParser} {masterName outStnName : String}
    (hm : nodeTree.getOptional PTree.asString ["Name", "Master"] = some masterName)
    (ho : nodeTree.getOptional PTree.asString ["Name", "Outstation"] = some outStnName)
    (h : readNode p nodeTree = .ok p') :
    ∃ m o, p'.nodes = p.nodes ++ [m, o] ∧ m.name = masterName ∧ o.name = outStnName ∧
      m.remoteIPAddress = o.localIPAddress ∧ m.remoteDNP3Addr = o.localDNP3Addr ∧
      o.remoteDNP3Addr = m.localDNP3Addr ∧ m.port = portOf nodeTree "Master" ∧
      o.port = portOf nodeTree "Outstation" := by
  obtain ⟨p₁, pair, masters, outstations, h₁, h₂, h₃, rfl⟩ := readNode_ok h
  obtain ⟨hnodes, -, ⟨ip₂, vnic₂, hpo⟩, ip₁, vnic₁, hpm⟩ := readAssignIpAddresses_ok h₁
  have hmaster : namedStation nodeTree "Master" = some (.new masterName "Master") := by
    rw [namedStation, hm]
    rfl
  have houtstation : namedStation nodeTree "Outstation" = some (.new outStnName "Outstation") := by
    rw [namedStation, ho]
    rfl
  rw [houtstation] at hpo
  rw [hmaster, hpo] at hpm
  obtain ⟨master, outstation⟩ := pair
  cases hpo
  cases hpm
  -- the rest of the entry changes neither the addresses nor the ports
  obtain ⟨m, _, hread, hnil, rfl⟩ := List.forall₂_cons_left_iff.mp (readRole_ok h₂)
  cases hnil
  obtain ⟨pts, hm'⟩ := readPollingSpecs_ok hread
  obtain ⟨o, _, hread, hnil, rfl⟩ := List.forall₂_cons_left_iff.mp (readRole_ok h₃)
  cases hnil
  obtain ⟨-, -, n, -, -, -, ho'⟩ := readData_passes hread
  refine ⟨m, o, ?_, ?_⟩
  · rw [hnodes, List.append_assoc]
    rfl
  · rw [hm', ho']
    exact ⟨rfl, rfl, rfl, rfl, rfl, rfl, rfl⟩

/-- Every entry appends as many stations as it names. -/
theorem readNode_length {nodeTree : PTree} {p p' : CfgJsonParser}
    (h : readNode p nodeTree = .ok p') :
    ∃ l, p'.nodes = p.nodes ++ l ∧ l.length = stationCount nodeTree := by
  obtain ⟨masters, outstations, hnodes, hmasters, houtstations⟩ := readNode_stations h
  refine ⟨masters ++ outstations, hnodes, ?_⟩
  rw [List.length_append, ← hmasters.length_eq, ← houtstations.length_eq, stationCount]

/-! ## The whole file -/

/-- The loop only appends stations. -/
theorem readNodes_length {trees : List PTree} {p p' : CfgJsonParser}
    (h : trees.foldlM readNode p = .ok p') :
    ∃ l, p'.nodes = p.nodes ++ l ∧ l.length = (trees.map stationCount).sum := by
  induction trees generalizing p with
  | nil =>
    cases h
    exact ⟨[], (List.append_nil _).symm, rfl⟩
  | cons tree trees ih =>
    rw [List.foldlM_cons] at h
    obtain ⟨p₁, h₁, h⟩ := Fallible.bind_ok.mp h
    obtain ⟨l₁, hl₁, hlength₁⟩ := readNode_length h₁
    obtain ⟨l₂, hl₂, hlength₂⟩ := ih h
    refine ⟨l₁ ++ l₂, ?_, ?_⟩
    · rw [hl₂, hl₁, List.append_assoc]
    · rw [List.length_append, hlength₁, hlength₂, List.map_cons, List.sum_cons]

/-- The constructor, taken apart. -/
theorem new_readNodes {propTree : PTree} {p : CfgJsonParser} (h : CfgJsonParser.new propTree = .ok p) :
    ∃ p₀ trees, nodeTrees propTree = .ok trees ∧ p₀.nodes = [] ∧
      p₀.localDnp3Addrs = readAllDnp3Addresses trees ∧ trees.foldlM readNode p₀ = .ok p := by
  obtain ⟨gen, -, h⟩ := Fallible.bind_ok.mp h
  obtain ⟨trees, htrees, h⟩ := Fallible.bind_ok.mp h
  exact ⟨_, trees, htrees, rfl, rfl, h⟩

/-- The two stations of an entry stand next to each other, behind those of the entries before
it, and they connect exactly if the entry gives them the same port. -/
theorem pair_connects_iff {propTree nodeTree : PTree} {p : CfgJsonParser} {pre post : List PTree}
    {masterName outStnName : String} (h : CfgJsonParser.new propTree = .ok p)
    (htrees : nodeTrees propTree = .ok (pre ++ nodeTree :: post))
    (hm : nodeTree.getOptional PTree.asString ["Name", "Master"] = some masterName)
    (ho : nodeTree.getOptional PTree.asString ["Name", "Outstation"] = some outStnName) :
    ∃ before m o after, p.nodes = before ++ m :: o :: after ∧
      before.length = (pre.map stationCount).sum ∧ m.name = masterName ∧ o.name = outStnName ∧
      (Connects m o ↔ portOf nodeTree "Master" = portOf nodeTree "Outstation") := by
  obtain ⟨p₀, trees, htrees', hnil, -, h⟩ := new_readNodes h
  cases htrees.symm.trans htrees'
  rw [List.foldlM_append] at h
  obtain ⟨p₁, h₁, h⟩ := Fallible.bind_ok.mp h
  rw [List.foldlM_cons] at h
  obtain ⟨p₂, h₂, h₃⟩ := Fallible.bind_ok.mp h
  obtain ⟨before, hbefore, hlength⟩ := readNodes_length h₁
  obtain ⟨after, hafter, -⟩ := readNodes_length h₃
  obtain ⟨m, o, hnodes, hmname, honame, hip, hout, hmaster, hmport, hoport⟩ :=
    readNode_both hm ho h₂
  refine ⟨before, m, o, after, ?_, hlength, hmname, honame, ?_⟩
  · rw [hafter, hnodes, hbefore, hnil]
    simp
  · constructor
    · intro hconnects
      have hports : m.port = o.port := congrArg Prod.snd hconnects.endpoint
      rw [← hmport, ← hoport, hports]
    · intro hports
      refine ⟨?_, hout, hmaster⟩
      rw [StationNode.dials, StationNode.serves, hip, hmport, hoport, hports]

/-! ## An entry with both roles -/

theorem exists_station {α : Type} {propTree : PTree} {f : StationNode → α} {l : List α} {a : α}
    (h : (CfgJsonParser.new propTree).map (fun p => p.nodes.map f) = .ok l) (ha : a ∈ l) :
    ∃ p o, CfgJsonParser.new propTree = .ok p ∧ o ∈ p.nodes ∧ f o = a := by
  obtain ⟨p, hp, rfl⟩ := Fallible.map_ok.mp h
  obtain ⟨o, ho, hfo⟩ := List.mem_map.mp ha
  exact ⟨p, o, hp, ho, hfo⟩

/-- An entry with the two names and what else is given. -/
def pairTree (rest : List (String × PTree)) : PTree :=
  .node "" (("Name", .node "" [("Master", .leaf "M1"), ("Outstation", .leaf "O1")]) :: rest)

def pairConfig (rest : List (String × PTree)) : PTree :=
  .node "" [("Nodes", .node "" [("", pairTree rest)])]

/-- The ports of the description of the configuration. -/
def documentedPorts : List (String × PTree) :=
  [("IP Port", .node "" [("Master", .leaf "20001"), ("Outstation", .leaf "19204")])]

/-- One port for both sides, an address for the outstation and a DNP3 address for the master. -/
def samePorts : List (String × PTree) :=
  [("IP Port", .node "" [("Master", .leaf "19204"), ("Outstation", .leaf "19204")]),
    ("IP Address", .node "" [("Outstation", .leaf "10.0.0.9")]),
    ("DNP3 Address", .node "" [("Master", .leaf "7")])]

def twoPairs : PTree :=
  .node "" [("Nodes", .node "" [("", pairTree documentedPorts), ("", pairTree samePorts)])]

/-- The second pair connects. -/
theorem samePorts_connect : ∃ p before m o after, CfgJsonParser.new twoPairs = .ok p ∧
    p.nodes = before ++ m :: o :: after ∧ before.length = 2 ∧ Connects m o := by
  have hok : (CfgJsonParser.new twoPairs).toBool = true := by decide +kernel
  obtain ⟨p, hp⟩ := Fallible.exists_ok hok
  have htrees : nodeTrees twoPairs =
      .ok ([pairTree documentedPorts] ++ pairTree samePorts :: []) := rfl
  obtain ⟨before, m, o, after, hnodes, hlength, -, -, hiff⟩ := pair_connects_iff hp htrees rfl rfl
  exact ⟨p, before, m, o, after, hp, hnodes, hlength, hiff.mpr (by decide)⟩

/-- With the ports of the description the master dials one port and the outstation listens on
another. -/
theorem documentedPorts_not_connect :
    ∃ p m o, CfgJsonParser.new (pairConfig documentedPorts) = .ok p ∧ p.nodes = [m, o] ∧
      m.role = "Master" ∧ o.role = "Outstation" ∧ m.port = 20001 ∧ o.port = 19204 ∧
      ¬ Connects m o := by
  have hnodes : (CfgJsonParser.new (pairConfig documentedPorts)).map
      (fun p => p.nodes.map (fun n => (n.role, n.port))) =
      .ok [("Master", 20001), ("Outstation", 19204)] := by decide +kernel
  obtain ⟨⟨nodes, vnic, gen, addrs, vnictrack, commands⟩, hp, hnodes⟩ := Fallible.map_ok.mp hnodes
  match nodes, hnodes with
  | [m, o], hnodes =>
    simp only [List.map_cons, List.map_nil, List.cons.injEq, Prod.mk.injEq, and_true] at hnodes
    obtain ⟨⟨hmrole, hmport⟩, horole, hoport⟩ := hnodes
    refine ⟨_, m, o, hp, rfl, hmrole, horole, hmport, hoport, ?_⟩
    intro hconnects
    have hports : m.port = o.port := congrArg Prod.snd hconnects.endpoint
    omega

end IcsTrafficGen.Dnp3
