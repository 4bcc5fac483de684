import IcsTrafficGen.Dnp3.Dnp3App
import IcsTrafficGen.Dnp3.IpConflicts

/- What the entries of "Nodes" have to do with each other. The parser goes through them with a
   state (the addresses handed out so far, the number of interfaces), but an entry's stations
   are what the entry alone says of them (`entryNodes`), except for their addresses and their
   interface; and a file is accepted if each entry is and the interfaces can be numbered
   (`configuredNodes_iff`). So the order of the entries does not matter (`node_order`). -/
namespace IcsTrafficGen.Dnp3
open CfgJsonParser

/-! ## The configured nodes -/

/-- The parser when it comes to the entries. -/
def CfgJsonParser.beforeNodes (propTree : PTree) (gen : Option CidrCalculator) (trees : List PTree) :
    CfgJsonParser :=
  { nodes := []
    virtualNetworkInterfaceCard := (propTree.getOptional PTree.asString ["Virtual Interface"]).getD ""
    cidrGenerator := gen, localDnp3Addrs := readAllDnp3Addresses trees, vnictrack := 0, commands := [] }

/-- The constructor and `GetConfiguredNodes`: the nodes with all that is read of them. -/
def configuredNodes (propTree : PTree) : Cpp (List ConfiguredNode) := do
  let gen ← readCidr propTree
  let trees ← nodeTrees propTree
  let s ← trees.foldlM readConfiguredNode (beforeNodes propTree gen trees, [])
  pure s.2

/-- A station without its addresses and its interface. -/
def StationNode.unaddressed (n : StationNode) : StationNode :=
  { n with
    vnic := "", localIPAddress := "", remoteIPAddress := "", remoteDNP3Addr := 0, localDNP3Addr := 0 }

def ConfiguredNode.unaddressed (n : ConfiguredNode) : ConfiguredNode :=
  { n with toStationNode := n.toStationNode.unaddressed }

def StationPair.unaddressed (pair : StationPair) : StationPair :=
  { master := pair.master.map StationNode.unaddressed
    outstation := pair.outstation.map StationNode.unaddressed }

/-- The stations of an entry as they are named, and with their ports. -/
def namedPair (nodeTree : PTree) : StationPair :=
  { master := namedStation nodeTree "Master", outstation := namedStation nodeTree "Outstation" }

/-- The rest of what an entry says. -/
def readRoles (nodeTree : PTree) (pair : StationPair) : Cpp (List StationNode) := do
  let masters ← readRole (readPollingSpecs nodeTree) pair.master
  let outstations ← readRole (readData nodeTree) pair.outstation
  pure (masters ++ outstations)

/-- The stations of an entry by itself, without addresses. -/
def entryNodes (nodeTree : PTree) : Cpp (List ConfiguredNode) := do
  let stations ← readRoles nodeTree (readIpPorts nodeTree (namedPair nodeTree))
  pure (stations.map (readSettings nodeTree))

/-! ## Without addresses -/

section
variable {nodeTree : PTree} {p p' : CfgJsonParser} {pair pair' : StationPair}

theorem readPollingSpecs_unaddressed (s : StationNode) :
    (readPollingSpecs nodeTree s).map StationNode.unaddressed =
      readPollingSpecs nodeTree s.unaddressed := by
  unfold readPollingSpecs
  split
  · rfl
  · refine Fallible.foldlM_map StationNode.unaddressed (fun s pTree => ?_) _ s
    simp only [readPollPoint, Fallible.map_bind]
    rfl

theorem readData_unaddressed (s : StationNode) :
    (readData nodeTree s).map StationNode.unaddressed = readData nodeTree s.unaddressed := by
  simp only [readData, Fallible.map_bind]
  rfl

theorem readRole_unaddressed {read : StationNode → Cpp StationNode}
    (hread : ∀ s, (read s).map StationNode.unaddressed = read s.unaddressed)
    (station : Option StationNode) :
    (readRole read station).map (List.map StationNode.unaddressed) =
      readRole read (station.map StationNode.unaddressed) := by
  cases station with
  | none => rfl
  | some s =>
    simp only [readRole, Option.map_some, ← hread, Fallible.map_bind, Fallible.bind_map]
    rfl

theorem readRoles_unaddressed (pair : StationPair) :
    (readRoles nodeTree pair).map (List.map StationNode.unaddressed) =
      readRoles nodeTree pair.unaddressed := by
  have happend : ∀ masters outstations : List StationNode,
      (pure (masters ++ outstations) : Cpp (List StationNode)).map (List.map StationNode.unaddressed) =
        pure (masters.map StationNode.unaddressed ++ outstations.map StationNode.unaddressed) :=
    fun masters outstations => congrArg Except.ok List.map_append
  simp only [readRoles, StationPair.unaddressed, ← readRole_unaddressed readPollingSpecs_unaddressed,
    ← readRole_unaddressed readData_unaddressed, Fallible.map_bind, Fallible.bind_map, happend]

theorem setRemoteIp_unaddressed (ipAddr : Option String) (outstation : Option StationNode)
    (m : StationNode) : (setRemoteIp ipAddr outstation m).unaddressed = m.unaddressed := by
  unfold setRemoteIp
  split <;> rfl

theorem readAssignIpAddresses_unaddressed
    (h : readAssignIpAddresses nodeTree p pair = .ok (p', pair')) :
    pair'.unaddressed = pair.unaddressed := by
  obtain ⟨-, -, ⟨ip₂, vnic₂, hpo⟩, ip₁, vnic₁, hpm⟩ := readAssignIpAddresses_ok h
  rw [StationPair.unaddressed, hpo, hpm, Option.map_map, Option.map_map]
  congr 1
  refine congrArg (fun f => pair.master.map f) (funext fun m => ?_)
  exact setRemoteIp_unaddressed _ _ _

theorem readAssignDNP3Addresses_unaddressed :
    (readAssignDNP3Addresses nodeTree p pair).2.unaddressed = pair.unaddressed := by
  simp only [readAssignDNP3Addresses, StationPair.unaddressed, Option.map_map]
  rfl

theorem readIpPorts_unaddressed :
    (readIpPorts nodeTree pair).unaddressed = readIpPorts nodeTree pair.unaddressed := by
  simp only [readIpPorts, StationPair.unaddressed, Option.map_map]
  rfl

theorem namedPair_unaddressed : (namedPair nodeTree).unaddressed = namedPair nodeTree := by
  simp only [namedPair, StationPair.unaddressed, namedStation, Option.map_map]
  rfl

/-! ## One entry -/

/-- The passes of `readNode`, taken apart. -/
theorem readNode_iff : readNode p nodeTree = .ok p' ↔ ∃ p₁ pair stations,
    readAssignIpAddresses nodeTree p (namedPair nodeTree) = .ok (p₁, pair) ∧
    readRoles nodeTree (readIpPorts nodeTree (readAssignDNP3Addresses nodeTree p₁ pair).2) =
      .ok stations ∧
    p' = { (readAssignDNP3Addresses nodeTree p₁ pair).1 with nodes := p.nodes ++ stations } := by
  constructor
  · intro h
    obtain ⟨p₁, pair, masters, outstations, h₁, h₂, h₃, rfl⟩ := readNode_ok h
    refine ⟨p₁, pair, masters ++ outstations, h₁, ?_, ?_⟩
    · exact Fallible.bind_ok.mpr ⟨_, h₂, Fallible.bind_ok.mpr ⟨_, h₃, rfl⟩⟩
    · rw [(readAssignIpAddresses_ok h₁).1, List.append_assoc]
  · rintro ⟨p₁, pair, stations, h₁, h, rfl⟩
    obtain ⟨masters, h₂, h⟩ := Fallible.bind_ok.mp h
    obtain ⟨outstations, h₃, h⟩ := Fallible.bind_ok.mp h
    cases h
    refine Fallible.bind_ok.mpr ⟨_, h₁, Fallible.bind_ok.mpr ⟨_, h₂,
      Fallible.bind_ok.mpr ⟨_, h₃, ?_⟩⟩⟩
    rw [← (readAssignIpAddresses_ok h₁).1, ← List.append_assoc]
    rfl

/-- What else is read of an entry does not depend on the addresses. -/
theorem readRoles_eq (h : readAssignIpAddresses nodeTree p (namedPair nodeTree) = .ok (p', pair)) :
    (readRoles nodeTree (readIpPorts nodeTree (readAssignDNP3Addresses nodeTree p' pair).2)).map
        (List.map StationNode.unaddressed) =
      readRoles nodeTree (readIpPorts nodeTree (namedPair nodeTree)) := by
  rw [readRoles_unaddressed, readIpPorts_unaddressed, readAssignDNP3Addresses_unaddressed,
    readAssignIpAddresses_unaddressed h, namedPair_unaddressed]

/-- An entry appends the stations that it has by itself, but for their addresses. -/
theorem readNode_entry (h : readNode p nodeTree = .ok p') : ∃ stations,
    p'.nodes = p.nodes ++ stations ∧ entryNodes nodeTree =
      .ok ((stations.map (readSettings nodeTree)).map ConfiguredNode.unaddressed) := by
  obtain ⟨p₁, pair, stations, hip, hread, rfl⟩ := readNode_iff.mp h
  refine ⟨stations, rfl, ?_⟩
  rw [entryNodes, ← readRoles_eq hip, hread]
  refine congrArg Except.ok ?_
  rw [List.map_map, List.map_map]
  rfl

end

/-! ## The number of interfaces -/

/-- How many interfaces are made for stations that have no address in the file. -/
def CfgJsonParser.interfaces (p : CfgJsonParser) (omitted : ℕ) : ℕ :=
  if p.cidrGenerator.isSome then omitted else 0

/-- The parser has made the interfaces, and could count them. -/
structure Numbers (p : CfgJsonParser) (omitted : ℕ) (p' : CfgJsonParser) : Prop where
  vnictrack : p'.vnictrack = p.vnictrack + p.interfaces omitted
  generator : p'.cidrGenerator.isSome = p.cidrGenerator.isSome
  fits : p'.vnictrack ≤ 2147483647

section
variable {nodeTree : PTree} {p p₁ p' : CfgJsonParser} {m n : ℕ}

theorem interfaces_add : p.interfaces (m + n) = p.interfaces m + p.interfaces n := by
  unfold CfgJsonParser.interfaces
  split <;> rfl

theorem interfaces_zero : p.interfaces 0 = 0 := by
  unfold CfgJsonParser.interfaces
  split <;> rfl

theorem Numbers.interfaces_eq (h : Numbers p m p') : p'.interfaces n = p.interfaces n := by
  rw [CfgJsonParser.interfaces, h.generator, CfgJsonParser.interfaces]

theorem Numbers.trans (h : Numbers p m p₁) (h' : Numbers p₁ n p') : Numbers p (m + n) p' where
  vnictrack := by
    rw [h'.vnictrack, h.vnictrack, h.interfaces_eq, interfaces_add]
    omega
  generator := h'.generator.trans h.generator
  fits := h'.fits

theorem Numbers.none (hfits : p.vnictrack ≤ 2147483647) : Numbers p 0 p :=
  ⟨by simp [interfaces_zero], rfl, hfits⟩

/-- What is left over is too much to be counted. -/
def Overflows (p : CfgJsonParser) (omitted : ℕ) : Prop :=
  2147483647 < p.vnictrack + p.interfaces omitted

theorem allocateIpAddress_cases (h0 : 0 ≤ p.vnictrack) (node : StationNode) (ip : String) :
    (∃ q, allocateIpAddress p node ip = .ok q ∧ q.1.vnictrack = p.vnictrack + 1 ∧
        q.1.cidrGenerator = p.cidrGenerator ∧ p.vnictrack + 1 ≤ 2147483647) ∨
      (∃ e, allocateIpAddress p node ip = .error e) ∧ 2147483647 < p.vnictrack + 1 := by
  by_cases hroom : p.vnictrack + 1 ≤ 2147483647
  · have hadd : Cpp.addInt p.vnictrack 1 = .ok (p.vnictrack + 1) :=
      Cpp.addInt_ok.mpr ⟨by unfold Cpp.InInt; omega, rfl⟩
    exact Or.inl ⟨_, Fallible.bind_ok.mpr ⟨_, hadd, rfl⟩, rfl, rfl, hroom⟩
  · have hadd : Cpp.addInt p.vnictrack 1 = .error .undefined :=
      if_neg fun h : Cpp.InInt _ => hroom h.2
    refine Or.inr ⟨⟨.undefined, ?_⟩, not_le.mp hroom⟩
    rw [allocateIpAddress, hadd]
    rfl

/-- A station without an address gets an interface, where it can be counted. -/
theorem assignIfNamed_cases (nodeTree : PTree) (role : String) (h0 : 0 ≤ p.vnictrack)
    (hfits : p.vnictrack ≤ 2147483647) :
    (∃ q, assignIfNamed (nodeTree.getOptional PTree.asString ["IP Address", role]) p
        (namedStation nodeTree role) = .ok q ∧ Numbers p (omitsIp nodeTree role) q.1) ∨
      (∃ e, assignIfNamed (nodeTree.getOptional PTree.asString ["IP Address", role]) p
        (namedStation nodeTree role) = .error e) ∧ Overflows p (omitsIp nodeTree role) := by
  unfold omitsIp
  cases namedStation nodeTree role with
  | none => exact Or.inl ⟨_, rfl, .none hfits⟩
  | some node =>
    cases nodeTree.getOptional PTree.asString ["IP Address", role] with
    | some ip =>
      refine Or.inl ⟨(p, some { node with localIPAddress := ip }), rfl, ?_⟩
      simpa using .none hfits
    | none =>
      simp only [Option.isSome_some, true_and, if_true, assignIfNamed, assignIpAddress]
      cases hgen : p.cidrGenerator with
      | none => exact Or.inl ⟨_, rfl, by simp [CfgJsonParser.interfaces, hgen], rfl, hfits⟩
      | some gen =>
        have hone : p.interfaces 1 = 1 := by simp [CfgJsonParser.interfaces, hgen]
        unfold Overflows
        rw [hone]
        obtain ⟨q, hq, hcount, hgen', hroom⟩ | ⟨⟨e, he⟩, hover⟩ := allocateIpAddress_cases
          (p := { p with cidrGenerator := some gen.getNextIpAddress.2 }) h0 node
            gen.getNextIpAddress.1
        · refine Or.inl ⟨_, Fallible.bind_ok.mpr ⟨_, hq, rfl⟩, ?_, ?_, hcount.trans_le hroom⟩
          · rw [hone]
            exact hcount
          · rw [hgen', hgen]
            rfl
        · refine Or.inr ⟨⟨e, ?_⟩, hover⟩
          simp only [he]
          rfl

/-- So do the two stations of an entry. -/
theorem readAssignIpAddresses_cases (nodeTree : PTree) (h0 : 0 ≤ p.vnictrack)
    (hfits : p.vnictrack ≤ 2147483647) :
    (∃ q, readAssignIpAddresses nodeTree p (namedPair nodeTree) = .ok q ∧
        Numbers p (omittedIps nodeTree) q.1) ∨
      (∃ e, readAssignIpAddresses nodeTree p (namedPair nodeTree) = .error e) ∧
        Overflows p (omittedIps nodeTree) := by
  unfold readAssignIpAddresses
  obtain ⟨q₁, hq₁, hmaster⟩ | ⟨⟨e, he⟩, hover⟩ :=
    assignIfNamed_cases nodeTree "Master" h0 hfits
  · have hpos : 0 ≤ q₁.1.vnictrack := by
      rw [hmaster.vnictrack]
      omega
    obtain ⟨q₂, hq₂, houtstation⟩ | ⟨⟨e, he⟩, hover⟩ :=
      assignIfNamed_cases nodeTree "Outstation" hpos hmaster.fits
    · exact Or.inl ⟨_, Fallible.bind_ok.mpr ⟨_, hq₁, Fallible.bind_ok.mpr ⟨_, hq₂, rfl⟩⟩,
        hmaster.trans houtstation⟩
    · refine Or.inr ⟨⟨e, ?_⟩, ?_⟩
      · simp only [namedPair, hq₁, he, bind, Except.bind]
      · unfold Overflows at hover ⊢
        rw [hmaster.vnictrack, hmaster.interfaces_eq] at hover
        rw [omittedIps, interfaces_add]
        omega
  · refine Or.inr ⟨⟨e, ?_⟩, ?_⟩
    · simp only [namedPair, he, bind, Except.bind]
    · unfold Overflows at hover ⊢
      rw [omittedIps, interfaces_add]
      omega

theorem readNode_numbers (h0 : 0 ≤ p.vnictrack) (hfits : p.vnictrack ≤ 2147483647)
    (h : readNode p nodeTree = .ok p') : Numbers p (omittedIps nodeTree) p' := by
  obtain ⟨p₁, pair, stations, hip, -, rfl⟩ := readNode_iff.mp h
  obtain ⟨q, hq, hnumbers⟩ | ⟨⟨e, he⟩, -⟩ := readAssignIpAddresses_cases nodeTree h0 hfits
  · cases hq.symm.trans hip
    exact ⟨hnumbers.vnictrack, hnumbers.generator, hnumbers.fits⟩
  · cases he.symm.trans hip

/-- An entry is accepted if it is by itself and its interfaces can be counted. -/
theorem readNode_accepts (h0 : 0 ≤ p.vnictrack) (hfits : p.vnictrack ≤ 2147483647) :
    (∃ p', readNode p nodeTree = .ok p') ↔
      (∃ nodes, entryNodes nodeTree = .ok nodes) ∧ ¬ Overflows p (omittedIps nodeTree) := by
  constructor
  · rintro ⟨p', h⟩
    obtain ⟨stations, -, hentry⟩ := readNode_entry h
    have hnumbers := readNode_numbers h0 hfits h
    refine ⟨⟨_, hentry⟩, ?_⟩
    unfold Overflows
    rw [← hnumbers.vnictrack]
    exact not_lt.mpr hnumbers.fits
  · rintro ⟨⟨nodes, hentry⟩, hroom⟩
    obtain ⟨⟨p₁, pair⟩, hip, -⟩ | ⟨-, hover⟩ := readAssignIpAddresses_cases nodeTree h0 hfits
    · obtain ⟨stations, hread, -⟩ := Fallible.bind_ok.mp hentry
      rw [← readRoles_eq hip] at hread
      obtain ⟨stations, hread, -⟩ := Fallible.map_ok.mp hread
      exact ⟨_, readNode_iff.mpr ⟨p₁, pair, stations, hip, hread, rfl⟩⟩
    · exact absurd hover hroom

/-! ## All entries -/

theorem nonneg_of_numbers (h0 : 0 ≤ p.vnictrack) (h : Numbers p n p') : 0 ≤ p'.vnictrack := by
  rw [h.vnictrack]
  omega

/-- The loop over the entries accepts what their own readers accept, as long as the interfaces can
be counted. -/
theorem readNodes_accepts {trees : List PTree} (h0 : 0 ≤ p.vnictrack)
    (hfits : p.vnictrack ≤ 2147483647) :
    (∃ p', trees.foldlM readNode p = .ok p') ↔
      (∀ t ∈ trees, ∃ nodes, entryNodes t = .ok nodes) ∧
        ¬ Overflows p (trees.map omittedIps).sum := by
  induction trees generalizing p with
  | nil =>
    refine iff_of_true ⟨p, rfl⟩ ⟨by simp, ?_⟩
    rw [Overflows, List.map_nil, List.sum_nil, interfaces_zero]
    omega
  | cons tree trees ih =>
    have hsum : ∀ {p₁}, Numbers p (omittedIps tree) p₁ →
        (Overflows p₁ (trees.map omittedIps).sum ↔
          Overflows p ((tree :: trees).map omittedIps).sum) := by
      intro p₁ h
      rw [Overflows, Overflows, List.map_cons, List.sum_cons, interfaces_add, h.vnictrack,
        h.interfaces_eq]
      omega
    rw [List.forall_mem_cons]
    constructor
    · rintro ⟨p', h⟩
      obtain ⟨p₁, h₁, h⟩ := Fallible.bind_ok.mp h
      have hnumbers := readNode_numbers h0 hfits h₁
      obtain ⟨hentries, hroom⟩ := (ih (nonneg_of_numbers h0 hnumbers) hnumbers.fits).mp ⟨p', h⟩
      exact ⟨⟨((readNode_accepts h0 hfits).mp ⟨p₁, h₁⟩).1, hentries⟩, mt (hsum hnumbers).mpr hroom⟩
    · rintro ⟨⟨hentry, hentries⟩, hroom⟩
      have hfirst : ¬ Overflows p (omittedIps tree) := by
        rw [Overflows, List.map_cons, List.sum_cons, interfaces_add] at hroom
        unfold Overflows
        omega
      obtain ⟨p₁, h₁⟩ := (readNode_accepts h0 hfits).mpr ⟨hentry, hfirst⟩
      have hnumbers := readNode_numbers h0 hfits h₁
      obtain ⟨p', h⟩ := (ih (nonneg_of_numbers h0 hnumbers) hnumbers.fits).mpr
        ⟨hentries, mt (hsum hnumbers).mp hroom⟩
      exact ⟨p', Fallible.bind_ok.mpr ⟨p₁, h₁, h⟩⟩

theorem readConfiguredNode_fst (s : CfgJsonParser × List ConfiguredNode) (tree : PTree) :
    (readConfiguredNode s tree).map Prod.fst = readNode s.1 tree := by
  rw [readConfiguredNode, Fallible.map_bind]
  cases readNode s.1 tree <;> rfl

/-- What an entry appends with its settings, without the addresses, is what it says by itself. -/
theorem readConfiguredNode_ok {s s' : CfgJsonParser × List ConfiguredNode}
    (h : readConfiguredNode s nodeTree = .ok s') : ∃ nodes, entryNodes nodeTree = .ok nodes ∧
      s'.2.map ConfiguredNode.unaddressed = s.2.map ConfiguredNode.unaddressed ++ nodes ∧
      (s.2.map ConfiguredNode.toStationNode = s.1.nodes →
        s'.2.map ConfiguredNode.toStationNode = s'.1.nodes) := by
  obtain ⟨p', hread, h⟩ := Fallible.bind_ok.mp h
  cases h
  obtain ⟨stations, hnodes, hentry⟩ := readNode_entry hread
  refine ⟨_, hentry, ?_, fun hs => ?_⟩
  · rw [hnodes, List.drop_left, List.map_append]
  · rw [List.map_append, hs, hnodes, List.drop_left, List.map_map]
    exact congrArg _ (List.map_id _)

theorem readConfiguredNodes_ok {trees : List PTree} {s s' : CfgJsonParser × List ConfiguredNode}
    (h : trees.foldlM readConfiguredNode s = .ok s') : ∃ parts, trees.mapM entryNodes = .ok parts ∧
      s'.2.map ConfiguredNode.unaddressed = s.2.map ConfiguredNode.unaddressed ++ parts.flatten := by
  induction trees generalizing s with
  | nil =>
    cases h
    exact ⟨[], rfl, by simp⟩
  | cons tree trees ih =>
    obtain ⟨s₁, h₁, h⟩ := Fallible.bind_ok.mp h
    obtain ⟨nodes, hentry, hnodes, -⟩ := readConfiguredNode_ok h₁
    obtain ⟨parts, hparts, hrest⟩ := ih h
    refine ⟨nodes :: parts, ?_, ?_⟩
    · rw [List.mapM_cons]
      exact Fallible.bind_ok.mpr ⟨nodes, hentry, Fallible.bind_ok.mpr ⟨parts, hparts, rfl⟩⟩
    · rw [hrest, hnodes, List.append_assoc, List.flatten_cons]

end

section
variable {propTree propTree' : PTree} {nodes nodes' : List ConfiguredNode}

/-- The configured nodes, taken apart. -/
theorem configuredNodes_ok : configuredNodes propTree = .ok nodes ↔ ∃ gen trees p',
    readCidr propTree = .ok gen ∧ nodeTrees propTree = .ok trees ∧
      trees.foldlM readConfiguredNode (beforeNodes propTree gen trees, []) = .ok (p', nodes) := by
  constructor
  · intro h
    obtain ⟨gen, hgen, h⟩ := Fallible.bind_ok.mp h
    obtain ⟨trees, htrees, h⟩ := Fallible.bind_ok.mp h
    obtain ⟨⟨p', nodes'⟩, hread, h⟩ := Fallible.bind_ok.mp h
    cases h
    exact ⟨gen, trees, p', hgen, htrees, hread⟩
  · rintro ⟨gen, trees, p', hgen, htrees, hread⟩
    exact Fallible.bind_ok.mpr ⟨gen, hgen, Fallible.bind_ok.mpr ⟨trees, htrees,
      Fallible.bind_ok.mpr ⟨_, hread, rfl⟩⟩⟩

/-- They are the stations that the constructor makes. -/
theorem configuredNodes_stations (h : configuredNodes propTree = .ok nodes) : ∃ p,
    CfgJsonParser.new propTree = .ok p ∧ nodes.map ConfiguredNode.toStationNode = p.nodes := by
  obtain ⟨gen, trees, p', hgen, htrees, hread⟩ := configuredNodes_ok.mp h
  have hfst := Fallible.foldlM_map Prod.fst readConfiguredNode_fst trees
    (beforeNodes propTree gen trees, [])
  rw [hread] at hfst
  refine ⟨p', Fallible.bind_ok.mpr ⟨gen, hgen, Fallible.bind_ok.mpr ⟨trees, htrees, hfst.symm⟩⟩, ?_⟩
  exact Fallible.foldlM_invariant
    (fun s : CfgJsonParser × List ConfiguredNode => s.2.map ConfiguredNode.toStationNode = s.1.nodes)
    (fun t _ s s' hs hs' => (readConfiguredNode_ok hs').elim fun _ hthis => hthis.2.2 hs) rfl hread

/-- A file is accepted if its network is, and each of its entries by itself, and the interfaces
that its entries leave open can be counted. -/
theorem configuredNodes_iff {trees : List PTree} (htrees : nodeTrees propTree = .ok trees) :
    (∃ nodes, configuredNodes propTree = .ok nodes) ↔ ∃ gen, readCidr propTree = .ok gen ∧
      (∀ t ∈ trees, ∃ nodes, entryNodes t = .ok nodes) ∧
      (gen.isSome → (trees.map omittedIps).sum ≤ 2147483647) := by
  have hzero : (0 : Int) ≤ 2147483647 := by decide
  have hover : ∀ gen, ¬ Overflows (beforeNodes propTree gen trees) (trees.map omittedIps).sum ↔
      (gen.isSome → (trees.map omittedIps).sum ≤ 2147483647) := by
    intro gen
    have hfirst : (beforeNodes propTree gen trees).vnictrack = 0 := rfl
    have hgen : (beforeNodes propTree gen trees).cidrGenerator = gen := rfl
    rw [Overflows, interfaces, hfirst, hgen]
    generalize (trees.map omittedIps).sum = omitted
    cases gen with
    | none => simp
    | some gen =>
      simp only [Option.isSome_some, if_true, forall_const]
      omega
  constructor
  · rintro ⟨nodes, h⟩
    obtain ⟨gen, trees', p', hgen, htrees', hread⟩ := configuredNodes_ok.mp h
    cases htrees.symm.trans htrees'
    have hfst := Fallible.foldlM_map Prod.fst readConfiguredNode_fst trees
      (beforeNodes propTree gen trees, [])
    rw [hread] at hfst
    obtain ⟨hentries, hroom⟩ := (readNodes_accepts (le_refl 0) hzero).mp ⟨p', hfst.symm⟩
    exact ⟨gen, hgen, hentries, (hover gen).mp hroom⟩
  · rintro ⟨gen, hgen, hentries, hroom⟩
    obtain ⟨p', hread⟩ := (readNodes_accepts (p := beforeNodes propTree gen trees) (le_refl 0)
      hzero).mpr ⟨hentries, (hover gen).mpr hroom⟩
    have hfst := Fallible.foldlM_map Prod.fst readConfiguredNode_fst trees
      (beforeNodes propTree gen trees, [])
    obtain ⟨s', hs', -⟩ := Fallible.map_ok.mp (hfst.trans hread)
    exact ⟨s'.2, configuredNodes_ok.mpr ⟨gen, trees, s'.1, hgen, htrees, hs'⟩⟩

/-- **The order of the entries does not matter.** Files that differ in the order of the entries of
"Nodes" are both accepted or both rejected, and have the same stations, but for their addresses
and their interfaces. -/
theorem node_order {trees trees' : List PTree} (htrees : nodeTrees propTree = .ok trees)
    (htrees' : nodeTrees propTree' = .ok trees') (hperm : trees.Perm trees')
    (hcidr : readCidr propTree' = readCidr propTree) :
    ((∃ nodes, configuredNodes propTree = .ok nodes) ↔
      ∃ nodes', configuredNodes propTree' = .ok nodes') ∧
    ∀ nodes nodes', configuredNodes propTree = .ok nodes → configuredNodes propTree' = .ok nodes' →
      (nodes.map ConfiguredNode.unaddressed).Perm (nodes'.map ConfiguredNode.unaddressed) := by
  constructor
  · rw [configuredNodes_iff htrees, configuredNodes_iff htrees', hcidr,
      (hperm.map omittedIps).sum_eq]
    simp only [hperm.mem_iff]
  · intro nodes nodes' h h'
    obtain ⟨gen, ts, p, -, hts, hread⟩ := configuredNodes_ok.mp h
    obtain ⟨gen', ts', p', -, hts', hread'⟩ := configuredNodes_ok.mp h'
    cases htrees.symm.trans hts
    cases htrees'.symm.trans hts'
    obtain ⟨parts, hparts, hnodes⟩ := readConfiguredNodes_ok hread
    obtain ⟨parts', hparts', hnodes'⟩ := readConfiguredNodes_ok hread'
    rw [hnodes, hnodes', List.map_nil, List.nil_append, List.nil_append]
    exact (Fallible.mapM_perm hperm hparts hparts').flatten

end

/-- A pair without addresses, and a master with an address of its own that binds its outstation. -/
def orderedTrees : List PTree :=
  [pairTree [], .node "" [("Name", .node "" [("Master", .leaf "M2")]),
    ("IP Address", .node "" [("Master", .leaf "10.0.0.9")]),
    ("Bound Outstations", .node "" [("", .leaf "O1")])]]

def orderedConfig (trees : List PTree) : PTree :=
  .node "" [("CIDR Notation", .leaf "10.0.0.0/24"), ("Nodes", .node "" (trees.map fun t => ("", t)))]

theorem node_order_two : ∃ nodes nodes',
    configuredNodes (orderedConfig orderedTrees) = .ok nodes ∧
    configuredNodes (orderedConfig orderedTrees.reverse) = .ok nodes' ∧
    (nodes.map ConfiguredNode.unaddressed).Perm (nodes'.map ConfiguredNode.unaddressed) := by
  have hok : (configuredNodes (orderedConfig orderedTrees)).toBool = true := by decide +kernel
  obtain ⟨nodes, hnodes⟩ := Fallible.exists_ok hok
  have htrees : nodeTrees (orderedConfig orderedTrees) = .ok orderedTrees := rfl
  have htrees' : nodeTrees (orderedConfig orderedTrees.reverse) = .ok orderedTrees.reverse := rfl
  obtain ⟨haccepts, hsame⟩ := node_order htrees htrees' (List.reverse_perm _).symm rfl
  obtain ⟨nodes', hnodes'⟩ := haccepts.mp ⟨nodes, hnodes⟩
  exact ⟨nodes, nodes', hnodes, hnodes', hsame nodes nodes' hnodes hnodes'⟩

end IcsTrafficGen.Dnp3
