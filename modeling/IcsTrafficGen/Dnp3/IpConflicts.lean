import IcsTrafficGen.Dnp3.CidrCycle
import IcsTrafficGen.Dnp3.StationPairs

/- Whether the generated IP addresses are free. The generator is asked entry by entry and never
   told of the addresses that the file gives: they are unique exactly as long as it neither comes
   to one of those nor starts over (`ipAddressesUnique_iff`). -/
namespace IcsTrafficGen.Dnp3
open CfgJsonParser

/-- The IP addresses that an entry gives. -/
def entryIps (nodeTree : PTree) : List String :=
  (nodeTree.getOptional PTree.asString ["IP Address", "Master"]).toList ++
    (nodeTree.getOptional PTree.asString ["IP Address", "Outstation"]).toList

/-- Whether an entry names a station without an address for it. -/
def omitsIp (nodeTree : PTree) (role : String) : ℕ :=
  if (namedStation nodeTree role).isSome ∧
    nodeTree.getOptional PTree.asString ["IP Address", role] = none then 1 else 0

/-- How many addresses an entry leaves to the generator. -/
def omittedIps (nodeTree : PTree) : ℕ := omitsIp nodeTree "Master" + omitsIp nodeTree "Outstation"

/-- The addresses of the stations that `Node::Allocate` was called for: it is what gives a
station an interface. -/
def allocatedIps (stations : List StationNode) : List String :=
  (stations.filter fun n => n.vnic ≠ "").map StationNode.localIPAddress

/-- The allocated addresses are different from each other, and from those of the file. -/
structure IpAddressesUnique (trees : List PTree) (p : CfgJsonParser) : Prop where
  explicit : ∀ ip ∈ allocatedIps p.nodes, ip ∉ trees.flatMap entryIps
  once : (allocatedIps p.nodes).Nodup

/-! ## Allocations -/

/-- The generator after `n` calls. -/
def CidrCalculator.after (n : ℕ) (gen : CidrCalculator) : CidrCalculator :=
  { gen with networkAddr := CidrCalculator.nextAddr^[n] gen.networkAddr }

theorem calls_add (m n : ℕ) (gen : CidrCalculator) :
    gen.calls (m + n) = gen.calls m ++ (gen.after m).calls n := by
  rw [calls_eq, calls_eq, calls_eq, List.range_add, List.map_append, List.map_map]
  congr 1
  apply List.map_congr_left
  intro k _
  show (CidrCalculator.nextAddr^[m + k + 1] _).dotted =
    (CidrCalculator.nextAddr^[k + 1] (CidrCalculator.nextAddr^[m] _)).dotted
  rw [← Function.iterate_add_apply]
  congr 2
  omega

theorem after_add (m n : ℕ) (gen : CidrCalculator) : (gen.after m).after n = gen.after (m + n) := by
  unfold CidrCalculator.after
  dsimp only
  rw [← Function.iterate_add_apply, Nat.add_comm]

theorem allocatedIps_append (l l' : List StationNode) :
    allocatedIps (l ++ l') = allocatedIps l ++ allocatedIps l' := by
  simp [allocatedIps]

theorem allocatedIps_congr {l l' : List StationNode}
    (h : List.Forall₂ (fun n n' => n'.vnic = n.vnic ∧ n'.localIPAddress = n.localIPAddress) l l') :
    allocatedIps l' = allocatedIps l := by
  induction h with
  | nil => rfl
  | @cons n n' l l' hn _ ih =>
    have hsplit (m : StationNode) (ms : List StationNode) :
        allocatedIps (m :: ms) = allocatedIps [m] ++ allocatedIps ms :=
      allocatedIps_append [m] ms
    have hhead : allocatedIps [n'] = allocatedIps [n] := by
      unfold allocatedIps
      by_cases hv : n.vnic = ""
      · simp [hn.1, hv]
      · simp [hn.1, hn.2, hv]
    rw [hsplit, hsplit n, hhead, ih]

/-- A role takes one address from the generator if it is named and has none. -/
theorem assignIfNamed_allocates {ipAddr : Option String} {p p' : CfgJsonParser}
    {node node' : Option StationNode} {gen : CidrCalculator}
    (h : assignIfNamed ipAddr p node = .ok (p', node')) (hgen : p.cidrGenerator = some gen)
    (hnode : ∀ n ∈ node, n.vnic = "") :
    p'.cidrGenerator = some (gen.after (if node.isSome ∧ ipAddr = none then 1 else 0)) ∧
      allocatedIps node'.toList = gen.calls (if node.isSome ∧ ipAddr = none then 1 else 0) := by
  cases node with
  | none =>
    cases h
    exact ⟨hgen, rfl⟩
  | some n =>
    obtain ⟨⟨p₁, n₁⟩, h₁, h⟩ := Fallible.bind_ok.mp h
    cases h
    cases ipAddr with
    | some ip =>
      cases h₁
      refine ⟨hgen, ?_⟩
      simp [allocatedIps, hnode n rfl, CidrCalculator.calls]
    | none =>
      simp only [assignIpAddress, hgen] at h₁
      obtain ⟨vnictrack, -, h₁⟩ := Fallible.bind_ok.mp h₁
      cases h₁
      refine ⟨rfl, ?_⟩
      simp [allocatedIps, CidrCalculator.calls]

theorem setRemoteIp_own (ipAddr : Option String) (outstation : Option StationNode)
    (m : StationNode) : (setRemoteIp ipAddr outstation m).vnic = m.vnic ∧
      (setRemoteIp ipAddr outstation m).localIPAddress = m.localIPAddress := by
  unfold setRemoteIp
  split <;> exact ⟨rfl, rfl⟩

theorem allocatedIps_map {f : StationNode → StationNode}
    (hf : ∀ n, (f n).vnic = n.vnic ∧ (f n).localIPAddress = n.localIPAddress)
    (node : Option StationNode) : allocatedIps (node.map f).toList = allocatedIps node.toList := by
  apply allocatedIps_congr
  cases node with
  | none => exact .nil
  | some n => exact .cons (hf n) .nil

theorem namedStation_vnic {nodeTree : PTree} {role : String} :
    ∀ n ∈ namedStation nodeTree role, n.vnic = "" := by
  intro n hn
  obtain ⟨name, -, rfl⟩ := Option.map_eq_some_iff.mp hn
  rfl

/-- An entry takes as many addresses from the generator as it leaves open. -/
theorem readAssignIpAddresses_allocates {nodeTree : PTree} {p p' : CfgJsonParser}
    {pair : StationPair} {gen : CidrCalculator}
    (h : readAssignIpAddresses nodeTree p
      ⟨namedStation nodeTree "Master", namedStation nodeTree "Outstation"⟩ = .ok (p', pair))
    (hgen : p.cidrGenerator = some gen) :
    p'.cidrGenerator = some (gen.after (omittedIps nodeTree)) ∧
      allocatedIps pair.master.toList ++ allocatedIps pair.outstation.toList =
        gen.calls (omittedIps nodeTree) := by
  obtain ⟨⟨p₁, master⟩, h₁, h⟩ := Fallible.bind_ok.mp h
  obtain ⟨⟨p₂, outstation⟩, h₂, h⟩ := Fallible.bind_ok.mp h
  cases h
  obtain ⟨hgen₁, hmaster⟩ := assignIfNamed_allocates h₁ hgen namedStation_vnic
  obtain ⟨hgen₂, houtstation⟩ := assignIfNamed_allocates h₂ hgen₁ namedStation_vnic
  rw [after_add] at hgen₂
  refine ⟨hgen₂, ?_⟩
  rw [allocatedIps_map (fun m => setRemoteIp_own _ _ m), hmaster, houtstation, ← calls_add]
  rfl

theorem readNode_allocates {nodeTree : PTree} {p p' : CfgJsonParser} {gen : CidrCalculator}
    (h : readNode p nodeTree = .ok p') (hgen : p.cidrGenerator = some gen) :
    p'.cidrGenerator = some (gen.after (omittedIps nodeTree)) ∧
      allocatedIps p'.nodes = allocatedIps p.nodes ++ gen.calls (omittedIps nodeTree) := by
  obtain ⟨p₁, pair, masters, outstations, hip, hmasters, houtstations, rfl⟩ := readNode_ok h
  obtain ⟨hgen₁, hallocated⟩ := readAssignIpAddresses_allocates hip hgen
  obtain ⟨hnodes, -⟩ := readAssignIpAddresses_ok hip
  refine ⟨hgen₁, ?_⟩
  -- the other readers leave the address and the interface of a station
  have hmasters' : allocatedIps masters = allocatedIps pair.master.toList := by
    rw [allocatedIps_congr ((readRole_ok hmasters).imp fun n n' hn => ?_)]
    · simp only [readIpPorts, readAssignDNP3Addresses, Option.map_map]
      apply allocatedIps_map
      intro n
      exact ⟨rfl, rfl⟩
    · obtain ⟨pts, rfl⟩ := readPollingSpecs_ok hn
      exact ⟨rfl, rfl⟩
  have houtstations' : allocatedIps outstations = allocatedIps pair.outstation.toList := by
    rw [allocatedIps_congr ((readRole_ok houtstations).imp fun n n' hn => ?_)]
    · simp only [readIpPorts, readAssignDNP3Addresses, Option.map_map]
      apply allocatedIps_map
      intro n
      exact ⟨rfl, rfl⟩
    · obtain ⟨-, -, n₃, -, -, -, rfl⟩ := readData_passes hn
      exact ⟨rfl, rfl⟩
  rw [List.append_assoc, allocatedIps_append, allocatedIps_append, hmasters', houtstations',
    hallocated, hnodes]

theorem readNodes_allocates {trees : List PTree} {p p' : CfgJsonParser} {gen : CidrCalculator}
    (h : trees.foldlM readNode p = .ok p') (hgen : p.cidrGenerator = some gen) :
    allocatedIps p'.nodes = allocatedIps p.nodes ++ gen.calls (trees.map omittedIps).sum := by
  induction trees generalizing p gen with
  | nil =>
    cases h
    exact (List.append_nil _).symm
  | cons tree trees ih =>
    rw [List.foldlM_cons] at h
    obtain ⟨p₁, h₁, h⟩ := Fallible.bind_ok.mp h
    obtain ⟨hgen₁, hnodes₁⟩ := readNode_allocates h₁ hgen
    rw [ih h hgen₁, hnodes₁, List.append_assoc, ← calls_add, List.map_cons, List.sum_cons]

/-! ## Uniqueness -/

theorem calls_eq_hostAfter {gen : CidrCalculator} {a b c d : ℕ}
    (hnet : gen.networkAddr = ⟨a, b, c, d⟩) (hb : b ≤ 255) (hc : c ≤ 255) (n : ℕ) :
    gen.calls n = (List.range n).map fun i => (hostAfter a b c d i).dotted := by
  rw [calls_eq, hnet]
  apply List.map_congr_left
  intro i _
  rw [iterate_nextAddr hb hc]

/-- The allocated addresses are unique exactly if the generator repeats none and comes to none
of those that the file gives. -/
theorem ipAddressesUnique_iff {propTree : PTree} {trees : List PTree} {p : CfgJsonParser}
    {s : String} {a b c d l : ℕ} (h : CfgJsonParser.new propTree = .ok p)
    (htrees : nodeTrees propTree = .ok trees)
    (hs : propTree.getOptional PTree.asString ["CIDR Notation"] = some s)
    (hcidr : IsCidr s a b c d l) :
    IpAddressesUnique trees p ↔
      (trees.map omittedIps).sum ≤ distinctCalls (networkOctet l 0 a) (networkOctet l 1 b)
        (networkOctet l 2 c) (networkOctet l 3 d) ∧
      ∀ i < (trees.map omittedIps).sum, (hostAfter (networkOctet l 0 a) (networkOctet l 1 b)
        (networkOctet l 2 c) (networkOctet l 3 d) i).dotted ∉ trees.flatMap entryIps := by
  obtain ⟨gen, hgen, h⟩ := Fallible.bind_ok.mp h
  obtain ⟨trees', htrees', h⟩ := Fallible.bind_ok.mp h
  cases htrees.symm.trans htrees'
  rw [readCidr, hs] at hgen
  obtain ⟨gen, hnew, hgen⟩ := Fallible.bind_ok.mp hgen
  cases (new_ok hcidr).symm.trans hnew
  cases hgen
  have hallocated := readNodes_allocates h rfl
  have hb := Nat.le_of_lt_succ (networkOctet_lt (p := l) (i := 1) hcidr.b_le)
  have hc := Nat.le_of_lt_succ (networkOctet_lt (p := l) (i := 2) hcidr.c_le)
  rw [calls_eq_hostAfter rfl hb hc] at hallocated
  have honce := nodup_hostAfter_iff (a := networkOctet l 0 a) (d := networkOctet l 3 d) hb hc
    (trees.map omittedIps).sum
  have hdotted : ((List.range (trees.map omittedIps).sum).map fun i =>
      (hostAfter (networkOctet l 0 a) (networkOctet l 1 b) (networkOctet l 2 c)
        (networkOctet l 3 d) i).dotted).Nodup ↔ _ :=
    (List.map_map (g := Octets.dotted) ▸ List.nodup_map_iff fun _ _ => dotted_inj).trans honce
  constructor
  · intro hunique
    obtain ⟨hexplicit, hnodup⟩ := hunique
    rw [hallocated] at hexplicit hnodup
    refine ⟨hdotted.mp hnodup, fun i hi => hexplicit _ ?_⟩
    exact List.mem_append_right _ (List.mem_map_of_mem (List.mem_range.mpr hi))
  · rintro ⟨hroom, hfree⟩
    refine ⟨fun ip hip => ?_, ?_⟩
    · rw [hallocated] at hip
      obtain ⟨i, hi, rfl⟩ := List.mem_map.mp hip
      exact hfree i (List.mem_range.mp hi)
    · rw [hallocated]
      exact hdotted.mpr hroom

/-! ## A file that gives one address -/

/-- A master and an outstation without addresses, and an outstation with the address `ip`. -/
def ipTrees (ip : String) : List PTree :=
  [.node "" [("Name", .node "" [("Master", .leaf "M1"), ("Outstation", .leaf "O1")])],
    .node "" [("Name", .node "" [("Outstation", .leaf "O2")]),
      ("IP Address", .node "" [("Outstation", .leaf ip)])]]

def ipConfig (ip : String) : PTree :=
  .node "" [("CIDR Notation", .leaf "192.168.1.0/30"),
    ("Nodes", .node "" ((ipTrees ip).map fun tree => ("", tree)))]

/-- Who has which address. -/
def ownIps (p : CfgJsonParser) : List (String × String) :=
  p.nodes.map fun n => (n.name, n.localIPAddress)

theorem ipAddresses_unique : ∃ p, CfgJsonParser.new (ipConfig "192.168.1.9") = .ok p ∧
    IpAddressesUnique (ipTrees "192.168.1.9") p := by
  have hown : (CfgJsonParser.new (ipConfig "192.168.1.9")).map ownIps =
      .ok [("M1", "192.168.1.1"), ("O1", "192.168.1.2"), ("O2", "192.168.1.9")] := by
    decide +kernel
  obtain ⟨p, hnew, -⟩ := Fallible.map_ok.mp hown
  refine ⟨p, hnew, (ipAddressesUnique_iff hnew rfl rfl isCidr_smallNetwork).mpr ?_⟩
  decide +kernel

/-- The second address of the network is given to the first outstation by the generator, and to
the second by the file. -/
theorem ipAddresses_conflict :
    (ipConfig "192.168.1.2").getOptional PTree.asString ["CIDR Notation"] =
      some "192.168.1.0/30" ∧
    IsCidr "192.168.1.0/30" 192 168 1 0 30 ∧
    nodeTrees (ipConfig "192.168.1.2") = .ok (ipTrees "192.168.1.2") ∧
    ∃ p, CfgJsonParser.new (ipConfig "192.168.1.2") = .ok p ∧
      ownIps p = [("M1", "192.168.1.1"), ("O1", "192.168.1.2"), ("O2", "192.168.1.2")] ∧
      ¬ IpAddressesUnique (ipTrees "192.168.1.2") p := by
  have hown : (CfgJsonParser.new (ipConfig "192.168.1.2")).map
      (fun p => (ownIps p, allocatedIps p.nodes)) =
        .ok ([("M1", "192.168.1.1"), ("O1", "192.168.1.2"), ("O2", "192.168.1.2")],
          ["192.168.1.1", "192.168.1.2"]) := by
    decide +kernel
  obtain ⟨p, hnew, hstations⟩ := Fallible.map_ok.mp hown
  obtain ⟨hown, hallocated⟩ := Prod.mk.inj hstations
  refine ⟨rfl, isCidr_smallNetwork, rfl, p, hnew, hown, fun h => ?_⟩
  exact h.explicit "192.168.1.2" (by rw [hallocated]; simp) (by decide)

end IcsTrafficGen.Dnp3
