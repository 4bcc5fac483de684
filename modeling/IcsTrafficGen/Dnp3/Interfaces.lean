import IcsTrafficGen.Lib.Resources
import IcsTrafficGen.Dnp3.NodeOrder

/- The interfaces of the stations. The parser brings one up for every station that gets its
   address from the generator (`Node::Allocate`), and the destructor of the node takes it down.
   The interfaces are numbered through the file (`Allocates`), so no two stations have one, and
   those that are up are those of the nodes that are still there (`interfaces_live`). -/
namespace IcsTrafficGen.Dnp3
open CfgJsonParser

/-! ## The commands -/

/-- What `ifconfig` is run for: to bring an interface up with an address, or to take it down. -/
abbrev Ifconfig := ResourceOp String String

/-- `subcmd`, which is passed to the shell. -/
def subcmd : Ifconfig → String
  | .acquire vnic ip => "ifconfig " ++ vnic ++ " " ++ ip
  | .release vnic => "ifconfig " ++ vnic ++ " down"

/-- The interface of a station, with the address it was brought up with. -/
def StationNode.interface (n : StationNode) : Option (String × String) :=
  if n.vnic = "" then none else some (n.vnic, n.localIPAddress)

def interfacesOf (stations : List StationNode) : List (String × String) :=
  stations.filterMap StationNode.interface

/-- `Node::Allocate`, for an interface and its address. -/
def allocate (e : String × String) : Ifconfig := .acquire e.1 e.2

/-- `~Node`. -/
def StationNode.destroy (n : StationNode) : List Ifconfig :=
  if n.vnic = "" then [] else [.release n.vnic]

theorem destroy_eq (n : StationNode) :
    n.destroy = n.interface.toList.map fun e => .release e.1 := by
  unfold StationNode.destroy StationNode.interface
  split <;> rfl

theorem flatMap_destroy (stations : List StationNode) :
    stations.flatMap StationNode.destroy = (interfacesOf stations).map fun e => .release e.1 := by
  induction stations with
  | nil => rfl
  | cons n stations ih =>
    rw [List.flatMap_cons, ih, destroy_eq, interfacesOf, interfacesOf, List.filterMap_cons]
    cases n.interface <;> rfl

theorem interfacesOf_append (l l' : List StationNode) :
    interfacesOf (l ++ l') = interfacesOf l ++ interfacesOf l' :=
  List.filterMap_append

/-! ## What is allocated -/

/-- From `p` to `p'` the interfaces `l` were brought up, with the numbers that follow. -/
structure Allocates (p : CfgJsonParser) (l : List (String × String)) (p' : CfgJsonParser) : Prop where
  card : p'.virtualNetworkInterfaceCard = p.virtualNetworkInterfaceCard
  vnictrack : p'.vnictrack = p.vnictrack + l.length
  commands : p'.commands = p.commands ++ l.map fun e => subcmd (allocate e)
  vnics : l.map Prod.fst = (List.range l.length).map fun k : ℕ =>
    numberedName p.virtualNetworkInterfaceCard (p.vnictrack + k)

section
variable {nodeTree : PTree} {p p₁ p' : CfgJsonParser} {l l' : List (String × String)}

theorem Allocates.nothing (hcard : p'.virtualNetworkInterfaceCard = p.virtualNetworkInterfaceCard)
    (hvnictrack : p'.vnictrack = p.vnictrack) (hcommands : p'.commands = p.commands) :
    Allocates p [] p' :=
  ⟨hcard, by simp [hvnictrack], by simp [hcommands], rfl⟩

theorem Allocates.trans (h : Allocates p l p₁) (h' : Allocates p₁ l' p') :
    Allocates p (l ++ l') p' where
  card := h'.card.trans h.card
  vnictrack := by
    rw [h'.vnictrack, h.vnictrack, List.length_append]
    omega
  commands := by rw [h'.commands, h.commands, List.map_append, List.append_assoc]
  vnics := by
    rw [List.map_append, h.vnics, h'.vnics, h.card, h.vnictrack, List.length_append,
      List.range_add, List.map_append, List.map_map]
    refine congrArg _ (List.map_congr_left fun k _ => ?_)
    simp only [Function.comp_apply, Nat.cast_add, Int.add_assoc]

/-- The interfaces that were brought up have different names. -/
theorem Allocates.nodup (h : Allocates p l p') : (l.map Prod.fst).Nodup := by
  rw [h.vnics]
  refine List.Nodup.map (fun j k hjk => ?_) List.nodup_range
  have := numberedName_injective _ hjk
  omega

theorem allocateIpAddress_interfaces {node node' : StationNode} {ip : String}
    (h : allocateIpAddress p node ip = .ok (p', node')) :
    Allocates p (interfacesOf [node']) p' := by
  obtain ⟨vnictrack, hadd, h⟩ := Fallible.bind_ok.mp h
  obtain ⟨-, rfl⟩ := Cpp.addInt_ok.mp hadd
  cases h
  have hone : interfacesOf [{ node with
      localIPAddress := ip, vnic := numberedName p.virtualNetworkInterfaceCard p.vnictrack }] =
      [(numberedName p.virtualNetworkInterfaceCard p.vnictrack, ip)] :=
    List.filterMap_cons_some (if_neg (numberedName_ne_empty _ _))
  show Allocates p (interfacesOf [{ node with
    localIPAddress := ip, vnic := numberedName p.virtualNetworkInterfaceCard p.vnictrack }]) _
  rw [hone]
  exact ⟨rfl, rfl, rfl, by simp⟩

/-- A station that is assigned an address gets an interface if it is from the generator. -/
theorem assignIfNamed_interfaces {ipAddr : Option String} {node node' : Option StationNode}
    (h : assignIfNamed ipAddr p node = .ok (p', node')) (hnode : ∀ n ∈ node, n.vnic = "") :
    Allocates p (interfacesOf node'.toList) p' := by
  cases node with
  | none =>
    cases h
    exact .nothing rfl rfl rfl
  | some n =>
    have hnone : ∀ ip, interfacesOf [{ n with localIPAddress := ip }] = [] := fun ip =>
      List.filterMap_cons_none (if_pos (hnode n rfl))
    obtain ⟨⟨p₁, n₁⟩, h₁, h⟩ := Fallible.bind_ok.mp h
    cases h
    unfold assignIpAddress at h₁
    split at h₁
    -- an address from the file comes without an interface
    · cases h₁
      rw [Option.toList_some, hnone]
      exact .nothing rfl rfl rfl
    · obtain ⟨hcard, hvnictrack, hcommands, hvnics⟩ := allocateIpAddress_interfaces h₁
      exact ⟨hcard, hvnictrack, hcommands, hvnics⟩
    -- without a generator the station is left as it is
    · cases h₁
      rw [Option.toList_some, hnone n.localIPAddress]
      exact .nothing rfl rfl rfl

/-! ## The entries -/

def StationPair.interfaces (pair : StationPair) : List (String × String) :=
  interfacesOf pair.master.toList ++ interfacesOf pair.outstation.toList

theorem interfacesOf_map {f : StationNode → StationNode}
    (hf : ∀ n, (f n).interface = n.interface) (node : Option StationNode) :
    interfacesOf (node.map f).toList = interfacesOf node.toList := by
  cases node with
  | none => rfl
  | some n =>
    show [f n].filterMap StationNode.interface = [n].filterMap StationNode.interface
    rw [List.filterMap_cons, List.filterMap_cons, hf]

theorem readRole_interfaces {read : StationNode → Cpp StationNode} {station : Option StationNode}
    {stations : List StationNode} (hread : ∀ n n', read n = .ok n' → n'.interface = n.interface)
    (h : readRole read station = .ok stations) :
    interfacesOf stations = interfacesOf station.toList := by
  cases station with
  | none =>
    cases h
    rfl
  | some n =>
    obtain ⟨n', hn, h⟩ := Fallible.bind_ok.mp h
    cases h
    rw [interfacesOf, List.filterMap_cons, hread n n' hn]
    rfl

/-- What is read behind the addresses leaves the interfaces as they are. -/
theorem readRoles_interfaces {pair : StationPair} {stations : List StationNode}
    (h : readRoles nodeTree (readIpPorts nodeTree (readAssignDNP3Addresses nodeTree p pair).2) =
      .ok stations) : interfacesOf stations = pair.interfaces := by
  obtain ⟨masters, hmasters, h⟩ := Fallible.bind_ok.mp h
  obtain ⟨outstations, houtstations, h⟩ := Fallible.bind_ok.mp h
  cases h
  have hpolling : ∀ n n', readPollingSpecs nodeTree n = .ok n' → n'.interface = n.interface := by
    intro n n' hn
    obtain ⟨pts, rfl⟩ := readPollingSpecs_ok hn
    rfl
  have hdata : ∀ n n', readData nodeTree n = .ok n' → n'.interface = n.interface := by
    intro n n' hn
    obtain ⟨-, -, n₃, -, -, -, rfl⟩ := readData_passes hn
    rfl
  rw [interfacesOf_append, readRole_interfaces hpolling hmasters,
    readRole_interfaces hdata houtstations]
  simp only [readIpPorts, readAssignDNP3Addresses, Option.map_map]
  unfold StationPair.interfaces
  congr 1
  · apply interfacesOf_map
    intro n
    rfl
  · apply interfacesOf_map
    intro n
    rfl

theorem setRemoteIp_interface (ipAddr : Option String) (outstation : Option StationNode)
    (m : StationNode) : (setRemoteIp ipAddr outstation m).interface = m.interface := by
  unfold setRemoteIp
  split <;> rfl

theorem readAssignIpAddresses_interfaces {pair : StationPair}
    (h : readAssignIpAddresses nodeTree p (namedPair nodeTree) = .ok (p', pair)) :
    Allocates p pair.interfaces p' := by
  obtain ⟨⟨p₁, master⟩, h₁, h⟩ := Fallible.bind_ok.mp h
  obtain ⟨⟨p₂, outstation⟩, h₂, h⟩ := Fallible.bind_ok.mp h
  cases h
  have hmaster := assignIfNamed_interfaces h₁ namedStation_vnic
  have houtstation := assignIfNamed_interfaces h₂ namedStation_vnic
  rw [StationPair.interfaces, interfacesOf_map (setRemoteIp_interface _ _)]
  exact hmaster.trans houtstation

/-- An entry brings up the interfaces of the stations it appends. -/
theorem readNode_interfaces (h : readNode p nodeTree = .ok p') : ∃ stations,
    p'.nodes = p.nodes ++ stations ∧ Allocates p (interfacesOf stations) p' := by
  obtain ⟨p₁, pair, stations, hip, hread, rfl⟩ := readNode_iff.mp h
  refine ⟨stations, rfl, ?_⟩
  rw [readRoles_interfaces hread]
  obtain ⟨hcard, hvnictrack, hcommands, hvnics⟩ := readAssignIpAddresses_interfaces hip
  exact ⟨hcard, hvnictrack, hcommands, hvnics⟩

theorem readNodes_interfaces {trees : List PTree} (h : trees.foldlM readNode p = .ok p') :
    ∃ stations, p'.nodes = p.nodes ++ stations ∧ Allocates p (interfacesOf stations) p' := by
  induction trees generalizing p with
  | nil =>
    cases h
    exact ⟨[], (List.append_nil _).symm, .nothing rfl rfl rfl⟩
  | cons tree trees ih =>
    obtain ⟨p₁, h₁, h⟩ := Fallible.bind_ok.mp h
    obtain ⟨stations, hnodes, hallocates⟩ := readNode_interfaces h₁
    obtain ⟨rest, hrest, hallocates'⟩ := ih h
    refine ⟨stations ++ rest, ?_, ?_⟩
    · rw [hrest, hnodes, List.append_assoc]
    · rw [interfacesOf_append]
      exact hallocates.trans hallocates'

end

/-! ## The whole life of the nodes -/

/-- **The interfaces that are up.** Of an accepted file the interfaces that were brought up are
those of the stations that got their address from the generator, numbered in the order of the
stations. When any of the nodes are destroyed, in any order, exactly their interfaces go down:
those of the others are up with their addresses, and all else is as it was before. -/
theorem interfaces_live {propTree : PTree} {p : CfgJsonParser} {gone left : List StationNode}
    (h : CfgJsonParser.new propTree = .ok p) (hnodes : p.nodes.Perm (gone ++ left))
    (before : String → Option String) :
    (interfacesOf p.nodes).map Prod.fst = (List.range (interfacesOf p.nodes).length).map
        (fun k : ℕ => numberedName p.virtualNetworkInterfaceCard k) ∧
      p.commands = ((interfacesOf p.nodes).map allocate).map subcmd ∧
      StillHeld before (ResourceOp.run before
          ((interfacesOf p.nodes).map allocate ++ gone.flatMap StationNode.destroy))
        (interfacesOf gone) (interfacesOf left) := by
  obtain ⟨gen, -, h⟩ := Fallible.bind_ok.mp h
  obtain ⟨trees, -, h⟩ := Fallible.bind_ok.mp h
  obtain ⟨stations, hstations, hallocates⟩ := readNodes_interfaces h
  rw [List.nil_append] at hstations
  rw [← hstations] at hallocates
  refine ⟨?_, ?_, ?_⟩
  · rw [hallocates.card]
    simpa using hallocates.vnics
  · rw [hallocates.commands, List.nil_append, List.map_map]
    rfl
  -- the names are different, so each destructor touches the interface of its own node
  · rw [flatMap_destroy]
    refine stillHeld_run hallocates.nodup ?_ before
    rw [← interfacesOf_append]
    exact hnodes.filterMap _

/-- A file with a network card: a master and an outstation without addresses, and one with its
own. -/
def cardConfig : PTree :=
  .node "" [("Virtual Interface", .leaf "eth0"), ("CIDR Notation", .leaf "192.168.1.0/30"),
    ("Nodes", .node "" ((ipTrees "192.168.1.9").map fun tree => ("", tree)))]

/-- The node of the master is destroyed first. -/
theorem interfaces_live_outstation : ∃ p m o₁ o₂, CfgJsonParser.new cardConfig = .ok p ∧
    p.nodes = [m, o₁, o₂] ∧
    p.commands = ["ifconfig eth0:0 192.168.1.1", "ifconfig eth0:1 192.168.1.2"] ∧
    let after := ResourceOp.run (fun name => if name = "eth0" then some "192.168.1.7" else none)
      ((interfacesOf [m, o₁, o₂]).map allocate ++ [m].flatMap StationNode.destroy)
    after "eth0:0" = none ∧ after "eth0:1" = some "192.168.1.2" ∧
      after "eth0" = some "192.168.1.7" := by
  have hread : (CfgJsonParser.new cardConfig).map
      (fun p => (p.nodes.map StationNode.interface, p.commands)) =
        .ok ([some ("eth0:0", "192.168.1.1"), some ("eth0:1", "192.168.1.2"), none],
          ["ifconfig eth0:0 192.168.1.1", "ifconfig eth0:1 192.168.1.2"]) := by
    decide +kernel
  obtain ⟨⟨nodes, card, gen, addrs, vnictrack, commands⟩, hnew, hread⟩ := Fallible.map_ok.mp hread
  obtain ⟨hinterfaces, hcommands⟩ := Prod.mk.inj hread
  match nodes, hinterfaces with
  | [m, o₁, o₂], hinterfaces =>
    simp only [List.map_cons, List.map_nil, List.cons.injEq, and_true] at hinterfaces
    obtain ⟨hm, ho₁, ho₂⟩ := hinterfaces
    obtain ⟨-, -, hholds⟩ := interfaces_live hnew (List.Perm.refl ([m] ++ [o₁, o₂]))
      fun name => if name = "eth0" then some "192.168.1.7" else none
    have hgone : interfacesOf [m] = [("eth0:0", "192.168.1.1")] := by simp [interfacesOf, hm]
    have hleft : interfacesOf [o₁, o₂] = [("eth0:1", "192.168.1.2")] := by
      simp [interfacesOf, ho₁, ho₂]
    refine ⟨_, m, o₁, o₂, hnew, rfl, hcommands, ?_, ?_, ?_⟩
    · exact hholds.released _ (hgone ▸ List.mem_singleton_self _)
    · exact hholds.held _ (hleft ▸ List.mem_singleton_self _)
    · exact hholds.others "eth0" (by rw [hgone, hleft]; decide)

end IcsTrafficGen.Dnp3
