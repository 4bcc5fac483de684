import IcsTrafficGen.Lib.Resources
import IcsTrafficGen.Modbus.LeftInterfaces

/- `modbus_app`: the threads that `main` starts for the nodes of the parser, and the
   interfaces that they take down when they end. The interfaces that the parser brings up
   have different names, one for each node without an address of its own (`Numbered`). So a
   thread takes down the interface of its node and no other, and when all threads have ended
   those of the nodes that were not simulated are left (`interfaces_left`). -/
namespace IcsTrafficGen.Modbus

/-! ## The names of the interfaces -/

/-- From `w` to `w'` the interfaces `vnics` were brought up, with the numbers that follow. -/
structure Numbered (cfg : Config) (w : World) (vnics : List String) (w' : World) : Prop where
  up : w'.up.map Prod.fst = w.up.map Prod.fst ++ vnics
  vnictrack : w'.vnictrack = w.vnictrack + vnics.length
  names : ∃ interface, (∀ i, virtualInterface cfg = .ok i → i = interface) ∧
    vnics = (List.range' w.vnictrack vnics.length).map fun n : ℕ => numberedName interface n

variable {env : Env} {cfg : Config} {w w₁ w₂ : World} {vnics : List String} {vnic : Option String}

theorem Numbered.nothing (cfg : Config) (w : World) : Numbered cfg w [] w := by
  refine ⟨by simp, rfl, ?_⟩
  cases h : virtualInterface cfg with
  | ok interface =>
    refine ⟨interface, fun i hi => ?_, rfl⟩
    cases hi
    rfl
  | error e =>
    refine ⟨"", fun i hi => ?_, rfl⟩
    cases hi

theorem Numbered.nodup (h : Numbered cfg w vnics w₁) : vnics.Nodup := by
  obtain ⟨interface, -, hnames⟩ := h.names
  rw [hnames]
  exact List.Nodup.map ((numberedName_injective interface).comp Nat.cast_injective) List.nodup_range'

/-- What changes neither the interfaces nor their number. -/
theorem Numbered.congr (h : Numbered cfg w vnics w₁) (hup : w₂.up = w₁.up)
    (hvnictrack : w₂.vnictrack = w₁.vnictrack) : Numbered cfg w vnics w₂ :=
  ⟨hup ▸ h.up, hvnictrack.trans h.vnictrack, h.names⟩

theorem Numbered.allocate {ip : Json} (h : Numbered cfg w vnics w₁)
    (halloc : Modbus.allocate env cfg ip w₁ = .ok vnic w₂) :
    Numbered cfg w (vnics ++ vnic.toList) w₂ := by
  obtain ⟨interface, a, hinterface, -, -, rfl, rfl⟩ := allocate_iff.mp halloc
  obtain ⟨i, hi, hnames⟩ := h.names
  obtain rfl := hi interface hinterface
  refine ⟨?_, ?_, interface, hi, ?_⟩
  · rw [List.map_append, h.up, List.append_assoc]
    rfl
  · simp only [h.vnictrack, List.length_append, Option.toList_some, List.length_singleton, Nat.add_assoc]
  · rw [List.length_append, Option.toList_some, List.length_singleton, List.range'_concat,
      List.map_append, ← hnames, h.vnictrack, Nat.one_mul]
    rfl

theorem Numbered.masterVnic {entry : Dict String Json} {ip : Json} (h : Numbered cfg w vnics w₁)
    (hvnic : Modbus.masterVnic env cfg entry ip w₁ = .ok vnic w₂) :
    Numbered cfg w (vnics ++ vnic.toList) w₂ := by
  unfold Modbus.masterVnic at hvnic
  split at hvnic
  · obtain ⟨rfl, rfl⟩ := PyM.pure_ok.mp hvnic
    simpa using h
  · exact h.allocate hvnic

theorem Numbered.outstationVnic {key : Scalar} {names : List String} (h : Numbered cfg w vnics w₁)
    (hvnic : Modbus.outstationVnic env cfg key names w₁ = .ok vnic w₂) :
    Numbered cfg w (vnics ++ vnic.toList) w₂ := by
  obtain ⟨-, ⟨-, rfl, rfl⟩ | ⟨-, halloc⟩⟩ := outstationVnic_iff.mp hvnic
  · simpa using h
  · exact h.allocate halloc

theorem Assigns.interfaces {st : ParserState} {outstations addr : Json} {names : List String}
    {cidrAddrs : Dict String String}
    (h : Assigns env cfg st outstations names w₁ addr cidrAddrs w₂) :
    w₂.up = w₁.up ∧ w₂.vnictrack = w₁.vnictrack := by
  cases h with
  | configured => exact ⟨rfl, rfl⟩
  | generated a w₂ _ haddr =>
    obtain ⟨_, -, ⟨-, rfl⟩ | ⟨-, hget⟩⟩ := sharedAddr_iff.mp haddr
    · exact ⟨rfl, rfl⟩
    · obtain ⟨addrs, -, rfl⟩ := getAddr_ok.mp hget
      exact ⟨rfl, rfl⟩

/-- The interfaces of the nodes of a call, in the order they were brought up. -/
def vnicsOf (nodes : Nodes) : List String :=
  nodes.masters.filterMap (fun k => k.node.vnic) ++ nodes.outstations.filterMap (fun n => n.vnic)

theorem Numbered.masters {js : List Json} {st : ParserState}
    (h : js.foldlM (processMaster env cfg) .init w = .ok st w₁) :
    Numbered cfg w (st.masterNodes.filterMap fun k => k.node.vnic) w₁ := by
  refine PyM.foldlM_invariant
    (fun st w₁ => Numbered cfg w (st.masterNodes.filterMap fun k => k.node.vnic) w₁)
    (fun j _ st w₁ st' w₂ hst hstep => ?_) (.nothing cfg w) h
  obtain ⟨-, rfl, rfl⟩ | ⟨m, host, hosts, vnic, w₃, addr, cidrAddrs, hkeeps, rfl⟩ :=
    processMaster_iff.mp hstep
  · exact hst
  · have hdrawn : Numbered cfg w (st.masterNodes.filterMap fun k => k.node.vnic)
        { w₁ with cidr := some hosts } := hst.congr rfl rfl
    obtain ⟨hup, hvnictrack⟩ := hkeeps.assigns.interfaces
    have hnew := (hdrawn.masterVnic hkeeps.interface).congr hup hvnictrack
    rwa [ParserState.add, List.filterMap_append]

/-- The nodes of a call have the interfaces that it has brought up. -/
theorem processNodes_numbered {nodes : Nodes} (h : processNodes env cfg w = .ok nodes w₁) :
    Numbered cfg w (vnicsOf nodes) w₁ := by
  obtain ⟨_, st, w₂, groups, -, hmasters, -, hout, hst⟩ := processNodes_iff.mp h
  rw [vnicsOf, hst]
  refine PyM.foldlM_invariant (fun nodes w₁ => Numbered cfg w
    (st.masterNodes.filterMap (fun k => k.node.vnic) ++ nodes.filterMap fun n => n.vnic) w₁)
    (fun e _ nodes w₁ nodes' w₂ hn hstep => ?_) ?_ hout
  · obtain ⟨n, rfl, hmakes⟩ := outstationNode_iff.mp hstep
    rw [List.filterMap_append, ← List.append_assoc]
    exact hn.outstationVnic hmakes.interface
  · simpa using Numbered.masters hmasters

/-! ## The threads -/

/-- `node.deallocate(interface)`: `ifconfig` takes the interface down. -/
def deallocate (interface : Option String) (w : World) : World :=
  match interface with
  | none => w
  | some vnic => { w with up := w.up.filter (·.1 ≠ vnic) }

/-- The nodes that `main` starts a thread for. -/
def OutstationNode.started (n : OutstationNode) : Bool := n.simulate.truthy
def MasterNode.started (m : MasterNode) : Bool := m.simulate.truthy

/-- What the threads take down at their ends: each loop of an outstation the interface of its
node, and each master its own. -/
def endings (nodes : Nodes) : List (Option String) :=
  ((nodes.outstations.filter OutstationNode.started).flatMap fun n => n.names.map fun _ => n.vnic) ++
    (nodes.masters.filter fun k => k.node.started).map fun k => k.node.vnic

/-- The interfaces that are left when the threads have ended, in some order. -/
def stop (w : World) (order : List (Option String)) : World := order.foldl (fun w v => deallocate v w) w

theorem mem_stop {order : List (Option String)} {e : String × String} :
    e ∈ (stop w order).up ↔ e ∈ w.up ∧ some e.1 ∉ order := by
  induction order generalizing w with
  | nil => simp [stop]
  | cons v order ih =>
    rw [stop, List.foldl_cons, ← stop, ih, List.mem_cons, not_or]
    cases v with
    | none => simp [deallocate]
    | some vnic =>
      simp only [deallocate, List.mem_filter, decide_eq_true_eq, ne_eq, Option.some.injEq, and_assoc]

/-- Two elements with one interface are one, if the interfaces of a list are different. -/
theorem inj_on_of_nodup_filterMap {α : Type} {f : α → Option String} {l : List α} {a b : α}
    {vnic : String} (hnodup : (l.filterMap f).Nodup) (ha : a ∈ l) (hb : b ∈ l)
    (hfa : f a = some vnic) (hfb : f b = some vnic) : a = b := by
  induction l with
  | nil => cases ha
  | cons c l ih =>
    have hhead : ∀ d ∈ l, f c = some vnic → f d = some vnic → False := by
      intro d hd hc hfd
      rw [List.filterMap_cons_some hc, List.nodup_cons] at hnodup
      exact hnodup.1 (List.mem_filterMap.mpr ⟨d, hd, hfd⟩)
    have htail : (l.filterMap f).Nodup := by
      rw [List.filterMap_cons] at hnodup
      split at hnodup
      · exact hnodup
      · exact (List.nodup_cons.mp hnodup).2
    obtain hac | hal := List.mem_cons.mp ha
    · obtain hbc | hbl := List.mem_cons.mp hb
      · rw [hac, hbc]
      · exact (hhead b hbl (hac ▸ hfa) hfb).elim
    · obtain hbc | hbl := List.mem_cons.mp hb
      · exact (hhead a hal (hbc ▸ hfb) hfa).elim
      · exact ih htail hal hbl

theorem mem_endings {nodes : Nodes} (hnames : ∀ n ∈ nodes.outstations, n.names ≠ []) {vnic : String} :
    some vnic ∈ endings nodes ↔
      (∃ k ∈ nodes.masters, k.node.vnic = some vnic ∧ k.node.started = true) ∨
        ∃ n ∈ nodes.outstations, n.vnic = some vnic ∧ n.started = true := by
  simp only [endings, List.mem_append, List.mem_flatMap, List.mem_map, List.mem_filter]
  constructor
  · rintro (⟨n, ⟨hn, hstarted⟩, s, -, hvnic⟩ | ⟨k, ⟨hk, hstarted⟩, hvnic⟩)
    · exact Or.inr ⟨n, hn, hvnic, hstarted⟩
    · exact Or.inl ⟨k, hk, hvnic, hstarted⟩
  · rintro (⟨k, hk, hvnic, hstarted⟩ | ⟨n, hn, hvnic, hstarted⟩)
    · exact Or.inr ⟨k, ⟨hk, hstarted⟩, hvnic⟩
    · obtain ⟨s, hs⟩ := List.exists_mem_of_ne_nil _ (hnames n hn)
      exact Or.inl ⟨n, ⟨hn, hstarted⟩, s, hs, hvnic⟩

/-- **What is left of the interfaces.** Of an accepted configuration, when all the threads that
were started have ended, in whatever order, an interface is still up exactly if the node it was
brought up for was not simulated; no two nodes have one interface. -/
theorem interfaces_left {nodes : Nodes} (h : processNodes env cfg w = .ok nodes w₁)
    (hw : w.up = []) {order : List (Option String)} (horder : order.Perm (endings nodes)) :
    (vnicsOf nodes).Nodup ∧ w₁.up.map Prod.fst = vnicsOf nodes ∧
    (∀ k ∈ nodes.masters, ∀ vnic, k.node.vnic = some vnic →
      (vnic ∈ (stop w₁ order).up.map Prod.fst ↔ k.node.started = false)) ∧
    ∀ n ∈ nodes.outstations, ∀ vnic, n.vnic = some vnic →
      (vnic ∈ (stop w₁ order).up.map Prod.fst ↔ n.started = false) := by
  have hnumbered := processNodes_numbered h
  obtain ⟨st, groups, -, -, hreturns⟩ := processNodes_ok h
  have hup : w₁.up.map Prod.fst = vnicsOf nodes := by
    rw [hnumbered.up, hw, List.map_nil, List.nil_append]
  have hnodup := hnumbered.nodup
  obtain ⟨hmasters, houtstations, hdisjoint⟩ := List.nodup_append.mp hnodup
  -- an interface is left unless a thread has taken it down
  have hleft : ∀ vnic ∈ vnicsOf nodes,
      (vnic ∈ (stop w₁ order).up.map Prod.fst ↔ some vnic ∉ endings nodes) := by
    intro vnic hvnic
    rw [← hup] at hvnic
    obtain ⟨e, he, rfl⟩ := List.mem_map.mp hvnic
    rw [List.mem_map]
    constructor
    · rintro ⟨e', he', heq⟩
      rw [← heq, ← horder.mem_iff]
      exact (mem_stop.mp he').2
    · intro hnot
      exact ⟨e, mem_stop.mpr ⟨he, fun hmem => hnot (horder.mem_iff.mp hmem)⟩, rfl⟩
  have hends : ∀ vnic, some vnic ∈ endings nodes ↔ _ := fun vnic =>
    mem_endings fun n hn => (hreturns.node hn).2.1
  refine ⟨hnodup, hup, fun k hk vnic hvnic => ?_, fun n hn vnic hvnic => ?_⟩
  · have hmem : vnic ∈ nodes.masters.filterMap fun k => k.node.vnic :=
      List.mem_filterMap.mpr ⟨k, hk, hvnic⟩
    rw [hleft vnic (List.mem_append_left _ hmem), hends, ← Bool.not_eq_true, not_iff_not]
    constructor
    · rintro (⟨k', hk', hvnic', hstarted⟩ | ⟨n, hn, hvnic', -⟩)
      · rwa [inj_on_of_nodup_filterMap hmasters hk hk' hvnic hvnic']
      · exact absurd rfl (hdisjoint vnic hmem vnic (List.mem_filterMap.mpr ⟨n, hn, hvnic'⟩))
    · exact fun hstarted => Or.inl ⟨k, hk, hvnic, hstarted⟩
  · have hmem : vnic ∈ nodes.outstations.filterMap fun n => n.vnic :=
      List.mem_filterMap.mpr ⟨n, hn, hvnic⟩
    rw [hleft vnic (List.mem_append_right _ hmem), hends, ← Bool.not_eq_true, not_iff_not]
    constructor
    · rintro (⟨k, hk, hvnic', -⟩ | ⟨n', hn', hvnic', hstarted⟩)
      · exact absurd rfl (hdisjoint vnic (List.mem_filterMap.mpr ⟨k, hk, hvnic'⟩) vnic hmem)
      · rwa [inj_on_of_nodup_filterMap houtstations hn hn' hvnic hvnic']
    · exact fun hstarted => Or.inr ⟨n, hn, hvnic, hstarted⟩

/-- The outstation "S3" is a real device, but it has no address of its own. -/
def realDeviceConfig : Config :=
  Dict.ofList [
    ("Virtual Interface", .str "eth0"),
    ("Master Nodes", .arr [.obj [("Name", .str "M1"), ("Outstations", .arr [.str "S3"])]]),
    ("S3", .obj [("Simulate", .num 0)])]

theorem interfaces_left_real_device : ∃ nodes w₁, processNodes plainEnv realDeviceConfig freshWorld =
    .ok nodes w₁ ∧ w₁.up = [("eth0:0", "10.0.0.1"), ("eth0:1", "10.0.0.2")] ∧
    "eth0:0" ∉ (stop w₁ (endings nodes)).up.map Prod.fst ∧
    "eth0:1" ∈ (stop w₁ (endings nodes)).up.map Prod.fst := by
  have hrun : ∃ nodes w₁, processNodes plainEnv realDeviceConfig freshWorld = .ok nodes w₁ ∧
      w₁.up = [("eth0:0", "10.0.0.1"), ("eth0:1", "10.0.0.2")] ∧
      nodes.masters.map (fun k => (k.node.vnic, k.node.started)) = [(some "eth0:0", true)] ∧
      nodes.outstations.map (fun n => (n.vnic, n.started)) = [(some "eth0:1", false)] :=
    ⟨_, _, rfl, rfl, rfl, rfl⟩
  obtain ⟨nodes, w₁, haccepted, hup, hmasters, houtstations⟩ := hrun
  obtain ⟨-, -, hmaster, houtstation⟩ := interfaces_left haccepted rfl (List.Perm.refl _)
  obtain ⟨k, hk, hkeq⟩ := List.map_eq_singleton_iff.mp hmasters
  obtain ⟨n, hn, hneq⟩ := List.map_eq_singleton_iff.mp houtstations
  obtain ⟨hkvnic, hkstarted⟩ := Prod.mk.inj hkeq
  obtain ⟨hnvnic, hnstarted⟩ := Prod.mk.inj hneq
  refine ⟨nodes, w₁, haccepted, hup, fun hleft => ?_, ?_⟩
  · rw [hmaster k (hk ▸ List.mem_cons_self) _ hkvnic, hkstarted] at hleft
    cases hleft
  · exact (houtstation n (hn ▸ List.mem_cons_self) _ hnvnic).mpr hnstarted

end IcsTrafficGen.Modbus
