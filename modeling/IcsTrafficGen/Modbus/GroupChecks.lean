import IcsTrafficGen.Modbus.Grouping

/- The node of a group does not depend on the order of the group. Each check of
   `process_nodes` on the outstations of an address is about all of them alike, and what it
   picks is the same whichever it picks: the common port and flag, the largest unit id, and
   dictionaries whose keys differ (`NodeOf.perm`). -/
namespace IcsTrafficGen.Modbus

variable {cfg : Config} {names names' : List String}

def simOf (cfg : Config) (name : String) : Scalar := keyOf (field cfg "Simulate" (.num 1) name)

/-- The outstations have a common flag. -/
structure CommonSim (cfg : Config) (names : List String) : Prop where
  object : ∀ name ∈ names, IsObject cfg name
  scalar : ∀ name ∈ names, IsScalar (field cfg "Simulate" (.num 1) name)
  same : ∀ s ∈ names, ∀ t ∈ names, simOf cfg s = simOf cfg t

theorem getOutstationSim_iff {sim : Scalar} :
    getOutstationSim cfg names = .ok sim ↔
      CommonSim cfg names ∧ ∃ s ∈ names, simOf cfg s = sim := by
  simp only [getOutstationSim, Fallible.bind_ok, commonField_iff]
  constructor
  · intro h
    obtain ⟨_, ⟨hobj, hscalar, hsame, rfl⟩, h⟩ := h
    refine ⟨⟨hobj, hscalar, hsame⟩, ?_⟩
    cases names with
    | nil => cases h
    | cons s names => exact ⟨s, List.mem_cons_self, Fallible.pure_ok.mp h⟩
  · intro h
    obtain ⟨⟨hobj, hscalar, hsame⟩, s, hs, rfl⟩ := h
    refine ⟨_, ⟨hobj, hscalar, hsame, rfl⟩, ?_⟩
    cases names with
    | nil => cases hs
    | cons t names => exact congrArg _ (hsame t List.mem_cons_self s hs)

/-! ## Another order -/

theorem choosePort_perm {ports ports' : List Scalar} (h : ports.Perm ports') :
    choosePort ports = choosePort ports' := by
  match ports, ports' with
  | [], ports' => rw [List.nil_perm.mp h]
  | [p], ports' => rw [List.singleton_perm.mp h]
  | p :: q :: rest, [] => exact absurd h.length_eq (by simp)
  | p :: q :: rest, [_] => exact absurd h.length_eq (by simp)
  | p :: q :: rest, _ :: _ :: _ => rfl

theorem CommonPort.perm (hp : CommonPort cfg names) (h : names.Perm names') :
    CommonPort cfg names' where
  object s hs := hp.object s (h.mem_iff.mpr hs)
  scalar s hs := hp.scalar s (h.mem_iff.mpr hs)
  same s hs t ht := hp.same s (h.mem_iff.mpr hs) t (h.mem_iff.mpr ht)

theorem CommonSim.perm (hp : CommonSim cfg names) (h : names.Perm names') :
    CommonSim cfg names' where
  object s hs := hp.object s (h.mem_iff.mpr hs)
  scalar s hs := hp.scalar s (h.mem_iff.mpr hs)
  same s hs t ht := hp.same s (h.mem_iff.mpr hs) t (h.mem_iff.mpr ht)

theorem HasIds.perm (hp : HasIds cfg names) (h : names.Perm names') : HasIds cfg names' where
  object s hs := hp.object s (h.mem_iff.mpr hs)
  scalar s hs := hp.scalar s (h.mem_iff.mpr hs)

theorem GoodIds.perm {ids ids' : List Scalar} (hp : GoodIds ids) (h : ids.Perm ids') :
    GoodIds ids' := by
  obtain ⟨hnodup, top, n, htop, hn, hle⟩ := hp
  exact ⟨h.nodup_iff.mp hnodup, top, n, (Scalar.max_perm h).mp htop, hn, hle⟩

theorem getOutstationPort_perm (h : names.Perm names') {port : Scalar}
    (hport : getOutstationPort cfg names = .ok port) : getOutstationPort cfg names' = .ok port := by
  obtain ⟨hcommon, rfl⟩ := getOutstationPort_iff.mp hport
  exact getOutstationPort_iff.mpr ⟨hcommon.perm h, choosePort_perm (h.map _)⟩

theorem getOutstationSim_perm (h : names.Perm names') {sim : Scalar}
    (hsim : getOutstationSim cfg names = .ok sim) : getOutstationSim cfg names' = .ok sim := by
  obtain ⟨hcommon, s, hs, rfl⟩ := getOutstationSim_iff.mp hsim
  exact getOutstationSim_iff.mpr ⟨hcommon.perm h, s, h.mem_iff.mp hs, rfl⟩

/-- The names of a group differ, so its unit ids are listed one for each. -/
theorem unitids_values (hnodup : names.Nodup) :
    (Dict.ofList (names.map fun name => (name, idOf cfg name))).values = names.map (idOf cfg) := by
  rw [Dict.values, Dict.entries_ofList, List.map_map]
  · rfl
  · rw [List.map_map]
    simpa [Function.comp_def] using hnodup

theorem getOutstationUnitids_perm (hnodup : names.Nodup) (h : names.Perm names')
    {d : Dict String Scalar} (hd : getOutstationUnitids cfg names = .ok d) :
    ∃ d', getOutstationUnitids cfg names' = .ok d' ∧ ∀ s, d'.get? s = d.get? s := by
  obtain ⟨hids, hgood, rfl⟩ := getOutstationUnitids_iff.mp hd
  rw [unitids_values hnodup] at hgood
  refine ⟨_, getOutstationUnitids_iff.mpr ⟨hids.perm h, ?_, rfl⟩, fun s => ?_⟩
  · rw [unitids_values (h.nodup_iff.mp hnodup)]
    exact hgood.perm (h.map _)
  · exact (Dict.get?_ofList_map_perm h (fun a _ b _ hab => by rw [show b = a from hab]) s).symm

/-- With different unit ids no data count overwrites another. -/
theorem getOutstationDatastore_perm (hids : (names.map (idOf cfg)).Nodup) (h : names.Perm names')
    {d : Dict Scalar Json} (hd : getOutstationDatastore cfg names = .ok d) :
    ∃ d', getOutstationDatastore cfg names' = .ok d' ∧ ∀ key, d'.get? key = d.get? key := by
  obtain ⟨hhas, rfl⟩ := getOutstationDatastore_iff.mp hd
  refine ⟨_, getOutstationDatastore_iff.mpr ⟨hhas.perm h, rfl⟩, fun key => ?_⟩
  refine (Dict.get?_ofList_map_perm h (fun a ha b hb hab => ?_) key).symm
  rw [List.inj_on_of_nodup_map hids hb ha hab]

/-- Two nodes with the same outstations, port, flag, data and unit ids. -/
structure SameNode (n n' : OutstationNode) : Prop where
  names : n.names.Perm n'.names
  port : n.port = n'.port
  simulate : n.simulate = n'.simulate
  datastore : ∀ key, n.datastore.get? key = n'.datastore.get? key
  nameIdMap : ∀ s, n.nameIdMap.get? s = n'.nameIdMap.get? s

theorem NodeOf.perm {n : OutstationNode} {e : Scalar × List String} (hn : NodeOf cfg e n)
    (e' : Scalar × List String) (hnodup : e.2.Nodup) (h : e.2.Perm e'.2) (vnic : Option String) :
    ∃ n', NodeOf cfg e' n' ∧ n'.vnic = vnic ∧ SameNode n n' := by
  have hgood := (getOutstationUnitids_iff.mp hn.nameIdMap).2
  rw [hgood.2, unitids_values hnodup] at hgood
  obtain ⟨d, hd, hget⟩ := getOutstationDatastore_perm hgood.1.1 h hn.datastore
  obtain ⟨m, hm, hgetm⟩ := getOutstationUnitids_perm hnodup h hn.nameIdMap
  refine ⟨⟨e'.2, e'.1, vnic, n.port, n.simulate, d, m⟩, ⟨rfl, rfl, getOutstationPort_perm h hn.port,
    getOutstationSim_perm h hn.simulate, hd, hm⟩, rfl, ?_⟩
  exact ⟨by rw [hn.names]; exact h, rfl, rfl, fun key => (hget key).symm, fun s => (hgetm s).symm⟩

end IcsTrafficGen.Modbus
