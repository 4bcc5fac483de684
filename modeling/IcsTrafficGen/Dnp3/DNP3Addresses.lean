import IcsTrafficGen.Dnp3.StationPairs
import Mathlib.Data.List.Nodup

/- The DNP3 addresses that `getNextDNP3Address` hands out. They count up from behind the
   largest address of the file, and behind 65535 they are 0 again and again: they are unique
   exactly as long as there is room up there, and once more if nobody has the address 0
   (`addresses_unique_iff`). -/
namespace IcsTrafficGen.Dnp3
open CfgJsonParser

/-- The explicit addresses of an entry. -/
def entryAddrs (nodeTree : PTree) : List Int :=
  (nodeTree.getOptional PTree.asInt ["DNP3 Address", "Master"]).toList ++
    (nodeTree.getOptional PTree.asInt ["DNP3 Address", "Outstation"]).toList

/-- The vector of the addresses behind an entry. -/
def assignAddrs (nodeTree : PTree) (addrs : List ℕ) : List ℕ :=
  (chooseDNP3Address (nodeTree.getOptional PTree.asInt ["DNP3 Address", "Outstation"])
    (chooseDNP3Address (nodeTree.getOptional PTree.asInt ["DNP3 Address", "Master"]) addrs).2).2

/-- The addresses that an entry's master and its outstation store as their own. -/
def storedAddrs (nodeTree : PTree) (addrs : List ℕ) : ℕ × ℕ :=
  let m := chooseDNP3Address (nodeTree.getOptional PTree.asInt ["DNP3 Address", "Master"]) addrs
  let o := chooseDNP3Address (nodeTree.getOptional PTree.asInt ["DNP3 Address", "Outstation"]) m.2
  (Cpp.toUInt16 m.1, Cpp.toUInt16 o.1)

/-- Those of an entry's two addresses that the file does not give. -/
def omittedAddrs (nodeTree : PTree) (stored : ℕ × ℕ) : List ℕ :=
  (if nodeTree.getOptional PTree.asInt ["DNP3 Address", "Master"] = none then [stored.1] else []) ++
    if nodeTree.getOptional PTree.asInt ["DNP3 Address", "Outstation"] = none then [stored.2] else []

/-- How many addresses are handed out for an entry. -/
def omissions (nodeTree : PTree) : ℕ := 2 - (entryAddrs nodeTree).length

/-- The constructor has read the entries `done` of the file and is at `p`. -/
structure Reading (propTree : PTree) (trees done : List PTree) (p : CfgJsonParser) : Prop where
  entries : nodeTrees propTree = .ok trees
  upTo : done <+: trees
  run : ∃ gen, readCidr propTree = .ok gen ∧ done.foldlM readNode
    { nodes := [], cidrGenerator := gen, vnictrack := 0, commands := []
      virtualNetworkInterfaceCard :=
        (propTree.getOptional PTree.asString ["Virtual Interface"]).getD ""
      localDnp3Addrs := readAllDnp3Addresses trees } = .ok p

/-- The addresses handed out so far in a file with the entries `trees`: what the vector holds
besides the addresses of the first scan. -/
def handedOut (trees : List PTree) (p : CfgJsonParser) : List ℕ :=
  p.localDnp3Addrs.drop (readAllDnp3Addresses trees).length

/-- No address handed out is an explicit one, and none is handed out twice. -/
structure AddressesUnique (trees : List PTree) (p : CfgJsonParser) : Prop where
  explicit : ∀ a ∈ handedOut trees p, (a : Int) ∉ trees.flatMap entryAddrs
  once : (handedOut trees p).Nodup

/-- The entry `nodeTree` brings the parser from `p` to `p'`: its stations store its two addresses,
each the other's as well, and those that the file does not give are what is handed out for it. -/
structure Stores (trees : List PTree) (nodeTree : PTree) (p p' : CfgJsonParser) : Prop where
  stations : ∃ masters outstations, p'.nodes = p.nodes ++ masters ++ outstations ∧
    (∀ m ∈ masters, m.role = "Master" ∧
      (m.localDNP3Addr, m.remoteDNP3Addr) = storedAddrs nodeTree p.localDnp3Addrs) ∧
    ∀ o ∈ outstations, o.role = "Outstation" ∧
      (o.remoteDNP3Addr, o.localDNP3Addr) = storedAddrs nodeTree p.localDnp3Addrs
  handedOut : handedOut trees p' =
    handedOut trees p ++ omittedAddrs nodeTree (storedAddrs nodeTree p.localDnp3Addrs)

/-- The first address that is handed out: the one behind the largest of the file, or 90. -/
def firstAddress (trees : List PTree) : ℕ :=
  if readAllDnp3Addresses trees = [] then 90 else (readAllDnp3Addresses trees).foldl max 0 + 1

/-! ## The vector of the parser -/

/-- A file is accepted if all of its entries can be read. -/
theorem new_iff_reading {propTree : PTree} {p : CfgJsonParser} :
    CfgJsonParser.new propTree = .ok p ↔ ∃ trees, Reading propTree trees trees p := by
  constructor
  · intro h
    obtain ⟨gen, hgen, h⟩ := Fallible.bind_ok.mp h
    obtain ⟨trees, htrees, h⟩ := Fallible.bind_ok.mp h
    exact ⟨trees, htrees, List.prefix_refl trees, gen, hgen, h⟩
  · rintro ⟨trees, htrees, -, gen, hgen, h⟩
    exact Fallible.bind_ok.mpr ⟨gen, hgen, Fallible.bind_ok.mpr ⟨trees, htrees, h⟩⟩

/-- An entry adds to the vector what its stations are given, if the file does not give it. -/
theorem readNode_addrs {nodeTree : PTree} {p p' : CfgJsonParser} (h : readNode p nodeTree = .ok p') :
    p'.localDnp3Addrs = assignAddrs nodeTree p.localDnp3Addrs := by
  obtain ⟨p₁, pair, masters, outstations, hip, -, -, rfl⟩ := readNode_ok h
  obtain ⟨-, haddrs, -⟩ := readAssignIpAddresses_ok hip
  rw [← haddrs]
  rfl

theorem assignAddrs_eq (nodeTree : PTree) (addrs : List ℕ) :
    assignAddrs nodeTree addrs = addrs ++ omittedAddrs nodeTree (storedAddrs nodeTree addrs) := by
  unfold assignAddrs omittedAddrs storedAddrs
  cases nodeTree.getOptional PTree.asInt ["DNP3 Address", "Master"] <;>
    cases nodeTree.getOptional PTree.asInt ["DNP3 Address", "Outstation"] <;>
    simp [chooseDNP3Address, getNextDNP3Address]

/-- The stations that an entry appends store its two addresses, each the other's as well. -/
theorem readNode_stores {nodeTree : PTree} {p p' : CfgJsonParser} (h : readNode p nodeTree = .ok p') :
    ∃ masters outstations, p'.nodes = p.nodes ++ masters ++ outstations ∧
      (∀ m ∈ masters, m.role = "Master" ∧
        (m.localDNP3Addr, m.remoteDNP3Addr) = storedAddrs nodeTree p.localDnp3Addrs) ∧
      ∀ o ∈ outstations, o.role = "Outstation" ∧
        (o.remoteDNP3Addr, o.localDNP3Addr) = storedAddrs nodeTree p.localDnp3Addrs := by
  obtain ⟨p₁, pair, masters, outstations, hip, hmasters, houtstations, rfl⟩ := readNode_ok h
  obtain ⟨hnodes, haddrs, ⟨ip₂, vnic₂, hpo⟩, ip₁, vnic₁, hpm⟩ := readAssignIpAddresses_ok hip
  refine ⟨masters, outstations, by rw [hnodes], fun m hm => ?_, fun o ho => ?_⟩
  · obtain ⟨m₀, hm₀, hread⟩ := Fallible.exists_left (readRole_ok hmasters) hm
    obtain ⟨pts, rfl⟩ := readPollingSpecs_ok hread
    simp only [readIpPorts, readAssignDNP3Addresses, hpm, namedStation, Option.mem_toList,
      Option.map_map, Option.map_eq_some_iff] at hm₀
    obtain ⟨name, -, rfl⟩ := hm₀
    rw [← haddrs]
    exact ⟨setRemoteIp_role _ _ _, rfl⟩
  · obtain ⟨o₀, ho₀, hread⟩ := Fallible.exists_left (readRole_ok houtstations) ho
    obtain ⟨-, -, n, -, -, -, rfl⟩ := readData_passes hread
    simp only [readIpPorts, readAssignDNP3Addresses, hpo, namedStation, Option.mem_toList,
      Option.map_map, Option.map_eq_some_iff] at ho₀
    obtain ⟨name, -, rfl⟩ := ho₀
    rw [← haddrs]
    exact ⟨rfl, rfl⟩

theorem readNodes_addrs {trees : List PTree} {p p' : CfgJsonParser}
    (h : trees.foldlM readNode p = .ok p') : p'.localDnp3Addrs =
      trees.foldl (fun addrs tree => assignAddrs tree addrs) p.localDnp3Addrs := by
  induction trees generalizing p with
  | nil =>
    cases h
    rfl
  | cons tree trees ih =>
    rw [List.foldlM_cons] at h
    obtain ⟨p₁, h₁, h⟩ := Fallible.bind_ok.mp h
    rw [ih h, List.foldl_cons, readNode_addrs h₁]

/-! ## Counting up -/

/-- The addresses behind `first`; where no `uint16_t` is left they are 0. -/
def countUp (first k : ℕ) : List ℕ :=
  (List.range k).map fun i => Cpp.toUInt16 ((min (first + i) 65536 : ℕ) : Int)

theorem toUInt16_min {n : ℕ} :
    Cpp.toUInt16 ((min n 65536 : ℕ) : Int) = if n ≤ 65535 then n else 0 := by
  unfold Cpp.toUInt16
  split <;> omega

theorem countUp_succ (first k : ℕ) :
    countUp first (k + 1) = countUp first k ++ [if first + k ≤ 65535 then first + k else 0] := by
  rw [countUp, List.range_succ, List.map_append, List.map_singleton, toUInt16_min]
  rfl

/-- The largest address of the vector. -/
theorem foldl_max_countUp {addrs : List ℕ} {first : ℕ} (hlt : addrs.foldl max 0 < first)
    (hle : first ≤ 65535 ∨ first = addrs.foldl max 0 + 1 ∧ first ≤ 65536) (k : ℕ) :
    (addrs ++ countUp first k).foldl max 0 =
      if k = 0 then addrs.foldl max 0 else max (addrs.foldl max 0) (min (first + k - 1) 65535) := by
  induction k with
  | zero => simp [countUp]
  | succ k ih =>
    rw [countUp_succ, ← List.append_assoc, List.foldl_append, ih, if_neg (Nat.succ_ne_zero k),
      List.foldl_cons, List.foldl_nil]
    by_cases hk : k = 0
    · rw [if_pos hk]
      split <;> omega
    · rw [if_neg hk]
      split <;> omega

theorem le_max_addrs {addrs : List ℕ} {init : ℕ} :
    init ≤ addrs.foldl max init ∧ ∀ a ∈ addrs, a ≤ addrs.foldl max init := by
  induction addrs generalizing init with
  | nil => simp
  | cons b addrs ih =>
    obtain ⟨hinit, hmem⟩ : max init b ≤ addrs.foldl max (max init b) ∧ _ := ih
    rw [List.foldl_cons]
    refine ⟨(le_max_left _ _).trans hinit, List.forall_mem_cons.mpr ⟨?_, hmem⟩⟩
    exact (le_max_right _ _).trans hinit

theorem foldl_max_le {addrs : List ℕ} {init bound : ℕ} (hinit : init ≤ bound)
    (h : ∀ a ∈ addrs, a ≤ bound) : addrs.foldl max init ≤ bound := by
  induction addrs generalizing init with
  | nil => exact hinit
  | cons b addrs ih =>
    obtain ⟨hb, h⟩ := List.forall_mem_cons.mp h
    exact ih (max_le hinit hb) h

/-- The explicit addresses of a file, and where counting up starts. -/
structure Explicit (addrs : List ℕ) (first : ℕ) : Prop where
  start : (if addrs = [] then 90 else addrs.foldl max 0 + 1) = first
  le : ∀ a ∈ addrs, a ≤ 65535

theorem Explicit.first_le {addrs : List ℕ} {first : ℕ} (h : Explicit addrs first) :
    addrs.foldl max 0 < first ∧
      (first ≤ 65535 ∨ first = addrs.foldl max 0 + 1 ∧ first ≤ 65536) := by
  have hmax := foldl_max_le (Nat.zero_le 65535) h.le
  rw [← h.start]
  split
  · next hnil =>
    rw [hnil]
    decide
  · omega

theorem Explicit.next {addrs : List ℕ} {first : ℕ} (h : Explicit addrs first) (k : ℕ) :
    getNextDNP3Address (addrs ++ countUp first k) =
      (((min (first + k) 65536 : ℕ) : Int), addrs ++ countUp first (k + 1)) := by
  obtain ⟨hlt, hle⟩ := h.first_le
  have hnext : (if addrs ++ countUp first k = [] then 90
      else (((addrs ++ countUp first k).foldl max 0 : ℕ) : Int) + 1) =
        ((min (first + k) 65536 : ℕ) : Int) := by
    rw [foldl_max_countUp hlt hle]
    by_cases hk : k = 0
    · have hstart := h.start
      subst hk
      rw [if_pos rfl]
      simp only [countUp, List.range_zero, List.map_nil, List.append_nil]
      split
      · next hnil =>
        rw [if_pos hnil] at hstart
        omega
      · next hne =>
        rw [if_neg hne] at hstart
        omega
    · have hne : addrs ++ countUp first k ≠ [] := by simp [countUp, hk]
      rw [if_neg hne, if_neg hk]
      omega
  rw [getNextDNP3Address, hnext, countUp_succ, ← toUInt16_min, List.append_assoc]

theorem assignAddrs_countUp {addrs : List ℕ} {first : ℕ} (h : Explicit addrs first)
    (nodeTree : PTree) (k : ℕ) :
    assignAddrs nodeTree (addrs ++ countUp first k) =
      addrs ++ countUp first (k + omissions nodeTree) := by
  unfold assignAddrs omissions entryAddrs
  cases nodeTree.getOptional PTree.asInt ["DNP3 Address", "Master"] with
  | none =>
    cases nodeTree.getOptional PTree.asInt ["DNP3 Address", "Outstation"] with
    | none => simp only [chooseDNP3Address, h.next]; rfl
    | some o => simp only [chooseDNP3Address, h.next]; rfl
  | some m =>
    cases nodeTree.getOptional PTree.asInt ["DNP3 Address", "Outstation"] with
    | none => simp only [chooseDNP3Address, h.next]; rfl
    | some o => rfl

theorem foldl_assignAddrs {addrs : List ℕ} {first : ℕ} (h : Explicit addrs first)
    (done : List PTree) (k : ℕ) :
    done.foldl (fun addrs tree => assignAddrs tree addrs) (addrs ++ countUp first k) =
      addrs ++ countUp first (k + (done.map omissions).sum) := by
  induction done generalizing k with
  | nil => rfl
  | cons tree done ih =>
    rw [List.foldl_cons, assignAddrs_countUp h, ih, List.map_cons, List.sum_cons, Nat.add_assoc]

/-! ## Uniqueness -/

theorem mem_countUp {first k a : ℕ} :
    a ∈ countUp first k ↔ ∃ i < k, (if first + i ≤ 65535 then first + i else 0) = a := by
  simp only [countUp, toUInt16_min, List.mem_map, List.mem_range]

theorem nodup_countUp {first k : ℕ} (hfirst : 0 < first) (hle : first ≤ 65536) :
    (countUp first k).Nodup ↔ first + k ≤ 65537 := by
  have hmap : countUp first k =
      (List.range k).map fun i => if first + i ≤ 65535 then first + i else 0 := by
    simp only [countUp, toUInt16_min]
  rw [hmap]
  constructor
  · intro hnodup
    by_contra hlt
    -- two addresses behind 65535
    have hsame := List.inj_on_of_nodup_map hnodup
      (List.mem_range.mpr (show 65536 - first < k by omega))
      (List.mem_range.mpr (show 65536 - first + 1 < k by omega))
    rw [if_neg (by omega), if_neg (by omega)] at hsame
    exact absurd (hsame rfl) (by omega)
  · intro hk
    apply List.Nodup.map_on _ List.nodup_range
    intro i hi j hj hsame
    have hi := List.mem_range.mp hi
    have hj := List.mem_range.mp hj
    split_ifs at hsame <;> omega

theorem disjoint_countUp {addrs : List ℕ} {first k : ℕ} (h : Explicit addrs first)
    (hk : first + k ≤ 65537) :
    (∀ a ∈ countUp first k, a ∉ addrs) ↔ first + k ≤ 65536 ∨ 0 ∉ addrs := by
  obtain ⟨hlt, hle⟩ := h.first_le
  have hbelow : ∀ a ∈ addrs, a < first := fun a ha => (le_max_addrs.2 a ha).trans_lt hlt
  constructor
  · intro hdisjoint
    by_contra hnot
    obtain ⟨hlast, hzero⟩ := not_or.mp hnot
    apply hdisjoint 0 _ (not_not.mp hzero)
    exact mem_countUp.mpr ⟨k - 1, by omega, if_neg (by omega)⟩
  · intro hroom a ha hmem
    obtain ⟨i, hi, rfl⟩ := mem_countUp.mp ha
    split at hmem
    · have := hbelow _ hmem
      omega
    · rcases hroom with hroom | hzero
      · omega
      · exact hzero hmem

theorem readAllDnp3Addresses_eq (trees : List PTree) :
    readAllDnp3Addresses trees = (trees.flatMap entryAddrs).map Cpp.toUInt16 := by
  rw [List.map_flatMap]
  rfl

/-- In the range of `uint16_t` the vector of the first scan holds what the file gives. -/
theorem mem_readAllDnp3Addresses {trees : List PTree}
    (hexplicit : ∀ a ∈ trees.flatMap entryAddrs, 0 ≤ a ∧ a ≤ 65535) (a : ℕ) :
    a ∈ readAllDnp3Addresses trees ↔ (a : Int) ∈ trees.flatMap entryAddrs := by
  rw [readAllDnp3Addresses_eq, List.mem_map]
  constructor
  · intro ⟨e, he, hea⟩
    have := hexplicit e he
    have hsame : (a : Int) = e := by
      unfold Cpp.toUInt16 at hea
      omega
    rwa [hsame]
  · intro ha
    have := hexplicit a ha
    exact ⟨a, ha, Cpp.toUInt16_of_le (by omega)⟩

theorem explicit_readAllDnp3Addresses {trees : List PTree}
    (hexplicit : ∀ a ∈ trees.flatMap entryAddrs, 0 ≤ a ∧ a ≤ 65535) :
    Explicit (readAllDnp3Addresses trees) (firstAddress trees) := by
  refine ⟨rfl, fun a ha => ?_⟩
  have := hexplicit a ((mem_readAllDnp3Addresses hexplicit a).mp ha)
  omega

/-- What the vector holds behind the addresses of the first scan counts up from the first address. -/
theorem Reading.localDnp3Addrs_eq {propTree : PTree} {trees done : List PTree} {p : CfgJsonParser}
    (h : Reading propTree trees done p)
    (hexplicit : ∀ a ∈ trees.flatMap entryAddrs, 0 ≤ a ∧ a ≤ 65535) :
    p.localDnp3Addrs =
      readAllDnp3Addresses trees ++ countUp (firstAddress trees) (done.map omissions).sum := by
  have hfold := foldl_assignAddrs (explicit_readAllDnp3Addresses hexplicit) done 0
  rw [countUp, List.range_zero, List.map_nil, List.append_nil, Nat.zero_add] at hfold
  obtain ⟨gen, -, hrun⟩ := h.run
  rw [readNodes_addrs hrun, hfold]

theorem Reading.handedOut_eq {propTree : PTree} {trees done : List PTree} {p : CfgJsonParser}
    (h : Reading propTree trees done p)
    (hexplicit : ∀ a ∈ trees.flatMap entryAddrs, 0 ≤ a ∧ a ≤ 65535) :
    handedOut trees p = countUp (firstAddress trees) (done.map omissions).sum := by
  rw [handedOut, h.localDnp3Addrs_eq hexplicit, List.drop_left]

/-- Whatever is handed out for an entry is what its stations store. -/
theorem Reading.stores {propTree nodeTree : PTree} {trees done : List PTree} {p p' : CfgJsonParser}
    (h : Reading propTree trees done p)
    (hexplicit : ∀ a ∈ trees.flatMap entryAddrs, 0 ≤ a ∧ a ≤ 65535)
    (hread : readNode p nodeTree = .ok p') : Stores trees nodeTree p p' where
  stations := readNode_stores hread
  handedOut := by
    have hle : (readAllDnp3Addresses trees).length ≤ p.localDnp3Addrs.length := by
      rw [h.localDnp3Addrs_eq hexplicit, List.length_append]
      exact Nat.le_add_right _ _
    unfold Dnp3.handedOut
    rw [readNode_addrs hread, assignAddrs_eq, List.drop_append_of_le_length hle]

/-- The addresses handed out for the entries `done` of a file are unique exactly if they all
lie below 65536, or only the last does not and no address of the file is 0. The stations of the
entry behind them store what is handed out for it. -/
theorem addresses_unique_iff {propTree : PTree} {trees done : List PTree} {p : CfgJsonParser}
    (h : Reading propTree trees done p)
    (hexplicit : ∀ a ∈ trees.flatMap entryAddrs, 0 ≤ a ∧ a ≤ 65535) :
    (AddressesUnique trees p ↔
      firstAddress trees + (done.map omissions).sum ≤ 65536 ∨
      firstAddress trees + (done.map omissions).sum = 65537 ∧ 0 ∉ trees.flatMap entryAddrs) ∧
    ∀ nodeTree p', readNode p nodeTree = .ok p' → Stores trees nodeTree p p' := by
  refine ⟨?_, fun nodeTree p' => h.stores hexplicit⟩
  have hstored := mem_readAllDnp3Addresses hexplicit
  have hfile := explicit_readAllDnp3Addresses hexplicit
  have hhanded := h.handedOut_eq hexplicit
  obtain ⟨hlt, hle⟩ := hfile.first_le
  have honce : (countUp (firstAddress trees) (done.map omissions).sum).Nodup ↔
      firstAddress trees + (done.map omissions).sum ≤ 65537 :=
    nodup_countUp (by omega) (by omega)
  have hzero := hstored 0
  rw [Nat.cast_zero] at hzero
  constructor
  · intro hunique
    obtain ⟨hexplicit, hnodup⟩ := hunique
    rw [hhanded] at hexplicit hnodup
    have hk := honce.mp hnodup
    have hroom := (disjoint_countUp hfile hk).mp fun a ha hmem =>
      hexplicit a ha ((hstored a).mp hmem)
    rw [hzero] at hroom
    rcases hroom with hroom | hroom
    · exact Or.inl hroom
    · rcases Nat.lt_or_ge 65536 (firstAddress trees + (done.map omissions).sum) with hlast | hbelow
      · exact Or.inr ⟨by omega, hroom⟩
      · exact Or.inl hbelow
  · intro hroom
    have hk : firstAddress trees + (done.map omissions).sum ≤ 65537 := by omega
    refine ⟨fun a ha => ?_, hhanded ▸ honce.mpr hk⟩
    rw [hhanded] at ha
    rw [← hstored]
    apply (disjoint_countUp hfile hk).mpr _ a ha
    rcases hroom with hroom | ⟨-, hroom⟩
    · exact Or.inl hroom
    · exact Or.inr (mt hzero.mp hroom)

/-! ## The top of the range -/

/-- An outstation, and its master with the address `addr`. -/
def addressTree (addr : String) : PTree :=
  .node "" [("Name", .node "" [("Master", .leaf "M"), ("Outstation", .leaf "O")]),
    ("DNP3 Address", .node "" [("Master", .leaf addr)])]

def addressTrees (a b : String) : List PTree := [addressTree a, addressTree b]

def addressConfig (a b : String) : PTree :=
  .node "" [("Nodes", .node "" ((addressTrees a b).map fun tree => ("", tree)))]

/-- Who has which address. -/
def ownAddrs (p : CfgJsonParser) : List (String × ℕ) :=
  p.nodes.map fun n => (n.role, n.localDNP3Addr)

theorem exists_reading {a b : String} {addrs : List ℕ} {own : List (String × ℕ)}
    (h : (CfgJsonParser.new (addressConfig a b)).map (fun p => (p.localDnp3Addrs, ownAddrs p)) =
      .ok (addrs, own)) :
    ∃ p, CfgJsonParser.new (addressConfig a b) = .ok p ∧
      Reading (addressConfig a b) (addressTrees a b) (addressTrees a b) p ∧
      p.localDnp3Addrs = addrs ∧ ownAddrs p = own := by
  obtain ⟨p, hnew, hown⟩ := Fallible.map_ok.mp h
  obtain ⟨haddrs, hstations⟩ := Prod.mk.inj hown
  obtain ⟨trees, hreading⟩ := new_iff_reading.mp hnew
  cases hreading.entries
  exact ⟨p, hnew, hreading, haddrs, hstations⟩

/-- Two outstations get the addresses 8 and 9, and the second entry stores what is handed out for
it. -/
theorem addresses_unique_two :
    ∃ p₁ p, CfgJsonParser.new (addressConfig "5" "7") = .ok p ∧
      AddressesUnique (addressTrees "5" "7") p ∧ readNode p₁ (addressTree "7") = .ok p ∧
      Stores (addressTrees "5" "7") (addressTree "7") p₁ p := by
  have hown : (CfgJsonParser.new (addressConfig "5" "7")).map
      (fun p => (p.localDnp3Addrs, ownAddrs p)) = .ok ([5, 7, 8, 9],
        [("Master", 5), ("Outstation", 8), ("Master", 7), ("Outstation", 9)]) := by
    decide +kernel
  obtain ⟨p, hnew, hreading, -, -⟩ := exists_reading hown
  obtain ⟨gen, hgen, hrun⟩ := hreading.run
  obtain ⟨p₁, hfirst, hrun⟩ := Fallible.bind_ok.mp hrun
  obtain ⟨p', hsecond, hrun⟩ := Fallible.bind_ok.mp hrun
  cases hrun
  have hone : Reading (addressConfig "5" "7") (addressTrees "5" "7") [addressTree "5"] p₁ :=
    ⟨hreading.entries, ⟨[addressTree "7"], rfl⟩, gen, hgen,
      Fallible.bind_ok.mpr ⟨p₁, hfirst, rfl⟩⟩
  exact ⟨p₁, p, hnew, (addresses_unique_iff hreading (by decide)).1.mpr (by decide), hsecond,
    (addresses_unique_iff hone (by decide)).2 _ _ hsecond⟩

/-- Behind the address 65535 two outstations get the same one. -/
theorem addresses_collide :
    (∀ a ∈ (addressTrees "65535" "1").flatMap entryAddrs, 0 ≤ a ∧ a ≤ 65535) ∧
    ∃ p, CfgJsonParser.new (addressConfig "65535" "1") = .ok p ∧
      ownAddrs p = [("Master", 65535), ("Outstation", 0), ("Master", 1), ("Outstation", 0)] ∧
      handedOut (addressTrees "65535" "1") p = [0, 0] ∧
      ¬ AddressesUnique (addressTrees "65535" "1") p := by
  have hown : (CfgJsonParser.new (addressConfig "65535" "1")).map
      (fun p => (p.localDnp3Addrs, ownAddrs p)) = .ok ([65535, 1, 0, 0],
        [("Master", 65535), ("Outstation", 0), ("Master", 1), ("Outstation", 0)]) := by
    decide +kernel
  obtain ⟨p, hnew, -, haddrs, hstations⟩ := exists_reading hown
  have hhanded : handedOut (addressTrees "65535" "1") p = [0, 0] := by
    rw [handedOut, haddrs]
    decide
  refine ⟨by decide, p, hnew, hstations, hhanded, fun h => ?_⟩
  have honce := h.once
  rw [hhanded] at honce
  exact absurd honce (by decide)

end IcsTrafficGen.Dnp3
