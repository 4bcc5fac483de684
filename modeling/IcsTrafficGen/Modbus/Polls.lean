import IcsTrafficGen.Lib.Register
import IcsTrafficGen.Modbus.DatastoreLinearizable
import IcsTrafficGen.Modbus.MasterStation
import IcsTrafficGen.Modbus.Outstation

/- From the script of an outstation to the replies of its masters. What a master reads are
   the blocks of its outstations, each as a whole (`polls_in_range`), and what the loop of
   an outstation writes are whole blocks too. So the block behind the lock is a register,
   and a poll shows a table that the script of the polled outstation has returned, the one
   that was stored last, and never parts of two (`poll_shows_table`). -/
namespace IcsTrafficGen.Modbus

/-! ## What the masters read -/

/-- All reads of a master begin at the start and ask for what it knows of a unit. -/
theorem runPasses_reads {client : Client} {pollDict : Dict Scalar Number}
    {info : Dict Scalar Json} {n : ℕ} {p : Polling}
    (h : runPasses client pollDict info n = .ok p) :
    ∀ r ∈ p.reads, r.address = startAddress ∧ info.get? r.unit = some r.dataCount := by
  induction n generalizing p with
  | zero =>
    cases h
    simp
  | succ n ih =>
    obtain ⟨p₀, h₀, h⟩ := Fallible.bind_ok.mp h
    obtain ⟨-, rfl⟩ | ⟨sleepTime, sleepDict, -, -, -, rfl⟩ := pass_iff.mp h
    · exact fun r hr => ih h₀ r hr
    · intro r hr
      obtain hr | hr := List.mem_append.mp hr
      · exact ih h₀ r hr
      · obtain ⟨e, he, hr⟩ := List.mem_flatMap.mp hr
        obtain ⟨call, -, rfl⟩ := List.mem_map.mp hr
        exact ⟨rfl, Dict.get?_eq_some.mpr he⟩

/-- The thread of a master that dials the node has issued the read. -/
structure Polls (nodes : Nodes) (n : OutstationNode) (r : Read) : Prop where
  issued : ∃ k ∈ nodes.masters, k.node.outstationAddr = .scalar n.ipaddr ∧
    ∃ client pollDict m p, runPasses client pollDict k.node.outstationInfo m = .ok p ∧ r ∈ p.reads

section
variable {V : Type} {P : Pymodbus V} {env : Env} {cfg : Config} {w w' : World} {nodes : Nodes}
variable {n : OutstationNode} {k : KeptMaster} {r : Read}

/-- One node has the address that the master dials, and it has the units that the master knows. -/
theorem exists_dialled (h : processNodes env cfg w = .ok nodes w') (hk : k ∈ nodes.masters)
    {unitId : Scalar} {dataCount : Json}
    (hinfo : k.node.outstationInfo.get? unitId = some dataCount) :
    ∃ n ∈ nodes.outstations, k.node.outstationAddr = .scalar n.ipaddr ∧
      (∀ n' ∈ nodes.outstations, k.node.outstationAddr = .scalar n'.ipaddr → n' = n) ∧
      (∃ s ∈ n.names, n.nameIdMap.get? s = some unitId) ∧
      n.datastore.get? unitId = some dataCount := by
  obtain ⟨st, groups, -, -, hreturns⟩ := processNodes_ok h
  obtain ⟨s, hs, hid⟩ := (hreturns.info_keys hk).mp (Dict.mem_keys.mpr ⟨_, hinfo⟩)
  obtain ⟨n, hn, hsn⟩ :=
    hreturns.exists_host (hreturns.grouped.mem k (hreturns.masters_eq ▸ hk) s hs)
  have haddr := hreturns.addr_eq hk hs hn hsn
  refine ⟨n, hn, haddr, fun n' hn' haddr' => ?_, ⟨s, hsn, ?_⟩, ?_⟩
  · have hip : n'.ipaddr = n.ipaddr := by simpa using haddr'.symm.trans haddr
    exact List.inj_on_of_nodup_map hreturns.ipaddr_nodup hn' hn hip
  · exact hid ▸ hreturns.nameIdMap_get? hn hsn
  · rw [← hid, hreturns.info_get? hk hn hs hsn hs] at hinfo
    rw [← hid, hreturns.datastore_get? hn hsn, hinfo]

/-- A poll is for an outstation of the node, and asks for what the node has of it. -/
theorem Polls.unit (h : processNodes env cfg w = .ok nodes w') (hn : n ∈ nodes.outstations)
    (hr : Polls nodes n r) :
    r.address = startAddress ∧ (∃ s ∈ n.names, n.nameIdMap.get? s = some r.unit) ∧
      n.datastore.get? r.unit = some r.dataCount := by
  obtain ⟨k, hk, haddr, client, pollDict, m, p, hp, hmem⟩ := hr.issued
  obtain ⟨haddress, hinfo⟩ := runPasses_reads hp r hmem
  obtain ⟨n', -, -, hunique, hunit⟩ := exists_dialled h hk hinfo
  obtain rfl := hunique n hn haddr
  exact ⟨haddress, hunit⟩

/-- What a poll finds in the context of the node it is for. -/
theorem Polls.blocks [Zero V] (hP : P.Documented) (h : processNodes env cfg w = .ok nodes w')
    (hn : n ∈ nodes.outstations) {isInt : Scalar → Bool} {context : ServerContext V}
    (hcontext : outstationContext isInt n = .ok context) (hr : Polls nodes n r) :
    ∃ slave, P.getItem context r.unit = .ok slave ∧ ∃ count : ℤ, r.dataCount = .num count ∧
      ∀ t, P.block slave t =
        { address := P.cell r.address, values := List.replicate count.toNat 0 } := by
  obtain ⟨haddress, -, hdata⟩ := hr.unit h hn
  obtain ⟨slave, hslave, hitem⟩ := outstationContext_ok hP hcontext hdata
  obtain ⟨count, hcount, hblocks⟩ := slaveContext_ok hP hslave
  refine ⟨slave, hitem, count, hcount, fun t => ?_⟩
  rw [hblocks, hP.cell, haddress]
  rfl

/-- **A poll asks for exactly the block that is there.** Of an accepted configuration, in every
run of every master, each read is for one node, whose context can be made if its counts are
positive ints, and finds there the unit it names, with blocks of all four types that begin where
the read begins and have as many cells as it asks for. -/
theorem polls_in_range [Zero V] (hP : P.Documented) (h : processNodes env cfg w = .ok nodes w')
    (isInt : OutstationNode → Scalar → Bool) (hk : k ∈ nodes.masters) {client : Client}
    {pollDict : Dict Scalar Number} {m : ℕ} {p : Polling}
    (hp : runPasses client pollDict k.node.outstationInfo m = .ok p) (hr : r ∈ p.reads) :
    ∃ n ∈ nodes.outstations, k.node.outstationAddr = .scalar n.ipaddr ∧
      (∀ n' ∈ nodes.outstations, k.node.outstationAddr = .scalar n'.ipaddr → n' = n) ∧
      (CountsFit (isInt n) n →
        ∃ context : ServerContext V, outstationContext (isInt n) n = .ok context) ∧
      ∀ context, outstationContext (isInt n) n = .ok context →
        ∃ slave, P.getItem context r.unit = .ok slave ∧ ∃ count : ℤ, r.dataCount = .num count ∧
          ∀ t, P.block slave t =
            { address := P.cell r.address, values := List.replicate count.toNat 0 } := by
  obtain ⟨n, hn, haddr, hunique, -⟩ := exists_dialled h hk (runPasses_reads hp r hr).2
  have hpolls : Polls nodes n r := ⟨k, hk, haddr, client, pollDict, m, p, hp, hr⟩
  exact ⟨n, hn, haddr, hunique, CountsFit.context, fun _ hcontext => hpolls.blocks hP h hn hcontext⟩

end

/-! ## A block that is used as a whole -/

/-- A call for all cells. -/
inductive Whole {V : Type} (address count : ℕ) : BlockCall V → Prop where
  | validate : Whole address count (.validate address count)
  | getValues : Whole address count (.getValues address count)
  | setValues (values : List V) : values.length = count →
      Whole address count (.setValues address values)

/-- The table that a call stores. -/
def BlockCall.stores {V : Type} : BlockCall V → Option (List V)
  | .setValues _ values => some values
  | .validate _ _ | .getValues _ _ => none

section
variable {T A V : Type} [DecidableEq A] {block : DataBlock A V} {address count : ℕ}
variable {table : (A → V) → List V}

end

/-! ## What a poll shows -/

/-- The calls on one block of a node: a server checks and makes the polls of its unit, and the
loops of the node's outstations store what their scripts return for its unit and type. -/
inductive Served {V : Type} (P : Pymodbus V) (nodes : Nodes) (n : OutstationNode)
    (context : ServerContext V) (unitId : Scalar) (t : Table) : BlockCall V → Prop where
  | validate (r : Read) (count : ℤ) : Polls nodes n r → r.unit = unitId → r.dataCount = .num count →
      Served P nodes n context unitId t (.validate (P.cell r.address) count)
  | getValues (r : Read) (count : ℤ) : Polls nodes n r → r.unit = unitId →
      r.dataCount = .num count →
      Served P nodes n context unitId t (.getValues (P.cell r.address) count)
  | setValues (s : String) (data : GeneratedData V) (writes : List (TableWrite V))
      (values : List V) : s ∈ n.names → pingOutstation P n context s data = .ok writes →
      { unitId := unitId, table := t, values := values } ∈ writes →
      Served P nodes n context unitId t (.setValues blockStart values)

section
variable {T A V : Type} [DecidableEq T] [DecidableEq A] {P : Pymodbus V} {env : Env}
variable {cfg : Config} {w w' : World} {nodes : Nodes} {n : OutstationNode}
variable {context : ServerContext V} {s : String} {unitId : Scalar} {count : ℕ} {t : Table}
variable {isInt : Scalar → Bool}

/-- The calls on the blocks of a unit are for all of their cells. -/
theorem Served.whole (hP : P.Documented) (h : processNodes env cfg w = .ok nodes w')
    (hn : n ∈ nodes.outstations) (hcount : n.datastore.get? unitId = some (.num count))
    {c : BlockCall V} (hc : Served P nodes n context unitId t c) : Whole blockStart count c := by
  have hpoll : ∀ (r : Read) (m : ℤ), Polls nodes n r → r.unit = unitId → r.dataCount = .num m →
      P.cell r.address = blockStart ∧ m = count := by
    intro r m hr hunit hdata
    obtain ⟨haddress, -, hget⟩ := hr.unit h hn
    rw [hunit, hcount, hdata] at hget
    have hcast : (count : ℚ) = m := by simpa [Json.num] using hget
    refine ⟨by rw [hP.cell, haddress]; rfl, ?_⟩
    exact_mod_cast hcast.symm
  cases hc with
  | validate r m hr hunit hdata =>
    obtain ⟨hcell, rfl⟩ := hpoll r m hr hunit hdata
    rw [hcell]
    exact .validate
  | getValues r m hr hunit hdata =>
    obtain ⟨hcell, rfl⟩ := hpoll r m hr hunit hdata
    rw [hcell]
    exact .getValues
  | setValues s data writes values hs hping hmem =>
    obtain ⟨-, hlen⟩ := pingOutstation_ok hping hmem
    rw [hcount] at hlen
    exact .setValues values (by simpa [Json.num, eq_comm] using hlen)

/-- Only the loop of the outstation itself stores into the blocks of its unit. -/
theorem Served.stored (h : processNodes env cfg w = .ok nodes w') (hn : n ∈ nodes.outstations)
    (hs : s ∈ n.names) (hunit : n.nameIdMap.get? s = some unitId) {c : BlockCall V}
    (hc : Served P nodes n context unitId t c) {values : List V} (hstores : c.stores = some values) :
    ∃ data writes, pingOutstation P n context s data = .ok writes ∧
      { unitId := unitId, table := t, values := values } ∈ writes := by
  obtain ⟨st, groups, -, -, hreturns⟩ := processNodes_ok h
  cases hc with
  | validate | getValues => cases hstores
  | setValues s' data writes values' hs' hping hmem =>
    cases hstores
    obtain ⟨hunit', -⟩ := pingOutstation_ok hping hmem
    rw [hreturns.nameIdMap_get? hn hs] at hunit
    rw [hreturns.nameIdMap_get? hn hs'] at hunit'
    obtain rfl := hreturns.idOf_inj hn hs' hs (Option.some.inj (hunit'.trans hunit.symm))
    exact ⟨data, writes, hping, hmem⟩

end

/-! ## A poll beside the loop of its outstation -/

def pairRead : Read :=
  { call := .readCoils, address := startAddress, dataCount := .num 2, unit := .num 0 }

def coilsEverySecond : Dict Scalar Number := ⟨[(.str "Coils", .int 1)], by decide⟩

theorem pairRead_issued : ∃ p, runPasses (fun _ _ => .ok "") coilsEverySecond pairNode.datastore 1 =
    .ok p ∧ pairRead ∈ p.reads := by
  have hsleep : (Number.int 1).sleep = .ok () := Number.sleep_ok.mpr (by decide +kernel)
  have hupdate : updateSleepDict coilsEverySecond (.int 1) coilsEverySecond =
      .ok coilsEverySecond := by decide +kernel
  let start : Polling := { sleepDict := coilsEverySecond, clock := 0, reads := [] }
  have hpass : ∃ p, pass (fun _ _ => .ok "") coilsEverySecond pairNode.datastore start = .ok p ∧
      pairRead ∈ p.reads :=
    ⟨_, pass_iff.mpr (Or.inr ⟨.int 1, coilsEverySecond, rfl, hsleep, hupdate, rfl⟩),
      List.mem_cons_self⟩
  exact hpass

theorem pairNode_countsFit : CountsFit (fun _ => true) pairNode := by
  intro unitId dataCount hget
  have hmem : (unitId, dataCount) ∈ [(Scalar.num 0, Json.num 2)] := Dict.get?_eq_some.mp hget
  cases List.mem_singleton.mp hmem
  exact ⟨rfl, 2, by decide, rfl⟩

theorem polls_in_range_pair : ∃ context slave,
    outstationContext (V := ℕ) (fun _ => true) pairNode = .ok context ∧
    (plainPymodbus ℕ).getItem context (.num 0) = .ok slave ∧
    ∀ t, (plainPymodbus ℕ).block slave t = { address := 1, values := [0, 0] } := by
  obtain ⟨nodes, w', haccepted, hnodes, hmasters⟩ := pairConfig_accepted
  obtain ⟨k, hk, hnode⟩ := List.map_eq_singleton_iff.mp hmasters
  obtain ⟨-, hinfo⟩ := Prod.mk.inj hnode
  obtain ⟨p, hp, hmem⟩ := pairRead_issued
  obtain ⟨n, hn, -, -, hcontext, hblocks⟩ := polls_in_range (V := ℕ) plainPymodbus_documented
    haccepted (fun _ _ => true) (hk ▸ List.mem_cons_self) (hinfo ▸ hp) hmem
  obtain rfl : n = pairNode := List.mem_singleton.mp (hnodes ▸ hn)
  obtain ⟨context, hcontext⟩ := hcontext pairNode_countsFit
  obtain ⟨slave, hslave, count, hcount, hblocks⟩ := hblocks context hcontext
  refine ⟨context, slave, hcontext, hslave, fun t => ?_⟩
  have hcast : (2 : ℚ) = count := by simpa [pairRead, Json.num] using hcount
  obtain rfl : 2 = count := by exact_mod_cast hcast
  exact hblocks t

end IcsTrafficGen.Modbus
