import IcsTrafficGen.Modbus.ParserSpec

/- One pass of the loop over the masters, taken apart into what the entry says by itself
   (`Reads`) and what the passes before it left: the address that is drawn, the interface
   brought up for it, and the address of the outstations (`Assigns`). `processMaster_iff`
   says when a pass returns, and with what. -/
namespace IcsTrafficGen.Modbus

/-! ## Addresses -/

theorem getAddr_ok {w w' : World} {addr : String} :
    getAddr w = .ok addr w' ↔
      ∃ addrs, w.cidr = some (addr :: addrs) ∧ w' = { w with cidr := some addrs } := by
  unfold getAddr
  split
  · next h => simp [h]
  · next h => simp [h]
  · next h => simp [h, eq_comm]

theorem getItem_iff {key : String} {j v : Json} :
    j.getItem key = .ok v ↔ ∃ fields, j.asDict = .ok fields ∧ fields.get? key = some v := by
  cases j with
  | obj fields =>
    simp only [Json.getItem, Json.asDict, Except.ok.injEq, exists_eq_left']
    cases (Dict.ofList fields).get? key <;> simp
  | _ => simp [Json.getItem, Json.asDict]

theorem masterNameAddr_iff {j name ip : Json} {w w' : World} :
    masterNameAddr j w = .ok (name, ip) w' ↔
      ∃ entry host hosts, j.asDict = .ok entry ∧ entry.get? "Name" = some name ∧
        w.cidr = some (host :: hosts) ∧ ip = (entry.get? "IP Address").getD (.str host) ∧
        w' = { w with cidr := some hosts } := by
  constructor
  · intro h
    obtain ⟨name', hname, h⟩ := PyM.lift_bind_ok.mp h
    obtain ⟨entry, hentry, h⟩ := PyM.lift_bind_ok.mp h
    obtain ⟨host, w₁, hhost, h⟩ := PyM.bind_ok.mp h
    obtain ⟨hosts, hcidr, rfl⟩ := getAddr_ok.mp hhost
    obtain ⟨heq, rfl⟩ := PyM.pure_ok.mp h
    obtain ⟨rfl, rfl⟩ := Prod.mk.inj heq
    obtain ⟨entry', hentry', hname⟩ := getItem_iff.mp hname
    cases hentry.symm.trans hentry'
    exact ⟨entry, host, hosts, hentry, hname, hcidr, rfl, rfl⟩
  · intro h
    obtain ⟨entry, host, hosts, hentry, hname, hcidr, rfl, rfl⟩ := h
    have hitem := getItem_iff.mpr ⟨entry, hentry, hname⟩
    refine PyM.lift_bind_ok.mpr ⟨name, hitem, ?_⟩
    refine PyM.lift_bind_ok.mpr ⟨entry, hentry, ?_⟩
    exact PyM.bind_ok.mpr ⟨host, _, getAddr_ok.mpr ⟨hosts, hcidr, rfl⟩, rfl⟩

/-- Where the statements raise, nothing has been drawn. -/
theorem masterNameAddr_keeps {j : Json} {w w' : World} {e : Exc}
    (h : masterNameAddr j w = .error e w') : w' = w := by
  obtain ⟨-, hw⟩ | ⟨name, -, h⟩ := PyM.lift_bind_error.mp h
  · exact hw.symm
  obtain ⟨-, hw⟩ | ⟨entry, -, h⟩ := PyM.lift_bind_error.mp h
  · exact hw.symm
  obtain h | ⟨host, w₁, -, h⟩ := PyM.bind_error.mp h
  · unfold getAddr at h
    split at h <;> cases h <;> rfl
  · exact absurd h PyM.pure_error

/-- Whichever member is popped, it has the address that all of them have. -/
theorem poppedAddr_ok {env : Env} {st : ParserState} {assignedOts assigned : List String}
    {addr : String} (h : assignedOts.mapM (cidrAddrOf st.outstationCidrAddrs) = .ok assigned)
    (hdedup : assigned.dedup = [addr]) : poppedAddr env st assignedOts = .ok addr := by
  have hne : assignedOts ≠ [] := by
    intro hnil
    rw [hnil, List.mapM_nil, Fallible.pure_ok] at h
    rw [← h] at hdedup
    cases hdedup
  obtain ⟨s, hs, hpop⟩ := env.pop_mem _ hne
  obtain ⟨a, ha, hget⟩ := Fallible.mapM_mem h hs
  rw [← List.mem_dedup, hdedup, List.mem_singleton] at ha
  rw [poppedAddr, hpop]
  exact ha ▸ hget

/-- The address that the outstations of the list already have, if some have one, or a new one. -/
theorem sharedAddr_iff {env : Env} {st : ParserState} {names : List String} {w w' : World}
    {addr : String} :
    sharedAddr env st names w = .ok addr w' ↔
      ∃ assigned, (st.outstationSet.filter (· ∈ names)).mapM (cidrAddrOf st.outstationCidrAddrs) =
        .ok assigned ∧
        (assigned.dedup = [addr] ∧ w' = w ∨ assigned = [] ∧ getAddr w = .ok addr w') := by
  constructor
  · intro h
    obtain ⟨assigned, hassigned, h⟩ := PyM.lift_bind_ok.mp h
    refine ⟨assigned, hassigned, ?_⟩
    match hd : assigned.dedup with
    | [] =>
      simp only [hd] at h
      exact Or.inr ⟨(List.dedup_eq_nil _).mp hd, h⟩
    | [b] =>
      simp only [hd, PyM.lift_ok, poppedAddr_ok hassigned hd, Except.ok.injEq] at h
      obtain ⟨rfl, rfl⟩ := h
      exact Or.inl ⟨rfl, rfl⟩
    | _ :: _ :: _ =>
      simp only [hd] at h
      exact absurd h PyM.raise_ok
  · intro h
    obtain ⟨assigned, hassigned, h⟩ := h
    refine PyM.lift_bind_ok.mpr ⟨assigned, hassigned, ?_⟩
    obtain ⟨hdedup, rfl⟩ | ⟨rfl, haddr⟩ := h
    · rw [hdedup]
      exact PyM.lift_ok.mpr ⟨poppedAddr_ok hassigned hdedup, rfl⟩
    · exact haddr

/-- The outstations of the list that already have a generated address have this one. -/
theorem sharedAddr_ok {env : Env} {st : ParserState} {names : List String} {w w' : World}
    {addr : String} (h : sharedAddr env st names w = .ok addr w') :
    ∀ name ∈ st.outstationSet, name ∈ names → st.outstationCidrAddrs.get? name = some addr := by
  obtain ⟨assigned, hassigned, h⟩ := sharedAddr_iff.mp h
  intro name hset hname
  have hmem : name ∈ st.outstationSet.filter (· ∈ names) :=
    List.mem_filter.mpr ⟨hset, by simpa using hname⟩
  obtain ⟨a, ha, hget⟩ := Fallible.mapM_mem hassigned hmem
  obtain ⟨hdedup, -⟩ | ⟨rfl, -⟩ := h
  · rw [← List.mem_dedup, hdedup, List.mem_singleton] at ha
    exact cidrAddrOf_ok.mp (ha ▸ hget)
  · cases ha

/-- What the address of a master's outstations is: the one that all of them have
configured, or a generated one that those seen before already have. -/
inductive SharesAddr (cfg : Config) (st : ParserState) (names : List String) (addr : Json)
    (cidrAddrs : Dict String String) : Prop
  | configured (htruthy : ∃ name ∈ names, (ipOf cfg name).truthy = true)
      (heqv : ∀ name ∈ names, (ipOf cfg name).eqv addr = true)
      (hsame : cidrAddrs = st.outstationCidrAddrs)
  | generated (a : String) (hfalsy : ∀ name ∈ names, (ipOf cfg name).truthy = false)
      (haddr : addr = .str a)
      (hold : ∀ name ∈ st.outstationSet, name ∈ names → st.outstationCidrAddrs.get? name = some a)
      (hnew : cidrAddrs = st.outstationCidrAddrs.update (names.map (fun name => (name, a))))

/-- The address of a master's outstations, the generated addresses with it, and the world
behind it. -/
inductive Assigns (env : Env) (cfg : Config) (st : ParserState) (outstations : Json)
    (names : List String) (w : World) : Json → Dict String String → World → Prop
  | configured (ip : Json) (htruthy : ∃ s ∈ names, (ipOf cfg s).truthy = true)
      (hip : configuredAddr cfg outstations (names.map (ipOf cfg)) = .ok ip) :
      Assigns env cfg st outstations names w ip st.outstationCidrAddrs w
  | generated (a : String) (w' : World) (hfalsy : ∀ s ∈ names, (ipOf cfg s).truthy = false)
      (haddr : sharedAddr env st names w = .ok a w') :
      Assigns env cfg st outstations names w (.str a)
        (st.outstationCidrAddrs.update (names.map fun s => (s, a))) w'

section
variable {env : Env} {cfg : Config} {st st' : ParserState} {names : List String} {w w' : World}
variable {outstations addr : Json} {cidrAddrs : Dict String String}

theorem outstationAddr_iff :
    outstationAddr env cfg st outstations names w = .ok (addr, cidrAddrs) w' ↔
      (∀ s ∈ names, IsObject cfg s) ∧
        Assigns env cfg st outstations names w addr cidrAddrs w' := by
  have hany : (names.map (ipOf cfg)).any Json.truthy = true ↔
      ∃ s ∈ names, (ipOf cfg s).truthy = true := by simp
  constructor
  · intro h
    obtain ⟨ips, hips, h⟩ := PyM.lift_bind_ok.mp h
    obtain ⟨hobj, rfl⟩ := mapM_outstationGet_iff.mp hips
    refine ⟨hobj, ?_⟩
    split at h
    · next htruthy =>
      obtain ⟨ip, hip, h⟩ := PyM.lift_bind_ok.mp h
      obtain ⟨heq, rfl⟩ := PyM.pure_ok.mp h
      obtain ⟨rfl, rfl⟩ := Prod.mk.inj heq
      exact .configured _ (hany.mp htruthy) hip
    · next hfalsy =>
      obtain ⟨a, w₂, ha, h⟩ := PyM.bind_ok.mp h
      obtain ⟨heq, rfl⟩ := PyM.pure_ok.mp h
      obtain ⟨rfl, rfl⟩ := Prod.mk.inj heq
      exact .generated a _ (by simpa [ipOf] using hfalsy) ha
  · intro h
    obtain ⟨hobj, h⟩ := h
    have hips : names.mapM (outstationGet cfg "IP Address" .null) = .ok (names.map (ipOf cfg)) :=
      mapM_outstationGet_iff.mpr ⟨hobj, rfl⟩
    refine PyM.lift_bind_ok.mpr ⟨names.map (ipOf cfg), hips, ?_⟩
    cases h with
    | configured ip htruthy hip =>
      rw [if_pos (hany.mpr htruthy)]
      exact PyM.lift_bind_ok.mpr ⟨_, hip, rfl⟩
    | generated a _ hfalsy haddr =>
      rw [if_neg (mt hany.mp (by simpa using hfalsy))]
      exact PyM.bind_ok.mpr ⟨a, w', haddr, rfl⟩

theorem configuredAddr_ok {ips : List Json} {ip : Json}
    (h : configuredAddr cfg outstations ips = .ok ip) : ∀ x ∈ ips, x.eqv ip = true := by
  obtain ⟨first, -, h⟩ := Fallible.bind_ok.mp h
  obtain ⟨name, -, h⟩ := Fallible.bind_ok.mp h
  obtain ⟨ip', -, h⟩ := Fallible.bind_ok.mp h
  split at h
  · next hall =>
    rw [Fallible.pure_ok.mp h] at hall
    exact List.all_eq_true.mp hall
  · cases h

theorem Assigns.sharesAddr (h : Assigns env cfg st outstations names w addr cidrAddrs w') :
    SharesAddr cfg st names addr cidrAddrs := by
  cases h with
  | configured ip htruthy hip =>
    exact .configured htruthy (fun s hs => configuredAddr_ok hip _ (List.mem_map_of_mem hs)) rfl
  | generated a _ hfalsy haddr => exact .generated a hfalsy rfl (sharedAddr_ok haddr) rfl

/-! ## The interface -/

theorem masterVnic_cidr {entry : Dict String Json} {ip : Json} {vnic : Option String}
    (h : masterVnic env cfg entry ip w = .ok vnic w') : w'.cidr = w.cidr := by
  unfold masterVnic at h
  split at h
  · rw [(PyM.pure_ok.mp h).2]
  · obtain ⟨_, _, -, -, -, -, rfl⟩ := allocate_iff.mp h
    rfl

/-- An address is brought up where the entry has none. -/
theorem masterVnic_isSome {entry : Dict String Json} {ip : Json} {vnic : Option String}
    (h : masterVnic env cfg entry ip w = .ok vnic w') :
    vnic.isSome = !((entry.get? "IP Address").getD .null).truthy := by
  unfold masterVnic at h
  split at h
  · next htruthy => rw [← (PyM.pure_ok.mp h).1, htruthy]; rfl
  · next hfalsy =>
    obtain ⟨_, _, -, -, -, rfl, -⟩ := allocate_iff.mp h
    simp [hfalsy]

theorem exists_masterVnic {starts : String → String → Prop} (hstarts : env.Brings starts)
    {entry : Dict String Json} {ip : Json} :
    (∃ vnic w', masterVnic env cfg entry ip w = .ok vnic w') ↔
      ((entry.get? "IP Address").getD .null).truthy = true ∨ Allocates cfg starts ip := by
  unfold masterVnic
  split
  · next htruthy => exact ⟨fun _ => Or.inl htruthy, fun _ => ⟨none, w, rfl⟩⟩
  · next hfalsy => exact (exists_allocate hstarts).trans (or_iff_right hfalsy).symm

/-! ## The pass -/

end

/-- What an entry says, and what is read of the configuration for it. -/
structure MasterEntry where
  entry : Dict String Json
  name : Json
  names : List String
  pollDict : Json ⊕ Dict Scalar Json
  info : Dict Scalar Json
  port : Scalar

/-- Its "Outstations". -/
def MasterEntry.outstations (m : MasterEntry) : Json := (m.entry.get? "Outstations").getD (.arr [])

/-- Its "IP Address", for which an address has been drawn. -/
def MasterEntry.ipaddr (m : MasterEntry) (host : String) : Json :=
  (m.entry.get? "IP Address").getD (.str host)

/-- The entry `j` is read as `m`, whatever has been assigned before. -/
structure Reads (cfg : Config) (j : Json) (m : MasterEntry) : Prop where
  entry : j.asDict = .ok m.entry
  names : ∃ items, m.outstations.iter = .ok items ∧ definedNames cfg items = .ok m.names
  poll : readPollInterval m.entry = .ok m.pollDict
  info : getOutstationDatastore cfg m.names = .ok m.info
  port : getOutstationPort cfg m.names = .ok m.port

/-- An entry is read in one way. -/
theorem Reads.unique {cfg : Config} {j : Json} {m m' : MasterEntry} (h : Reads cfg j m)
    (h' : Reads cfg j m') (hname : m.name = m'.name) : m = m' := by
  obtain ⟨entry, name, names, poll, info, port⟩ := m
  obtain ⟨entry', name', names', poll', info', port'⟩ := m'
  obtain ⟨hentry, ⟨items, hitems, hnames⟩, hpoll, hinfo, hport⟩ := h
  obtain ⟨hentry', ⟨items', hitems', hnames'⟩, hpoll', hinfo', hport'⟩ := h'
  dsimp only at *
  cases hentry.symm.trans hentry'
  cases hitems.symm.trans hitems'
  cases hnames.symm.trans hnames'
  cases hpoll.symm.trans hpoll'
  cases hinfo.symm.trans hinfo'
  cases hport.symm.trans hport'
  rw [hname]

/-- The node of the entry. -/
def MasterEntry.keep (m : MasterEntry) (ip : Json) (vnic : Option String) (addr : Json) :
    KeptMaster :=
  { entry := m.entry, outstations := m.names
    node := { name := m.name, ipaddr := ip, vnic := vnic, outstationAddr := addr
              pollDict := m.pollDict, simulate := (m.entry.get? "Simulate").getD (.num 1)
              outstationInfo := m.info, port := m.port } }

/-- The state with one master more. -/
def ParserState.add (st : ParserState) (k : KeptMaster) (cidrAddrs : Dict String String) :
    ParserState :=
  { masterNodes := st.masterNodes ++ [k], outstationCidrAddrs := cidrAddrs
    outstationSet := setUpdate st.outstationSet k.outstations }

section
variable {env : Env} {cfg : Config} {st st' : ParserState} {j : Json} {w w' : World}

theorem addMaster_iff {name ip : Json} :
    addMaster env cfg st j name ip w = .ok st' w' ↔
      ∃ m vnic w₁ addr cidrAddrs, Reads cfg j m ∧ m.name = name ∧
        masterVnic env cfg m.entry ip w = .ok vnic w₁ ∧
        Assigns env cfg st m.outstations m.names w₁ addr cidrAddrs w' ∧
        st' = st.add (m.keep ip vnic addr) cidrAddrs := by
  constructor
  · intro h
    obtain ⟨entry, hentry, h⟩ := PyM.lift_bind_ok.mp h
    obtain ⟨vnic, w₁, hvnic, h⟩ := PyM.bind_ok.mp h
    obtain ⟨items, hitems, h⟩ := PyM.lift_bind_ok.mp h
    obtain ⟨names, hnames, h⟩ := PyM.lift_bind_ok.mp h
    obtain ⟨⟨addr, cidrAddrs⟩, w₂, haddr, h⟩ := PyM.bind_ok.mp h
    obtain ⟨poll, hpoll, h⟩ := PyM.lift_bind_ok.mp h
    obtain ⟨info, hinfo, h⟩ := PyM.lift_bind_ok.mp h
    obtain ⟨port, hport, h⟩ := PyM.lift_bind_ok.mp h
    obtain ⟨rfl, rfl⟩ := PyM.pure_ok.mp h
    exact ⟨⟨entry, name, names, poll, info, port⟩, vnic, w₁, addr, cidrAddrs,
      ⟨hentry, ⟨items, hitems, hnames⟩, hpoll, hinfo, hport⟩, rfl, hvnic,
      (outstationAddr_iff.mp haddr).2, rfl⟩
  · intro h
    obtain ⟨m, vnic, w₁, addr, cidrAddrs, hreads, rfl, hvnic, hassigns, rfl⟩ := h
    obtain ⟨items, hitems, hnames⟩ := hreads.names
    have hobj := (getOutstationDatastore_iff.mp hreads.info).1.object
    refine PyM.lift_bind_ok.mpr ⟨_, hreads.entry, ?_⟩
    refine PyM.bind_ok.mpr ⟨_, w₁, hvnic, ?_⟩
    refine PyM.lift_bind_ok.mpr ⟨_, hitems, ?_⟩
    refine PyM.lift_bind_ok.mpr ⟨_, hnames, ?_⟩
    refine PyM.bind_ok.mpr ⟨_, w', outstationAddr_iff.mpr ⟨hobj, hassigns⟩, ?_⟩
    refine PyM.lift_bind_ok.mpr ⟨_, hreads.poll, ?_⟩
    refine PyM.lift_bind_ok.mpr ⟨_, hreads.info, ?_⟩
    exact PyM.lift_bind_ok.mpr ⟨_, hreads.port, rfl⟩

/-- The master of the entry `m` is added: with the address `host` drawn for it, the world
`w₁` behind its interface, and the address of its outstations. -/
structure Keeps (env : Env) (cfg : Config) (st : ParserState) (j : Json) (w : World)
    (m : MasterEntry) (host : String) (hosts : List String) (vnic : Option String) (w₁ : World)
    (addr : Json) (cidrAddrs : Dict String String) (w' : World) : Prop extends Reads cfg j m where
  name : m.entry.get? "Name" = some m.name
  drawn : w.cidr = some (host :: hosts)
  interface : masterVnic env cfg m.entry (m.ipaddr host) { w with cidr := some hosts } = .ok vnic w₁
  assigns : Assigns env cfg st m.outstations m.names w₁ addr cidrAddrs w'

theorem processMaster_iff :
    processMaster env cfg st j w = .ok st' w' ↔
      (∃ e, masterNameAddr j w = .error e w) ∧ st' = st ∧ w' = w ∨
      ∃ m host hosts vnic w₁ addr cidrAddrs,
        Keeps env cfg st j w m host hosts vnic w₁ addr cidrAddrs w' ∧
          st' = st.add (m.keep (m.ipaddr host) vnic addr) cidrAddrs := by
  constructor
  · intro h
    obtain ⟨o, w₁, ho, h⟩ := PyM.bind_ok.mp h
    obtain ⟨⟨name, ip⟩, htry, rfl⟩ | ⟨e, he, rfl⟩ := PyM.attempt_ok.mp ho
    · right
      obtain ⟨m, vnic, w₂, addr, cidrAddrs, hreads, rfl, hvnic, hassigns, rfl⟩ := addMaster_iff.mp h
      obtain ⟨entry, host, hosts, hentry, hname, hcidr, rfl, rfl⟩ := masterNameAddr_iff.mp htry
      cases hentry.symm.trans hreads.entry
      exact ⟨m, host, hosts, vnic, w₂, addr, cidrAddrs, ⟨hreads, hname, hcidr, hvnic, hassigns⟩, rfl⟩
    · left
      obtain ⟨rfl, rfl⟩ := PyM.pure_ok.mp h
      have := masterNameAddr_keeps he
      subst this
      exact ⟨⟨e, he⟩, rfl, rfl⟩
  · intro h
    obtain ⟨⟨e, he⟩, rfl, rfl⟩ | ⟨m, host, hosts, vnic, w₁, addr, cidrAddrs, hk, rfl⟩ := h
    · exact PyM.bind_ok.mpr ⟨none, w', PyM.attempt_ok.mpr (Or.inr ⟨e, he, rfl⟩), rfl⟩
    · have hname := masterNameAddr_iff.mpr
        ⟨m.entry, host, hosts, hk.entry, hk.name, hk.drawn, rfl, rfl⟩
      refine PyM.bind_ok.mpr ⟨_, _, PyM.attempt_ok.mpr (Or.inl ⟨_, hname, rfl⟩), ?_⟩
      exact addMaster_iff.mpr
        ⟨m, vnic, w₁, addr, cidrAddrs, hk.toReads, rfl, hk.interface, hk.assigns, rfl⟩

end

/-- The state after a pass that keeps the entry of the master `k`. -/
structure AddsMaster (cfg : Config) (st st' : ParserState) (k : KeptMaster) : Prop where
  masters : st'.masterNodes = st.masterNodes ++ [k]
  set : st'.outstationSet = setUpdate st.outstationSet k.outstations
  addr : SharesAddr cfg st k.outstations k.node.outstationAddr st'.outstationCidrAddrs
  info : getOutstationDatastore cfg k.outstations = .ok k.node.outstationInfo
  port : getOutstationPort cfg k.outstations = .ok k.node.port

/-- A pass of the loop drops the entry where its name or its address raises. -/
theorem processMaster_ok {env : Env} {cfg : Config} {st st' : ParserState} {j : Json}
    {w w' : World} (h : processMaster env cfg st j w = .ok st' w') :
    (∃ e, masterNameAddr j w = .error e w' ∧ st' = st) ∨
      ∃ name ip w₁ k, masterNameAddr j w = .ok (name, ip) w₁ ∧ AddsMaster cfg st st' k ∧
        j.asDict = .ok k.entry ∧ k.node.name = name ∧ k.node.ipaddr = ip := by
  obtain ⟨⟨e, he⟩, rfl, rfl⟩ | ⟨m, host, hosts, vnic, w₁, addr, cidrAddrs, hk, rfl⟩ :=
    processMaster_iff.mp h
  · exact Or.inl ⟨e, he, rfl⟩
  · have hname := masterNameAddr_iff.mpr
      ⟨m.entry, host, hosts, hk.entry, hk.name, hk.drawn, rfl, rfl⟩
    have hadds : AddsMaster cfg st (st.add (m.keep (m.ipaddr host) vnic addr) cidrAddrs)
        (m.keep (m.ipaddr host) vnic addr) :=
      ⟨rfl, rfl, hk.assigns.sharesAddr, hk.info, hk.port⟩
    exact Or.inr ⟨m.name, m.ipaddr host, _, _, hname, hadds, hk.entry, rfl, rfl⟩

theorem mem_setUpdate {s names : List String} {name : String} :
    name ∈ setUpdate s names ↔ name ∈ s ∨ name ∈ names := by
  induction names generalizing s with
  | nil => simp [setUpdate]
  | cons a names ih =>
    rw [setUpdate, List.foldl_cons]
    apply ih.trans
    split
    · next ha =>
      rw [List.mem_cons]
      constructor
      · exact fun h => h.imp_right Or.inr
      · intro hname
        rcases hname with h | rfl | h
        · exact Or.inl h
        · exact Or.inl ha
        · exact Or.inr h
    · rw [List.mem_append, List.mem_singleton, List.mem_cons, or_assoc]

theorem nodup_setUpdate {s names : List String} (h : s.Nodup) : (setUpdate s names).Nodup := by
  induction names generalizing s with
  | nil => exact h
  | cons a names ih =>
    rw [setUpdate, List.foldl_cons]
    apply ih
    split
    · exact h
    · next ha =>
      rw [← List.concat_eq_append]
      exact h.concat ha

end IcsTrafficGen.Modbus
