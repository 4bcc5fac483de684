import IcsTrafficGen.Modbus.GeneratedAddrs

/- When the loop over the masters returns, if the generator has enough addresses. An entry
   passes if it reads well by itself (`Admits`), and if its outstations, where they have no
   address in the file, are of one group so far. The first does not depend on the other
   entries, the second only through the lists before it; so the loop returns exactly if
   every entry with a name is admitted and the lists are mergeable in their order
   (`loop_iff`). -/
namespace IcsTrafficGen.Modbus

/-- The lists of the entries with a name. -/
def namedLists (js : List Json) : List (List String) :=
  js.filterMap fun j => if hasKey "Name" j then j.asDict.toOption.map listedNames else none

/-- Those whose outstations have no address in the file. -/
def entryLists (cfg : Config) (js : List Json) : List (List String) :=
  (namedLists js).filter (Unaddressed cfg)

theorem entryLists_cons {cfg : Config} {j : Json} {js : List Json} :
    entryLists cfg (j :: js) = entryLists cfg [j] ++ entryLists cfg js := by
  rw [entryLists, entryLists, entryLists, ← List.filter_append, namedLists, namedLists, namedLists,
    ← List.filterMap_append, List.singleton_append]

theorem Reads.entryLists {cfg : Config} {j : Json} {m : MasterEntry} (h : Reads cfg j m)
    (hname : hasKey "Name" j = true) :
    entryLists cfg [j] = if Unaddressed cfg m.names then [m.names] else [] := by
  simp only [Modbus.entryLists, namedLists, List.filterMap_cons, hname, if_true, h.entry,
    Except.toOption, Option.map_some, h.listedNames, List.filterMap_nil, List.filter_cons,
    List.filter_nil, decide_eq_true_eq]

theorem entryLists_nameless {cfg : Config} {j : Json} (hname : hasKey "Name" j = false) :
    entryLists cfg [j] = [] := by
  simp [entryLists, namedLists, hname]

/-- The entry is in order by itself, whichever of the addresses `hosts` it draws. -/
structure Admits (cfg : Config) (starts : String → String → Prop) (hosts : List String) (j : Json)
    (m : MasterEntry) : Prop extends Reads cfg j m where
  name : m.entry.get? "Name" = some m.name
  interface : ((m.entry.get? "IP Address").getD .null).truthy = true ∨
    ∀ host ∈ hosts, Allocates cfg starts (m.ipaddr host)
  addr : Unaddressed cfg m.names ∨
    ∃ ip, configuredAddr cfg m.outstations (m.names.map (ipOf cfg)) = .ok ip

/-- Whether `ifconfig` comes back does not depend on which of the addresses it is given. -/
def Uniform (starts : String → String → Prop) (hosts : List String) : Prop :=
  ∀ interface, ∀ a ∈ hosts, ∀ b ∈ hosts, starts interface a → starts interface b

theorem Allocates.other {cfg : Config} {starts : String → String → Prop} {hosts : List String}
    (huniform : Uniform starts hosts) {a b : String} (ha : a ∈ hosts) (hb : b ∈ hosts)
    (h : Allocates cfg starts (.str a)) : Allocates cfg starts (.str b) := by
  obtain ⟨interface, c, hinterface, hc, hstarts⟩ := h
  have hac : a = c := Json.str_inj.mp hc
  exact ⟨interface, b, hinterface, rfl, huniform interface a ha b hb (hac ▸ hstarts)⟩

section
variable {env : Env} {cfg : Config} {starts : String → String → Prop} {st : ParserState} {j : Json}
variable {w : World} {m : MasterEntry} {hosts rest given : List String}

theorem MasterEntry.ipaddr_other (huniform : Uniform starts hosts) {a b : String} (ha : a ∈ hosts)
    (hb : b ∈ hosts) (h : Allocates cfg starts (m.ipaddr a)) :
    Allocates cfg starts (m.ipaddr b) := by
  unfold MasterEntry.ipaddr at *
  cases hip : m.entry.get? "IP Address" with
  | none =>
    rw [hip] at h
    exact h.other huniform ha hb
  | some ip =>
    rw [hip] at h
    exact h

/-! ## A pass -/

theorem Keeps.admits {host : String} {vnic : Option String} {w₁ w' : World} {addr : Json}
    {cidrAddrs : Dict String String} (hstarts : env.Brings starts) (huniform : Uniform starts hosts)
    (hhost : host ∈ hosts) (h : Keeps env cfg st j w m host rest vnic w₁ addr cidrAddrs w') :
    Admits cfg starts hosts j m := by
  refine ⟨h.toReads, h.name, ?_, ?_⟩
  · obtain htruthy | halloc := (exists_masterVnic hstarts).mp ⟨_, _, h.interface⟩
    · exact Or.inl htruthy
    · exact Or.inr fun host' hhost' => m.ipaddr_other huniform hhost hhost' halloc
  · cases h.assigns with
    | configured ip _ hip => exact Or.inr ⟨_, hip⟩
    | generated a _ hfalsy _ => exact Or.inl hfalsy

/-- An outstation without an address in the file that has been listed has been given one. -/
theorem Issued.label_of_seen (hi : Issued cfg st hosts given) (hgrouped : Grouped cfg st)
    {s : String} (hset : s ∈ st.outstationSet) (hfalsy : (ipOf cfg s).truthy = false) :
    ∃ a, st.outstationCidrAddrs.get? s = some a := by
  obtain ⟨k, hk, hs⟩ := hi.covers s hset
  cases hgrouped.addr k hk s hs with
  | configured htruthy _ =>
    rw [hfalsy] at htruthy
    cases htruthy
  | generated a _ haddr _ => exact ⟨a, haddr⟩

/-- The outstations of a list get an address if those seen before have the same. -/
theorem exists_sharedAddr {names : List String} {host : String} (hcidr : w.cidr = some (host :: rest))
    (hlabels : ∀ s ∈ st.outstationSet, s ∈ names → ∃ a, st.outstationCidrAddrs.get? s = some a)
    (hsame : ∀ s ∈ names, ∀ t ∈ names, ∀ a b, st.outstationCidrAddrs.get? s = some a →
      st.outstationCidrAddrs.get? t = some b → a = b) :
    ∃ a w', sharedAddr env st names w = .ok a w' := by
  have hcidrAddr : ∀ s a, cidrAddrOf st.outstationCidrAddrs s = .ok a ↔
      (∃ a, st.outstationCidrAddrs.get? s = some a) ∧
        a = (st.outstationCidrAddrs.get? s).getD "" := by
    intro s a
    rw [cidrAddrOf_ok]
    cases st.outstationCidrAddrs.get? s <;> simp [eq_comm]
  have hseen : ∀ s ∈ st.outstationSet.filter (· ∈ names), s ∈ st.outstationSet ∧ s ∈ names :=
    fun s hs => (List.mem_filter.mp hs).imp_right of_decide_eq_true
  have hassigned := (Fallible.mapM_ok_map hcidrAddr).mpr
    ⟨fun s hs => hlabels s (hseen s hs).1 (hseen s hs).2, rfl⟩
  by_cases hnil : st.outstationSet.filter (· ∈ names) = []
  · exact ⟨host, _, sharedAddr_iff.mpr
      ⟨_, hassigned, Or.inr ⟨by rw [hnil, List.map_nil], getAddr_ok.mpr ⟨rest, hcidr, rfl⟩⟩⟩⟩
  · obtain ⟨s, hs⟩ := List.exists_mem_of_ne_nil _ hnil
    obtain ⟨a, ha⟩ := hlabels s (hseen s hs).1 (hseen s hs).2
    have hall : ∀ b ∈ (st.outstationSet.filter (· ∈ names)).map
        fun s => (st.outstationCidrAddrs.get? s).getD "", b = a := by
      intro b hb
      obtain ⟨t, ht, rfl⟩ := List.mem_map.mp hb
      obtain ⟨b, hb⟩ := hlabels t (hseen t ht).1 (hseen t ht).2
      rw [hb, Option.getD_some, hsame t (hseen t ht).2 s (hseen s hs).2 b a hb ha]
    refine ⟨a, w, sharedAddr_iff.mpr ⟨_, hassigned, Or.inl ⟨?_, rfl⟩⟩⟩
    rw [List.eq_replicate_of_mem hall, List.replicate_dedup]
    rwa [Ne, List.length_eq_zero_iff, List.map_eq_nil_iff]

/-- A pass over an entry that is admitted returns if its outstations are of one group. -/
theorem Admits.exists_pass (h : Admits cfg starts hosts j m) (hstarts : env.Brings starts)
    (hi : Issued cfg st rest given) (hgrouped : Grouped cfg st) {host next : String}
    {left : List String} (hhost : host ∈ hosts) (hcidr : w.cidr = some (host :: next :: left))
    (hone : Unaddressed cfg m.names → OneGroup (groupLists cfg st.masterNodes) m.names) :
    ∃ st' w', processMaster env cfg st j w = .ok st' w' := by
  have hinterface := h.interface.imp_right fun halloc => halloc host hhost
  obtain ⟨vnic, w₁, hvnic⟩ : ∃ vnic w₁, masterVnic env cfg m.entry (m.ipaddr host)
      { w with cidr := some (next :: left) } = .ok vnic w₁ :=
    (exists_masterVnic hstarts).mpr hinterface
  have hcidr₁ : w₁.cidr = some (next :: left) := masterVnic_cidr hvnic
  have hassigns : ∃ addr cidrAddrs w',
      Assigns env cfg st m.outstations m.names w₁ addr cidrAddrs w' := by
    by_cases hnone : Unaddressed cfg m.names
    · have hlabels : ∀ s ∈ st.outstationSet, s ∈ m.names →
          ∃ a, st.outstationCidrAddrs.get? s = some a :=
        fun s hset hs => hi.label_of_seen hgrouped hset (hnone s hs)
      obtain ⟨a, w', haddr⟩ : ∃ a w', sharedAddr env st m.names w₁ = .ok a w' :=
        exists_sharedAddr hcidr₁ hlabels (hi.labelled.oneGroup_iff.mp (hone hnone))
      exact ⟨_, _, w', .generated a w' hnone haddr⟩
    · obtain ⟨ip, hip⟩ := h.addr.resolve_left hnone
      refine ⟨ip, _, w₁, .configured ip ?_ hip⟩
      simpa [Unaddressed] using hnone
  obtain ⟨addr, cidrAddrs, w', hassigns⟩ := hassigns
  exact ⟨_, w', processMaster_iff.mpr (Or.inr ⟨m, host, next :: left, vnic, w₁, addr, cidrAddrs,
    ⟨h.toReads, h.name, hcidr, hvnic, hassigns⟩, rfl⟩)⟩

/-- The outstations of the list are of one group if the pass gave them an address. -/
theorem Issued.oneGroup {names given' rest' : List String} {addr : Json}
    {cidrAddrs : Dict String String} (hi : Issued cfg st hosts given) (hgrouped : Grouped cfg st)
    (hg : GroupAddr cfg st names addr cidrAddrs rest given' rest') (hnone : Unaddressed cfg names) :
    OneGroup (groupLists cfg st.masterNodes) names := by
  rw [hi.labelled.oneGroup_iff]
  intro s hs t ht b c hb hc
  cases hg with
  | configured haddressed _ _ _ => exact absurd hnone haddressed
  | joined a _ _ hold _ _ _ _ =>
    rw [hold s (hgrouped.cidr s b hb) hs] at hb
    rw [hold t (hgrouped.cidr t c hc) ht] at hc
    exact (Option.some_inj.mp hb).symm.trans (Option.some_inj.mp hc)
  | drawn a _ _ hfresh _ _ _ => exact absurd (hgrouped.cidr s b hb) (hfresh s hs)

/-- The generator has `n` addresses left, all of them of `hosts`. -/
def Enough (hosts : List String) (n : ℕ) (w : World) : Prop :=
  ∃ rest, w.cidr = some rest ∧ (∀ a ∈ rest, a ∈ hosts) ∧ n ≤ rest.length

theorem Enough.available {n : ℕ} (h : Enough hosts (n + 1) w) : w.available = true := by
  obtain ⟨rest, hcidr, -, hlen⟩ := h
  cases rest with
  | nil => simp at hlen
  | cons a rest => simp [World.available, hcidr]

/-- While there are addresses, only an entry without a name is dropped. -/
theorem Enough.nameless {n : ℕ} (h : Enough hosts (n + 1) w) :
    (∃ e, masterNameAddr j w = .error e w) ↔ hasKey "Name" j = false := by
  rw [dropped_iff, h.available, Bool.true_eq_false, imp_false, Bool.not_eq_true]

theorem Keeps.named {host : String} {vnic : Option String} {w₁ w' : World} {addr : Json}
    {cidrAddrs : Dict String String} (h : Keeps env cfg st j w m host rest vnic w₁ addr cidrAddrs w') :
    hasKey "Name" j = true := by
  simp only [hasKey, h.entry, decide_eq_true_eq]
  exact Dict.mem_keys.mpr ⟨_, h.name⟩

/-- When a pass returns. -/
theorem processMaster_returns_iff {n : ℕ} (hstarts : env.Brings starts) (huniform : Uniform starts hosts)
    (hi : Issued cfg st rest given) (hgrouped : Grouped cfg st) (henough : Enough hosts (n + 2) w) :
    (∃ st' w', processMaster env cfg st j w = .ok st' w') ↔
      (hasKey "Name" j = true → ∃ m, Admits cfg starts hosts j m) ∧
        Mergeable (groupLists cfg st.masterNodes) (entryLists cfg [j]) := by
  constructor
  · intro h
    obtain ⟨st', w', h⟩ := h
    obtain ⟨herror, -⟩ | ⟨m, host, left, vnic, w₁, addr, cidrAddrs, hk, -⟩ := processMaster_iff.mp h
    · have hname := henough.nameless.mp herror
      rw [entryLists_nameless hname, hname]
      exact ⟨fun htrue => Bool.noConfusion htrue, trivial⟩
    · obtain ⟨_, hcidr, hhosts, -⟩ := henough
      rw [hk.drawn, Option.some_inj] at hcidr
      have hhost : host ∈ hosts := hhosts host (hcidr ▸ List.mem_cons_self)
      refine ⟨fun _ => ⟨m, hk.admits hstarts huniform hhost⟩, ?_⟩
      rw [hk.toReads.entryLists hk.named]
      split
      · next hnone =>
        obtain ⟨given', rest', -, hg, -⟩ := hk.supply
        exact ⟨hi.oneGroup hgrouped hg hnone, trivial⟩
      · trivial
  · intro h
    obtain ⟨hadmits, hmerge⟩ := h
    cases hname : hasKey "Name" j with
    | false =>
      exact ⟨st, w, processMaster_iff.mpr (Or.inl ⟨henough.nameless.mpr hname, rfl, rfl⟩)⟩
    | true =>
      obtain ⟨m, hm⟩ := hadmits hname
      obtain ⟨left, hcidr, hhosts, hlen⟩ := henough
      match left with
      | [] | [_] => simp at hlen
      | host :: next :: left =>
        refine hm.exists_pass hstarts hi hgrouped (hhosts host List.mem_cons_self) hcidr
          fun hnone => ?_
        rw [hm.toReads.entryLists hname, if_pos hnone] at hmerge
        exact hmerge.1

/-- The master is the one of the entry, whatever addresses it drew. -/
inductive KeptOf (cfg : Config) (j : Json) : KeptMaster → Prop
  | intro (m : MasterEntry) (host : String) (vnic : Option String) (addr : Json)
      (hreads : Reads cfg j m) (hname : m.entry.get? "Name" = some m.name)
      (hvnic : vnic.isSome = !((m.entry.get? "IP Address").getD .null).truthy)
      (haddr : Unaddressed cfg m.names ∨
        configuredAddr cfg m.outstations (m.names.map (ipOf cfg)) = .ok addr) :
      KeptOf cfg j (m.keep (m.ipaddr host) vnic addr)

theorem KeptOf.listed {k : KeptMaster} (h : KeptOf cfg j k) :
    j.asDict = .ok k.entry ∧ listedNames k.entry = k.outstations := by
  cases h with
  | intro m host vnic addr hreads _ _ _ => exact ⟨hreads.entry, hreads.listedNames⟩

/-- A pass adds the master of the entry, if it has a name, and draws two addresses at most. -/
theorem processMaster_keeps {n : ℕ} {st' : ParserState} {w' : World} (henough : Enough hosts (n + 2) w)
    (h : processMaster env cfg st j w = .ok st' w') :
    Enough hosts n w' ∧ ∃ ks, st'.masterNodes = st.masterNodes ++ ks ∧
      List.Forall₂ (KeptOf cfg) ([j].filter (hasKey "Name")) ks := by
  obtain ⟨herror, rfl, rfl⟩ | ⟨m, host, left, vnic, w₁, addr, cidrAddrs, hk, rfl⟩ :=
    processMaster_iff.mp h
  · have hname := henough.nameless.mp herror
    obtain ⟨rest, hcidr, hhosts, hlen⟩ := henough
    refine ⟨⟨rest, hcidr, hhosts, by omega⟩, [], by simp, ?_⟩
    rw [List.filter_cons, hname, List.filter_nil]
    exact List.Forall₂.nil
  · obtain ⟨given', rest', hrest, hg, -⟩ := hk.supply
    obtain ⟨_, hcidr, hhosts, hlen⟩ := henough
    rw [hk.drawn, Option.some_inj] at hcidr
    subst hcidr
    have hgiven : given'.length ≤ 1 := by
      cases hg with
      | configured _ _ hgiven _ | joined _ _ _ _ _ _ hgiven _ => simp [hgiven]
      | drawn _ _ _ _ _ hgiven _ => simp [hgiven]
    obtain rfl := hg.left
    have haddr : Unaddressed cfg m.names ∨
        configuredAddr cfg m.outstations (m.names.map (ipOf cfg)) = .ok addr := by
      cases hk.assigns with
      | configured _ _ hip => exact Or.inr hip
      | generated _ _ hfalsy _ => exact Or.inl hfalsy
    refine ⟨⟨rest', hrest, fun a ha => hhosts a ?_, ?_⟩, [_], rfl, ?_⟩
    · exact List.mem_cons_of_mem _ (List.mem_append_right _ ha)
    · rw [List.length_cons, List.length_append] at hlen
      omega
    · rw [List.filter_cons, hk.named, List.filter_nil]
      exact List.Forall₂.cons (.intro m host vnic addr hk.toReads hk.name
        (masterVnic_isSome hk.interface) haddr) List.Forall₂.nil

theorem groupLists_append {ks ks' : List KeptMaster} :
    groupLists cfg (ks ++ ks') = groupLists cfg ks ++ groupLists cfg ks' := by
  rw [groupLists, List.map_append, List.filter_append]
  rfl

/-- The lists of the masters are those of their entries. -/
theorem lists_of_keptOf {js : List Json} {ks : List KeptMaster}
    (h : List.Forall₂ (KeptOf cfg) (js.filter (hasKey "Name")) ks) :
    (ks.map fun k => k.outstations) = namedLists js := by
  induction js generalizing ks with
  | nil =>
    cases h
    rfl
  | cons j js ih =>
    rw [List.filter_cons] at h
    rw [namedLists, List.filterMap_cons, ← namedLists]
    cases hname : hasKey "Name" j with
    | false =>
      rw [hname] at h
      exact ih h
    | true =>
      rw [hname] at h
      cases h with
      | cons hk hks =>
        obtain ⟨hentry, hlisted⟩ := hk.listed
        simp only [List.map_cons, if_true, hentry, Except.toOption, Option.map_some, hlisted, ih hks]

theorem groupLists_of_keptOf {js : List Json} {ks : List KeptMaster}
    (h : List.Forall₂ (KeptOf cfg) (js.filter (hasKey "Name")) ks) :
    groupLists cfg ks = entryLists cfg js := by
  rw [groupLists, lists_of_keptOf h, entryLists]

/-! ## The loop -/

/-- **When the loop over the masters returns.** With enough addresses, it returns exactly if
every entry with a name is in order, and no list of outstations joins two groups that
the lists before it formed. -/
theorem loop_iff {js : List Json} (hstarts : env.Brings starts) (huniform : Uniform starts hosts)
    (hi : Issued cfg st (w.cidr.getD []) given) (hgrouped : Grouped cfg st)
    (henough : Enough hosts (2 * js.length) w) :
    (∃ st' w', js.foldlM (processMaster env cfg) st w = .ok st' w') ↔
      (∀ j ∈ js, hasKey "Name" j = true → ∃ m, Admits cfg starts hosts j m) ∧
        Mergeable (groupLists cfg st.masterNodes) (entryLists cfg js) := by
  induction js generalizing st w given with
  | nil => exact ⟨fun _ => ⟨by simp, trivial⟩, fun _ => ⟨st, w, rfl⟩⟩
  | cons j js ih =>
    have hpass := processMaster_returns_iff (j := j) hstarts huniform hi hgrouped henough
    have hbehind : ∀ st₁ w₁, processMaster env cfg st j w = .ok st₁ w₁ →
        ((∃ st' w', js.foldlM (processMaster env cfg) st₁ w₁ = .ok st' w') ↔
          (∀ j ∈ js, hasKey "Name" j = true → ∃ m, Admits cfg starts hosts j m) ∧
            Mergeable (groupLists cfg st.masterNodes ++ entryLists cfg [j]) (entryLists cfg js)) := by
      intro st₁ w₁ h
      obtain ⟨henough₁, ks, hks, hkept⟩ := processMaster_keeps henough h
      obtain ⟨given₁, hi₁, -, -⟩ := hi.pass hgrouped h
      rw [ih hi₁ (hgrouped.pass h) henough₁, hks, groupLists_append, groupLists_of_keptOf hkept]
    rw [entryLists_cons, mergeable_append, List.forall_mem_cons]
    constructor
    · intro h
      obtain ⟨st', w', h⟩ := h
      obtain ⟨st₁, w₁, h₁, h₂⟩ := PyM.bind_ok.mp h
      obtain ⟨hadmits, hmerge⟩ := hpass.mp ⟨st₁, w₁, h₁⟩
      obtain ⟨hadmits', hmerge'⟩ := (hbehind st₁ w₁ h₁).mp ⟨st', w', h₂⟩
      exact ⟨⟨hadmits, hadmits'⟩, hmerge, hmerge'⟩
    · intro h
      obtain ⟨⟨hadmits, hadmits'⟩, hmerge, hmerge'⟩ := h
      obtain ⟨st₁, w₁, h₁⟩ := hpass.mpr ⟨hadmits, hmerge⟩
      obtain ⟨st', w', h₂⟩ := (hbehind st₁ w₁ h₁).mpr ⟨hadmits', hmerge'⟩
      exact ⟨st', w', PyM.bind_ok.mpr ⟨st₁, w₁, h₁, h₂⟩⟩

/-- The masters it leaves are those of the entries with a name, in their order. -/
theorem loop_keeps {js : List Json} {st' : ParserState} {w' : World}
    (henough : Enough hosts (2 * js.length) w)
    (h : js.foldlM (processMaster env cfg) st w = .ok st' w') :
    ∃ ks, st'.masterNodes = st.masterNodes ++ ks ∧
      List.Forall₂ (KeptOf cfg) (js.filter (hasKey "Name")) ks := by
  induction js generalizing st w with
  | nil =>
    obtain ⟨rfl, -⟩ := PyM.pure_ok.mp h
    exact ⟨[], by simp, List.Forall₂.nil⟩
  | cons j js ih =>
    obtain ⟨st₁, w₁, h₁, h₂⟩ := PyM.bind_ok.mp h
    obtain ⟨henough₁, ks, hks, hkept⟩ := processMaster_keeps henough h₁
    obtain ⟨ks', hks', hkept'⟩ := ih henough₁ h₂
    refine ⟨ks ++ ks', by rw [hks', hks, List.append_assoc], ?_⟩
    rw [← List.singleton_append, List.filter_append]
    exact List.rel_append hkept hkept'

end

end IcsTrafficGen.Modbus
