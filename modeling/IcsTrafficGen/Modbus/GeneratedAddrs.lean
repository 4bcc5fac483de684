import IcsTrafficGen.Lib.Components
import IcsTrafficGen.Modbus.KeptMasters
import IcsTrafficGen.Modbus.OutstationNodes

/- Where the generated addresses go. The loop over the masters draws one address for every
   master and one for every group of outstations without an address, and no address
   twice: while it runs, `Issued` holds, which says who got which. What is given away can
   be read off the file (`handedOut`), entry by entry (`Keeps.supply`). -/
namespace IcsTrafficGen.Modbus

/-! ## What is given away -/

/-- The address is an "IP Address" of the file, of an outstation or of a master. -/
def ExplicitAddr (cfg : Config) (entries : List Json) (a : String) : Prop :=
  (∃ name, ipOf cfg name = .str a) ∨
    ∃ j ∈ entries, ∃ entry, j.asDict = .ok entry ∧ entry.get? "IP Address" = some (.str a)

/-- No outstation of the list has an address in the file. -/
def Unaddressed (cfg : Config) (names : List String) : Prop :=
  ∀ s ∈ names, (ipOf cfg s).truthy = false

instance (cfg : Config) (names : List String) : Decidable (Unaddressed cfg names) :=
  inferInstanceAs (Decidable (∀ s ∈ names, (ipOf cfg s).truthy = false))

def nameOf? : Json → Option String
  | .scalar (.str name) => some name
  | _ => none

/-- The names under "Outstations" of an entry. -/
def listedNames (entry : Dict String Json) : List String :=
  match ((entry.get? "Outstations").getD (.arr [])).iter with
  | .ok items => items.filterMap nameOf?
  | .error _ => []

/-- What the entries before leave: the addresses of the generator, and the outstations
they list. -/
structure Supply where
  hosts : List String
  seen : List String

/-- The addresses given away for an entry. It draws one for its own, which is given to it
if it has none in the file, and the next one goes to its outstations, if they have none in
the file and no entry before lists one of them. -/
def Supply.entry (cfg : Config) (s : Supply) (j : Json) : List String × Supply :=
  match j.asDict, s.hosts with
  | .ok entry, host :: hosts =>
    if "Name" ∈ entry.keys then
      let names := listedNames entry
      let own := if "IP Address" ∈ entry.keys then [] else [host]
      if Unaddressed cfg names ∧ ∀ name ∈ names, name ∉ s.seen then
        (own ++ hosts.take 1, { hosts := hosts.drop 1, seen := setUpdate s.seen names })
      else (own, { hosts := hosts, seen := setUpdate s.seen names })
    else ([], s)
  | _, _ => ([], s)

/-- The addresses given away for a list of entries. -/
def handedOut (cfg : Config) : Supply → List Json → List String
  | _, [] => []
  | s, j :: js => (s.entry cfg j).1 ++ handedOut cfg (s.entry cfg j).2 js

/-- What is given away comes from the generator. -/
theorem Supply.entry_sublist (cfg : Config) (s : Supply) (j : Json) :
    ((s.entry cfg j).1 ++ (s.entry cfg j).2.hosts).Sublist s.hosts := by
  unfold Supply.entry
  split
  · next entry host hosts _ hhosts =>
    have hown : (if "IP Address" ∈ entry.keys then [] else [host]).Sublist [host] := by
      split <;> simp
    by_cases hname : "Name" ∈ entry.keys
    · rw [if_pos hname, hhosts]
      by_cases hgroup : Unaddressed cfg (listedNames entry) ∧
          ∀ name ∈ listedNames entry, name ∉ s.seen
      · simp only [if_pos hgroup, List.append_assoc, List.take_append_drop]
        exact hown.append_right hosts
      · simp only [if_neg hgroup]
        exact hown.append_right hosts
    · rw [if_neg hname, hhosts]
      exact List.Sublist.refl _
  · exact List.Sublist.refl _

theorem handedOut_sublist (cfg : Config) (s : Supply) (js : List Json) :
    (handedOut cfg s js).Sublist s.hosts := by
  induction js generalizing s with
  | nil => exact List.nil_sublist _
  | cons j js ih => exact ((ih _).append_left _).trans (s.entry_sublist cfg j)

/-! ## A pass -/

section
variable {env : Env} {cfg : Config} {st st' : ParserState} {w w' : World} {names : List String}

theorem definedNames_ok {items : List Json} (h : definedNames cfg items = .ok names) :
    items.filterMap nameOf? = names := by
  have hall := Fallible.mapM_ok.mp h
  clear h
  induction hall with
  | nil => rfl
  | cons hname _ ih =>
    obtain ⟨s, hs, hname⟩ := Fallible.bind_ok.mp hname
    rw [List.filterMap_cons, Json.hash_ok.mp hs]
    split at hname
    · split at hname
      · rw [Fallible.pure_ok.mp hname, nameOf?, ih]
      · cases hname
    · cases hname

theorem Reads.listedNames {j : Json} {m : MasterEntry} (h : Reads cfg j m) :
    listedNames m.entry = m.names := by
  obtain ⟨items, hitems, hnames⟩ := h.names
  have hitems : ((m.entry.get? "Outstations").getD (.arr [])).iter = .ok items := hitems
  rw [Modbus.listedNames, hitems]
  exact definedNames_ok hnames

/-- The address comes from an outstation seen before, or it is drawn and none has been seen. -/
theorem sharedAddr_cases {a : String} (h : sharedAddr env st names w = .ok a w') :
    (∃ s ∈ st.outstationSet, s ∈ names ∧ st.outstationCidrAddrs.get? s = some a) ∧ w' = w ∨
      (∀ s ∈ names, s ∉ st.outstationSet) ∧ getAddr w = .ok a w' := by
  have hold := sharedAddr_ok h
  obtain ⟨assigned, hassigned, h⟩ := sharedAddr_iff.mp h
  obtain ⟨hdedup, rfl⟩ | ⟨rfl, hdraw⟩ := h
  · left
    have ha : a ∈ assigned := List.mem_dedup.mp (hdedup ▸ List.mem_singleton_self a)
    obtain ⟨s, hs, -⟩ := Fallible.exists_left (Fallible.mapM_ok.mp hassigned) ha
    obtain ⟨hset, hname⟩ := List.mem_filter.mp hs
    have hname : s ∈ names := of_decide_eq_true hname
    exact ⟨⟨s, hset, hname, hold s hset hname⟩, rfl⟩
  · right
    refine ⟨fun s hs hset => ?_, hdraw⟩
    have hmem : s ∈ st.outstationSet.filter (· ∈ names) :=
      List.mem_filter.mpr ⟨hset, decide_eq_true hs⟩
    obtain ⟨b, hb, -⟩ := Fallible.mapM_mem hassigned hmem
    cases hb

/-- What is left while the loop is at the state `st` in the world `w`. -/
def supply (st : ParserState) (w : World) : Supply := ⟨w.cidr.getD [], st.outstationSet⟩

/-- The address of a group of outstations in a pass, what is given away for it of the
addresses `hosts`, and what is left of them. -/
inductive GroupAddr (cfg : Config) (st : ParserState) (names : List String) (addr : Json)
    (cidrAddrs : Dict String String) (hosts given rest : List String) : Prop
  | configured (haddressed : ¬ Unaddressed cfg names) (hsame : cidrAddrs = st.outstationCidrAddrs)
      (hgiven : given = []) (hrest : rest = hosts)
  | joined (a : String) (hnone : Unaddressed cfg names) (haddr : addr = .str a)
      (hold : ∀ s ∈ st.outstationSet, s ∈ names → st.outstationCidrAddrs.get? s = some a)
      (hnew : cidrAddrs = st.outstationCidrAddrs.update (names.map fun s => (s, a)))
      (hseen : ∃ s ∈ st.outstationSet, s ∈ names ∧ st.outstationCidrAddrs.get? s = some a)
      (hgiven : given = []) (hrest : rest = hosts)
  | drawn (a : String) (hnone : Unaddressed cfg names) (haddr : addr = .str a)
      (hfresh : ∀ s ∈ names, s ∉ st.outstationSet)
      (hnew : cidrAddrs = st.outstationCidrAddrs.update (names.map fun s => (s, a)))
      (hgiven : given = [a]) (hrest : hosts = a :: rest)

theorem Assigns.groupAddr {outstations addr : Json} {cidrAddrs : Dict String String}
    {hosts : List String} (h : Assigns env cfg st outstations names w addr cidrAddrs w')
    (hcidr : w.cidr = some hosts) :
    ∃ given rest, w'.cidr = some rest ∧ GroupAddr cfg st names addr cidrAddrs hosts given rest := by
  cases h with
  | configured ip htruthy hip =>
    refine ⟨[], hosts, hcidr, .configured (fun hnone => ?_) rfl rfl rfl⟩
    obtain ⟨s, hs, htruthy⟩ := htruthy
    rw [hnone s hs] at htruthy
    cases htruthy
  | generated a _ hfalsy haddr =>
    obtain ⟨hseen, rfl⟩ | ⟨hfresh, hdraw⟩ := sharedAddr_cases haddr
    · exact ⟨[], hosts, hcidr, .joined a hfalsy rfl (sharedAddr_ok haddr) rfl hseen rfl rfl⟩
    · obtain ⟨rest, hrest, rfl⟩ := getAddr_ok.mp hdraw
      rw [hcidr, Option.some_inj] at hrest
      exact ⟨[a], rest, rfl, .drawn a hfalsy rfl hfresh rfl rfl hrest⟩

variable {j : Json} {m : MasterEntry} {host : String} {hosts : List String} {vnic : Option String}
variable {w₁ : World} {addr : Json} {cidrAddrs : Dict String String}

/-- An entry that is passed over leaves everything. -/
theorem supply_of_error (h : ∃ e, masterNameAddr j w = .error e w) :
    (supply st w).entry cfg j = ([], supply st w) := by
  have hdropped := dropped_iff.mp h
  unfold Supply.entry supply
  split
  · next entry host hosts hentry hhosts =>
    rw [if_neg]
    intro hname
    have havail := hdropped (by simpa [hasKey, hentry] using hname)
    cases hcidr : w.cidr with
    | none => simp [hcidr] at hhosts
    | some l =>
      have hl : l = host :: hosts := by simpa [hcidr] using hhosts
      simp [World.available, hcidr, hl] at havail
  · rfl

/-- What a pass gives away: an address for the master, unless it has one, and what is given
to its outstations. -/
theorem Keeps.supply (h : Keeps env cfg st j w m host hosts vnic w₁ addr cidrAddrs w') :
    ∃ given rest, w'.cidr = some rest ∧
      GroupAddr cfg st m.names addr cidrAddrs hosts given rest ∧
      (supply st w).entry cfg j =
        ((if "IP Address" ∈ m.entry.keys then [] else [host]) ++ given,
          ⟨rest, setUpdate st.outstationSet m.names⟩) := by
  obtain ⟨given, rest, hrest, hgroup⟩ := h.assigns.groupAddr (masterVnic_cidr h.interface)
  refine ⟨given, rest, hrest, hgroup, ?_⟩
  have hname : "Name" ∈ m.entry.keys := Dict.mem_keys.mpr ⟨_, h.name⟩
  simp only [Supply.entry, Modbus.supply, h.entry, h.drawn, Option.getD_some, if_pos hname,
    h.toReads.listedNames]
  cases hgroup with
  | configured haddressed _ hgiven hleft =>
    rw [if_neg fun hboth => haddressed hboth.1, hgiven, hleft, List.append_nil]
  | joined a hnone _ _ _ hseen hgiven hleft =>
    obtain ⟨s, hset, hs, -⟩ := hseen
    rw [if_neg fun hboth => hboth.2 s hs hset, hgiven, hleft, List.append_nil]
  | drawn a hnone _ hfresh _ hgiven hleft =>
    rw [if_pos ⟨hnone, hfresh⟩, hgiven, hleft, List.take_succ_cons, List.take_zero,
      List.drop_succ_cons, List.drop_zero]

end

/-! ## The loop -/

/-- The generated addresses of masters, in the order they were given. -/
def ownAddrs (ks : List KeptMaster) : List String :=
  ks.filterMap fun k => if k.entry.get? "IP Address" = none then nameOf? k.node.ipaddr else none

/-- The lists of outstations that get a generated address. -/
def groupLists (cfg : Config) (ks : List KeptMaster) : List (List String) :=
  (ks.map fun k => k.outstations).filter (Unaddressed cfg)

/-- Who has the addresses that have been given away: the masters `ownAddrs`, and the groups
of outstations `groups`. The addresses `hosts` are left. -/
structure Issued (cfg : Config) (st : ParserState) (hosts groups : List String) : Prop where
  fresh : (ownAddrs st.masterNodes ++ groups ++ hosts).Nodup
  own : ∀ k ∈ st.masterNodes, k.entry.get? "IP Address" = some k.node.ipaddr ∨
    k.entry.get? "IP Address" = none ∧ ∃ a, k.node.ipaddr = .str a
  group : ∀ k ∈ st.masterNodes, Unaddressed cfg k.outstations →
    ∃ a ∈ groups, k.node.outstationAddr = .str a
  used : ∀ a ∈ groups, ∃ k ∈ st.masterNodes, Unaddressed cfg k.outstations ∧
    k.node.outstationAddr = .str a
  covers : ∀ s ∈ st.outstationSet, ∃ k ∈ st.masterNodes, s ∈ k.outstations
  labels : ∀ s a, st.outstationCidrAddrs.get? s = some a → a ∈ groups
  labelled : Labelled (groupLists cfg st.masterNodes) st.outstationCidrAddrs.get?
  /-- A group without outstations has its address for itself. -/
  alone : ∀ k ∈ st.masterNodes, k.outstations = [] → ∀ a, k.node.outstationAddr = .str a →
    ∀ s, st.outstationCidrAddrs.get? s ≠ some a

theorem issued_init (cfg : Config) {hosts : List String} (h : hosts.Nodup) :
    Issued cfg .init hosts [] where
  fresh := h
  own _ hk := by cases hk
  group _ hk := by cases hk
  used _ ha := by cases ha
  covers _ hs := by cases hs
  labels _ _ h := by cases h
  labelled := labelled_nil
  alone _ hk := by cases hk

/-- Drawing one address for a master and perhaps one for a group keeps all apart. -/
theorem nodup_draw {owned own groups given rest : List String} {host : String}
    (h : (owned ++ groups ++ host :: (given ++ rest)).Nodup) (hown : own.Sublist [host]) :
    (owned ++ own ++ (groups ++ given) ++ rest).Nodup := by
  have hsub : (owned ++ own ++ (groups ++ (given ++ rest))).Sublist
      (owned ++ [host] ++ (groups ++ (given ++ rest))) :=
    (hown.append_left owned).append_right _
  have hperm : (owned ++ [host] ++ (groups ++ (given ++ rest))).Perm
      (owned ++ groups ++ host :: (given ++ rest)) := by
    rw [List.append_assoc, List.append_assoc]
    apply List.Perm.append_left
    rw [List.singleton_append]
    exact List.perm_middle.symm
  have hnodup := (hperm.nodup_iff.mpr h).sublist hsub
  rwa [← List.append_assoc groups, ← List.append_assoc] at hnodup

section
variable {cfg : Config} {st : ParserState} {k : KeptMaster} {hosts groups given rest : List String}
variable {host : String} {cidrAddrs : Dict String String}

theorem GroupAddr.left {names : List String} {addr : Json}
    (h : GroupAddr cfg st names addr cidrAddrs hosts given rest) : hosts = given ++ rest := by
  cases h with
  | configured _ _ hgiven hrest => rw [hgiven, hrest, List.nil_append]
  | joined _ _ _ _ _ _ hgiven hrest => rw [hgiven, hrest, List.nil_append]
  | drawn a _ _ _ _ hgiven hrest => rw [hgiven, hrest, List.singleton_append]

/-- The generated address of the new master, if it has one. -/
theorem ownAddrs_add (hown : k.node.ipaddr = (k.entry.get? "IP Address").getD (.str host)) :
    ownAddrs (st.masterNodes ++ [k]) = ownAddrs st.masterNodes ++
      if "IP Address" ∈ k.entry.keys then [] else [host] := by
  rw [ownAddrs, List.filterMap_append]
  congr 1
  cases hip : k.entry.get? "IP Address" with
  | none =>
    rw [if_neg (Dict.get?_eq_none.mp hip)]
    simp [hip, hown, nameOf?, Json.str]
  | some ip =>
    rw [if_pos (Dict.mem_keys.mpr ⟨ip, hip⟩)]
    simp [hip]

theorem groupLists_add : groupLists cfg (st.masterNodes ++ [k]) = groupLists cfg st.masterNodes ++
    if Unaddressed cfg k.outstations then [k.outstations] else [] := by
  rw [groupLists, List.map_append, List.filter_append]
  congr 1
  by_cases h : Unaddressed cfg k.outstations <;> simp [h]

/-- What has an address behind the pass had it before, or is one of the new group. -/
theorem GroupAddr.get? {names : List String} {addr : Json}
    (h : GroupAddr cfg st names addr cidrAddrs hosts given rest) {s a : String}
    (hs : cidrAddrs.get? s = some a) :
    st.outstationCidrAddrs.get? s = some a ∨
      s ∈ names ∧ Unaddressed cfg names ∧ addr = .str a := by
  cases h with
  | configured _ hsame _ _ => exact Or.inl (hsame ▸ hs)
  | joined b hnone haddr _ hnew _ _ _ | drawn b hnone haddr _ hnew _ _ =>
    rw [hnew, Dict.get?_update_fromKeys] at hs
    split at hs
    · next hname => exact Or.inr ⟨hname, hnone, by rw [haddr, Option.some_inj.mp hs]⟩
    · exact Or.inl hs

/-- An address that is drawn for the group is new. -/
theorem Issued.drawn_notMem (hi : Issued cfg st (host :: (given ++ rest)) groups) {a : String}
    (ha : a ∈ given) : a ∉ groups := by
  intro hgroup
  have hnodup := hi.fresh
  rw [List.append_assoc] at hnodup
  have hdisj := List.disjoint_of_nodup_append hnodup.of_append_right
  exact hdisj hgroup (List.mem_cons_of_mem _ (List.mem_append_left _ ha))

theorem Issued.labelled_add (hi : Issued cfg st (host :: hosts) groups) (hgrouped : Grouped cfg st)
    (hg : GroupAddr cfg st k.outstations k.node.outstationAddr cidrAddrs hosts given rest) :
    Labelled (groupLists cfg (st.masterNodes ++ [k])) cidrAddrs.get? := by
  rw [groupLists_add]
  cases hg with
  | configured haddressed hsame _ _ =>
    rw [if_neg haddressed, List.append_nil, hsame]
    exact hi.labelled
  | joined a hnone _ hold hnew hseen _ _ =>
    rw [if_pos hnone]
    refine hi.labelled.step (c := a) (fun s hs => ?_) (fun s hs => ?_) (fun s hs b hb => ?_) ?_
    · rw [hnew, Dict.get?_update_fromKeys, if_pos hs]
    · rw [hnew, Dict.get?_update_fromKeys, if_neg hs]
    · rw [hold s (hgrouped.cidr s b hb) hs] at hb
      exact (Option.some_inj.mp hb).symm
    · obtain ⟨s, -, hs, hlabel⟩ := hseen
      exact Or.inl ⟨s, hs, hlabel⟩
  | drawn a hnone _ hfresh hnew hgiven hhosts =>
    rw [if_pos hnone]
    refine hi.labelled.step (c := a) (fun s hs => ?_) (fun s hs => ?_) (fun s hs b hb => ?_) ?_
    · rw [hnew, Dict.get?_update_fromKeys, if_pos hs]
    · rw [hnew, Dict.get?_update_fromKeys, if_neg hs]
    · exact absurd (hgrouped.cidr s b hb) (hfresh s hs)
    · right
      intro s hs
      subst hhosts
      have hi' : Issued cfg st (host :: ([a] ++ rest)) groups := hi
      exact hi'.drawn_notMem (List.mem_singleton_self a) (hi.labels s a hs)

/-- The outstations of a pass do not get the address of a group without outstations. -/
theorem Issued.alone_add (hi : Issued cfg st (host :: hosts) groups)
    (hg : GroupAddr cfg st k.outstations k.node.outstationAddr cidrAddrs hosts given rest)
    {k' : KeptMaster} (hk' : k' ∈ (st.add k cidrAddrs).masterNodes) (hnil : k'.outstations = [])
    {a s : String} (haddr : k'.node.outstationAddr = .str a) : cidrAddrs.get? s ≠ some a := by
  obtain rfl := hg.left
  intro hs
  rw [ParserState.add, List.mem_append, List.mem_singleton] at hk'
  obtain hk' | rfl := hk'
  · obtain hold | ⟨hname, hnone, haddr'⟩ := hg.get? hs
    · exact hi.alone k' hk' hnil a haddr s hold
    · obtain ⟨b, hb, hb'⟩ := hi.group k' hk' (by simp [hnil, Unaddressed])
      have hab : a = b := Json.str_inj.mp (haddr.symm.trans hb')
      subst hab
      cases hg with
      | configured haddressed _ _ _ => exact haddressed hnone
      | joined c _ hc _ _ hseen _ _ =>
        obtain ⟨u, -, -, hu⟩ := hseen
        have hac : a = c := Json.str_inj.mp (haddr'.symm.trans hc)
        exact hi.alone k' hk' hnil a haddr u (hac ▸ hu)
      | drawn c _ hc _ _ hgiven _ =>
        have hac : a = c := Json.str_inj.mp (haddr'.symm.trans hc)
        exact hi.drawn_notMem (a := a) (by simp [hgiven, hac]) hb
  · have hold : st.outstationCidrAddrs.get? s = some a :=
      (hg.get? hs).resolve_right fun hnew => by simp [hnil] at hnew
    cases hg with
    | configured haddressed _ _ _ => exact haddressed (by simp [hnil, Unaddressed])
    | joined c _ _ _ _ hseen _ _ => simp [hnil] at hseen
    | drawn c _ hc _ _ hgiven _ =>
      have hac : a = c := Json.str_inj.mp (haddr.symm.trans hc)
      exact hi.drawn_notMem (a := a) (by simp [hgiven, hac]) (hi.labels s a hold)

/-- A pass keeps the account. -/
theorem Issued.add (hi : Issued cfg st (host :: hosts) groups) (hgrouped : Grouped cfg st)
    (hg : GroupAddr cfg st k.outstations k.node.outstationAddr cidrAddrs hosts given rest)
    (hown : k.node.ipaddr = (k.entry.get? "IP Address").getD (.str host)) :
    Issued cfg (st.add k cidrAddrs) rest (groups ++ given) := by
  have hlabelled := hi.labelled_add hgrouped hg
  obtain rfl := hg.left
  have hmasters : ∀ k', k' ∈ (st.add k cidrAddrs).masterNodes ↔ k' ∈ st.masterNodes ∨ k' = k :=
    fun k' => by rw [ParserState.add, List.mem_append, List.mem_singleton]
  have hgroup : Unaddressed cfg k.outstations →
      ∃ a ∈ groups ++ given, k.node.outstationAddr = .str a := by
    intro hnone
    cases hg with
    | configured haddressed _ _ _ => exact absurd hnone haddressed
    | joined a _ haddr _ _ hseen _ _ =>
      obtain ⟨s, -, -, hs⟩ := hseen
      exact ⟨a, List.mem_append_left _ (hi.labels s a hs), haddr⟩
    | drawn a _ haddr _ _ hgiven _ => exact ⟨a, by simp [hgiven], haddr⟩
  refine ⟨?_, fun k' hk' => ?_, fun k' hk' hnone => ?_, fun a ha => ?_, fun s hs => ?_,
    fun s a hs => ?_, hlabelled, fun k' hk' hnil a haddr s hs => ?_⟩
  · rw [ParserState.add, ownAddrs_add hown]
    refine nodup_draw hi.fresh ?_
    split <;> simp
  · obtain hk' | rfl := (hmasters k').mp hk'
    · exact hi.own k' hk'
    · cases hip : k'.entry.get? "IP Address" with
      | none => exact Or.inr ⟨rfl, host, by rw [hown, hip]; rfl⟩
      | some ip => exact Or.inl (by rw [hown, hip]; rfl)
  · obtain hk' | rfl := (hmasters k').mp hk'
    · obtain ⟨a, ha, haddr⟩ := hi.group k' hk' hnone
      exact ⟨a, List.mem_append_left _ ha, haddr⟩
    · exact hgroup hnone
  · obtain ha | ha := List.mem_append.mp ha
    · obtain ⟨k', hk', hused⟩ := hi.used a ha
      exact ⟨k', (hmasters k').mpr (Or.inl hk'), hused⟩
    · cases hg with
      | configured _ _ hgiven _ | joined _ _ _ _ _ _ hgiven _ => simp [hgiven] at ha
      | drawn b hnone haddr _ _ hgiven _ =>
        rw [hgiven, List.mem_singleton] at ha
        exact ⟨k, (hmasters k).mpr (Or.inr rfl), hnone, ha ▸ haddr⟩
  · obtain hs | hs := mem_setUpdate.mp hs
    · obtain ⟨k', hk', hname⟩ := hi.covers s hs
      exact ⟨k', (hmasters k').mpr (Or.inl hk'), hname⟩
    · exact ⟨k, (hmasters k).mpr (Or.inr rfl), hs⟩
  · obtain hold | ⟨-, hnone, haddr⟩ := hg.get? hs
    · exact List.mem_append_left _ (hi.labels s a hold)
    · obtain ⟨b, hb, haddr'⟩ := hgroup hnone
      have hab : a = b := Json.str_inj.mp (haddr.symm.trans haddr')
      exact hab ▸ hb
  · exact hi.alone_add hg hk' hnil haddr hs

variable {env : Env} {st' : ParserState} {j : Json} {w w' : World}

/-- The account behind a pass: what it gave away has been added. -/
theorem Issued.pass (hi : Issued cfg st (w.cidr.getD []) groups) (hgrouped : Grouped cfg st)
    (h : processMaster env cfg st j w = .ok st' w') :
    ∃ groups', Issued cfg st' (w'.cidr.getD []) groups' ∧
      ((supply st w).entry cfg j).2 = supply st' w' ∧
      ∀ a, a ∈ ownAddrs st'.masterNodes ∨ a ∈ groups' ↔
        (a ∈ ownAddrs st.masterNodes ∨ a ∈ groups) ∨ a ∈ ((supply st w).entry cfg j).1 := by
  obtain ⟨herror, rfl, rfl⟩ | ⟨m, host, hosts, vnic, w₁, addr, cidrAddrs, hk, rfl⟩ :=
    processMaster_iff.mp h
  · rw [supply_of_error herror]
    exact ⟨groups, hi, rfl, fun a => by simp⟩
  · obtain ⟨given, rest, hrest, hg, hsupply⟩ := hk.supply
    rw [hk.drawn] at hi
    refine ⟨groups ++ given, ?_, ?_, fun a => ?_⟩
    · rw [hrest]
      exact hi.add hgrouped hg rfl
    · rw [hsupply, supply, hrest]
      rfl
    · have howned : ownAddrs (st.masterNodes ++ [m.keep (m.ipaddr host) vnic addr]) =
          ownAddrs st.masterNodes ++ if "IP Address" ∈ m.entry.keys then [] else [host] :=
        ownAddrs_add rfl
      rw [hsupply, ParserState.add, howned]
      simp only [List.mem_append]
      tauto

theorem Issued.run {js : List Json} (hi : Issued cfg st (w.cidr.getD []) groups)
    (hgrouped : Grouped cfg st) (h : js.foldlM (processMaster env cfg) st w = .ok st' w') :
    ∃ groups', Issued cfg st' (w'.cidr.getD []) groups' ∧
      ∀ a, a ∈ ownAddrs st'.masterNodes ∨ a ∈ groups' ↔
        (a ∈ ownAddrs st.masterNodes ∨ a ∈ groups) ∨ a ∈ handedOut cfg (supply st w) js := by
  induction js generalizing st w groups with
  | nil =>
    obtain ⟨rfl, rfl⟩ := PyM.pure_ok.mp h
    exact ⟨groups, hi, fun a => by simp [handedOut]⟩
  | cons j js ih =>
    obtain ⟨st₁, w₁, hpass, h⟩ := PyM.bind_ok.mp h
    obtain ⟨groups₁, hi₁, hsupply, hmem₁⟩ := hi.pass hgrouped hpass
    obtain ⟨groups', hi', hmem'⟩ := ih hi₁ (hgrouped.pass hpass) h
    refine ⟨groups', hi', fun a => ?_⟩
    rw [hmem', hmem₁, handedOut, hsupply, List.mem_append, or_assoc]

/-- The kept masters are of the entries. -/
theorem exists_entry {js : List Json} (h : js.foldlM (processMaster env cfg) .init w = .ok st' w') :
    ∀ k ∈ st'.masterNodes, ∃ j ∈ js, j.asDict = .ok k.entry := by
  refine PyM.foldlM_invariant (fun st _ => ∀ k ∈ st.masterNodes, ∃ j ∈ js, j.asDict = .ok k.entry)
    (fun j hj st w st' w' ih hpass k hk => ?_) (fun k hk => by cases hk) h
  obtain ⟨_, -, rfl⟩ | ⟨_, _, _, k', -, hadds, hentry, -⟩ := processMaster_ok hpass
  · exact ih k hk
  · rw [hadds.masters, List.mem_append, List.mem_singleton] at hk
    obtain hk | rfl := hk
    · exact ih k hk
    · exact ⟨j, hj, hentry⟩

/-- The account at the end of the loop over the entries. -/
structure Allots (cfg : Config) (entries : List Json) (w : World) (st : ParserState)
    (hosts groups : List String) : Prop extends Issued cfg st hosts groups where
  given : ∀ a, a ∈ ownAddrs st.masterNodes ∨ a ∈ groups ↔
    a ∈ handedOut cfg ⟨w.cidr.getD [], []⟩ entries
  entry : ∀ k ∈ st.masterNodes, ∃ j ∈ entries, j.asDict = .ok k.entry

theorem exists_allots {entries : List Json} (hnodup : (w.cidr.getD []).Nodup)
    (h : entries.foldlM (processMaster env cfg) .init w = .ok st' w') :
    ∃ groups, Allots cfg entries w st' (w'.cidr.getD []) groups := by
  obtain ⟨groups, hi, hgiven⟩ := (issued_init cfg hnodup).run (grouped_init cfg) h
  exact ⟨groups, hi, fun a => (hgiven a).trans (by simp [ownAddrs, supply, ParserState.init]),
    exists_entry h⟩

end

end IcsTrafficGen.Modbus
