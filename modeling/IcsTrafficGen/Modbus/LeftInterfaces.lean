import IcsTrafficGen.Modbus.KeptMasters
import IcsTrafficGen.Modbus.OutstationNodes

/- The interfaces that a rejected configuration leaves behind. Every check of
   `process_nodes` ends the program where it stands, and nothing takes an interface down
   again: `deallocate` is for the threads of the nodes. So the interfaces are as before
   exactly if none was brought up before the check (`exit_keeps_interfaces_iff`). -/
namespace IcsTrafficGen.Modbus

/-- The entry brings up no interface: it is dropped, or it has an address of its own. -/
def OwnAddr (e : Json × World) : Prop :=
  ∀ entry, kept e = some entry → ((entry.get? "IP Address").getD .null).truthy = true

/-- The checks on the outstations that were collected at an address. -/
def passes (cfg : Config) (names : List String) : Bool :=
  (getOutstationPort cfg names).toBool && (getOutstationSim cfg names).toBool &&
    (getOutstationDatastore cfg names).toBool && (getOutstationUnitids cfg names).toBool

/-- Some outstation has an address in the file. -/
def Addressed (cfg : Config) (names : List String) : Prop :=
  ∃ name ∈ names, (ipOf cfg name).truthy = true

/-- No entry that the first loop reaches brings up an interface, the one at which it stops
included, and no list of outstations does that the last loop gets through its checks. -/
structure AllAddressed (env : Env) (cfg : Config) (w : World) : Prop where
  masters : ∀ entries, masterEntries cfg = .ok entries →
    ∀ e ∈ reached env cfg .init w entries, OwnAddr e
  groups : ∀ st groups w₁, collectOutstations env cfg w = .ok (st, groups) w₁ →
    ∀ e ∈ groups.entries.takeWhile (fun e => passes cfg e.2), Addressed cfg e.2

/-- From `w` to `w'` interfaces were brought up, and none exactly if `P`. -/
def Brought (P : Prop) (w w' : World) : Prop := ∃ l, w'.up = w.up ++ l ∧ (l = [] ↔ P)

namespace Brought
variable {P Q : Prop} {w w₁ w' : World}

theorem nothing (h : w'.up = w.up) (hP : P) : Brought P w w' :=
  ⟨[], by rw [h, List.append_nil], iff_of_true rfl hP⟩

theorem trans (h : Brought P w w₁) (h' : Brought Q w₁ w') : Brought (P ∧ Q) w w' := by
  obtain ⟨l, hup, hl⟩ := h
  obtain ⟨l', hup', hl'⟩ := h'
  refine ⟨l ++ l', ?_, ?_⟩
  · rw [hup', hup, List.append_assoc]
  · rw [List.append_eq_nil_iff, hl, hl']

theorem congr (h : Brought P w w') (hPQ : P ↔ Q) : Brought Q w w' := by
  obtain ⟨l, hup, hl⟩ := h
  exact ⟨l, hup, hl.trans hPQ⟩

theorem up_iff (h : Brought P w w') : w'.up = w.up ↔ P := by
  obtain ⟨l, hup, hl⟩ := h
  rw [hup, List.append_right_eq_self, hl]

end Brought

variable {env : Env} {cfg : Config} {w w' : World}

/-! ## One interface -/

theorem allocate_ok {ip : Json} {vnic : Option String} (h : allocate env cfg ip w = .ok vnic w') :
    ∃ up, w'.up = w.up ++ [up] := by
  obtain ⟨interface, a, -, -, -, -, rfl⟩ := allocate_iff.mp h
  exact ⟨_, rfl⟩

/-- It may raise, but it does not exit. -/
theorem allocate_no_exit (hifconfig : ∀ vnic ip, env.ifconfig vnic ip ≠ some .systemExit)
    {ip : Json} : ¬ allocate env cfg ip w = .error .systemExit w' := by
  intro h
  obtain ⟨h, -⟩ | ⟨interface, -, h⟩ := PyM.lift_bind_error.mp h
  · unfold virtualInterface at h
    split at h <;> cases h
  obtain h | ⟨_, w₂, -, h⟩ := PyM.bind_error.mp h
  · cases h
  obtain h | ⟨_, _, -, h⟩ := PyM.bind_error.mp h
  · unfold callIfconfig at h
    split at h
    · split at h
      · next hraises =>
        cases h
        exact hifconfig _ _ hraises
      · cases h
    · cases h
  · exact PyM.pure_error h

theorem masterVnic_ok {entry : Dict String Json} {ip : Json} {vnic : Option String}
    (h : masterVnic env cfg entry ip w = .ok vnic w') :
    Brought (((entry.get? "IP Address").getD .null).truthy = true) w w' := by
  unfold masterVnic at h
  split at h
  · next htruthy =>
    obtain ⟨-, rfl⟩ := PyM.pure_ok.mp h
    exact .nothing rfl htruthy
  · next hfalsy =>
    obtain ⟨up, hup⟩ := allocate_ok h
    exact ⟨[up], hup, iff_of_false (List.cons_ne_nil up []) hfalsy⟩

theorem masterVnic_no_exit (hifconfig : ∀ vnic ip, env.ifconfig vnic ip ≠ some .systemExit)
    {entry : Dict String Json} {ip : Json} :
    ¬ masterVnic env cfg entry ip w = .error .systemExit w' := by
  unfold masterVnic
  split
  · exact PyM.pure_error
  · exact allocate_no_exit hifconfig

section
variable {key : Scalar} {names : List String}

theorem outstationVnic_ok {vnic : Option String}
    (h : outstationVnic env cfg key names w = .ok vnic w') : Brought (Addressed cfg names) w w' := by
  obtain ⟨-, ⟨htruthy, -, rfl⟩ | ⟨hfalsy, halloc⟩⟩ := outstationVnic_iff.mp h
  · exact .nothing rfl htruthy
  · obtain ⟨up, hup⟩ := allocate_ok halloc
    refine ⟨[up], hup, iff_of_false (List.cons_ne_nil up []) fun haddressed => ?_⟩
    obtain ⟨name, hname, htruthy⟩ := haddressed
    rw [hfalsy name hname] at htruthy
    cases htruthy

/-- The addresses of objects are read without an exception. -/
theorem outstationVnic_no_exit (hifconfig : ∀ vnic ip, env.ifconfig vnic ip ≠ some .systemExit)
    (hobject : ∀ name ∈ names, IsObject cfg name) :
    ¬ outstationVnic env cfg key names w = .error .systemExit w' := by
  intro h
  obtain ⟨herror, -⟩ | ⟨ips, -, h⟩ := PyM.lift_bind_error.mp h
  · rw [mapM_outstationGet_iff.mpr ⟨hobject, rfl⟩] at herror
    cases herror
  · split at h
    · exact PyM.pure_error h
    · exact allocate_no_exit hifconfig h

end

/-! ## The loop over the masters -/

theorem getAddr_frames : PyM.Frames World.up getAddr := by
  intro w w'
  constructor
  · intro addr h
    obtain ⟨addrs, -, rfl⟩ := getAddr_ok.mp h
    rfl
  · intro e h
    unfold getAddr at h
    split at h <;> cases h <;> rfl

theorem sharedAddr_frames (st : ParserState) (names : List String) :
    PyM.Frames World.up (sharedAddr env st names) := by
  refine .bind (.lift _) fun assigned => ?_
  cases assigned.dedup with
  | nil => exact getAddr_frames
  | cons a l =>
    cases l with
    | nil => exact .lift _
    | cons b l => exact .raise _

theorem outstationAddr_frames (st : ParserState) (outstations : Json) (names : List String) :
    PyM.Frames World.up (outstationAddr env cfg st outstations names) := by
  refine .bind (.lift _) fun ips => .ite ?_ ?_
  · exact .bind (.lift _) fun ip => .pure _
  · exact .bind (sharedAddr_frames st names) fun addr => .pure _

section
variable (hifconfig : ∀ vnic ip, env.ifconfig vnic ip ≠ some .systemExit)
include hifconfig

/-- Behind the interface of the master there are checks and no further interface. -/
theorem addMaster_ends {st : ParserState} {j name ip : Json} {entry : Dict String Json}
    (hentry : j.asDict = .ok entry)
    (h : PyM.Ends .systemExit (addMaster env cfg st j name ip) w w') :
    Brought (((entry.get? "IP Address").getD .null).truthy = true) w w' := by
  obtain ⟨herror, -⟩ | ⟨entry', hentry', h⟩ := PyM.ends_lift_bind.mp h
  · rw [hentry] at herror
    cases herror
  cases hentry.symm.trans hentry'
  obtain h | ⟨vnic, w₂, hvnic, h⟩ := PyM.ends_bind.mp h
  · exact absurd h (masterVnic_no_exit hifconfig)
  have hup : w'.up = w₂.up := by
    refine PyM.Frames.ends ?_ h
    refine .bind (.lift _) fun items => .bind (.lift _) fun names =>
      .bind (outstationAddr_frames st _ names) fun assigned => ?_
    exact .bind (.lift _) fun _ => .bind (.lift _) fun _ => .bind (.lift _) fun _ => .pure _
  obtain ⟨l, hl, hiff⟩ := masterVnic_ok hvnic
  exact ⟨l, hup.trans hl, hiff⟩

theorem processMaster_ends {st : ParserState} {j : Json}
    (h : PyM.Ends .systemExit (processMaster env cfg st j) w w') :
    Brought (OwnAddr (j, w)) w w' := by
  obtain herror | ⟨o, w₁, hattempt, hrest⟩ := PyM.ends_bind.mp h
  · exact absurd herror PyM.attempt_error
  obtain ⟨⟨name, ip⟩, hok, rfl⟩ | ⟨e, herror, rfl⟩ := PyM.attempt_ok.mp hattempt
  · obtain ⟨entry, hkept, hentry, hup⟩ := kept_of_ok hok
    obtain ⟨l, hl, hiff⟩ := addMaster_ends hifconfig hentry hrest
    refine ⟨l, by rw [hl, hup], hiff.trans ?_⟩
    unfold OwnAddr
    rw [hkept]
    simp
  · have hnone := masterNameAddr_error herror
    obtain rfl := masterNameAddr_keeps herror
    refine .nothing ((PyM.Frames.pure st).ends hrest) fun entry hentry => ?_
    rw [hnone] at hentry
    cases hentry

theorem processMasters_ends {js : List Json} {st : ParserState}
    (h : PyM.Ends .systemExit (js.foldlM (processMaster env cfg) st) w w') :
    Brought (∀ e ∈ reached env cfg st w js, OwnAddr e) w w' := by
  induction js generalizing st w with
  | nil =>
    refine .nothing ((PyM.Frames.pure st).ends h) fun e he => ?_
    cases he
  | cons j js ih =>
    rw [List.foldlM_cons] at h
    obtain h | ⟨st₁, w₁, hfirst, h⟩ := PyM.ends_bind.mp h
    · refine (processMaster_ends hifconfig (Or.inr h)).congr ?_
      rw [reached, h, List.forall_mem_singleton]
    · refine ((processMaster_ends hifconfig (Or.inl ⟨_, hfirst⟩)).trans (ih h)).congr ?_
      rw [reached, hfirst, List.forall_mem_cons]

end

/-! ## The loop over the addresses -/

section
variable {nodes : List OutstationNode} {e : Scalar × List String}

/-- A list that gets an interface has passed the checks. -/
theorem outstationNode_returns {nodes' : List OutstationNode}
    (h : outstationNode env cfg nodes e w = .ok nodes' w') :
    passes cfg e.2 = true ∧ Brought (Addressed cfg e.2) w w' := by
  obtain ⟨n, -, hn⟩ := outstationNode_iff.mp h
  refine ⟨?_, outstationVnic_ok hn.interface⟩
  rw [passes, hn.port, hn.simulate, hn.datastore, hn.nameIdMap]
  rfl

theorem formatInt_no_exit {s : Scalar} : ¬ s.formatInt = .error .systemExit := by
  unfold Scalar.formatInt
  split <;> simp

/-- Behind the checks the pass does not exit any more. -/
theorem outstationNode_exits (hifconfig : ∀ vnic ip, env.ifconfig vnic ip ≠ some .systemExit)
    (h : outstationNode env cfg nodes e w = .error .systemExit w') :
    passes cfg e.2 = false ∧ w' = w := by
  obtain ⟨hport, rfl⟩ | ⟨port, hport, h⟩ := PyM.lift_bind_error.mp h
  · exact ⟨by rw [passes, hport]; rfl, rfl⟩
  obtain ⟨hsim, rfl⟩ | ⟨simulate, hsim, h⟩ := PyM.lift_bind_error.mp h
  · exact ⟨by rw [passes, hport, hsim]; rfl, rfl⟩
  obtain ⟨hdatastore, rfl⟩ | ⟨datastore, hdatastore, h⟩ := PyM.lift_bind_error.mp h
  · exact ⟨by rw [passes, hport, hsim, hdatastore]; rfl, rfl⟩
  obtain ⟨hids, rfl⟩ | ⟨nameIdMap, -, h⟩ := PyM.lift_bind_error.mp h
  · exact ⟨by rw [passes, hport, hsim, hdatastore, hids]; rfl, rfl⟩
  obtain h | ⟨vnic, _, -, h⟩ := PyM.bind_error.mp h
  · exact absurd h (outstationVnic_no_exit hifconfig (getOutstationPort_iff.mp hport).1.object)
  obtain ⟨h, -⟩ | ⟨_, -, h⟩ := PyM.lift_bind_error.mp h
  · exact absurd h formatInt_no_exit
  · exact absurd h PyM.pure_error

end

/-- The lists before the one at which the loop stops have passed the checks. -/
theorem outstationNodes_exits (hifconfig : ∀ vnic ip, env.ifconfig vnic ip ≠ some .systemExit)
    {es : List (Scalar × List String)} {nodes : List OutstationNode}
    (h : es.foldlM (outstationNode env cfg) nodes w = .error .systemExit w') :
    Brought (∀ e ∈ es.takeWhile (fun e => passes cfg e.2), Addressed cfg e.2) w w' := by
  induction es generalizing nodes w with
  | nil => exact absurd h PyM.pure_error
  | cons e es ih =>
    rw [List.foldlM_cons] at h
    obtain h | ⟨nodes₁, w₁, hfirst, h⟩ := PyM.bind_error.mp h
    · obtain ⟨hfails, rfl⟩ := outstationNode_exits hifconfig h
      refine .nothing rfl fun e' he' => ?_
      rw [List.takeWhile_cons, if_neg (by simp [hfails])] at he'
      cases he'
    · obtain ⟨hpasses, hbrought⟩ := outstationNode_returns hfirst
      refine (hbrought.trans (ih h)).congr ?_
      rw [List.takeWhile_cons, if_pos hpasses, List.forall_mem_cons]

/-! ## The call -/

/-- The first two loops: the second brings up nothing. -/
theorem collectOutstations_ends (hifconfig : ∀ vnic ip, env.ifconfig vnic ip ≠ some .systemExit)
    (h : PyM.Ends .systemExit (collectOutstations env cfg) w w') :
    Brought (∀ entries, masterEntries cfg = .ok entries →
      ∀ e ∈ reached env cfg .init w entries, OwnAddr e) w w' := by
  obtain ⟨herror, rfl⟩ | ⟨entries, hentries, h⟩ := PyM.ends_lift_bind.mp h
  · refine .nothing rfl fun entries hentries => ?_
    rw [herror] at hentries
    cases hentries
  have honly : (∀ e ∈ reached env cfg .init w entries, OwnAddr e) ↔
      ∀ entries, masterEntries cfg = .ok entries →
        ∀ e ∈ reached env cfg .init w entries, OwnAddr e := by
    constructor
    · intro hall entries' hentries'
      cases hentries.symm.trans hentries'
      exact hall
    · intro hall
      exact hall entries hentries
  refine Brought.congr ?_ honly
  obtain h | ⟨st, w₂, hloop, h⟩ := PyM.ends_bind.mp h
  · exact processMasters_ends hifconfig (Or.inr h)
  · have hup : w'.up = w₂.up :=
      (PyM.Frames.bind (.lift _) fun groups => .pure (st, groups)).ends h
    obtain ⟨l, hl, hiff⟩ := processMasters_ends hifconfig (Or.inl ⟨st, hloop⟩)
    exact ⟨l, hup.trans hl, hiff⟩

/-- **What a rejected configuration leaves behind.** Where the call exits, the interfaces of
the host are as before exactly if every entry and every list of outstations that it got to
before the check had an address of its own. -/
theorem exit_keeps_interfaces_iff
    (hifconfig : ∀ vnic ip, env.ifconfig vnic ip ≠ some .systemExit)
    (h : processNodes env cfg w = .error .systemExit w') :
    w'.up = w.up ↔ AllAddressed env cfg w := by
  refine Brought.up_iff ?_
  obtain h | ⟨⟨st, groups⟩, w₁, hcollect, h⟩ := PyM.bind_error.mp h
  · refine (collectOutstations_ends hifconfig (Or.inr h)).congr ?_
    constructor
    · intro hmasters
      refine ⟨hmasters, fun st groups w₁ hcollect => ?_⟩
      rw [h] at hcollect
      cases hcollect
    · intro hall
      exact hall.masters
  · have hmasters := collectOutstations_ends hifconfig (Or.inl ⟨_, hcollect⟩)
    obtain h | ⟨nodes, _, -, h⟩ := PyM.bind_error.mp h
    · refine (hmasters.trans (outstationNodes_exits hifconfig h)).congr ?_
      constructor
      · intro hall
        refine ⟨hall.1, fun st' groups' w₂ hcollect' => ?_⟩
        cases hcollect.symm.trans hcollect'
        exact hall.2
      · intro hall
        exact ⟨hall.masters, hall.groups st groups w₁ hcollect⟩
    · exact absurd h PyM.pure_error

theorem mem_of_mem_reached {js : List Json} {st : ParserState} {e : Json × World}
    (he : e ∈ reached env cfg st w js) : e.1 ∈ js := by
  induction js generalizing st w with
  | nil => cases he
  | cons j js ih =>
    rw [reached] at he
    obtain rfl | he := List.mem_cons.mp he
    · exact List.mem_cons_self
    · split at he
      · exact List.mem_cons_of_mem j (ih he)
      · cases he

/-- A file in which every master and every outstation has an address is rejected without a
trace, whichever check it fails. -/
theorem allAddressed_of_file (hmasters : ∀ entries, masterEntries cfg = .ok entries →
      ∀ j ∈ entries, ∀ entry, j.asDict = .ok entry →
        ((entry.get? "IP Address").getD .null).truthy = true)
    (houtstations : ∀ name, IsObject cfg name → (ipOf cfg name).truthy = true) :
    AllAddressed env cfg w := by
  refine ⟨fun entries hentries e he entry hkept => ?_, fun st groups w₁ hcollect e he => ?_⟩
  · unfold kept at hkept
    split at hkept
    · exact hmasters entries hentries e.1 (mem_of_mem_reached he) entry
        (Fallible.toOption_eq_some.mp hkept)
    · cases hkept
  · have hgroups := (collectOutstations_ok hcollect).groups_ok
    obtain ⟨hnames, hne⟩ := mem_groups hgroups ((List.takeWhile_sublist _).subset he)
    obtain ⟨name, hname⟩ := List.exists_mem_of_ne_nil _ hne
    refine ⟨name, hname, houtstations name ?_⟩
    rw [hnames] at hname
    exact (hostAddr_iff.mp ((groupOutstations_ok hgroups).1 name (List.mem_of_mem_filter hname))).1

/-- A master at the address `ip` whose outstation is not in the file. -/
def unknownConfig (ip : Option String) : Config :=
  Dict.ofList [("Virtual Interface", .str "eth0"),
    ("Master Nodes", .arr [.obj ([("Name", .str "M1"), ("Outstations", .arr [.str "S1"])] ++
      (ip.map fun a => ("IP Address", .str a)).toList)])]

theorem exit_keeps_interfaces_addressed : ∃ w', processNodes plainEnv
      (unknownConfig (some "10.1.0.1")) freshWorld = .error .systemExit w' ∧
    (w'.up = freshWorld.up ↔
      AllAddressed plainEnv (unknownConfig (some "10.1.0.1")) freshWorld) ∧
    w'.up = freshWorld.up := by
  have hifconfig : ∀ vnic ip, plainEnv.ifconfig vnic ip ≠ some .systemExit := by simp [plainEnv]
  obtain ⟨w', hexit⟩ : ∃ w', processNodes plainEnv (unknownConfig (some "10.1.0.1"))
      freshWorld = .error .systemExit w' := ⟨_, rfl⟩
  have hiff := exit_keeps_interfaces_iff hifconfig hexit
  refine ⟨w', hexit, hiff, hiff.mpr (allAddressed_of_file ?_ ?_)⟩
  · intro entries hentries j hj entry hentry
    cases hentries
    cases List.mem_singleton.mp hj
    cases hentry
    rfl
  · -- no name is that of an object
    rintro name ⟨fields, hfields⟩
    have hmem := Dict.mem_of_get?_ofList hfields
    simp at hmem
    cases hmem.2

/-- Without an address of its own it keeps the interface that was brought up for it. -/
theorem interface_left : ¬ ∀ env cfg w w',
    (∀ vnic ip, env.ifconfig vnic ip ≠ some .systemExit) →
    processNodes env cfg w = .error .systemExit w' → w'.up = w.up := by
  intro hkeeps
  have hup := hkeeps plainEnv (unknownConfig none) freshWorld
    { cidr := some ["10.0.0.2", "10.0.0.3", "10.0.0.4"], vnictrack := 1
      up := [("eth0:0", "10.0.0.1")] } (by simp [plainEnv]) rfl
  exact absurd hup (by decide)

end IcsTrafficGen.Modbus
