import IcsTrafficGen.Dnp3.CommandDispatch

/- Whether the command sets that a master is given have commands in them. A header is started
   before the value is looked at, and a set is handed over as soon as an element asks for it,
   whatever its name: none is empty exactly if every relay command has one of the four values
   and each set has an element with a known name (`noEmptyCommand_iff`). -/
namespace IcsTrafficGen.Dnp3
open MasterStation

/-- The names that `FireOffMasterCommand` starts a header for. -/
def functionNames : List String :=
  ["CROB", "AnalogOutputInt16", "AnalogOutputInt32", "AnalogOutputFloat32", "AnalogOutputDouble64"]

/-- Every command set that is handed over has a header, and every header a command. -/
def NoEmptyCommand (requests : List Request) : Prop :=
  ∀ r ∈ requests, ∀ set, r = .selectAndOperate set ∨ r = .directOperate set →
    set ≠ [] ∧ ∀ header ∈ set, header ≠ []

/-- The elements of a type, if there are any, have a known name among them, and their relay
commands one of the four values. -/
structure SendsCommands (cmdList : List CmdStruct) (funcType : String) : Prop where
  known : (∃ c ∈ cmdList, c.fType = funcType) →
    ∃ c ∈ cmdList, c.fType = funcType ∧ c.fName ∈ functionNames
  code : ∀ c ∈ cmdList, c.fType = funcType → c.fName = "CROB" →
    c.value = .fin 1 ∨ c.value = .fin 2 ∨ c.value = .fin 3 ∨ c.value = .fin 4

/-! ## Headers -/

/-- A name starts at most one header, and only an unknown value of a relay command leaves it
empty. -/
theorem startHeader_set {c : CmdStruct} {set : CommandSet}
    (h : startHeader c.fName c.index c.value = .ok set) :
    (set ≠ [] ↔ c.fName ∈ functionNames) ∧
      ((∀ header ∈ set, header ≠ []) ↔ (c.fName = "CROB" → (controlCode c.value).isSome)) := by
  unfold startHeader at h
  split at h
  · next hname =>
    split at h
    · next code hcode =>
      cases h
      simp [hname, hcode, functionNames]
    · next hcode =>
      cases h
      simp [hname, hcode, functionNames]
  split at h
  · next hname =>
    obtain ⟨n, -, h⟩ := Fallible.bind_ok.mp h
    cases h
    simp [hname, functionNames]
  split at h
  · next hname =>
    obtain ⟨n, -, h⟩ := Fallible.bind_ok.mp h
    cases h
    simp [hname, functionNames]
  split at h
  · next hname =>
    cases h
    simp [hname, functionNames]
  split at h
  · next hname =>
    cases h
    simp [hname, functionNames]
  · next hcrob hint16 hint32 hfloat32 hdouble64 =>
    cases h
    simp [hcrob, hint16, hint32, hfloat32, hdouble64, functionNames]

/-- The headers that the elements of a type start, one after the other. -/
def Starts (funcType : String) (cmdList : List CmdStruct) (set : CommandSet) : Prop :=
  ∃ sets : List CommandSet, set = sets.flatten ∧
    List.Forall₂ (fun c set => startHeader c.fName c.index c.value = .ok set)
      (cmdList.filter fun c => c.fType = funcType) sets

theorem Starts.nil (funcType : String) : Starts funcType [] [] := ⟨[], rfl, .nil⟩

theorem Starts.append {funcType : String} {cs cs' : List CmdStruct} {set set' : CommandSet}
    (h : Starts funcType cs set) (h' : Starts funcType cs' set') :
    Starts funcType (cs ++ cs') (set ++ set') := by
  obtain ⟨sets, rfl, hsets⟩ := h
  obtain ⟨sets', rfl, hsets'⟩ := h'
  refine ⟨sets ++ sets', List.flatten_append.symm, ?_⟩
  rw [List.filter_append]
  exact List.rel_append hsets hsets'

theorem Starts.other {funcType : String} {c : CmdStruct} (h : c.fType ≠ funcType) :
    Starts funcType [c] [] := by
  refine ⟨[], rfl, ?_⟩
  rw [List.filter_singleton, decide_eq_false h]
  exact .nil

theorem Starts.own {funcType : String} {c : CmdStruct} {set : CommandSet} (h : c.fType = funcType)
    (hset : startHeader c.fName c.index c.value = .ok set) : Starts funcType [c] set := by
  refine ⟨[set], (List.append_nil set).symm, ?_⟩
  rw [List.filter_singleton, decide_eq_true h]
  exact .cons hset .nil

/-- What the elements of one type come to together. -/
theorem startHeader_sets {cs : List CmdStruct} {sets : List CommandSet}
    (h : List.Forall₂ (fun c set => startHeader c.fName c.index c.value = .ok set) cs sets) :
    (sets.flatten ≠ [] ↔ ∃ c ∈ cs, c.fName ∈ functionNames) ∧
      ((∀ header ∈ sets.flatten, header ≠ []) ↔
        ∀ c ∈ cs, c.fName = "CROB" → (controlCode c.value).isSome) := by
  induction h with
  | nil => simp
  | cons hset _ ih =>
    obtain ⟨hname, hcode⟩ := startHeader_set hset
    obtain ⟨ihname, ihcode⟩ := ih
    constructor
    · rw [List.flatten_cons, ne_eq, List.append_eq_nil_iff, not_and_or, ← ne_eq, ← ne_eq, hname,
        ihname]
      simp
    · simp only [List.flatten_cons, List.mem_append, or_imp, forall_and, List.forall_mem_cons, hcode,
        ihcode]

/-- A set has a header if it is asked for, and a command under each, exactly if its elements are
of the right kind. -/
theorem Starts.sendsCommands_iff {funcType : String} {cmdList : List CmdStruct} {set : CommandSet}
    (h : Starts funcType cmdList set) :
    ((∃ c ∈ cmdList, c.fType = funcType) → set ≠ [] ∧ ∀ header ∈ set, header ≠ []) ↔
      SendsCommands cmdList funcType := by
  obtain ⟨sets, rfl, hsets⟩ := h
  obtain ⟨hname, hcode⟩ := startHeader_sets hsets
  have hmem (c : CmdStruct) : c ∈ cmdList.filter (fun c => c.fType = funcType) ↔
      c ∈ cmdList ∧ c.fType = funcType := by simp
  simp only [hname, hcode, hmem, controlCode_isSome, and_assoc]
  constructor
  · intro h
    refine ⟨fun hasked => (h hasked).1, fun c hc htype => ?_⟩
    exact (h ⟨c, hc, htype⟩).2 c ⟨hc, htype⟩
  · rintro ⟨hknown, hvalue⟩ hasked
    exact ⟨hknown hasked, fun c hc => hvalue c hc.1 hc.2⟩

/-! ## The loop -/

/-- What the passes over `cmdList` have done. -/
structure Accumulates (cmdList : List CmdStruct) (s s' : Firing) : Prop where
  master : ∃ scans, s'.master = s.master ++ scans ∧
    ∀ r ∈ scans, ∃ group variation start stop, r = .scanRange group variation start stop
  sbo : ∃ set, s'.sboCommands = s.sboCommands ++ set ∧ Starts "SBO" cmdList set
  direct : ∃ set, s'.doCommands = s.doCommands ++ set ∧ Starts "DO" cmdList set
  sboFuncCodes : s'.sboFuncCodes = true ↔ s.sboFuncCodes = true ∨ ∃ c ∈ cmdList, c.fType = "SBO"
  doFuncCodes : s'.doFuncCodes = true ↔ s.doFuncCodes = true ∨ ∃ c ∈ cmdList, c.fType = "DO"

theorem fireScan_ok {c : CmdStruct} {s s' : Firing} (h : fireScan c s = .ok s') :
    ∃ scans, s' = { s with master := s.master ++ scans } ∧
      ∀ r ∈ scans, ∃ group variation start stop, r = .scanRange group variation start stop := by
  unfold fireScan at h
  split at h
  · cases h
    exact ⟨[], by rw [List.append_nil], by simp⟩
  · obtain ⟨groupId, -, h⟩ := Fallible.bind_ok.mp h
    obtain ⟨varId, -, h⟩ := Fallible.bind_ok.mp h
    obtain ⟨stop, -, h⟩ := Fallible.bind_ok.mp h
    cases h
    exact ⟨_, rfl, by simp⟩

/-- One pass. -/
theorem Accumulates.step {c : CmdStruct} {s s' : Firing} (h : fireCommand s c = .ok s') :
    Accumulates [c] s s' := by
  unfold fireCommand at h
  split at h
  · next hsbo =>
    obtain ⟨set, hset, h⟩ := Fallible.bind_ok.mp h
    cases h
    have hdo : c.fType ≠ "DO" := by rw [hsbo]; decide
    refine ⟨⟨[], (List.append_nil _).symm, by simp⟩, ⟨set, rfl, .own hsbo hset⟩,
      ⟨[], (List.append_nil _).symm, .other hdo⟩, by simp [hsbo], by simp [hdo]⟩
  split at h
  · next hsbo hdo =>
    obtain ⟨set, hset, h⟩ := Fallible.bind_ok.mp h
    cases h
    refine ⟨⟨[], (List.append_nil _).symm, by simp⟩, ⟨[], (List.append_nil _).symm, .other hsbo⟩,
      ⟨set, rfl, .own hdo hset⟩, by simp [hsbo], by simp [hdo]⟩
  · next hsbo hdo =>
    -- neither of the command sets changes
    have hscans : ∃ scans, s' = { s with master := s.master ++ scans } ∧
        ∀ r ∈ scans, ∃ group variation start stop, r = .scanRange group variation start stop := by
      split at h
      · exact fireScan_ok h
      · cases h
        exact ⟨[], by rw [List.append_nil], by simp⟩
    obtain ⟨scans, rfl, hscans⟩ := hscans
    exact ⟨⟨scans, rfl, hscans⟩, ⟨[], (List.append_nil _).symm, .other hsbo⟩,
      ⟨[], (List.append_nil _).symm, .other hdo⟩, by simp [hsbo], by simp [hdo]⟩

theorem Accumulates.refl (s : Firing) : Accumulates [] s s :=
  ⟨⟨[], (List.append_nil _).symm, by simp⟩, ⟨[], (List.append_nil _).symm, .nil _⟩,
    ⟨[], (List.append_nil _).symm, .nil _⟩, by simp, by simp⟩

theorem Accumulates.trans {cs cs' : List CmdStruct} {s s₁ s' : Firing} (h : Accumulates cs s s₁)
    (h' : Accumulates cs' s₁ s') : Accumulates (cs ++ cs') s s' := by
  obtain ⟨⟨scans, hmaster, hscans⟩, ⟨sbo, hsbo, hstarts⟩, ⟨direct, hdirect, hdstarts⟩, hsflag,
    hdflag⟩ := h
  obtain ⟨⟨scans', hmaster', hscans'⟩, ⟨sbo', hsbo', hstarts'⟩, ⟨direct', hdirect', hdstarts'⟩,
    hsflag', hdflag'⟩ := h'
  refine ⟨⟨scans ++ scans', ?_, ?_⟩, ⟨sbo ++ sbo', ?_, hstarts.append hstarts'⟩,
    ⟨direct ++ direct', ?_, hdstarts.append hdstarts'⟩, ?_, ?_⟩
  · rw [hmaster', hmaster, List.append_assoc]
  · exact List.forall_mem_append.mpr ⟨hscans, hscans'⟩
  · rw [hsbo', hsbo, List.append_assoc]
  · rw [hdirect', hdirect, List.append_assoc]
  · rw [hsflag', hsflag]
    simp only [List.mem_append, or_and_right, exists_or, or_assoc]
  · rw [hdflag', hdflag]
    simp only [List.mem_append, or_and_right, exists_or, or_assoc]

theorem fireCommand_accumulates {cmdList : List CmdStruct} {s s' : Firing}
    (h : cmdList.foldlM fireCommand s = .ok s') : Accumulates cmdList s s' := by
  induction cmdList generalizing s with
  | nil =>
    cases h
    exact .refl _
  | cons c cs ih =>
    rw [List.foldlM_cons] at h
    obtain ⟨s₁, hc, h⟩ := Fallible.bind_ok.mp h
    exact (Accumulates.step hc).trans (ih h)

/-! ## The requests -/

theorem noEmptyCommand_append {rs rs' : List Request} :
    NoEmptyCommand (rs ++ rs') ↔ NoEmptyCommand rs ∧ NoEmptyCommand rs' := by
  unfold NoEmptyCommand
  exact List.forall_mem_append

theorem noEmptyCommand_select {set : CommandSet} : NoEmptyCommand [.selectAndOperate set] ↔
    set ≠ [] ∧ ∀ header ∈ set, header ≠ [] := by
  simp [NoEmptyCommand]

theorem noEmptyCommand_direct {set : CommandSet} : NoEmptyCommand [.directOperate set] ↔
    set ≠ [] ∧ ∀ header ∈ set, header ≠ [] := by
  simp [NoEmptyCommand]

/-- No command set that a call hands over is empty, nor any header in it, exactly if the relay
commands have values that are known and each set has an element with a known name. -/
theorem noEmptyCommand_iff {master requests : List Request} {cmdList : List CmdStruct}
    (h : fireOffMasterCommand master cmdList = .ok requests) :
    NoEmptyCommand (requests.drop master.length) ↔
      SendsCommands cmdList "SBO" ∧ SendsCommands cmdList "DO" := by
  obtain ⟨s, hloop, h⟩ := Fallible.bind_ok.mp h
  cases h
  obtain ⟨⟨scans, hmaster, hscans⟩, ⟨sbo, hsbo, hstarts⟩, ⟨direct, hdirect, hdstarts⟩, hsflag,
    hdflag⟩ := fireCommand_accumulates hloop
  simp only [Firing.start, List.nil_append, Bool.false_eq_true, false_or] at hmaster hsbo hdirect hsflag hdflag
  have hnew : NoEmptyCommand scans := by
    intro r hr set hset
    obtain ⟨group, variation, start, stop, rfl⟩ := hscans r hr
    simp at hset
  rw [← hstarts.sendsCommands_iff, ← hdstarts.sendsCommands_iff, ← hsflag, ← hdflag, ← hsbo,
    ← hdirect, hmaster]
  -- the requests behind the scans, by the two flags
  cases s.sboFuncCodes <;> cases s.doFuncCodes <;>
    simp only [if_true, if_false, Bool.false_eq_true, List.append_assoc, List.drop_left,
      noEmptyCommand_append, noEmptyCommand_select, noEmptyCommand_direct, hnew, true_and,
      false_implies, true_implies, and_true]

/-- The relay command of the example script, with the value 0: it asks for a set that has an
empty header. -/
theorem emptyCommand_sent :
    fireOffMasterCommand [] [{ fName := "CROB", fType := "DO", index := 4, value := .zero }] =
      .ok [.directOperate [[]]] ∧
    ¬ NoEmptyCommand [.directOperate [[]]] := by
  refine ⟨by decide +kernel, fun h => ?_⟩
  exact (h _ List.mem_cons_self _ (Or.inr rfl)).2 [] List.mem_cons_self rfl

theorem noEmptyCommand_relay : ∃ requests,
    fireOffMasterCommand [] [{ fName := "CROB", fType := "DO", index := 4, value := .fin 1 }] =
      .ok requests ∧ NoEmptyCommand requests := by
  have hcall : fireOffMasterCommand []
      [{ fName := "CROB", fType := "DO", index := 4, value := .fin 1 }] =
        .ok [.directOperate [[(.controlRelayOutputBlock .pulseOn, 4)]]] := by decide +kernel
  refine ⟨_, hcall, (noEmptyCommand_iff hcall).mpr ⟨⟨?_, ?_⟩, ⟨?_, ?_⟩⟩⟩
  all_goals simp [functionNames]

end IcsTrafficGen.Dnp3
