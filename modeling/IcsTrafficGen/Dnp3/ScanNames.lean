import IcsTrafficGen.Dnp3.CommandDispatch

/- Which names of scans come to the group and the variation they name. The pattern of
   `FireOffMasterCommand` allows one digit for the variation and any number for the group:
   `Group21Var10`, one of the program's own variations, is passed over, and a group above
   255 is cut to its last byte or, where no `int` holds it, ends the program
   (`faithfulScan_iff`). -/
namespace IcsTrafficGen.Dnp3
open MasterStation

/-- `Group<g>Var<v>`, each number with any leading zeros: the two texts of digits. -/
structure IsScanName (name : String) (ds es : List Char) (g v : ℕ) : Prop where
  text : name.toList = "Group".toList ++ ds ++ "Var".toList ++ es
  group : CppString.IsNumber ds g
  var : CppString.IsNumber es v

/-- The name of a group and a variation that fit into a byte. -/
def NamesScan (name : String) (g v : ℕ) : Prop :=
  g ≤ 255 ∧ v ≤ 255 ∧ ∃ ds es, IsScanName name ds es g v

/-- What a master is asked for by the loop, and behind it. -/
def MasterStation.Firing.requests (s : Firing) : List Request :=
  s.master ++ (if s.sboFuncCodes then [.selectAndOperate s.sboCommands] else []) ++
    (if s.doFuncCodes then [.directOperate s.doCommands] else [])

/-- In every list of commands: a command that names a group and a variation is a scan of
these two at its place, and any other is passed over. -/
structure FaithfulScan (c : CmdStruct) : Prop where
  named : ∀ g v, NamesScan c.fName g v → ∃ start stop, ∀ master before after,
    fireOffMasterCommand master (before ++ c :: after) = (do
      let s ← before.foldlM fireCommand (.start master)
      let s ← after.foldlM fireCommand
        { s with master := s.master ++ [.scanRange g v start stop] }
      pure s.requests)
  other : (¬ ∃ g v, NamesScan c.fName g v) → ∀ master before after,
    fireOffMasterCommand master (before ++ c :: after) =
      fireOffMasterCommand master (before ++ after)

/-- Where the name has the form: either the variation has one digit, the group fits into a
byte and the value rounds to an `int`, or the variation has more digits and one of the two
numbers does not fit. -/
def ScanFits (c : CmdStruct) : Prop :=
  ∀ ds es g v, IsScanName c.fName ds es g v →
    es.length = 1 ∧ g ≤ 255 ∧ (∃ stop, toInt32 c.value.round = .ok stop) ∨
    es.length ≠ 1 ∧ (255 < g ∨ 255 < v)

/-! ## Names -/

/-- A name has the form in one way. -/
theorem IsScanName.unique {name : String} {ds es ds' es' : List Char} {g v g' v' : ℕ}
    (h : IsScanName name ds es g v) (h' : IsScanName name ds' es' g' v') :
    ds = ds' ∧ es = es' ∧ g = g' ∧ v = v' := by
  have hread {ts : List Char} (us : List Char) (hts : ∀ c ∈ ts, c.isDigit = true) :
      (ts ++ ("Var".toList ++ us)).takeWhile Char.isDigit = ts := by
    rw [List.takeWhile_append_of_pos hts]
    exact List.append_nil ts
  have htext : ds ++ ("Var".toList ++ es) = ds' ++ ("Var".toList ++ es') := by
    have hboth := h.text.symm.trans h'.text
    simp only [List.append_assoc] at hboth
    exact List.append_cancel_left hboth
  have hds : ds = ds' := by
    rw [← hread es h.group.digits, htext, hread es' h'.group.digits]
  subst hds
  have hes : es = es' := List.append_cancel_left (List.append_cancel_left htext)
  subst hes
  exact ⟨rfl, rfl, h.group.val.symm.trans h'.group.val, h.var.val.symm.trans h'.var.val⟩

/-- A name that matches has the form, with one digit for the variation. -/
theorem isScanName_of_match {name : String} {group : List Char} {var : Char}
    (h : matchGroupVar name = some (group, var)) :
    IsScanName name group [var] (PTree.digitsVal group) (PTree.digitsVal [var]) := by
  obtain ⟨htext, hne, hgroup, hvar⟩ := matchGroupVar_eq_some.mp h
  exact ⟨htext, ⟨hne, hgroup, rfl⟩, ⟨List.cons_ne_nil _ _, by simpa using hvar, rfl⟩⟩

theorem IsScanName.matches {name : String} {ds : List Char} {c : Char} {g v : ℕ}
    (h : IsScanName name ds [c] g v) : matchGroupVar name = some (ds, c) :=
  matchGroupVar_eq_some.mpr ⟨h.text, h.group.ne_nil, h.group.digits, h.var.digits c (by simp)⟩

/-! ## One command among others -/

theorem fireOffMasterCommand_eq (master : List Request) (cmds : List CmdStruct) :
    fireOffMasterCommand master cmds = (do
      let s ← cmds.foldlM fireCommand (.start master)
      pure s.requests) := by
  unfold fireOffMasterCommand
  cases cmds.foldlM fireCommand (.start master) with
  | error e => rfl
  | ok s =>
    show Except.ok _ = Except.ok _
    unfold MasterStation.Firing.requests
    cases s.sboFuncCodes <;> cases s.doFuncCodes <;> simp

theorem fireOffMasterCommand_append (master : List Request) (before : List CmdStruct)
    (c : CmdStruct) (after : List CmdStruct) :
    fireOffMasterCommand master (before ++ c :: after) = (do
      let s ← before.foldlM fireCommand (.start master)
      let s ← fireCommand s c
      let s ← after.foldlM fireCommand s
      pure s.requests) := by
  rw [fireOffMasterCommand_eq, List.foldlM_append]
  cases before.foldlM fireCommand (.start master) with
  | error e => rfl
  | ok s =>
    show (List.foldlM fireCommand s (c :: after) >>= _) = _
    rw [List.foldlM_cons]
    show _ = (fireCommand s c >>= _)
    cases fireCommand s c <;> rfl

theorem fireCommand_scan {c : CmdStruct} (h : c.fType = "Scan") (s : Firing) :
    fireCommand s c = fireScan c s := by
  rw [fireCommand, h]
  rfl

theorem fireScan_unmatched {c : CmdStruct} (h : matchGroupVar c.fName = none) (s : Firing) :
    fireScan c s = .ok s := by
  rw [fireScan, h]
  rfl

theorem faithfulScan_of_fits {c : CmdStruct} (htype : c.fType = "Scan") (h : ScanFits c) :
    FaithfulScan c where
  named g v hnames := by
    obtain ⟨hg, hv, ds, es, hname⟩ := hnames
    rcases h ds es g v hname with ⟨hlength, -, stop, hstop⟩ | ⟨-, hlarge⟩
    · obtain ⟨d, rfl⟩ := List.length_eq_one_iff.mp hlength
      have hgroup : Cpp.toUInt8 g = g := by
        unfold Cpp.toUInt8
        omega
      have hpass (s : Firing) : fireCommand s c = .ok { s with
          master := s.master ++ [.scanRange g v (Cpp.toUInt16 c.index) (Cpp.toUInt16 stop)] } := by
        rw [fireCommand_scan htype, fireScan_matched hname.matches, hname.group.val,
          hname.var.val, hgroup, if_pos (by omega), hstop]
        rfl
      refine ⟨Cpp.toUInt16 c.index, Cpp.toUInt16 stop, fun master before after => ?_⟩
      rw [fireOffMasterCommand_append]
      simp only [hpass]
      rfl
    · omega
  other hnone master before after := by
    have hpass (s : Firing) : fireCommand s c = .ok s := by
      rw [fireCommand_scan htype]
      cases hmatch : matchGroupVar c.fName with
      | none => exact fireScan_unmatched hmatch s
      | some m =>
        obtain ⟨group, var⟩ := m
        have hname := isScanName_of_match hmatch
        have hvar := digitsVal_singleton_le (hname.var.digits var (by simp))
        rcases h _ _ _ _ hname with ⟨-, hgroup, -⟩ | ⟨hlength, -⟩
        · exact absurd ⟨_, _, hgroup, by omega, _, _, hname⟩ hnone
        · exact absurd rfl hlength
    rw [fireOffMasterCommand_append, fireOffMasterCommand_eq, List.foldlM_append]
    simp only [hpass]
    cases before.foldlM fireCommand (.start master) <;> rfl

/-- The call with no other command. -/
theorem fireOffMasterCommand_single {c : CmdStruct} (h : c.fType = "Scan") :
    fireOffMasterCommand [] ([] ++ c :: []) = (do
      let s ← fireScan c (.start [])
      pure s.requests) := by
  rw [fireOffMasterCommand_append]
  show (fireCommand (.start []) c >>= _) = _
  rw [fireCommand_scan h]
  rfl

section
variable {c : CmdStruct} {ds es : List Char} {g v : ℕ}

/-- The pattern takes a name with one digit for the variation, and the scan is sent. -/
theorem FaithfulScan.fits_of_digit (h : FaithfulScan c) (htype : c.fType = "Scan") {d : Char}
    (hname : IsScanName c.fName ds [d] g v) :
    g ≤ 255 ∧ ∃ stop, toInt32 c.value.round = .ok stop := by
  have hsingle := fireOffMasterCommand_single htype
  rw [fireScan_matched hname.matches, hname.group.val] at hsingle
  by_cases hgroup : g ≤ 255
  · have hvar : v ≤ 9 := by
      rw [← hname.var.val]
      exact digitsVal_singleton_le (hname.var.digits d (by simp))
    obtain ⟨start, stop, hnamed⟩ := h.named g v ⟨hgroup, by omega, _, _, hname⟩
    refine ⟨hgroup, ?_⟩
    cases hstop : toInt32 c.value.round with
    | ok stop' => exact ⟨stop', rfl⟩
    | error e =>
      rw [if_pos (by omega), hstop, hnamed] at hsingle
      cases hsingle
  · -- no group and variation is named, and yet a scan is sent or the program ends
    have hnone : ¬ ∃ g v, NamesScan c.fName g v := by
      intro hnamed
      obtain ⟨g', v', hg', -, ds', es', hname'⟩ := hnamed
      obtain ⟨-, -, rfl, -⟩ := hname.unique hname'
      exact hgroup hg'
    have hpassed := h.other hnone [] [] []
    rw [hsingle] at hpassed
    split at hpassed
    · cases hstop : toInt32 c.value.round with
      | ok stop =>
        rw [hstop] at hpassed
        cases hpassed
      | error e =>
        rw [hstop] at hpassed
        cases hpassed
    · cases hpassed

/-- The pattern takes no name with more digits, and nothing is sent. -/
theorem FaithfulScan.fits_of_digits (h : FaithfulScan c) (htype : c.fType = "Scan")
    (hname : IsScanName c.fName ds es g v) (hlength : es.length ≠ 1) : 255 < g ∨ 255 < v := by
  by_contra hfits
  obtain ⟨start, stop, hnamed⟩ := h.named g v ⟨by omega, by omega, _, _, hname⟩
  have hunmatched : matchGroupVar c.fName = none := by
    cases hmatch : matchGroupVar c.fName with
    | none => rfl
    | some m =>
      obtain ⟨-, rfl, -, -⟩ := hname.unique (isScanName_of_match hmatch)
      exact absurd rfl hlength
  have hsingle := fireOffMasterCommand_single htype
  rw [fireScan_unmatched hunmatched, hnamed] at hsingle
  cases hsingle

end

theorem fits_of_faithfulScan {c : CmdStruct} (htype : c.fType = "Scan") (h : FaithfulScan c) :
    ScanFits c := by
  intro ds es g v hname
  by_cases hlength : es.length = 1
  · obtain ⟨d, rfl⟩ := List.length_eq_one_iff.mp hlength
    exact Or.inl ⟨rfl, h.fits_of_digit htype hname⟩
  · exact Or.inr ⟨hlength, h.fits_of_digits htype hname hlength⟩

/-- A scan is faithful to its name exactly if the name fits the pattern and the pattern fits
the name. -/
theorem faithfulScan_iff {c : CmdStruct} (htype : c.fType = "Scan") :
    FaithfulScan c ↔ ScanFits c :=
  ⟨fits_of_faithfulScan htype, faithfulScan_of_fits htype⟩

def scanCommand (funcName : String) : CmdStruct :=
  { fName := funcName, fType := "Scan", index := 0, value := .zero }

/-- A scan of the group and variation that it names. -/
theorem faithfulScan_group30 : FaithfulScan (scanCommand "Group30Var2") := by
  have hname : IsScanName "Group30Var2" ['3', '0'] ['2'] 30 2 :=
    ⟨by decide, ⟨by decide, by simp, by decide⟩, ⟨by decide, by simp, by decide⟩⟩
  refine (faithfulScan_iff rfl).mpr fun ds es g v hname' => ?_
  obtain ⟨-, rfl, rfl, -⟩ := hname.unique hname'
  exact Or.inl ⟨rfl, by decide, 0, by decide +kernel⟩

/-- A variation of the program's own tables is passed over, a group is cut to a byte, and one
that no `int` holds ends the program. -/
theorem scans_unfaithful : ¬ FaithfulScan (scanCommand "Group21Var10") ∧
    fireOffMasterCommand [] [scanCommand "Group21Var10"] = .ok [] ∧
    fireOffMasterCommand [] [scanCommand "Group256Var1"] = .ok [.scanRange 0 1 0 0] ∧
    fireOffMasterCommand [] [scanCommand "Group2147483648Var1"] = .error .throws := by
  have hpassed : fireOffMasterCommand [] [scanCommand "Group21Var10"] = .ok [] := by
    decide +kernel
  refine ⟨fun h => ?_, hpassed, by decide +kernel, by decide +kernel⟩
  have hname : IsScanName "Group21Var10" ['2', '1'] ['1', '0'] 21 10 :=
    ⟨by decide, ⟨by decide, by simp, by decide⟩, ⟨by decide, by simp, by decide⟩⟩
  obtain ⟨start, stop, hnamed⟩ := h.named 21 10 ⟨by decide, by decide, _, _, hname⟩
  have hsent := hpassed.symm.trans (hnamed [] [] [])
  cases hsent

end IcsTrafficGen.Dnp3
