import IcsTrafficGen.Dnp3.ReadCommands

/- What the elements of `data` come to. The commands of the two command sets and the scans
   are those that the elements stand for exactly if every value fits into the type of its
   command, and the groups and ranges of the scans fit into theirs
   (`luaInvokeScript_delivers_iff`): `FireOffMasterCommand` converts them without a check. -/
namespace IcsTrafficGen.Dnp3
open MasterStation

/-! ## What an element stands for -/

/-- The value that stands for a code. -/
def ControlCode.value : ControlCode → Double
  | .pulseOn => .fin 1
  | .pulseOff => .fin 2
  | .latchOn => .fin 3
  | .latchOff => .fin 4

/-- The command of an element, with the element's own index and its own value. -/
inductive IsCommand (e : Element) : Command × ℕ → Prop where
  | crob (code : ControlCode) (name : e.funcName = "CROB") (value : e.value = code.value) :
      IsCommand e (.controlRelayOutputBlock code, e.index)
  | int16 (n : Int) (name : e.funcName = "AnalogOutputInt16") (value : toInt16 e.value = .ok n) :
      IsCommand e (.analogOutputInt16 n, e.index)
  | int32 (n : Int) (name : e.funcName = "AnalogOutputInt32") (value : toInt32 e.value = .ok n) :
      IsCommand e (.analogOutputInt32 n, e.index)
  | float32 (name : e.funcName = "AnalogOutputFloat32") :
      IsCommand e (.analogOutputFloat32 e.value.toFloat32, e.index)
  | double64 (name : e.funcName = "AnalogOutputDouble64") :
      IsCommand e (.analogOutputDouble64 e.value, e.index)

namespace Element

/-- Whether the element contributes a command to the set of its `funcType`. -/
def contributes (funcType : String) (e : Element) : Bool :=
  e.funcType == funcType &&
    (e.funcName == "CROB" && (e.value == .fin 1 || e.value == .fin 2 || e.value == .fin 3 ||
        e.value == .fin 4) ||
      e.funcName ∈ ["AnalogOutputInt16", "AnalogOutputInt32", "AnalogOutputFloat32",
        "AnalogOutputDouble64"])

/-- The group and the variation, where the name is `Group<g>Var<v>`. -/
def groupVar (e : Element) : Option (ℕ × ℕ) :=
  (matchGroupVar e.funcName).map fun m => (PTree.digitsVal m.1, PTree.digitsVal [m.2])

/-- Whether the element is a scan of a group that fits into a byte. -/
def scans (e : Element) : Bool :=
  e.funcType == "Scan" && e.groupVar.any (fun m => m.1 ≤ 255)

end Element

/-- The scan of an element, with the element's own two indexes. -/
def IsScan (e : Element) (r : Request) : Prop :=
  ∃ group var stop : ℕ, e.groupVar = some (group, var) ∧ toInt32 e.value.round = .ok stop ∧
    r = .scanRange group var e.index stop

/-- The outcome of a call: the scans in order, and then the two command sets, each handed over
once if an element asked for it. -/
def Delivers (master : List Request) (es : List Element) (outcome : Cpp (List Request)) : Prop :=
  ∃ scans sboCommands doCommands,
    List.Forall₂ IsScan (es.filter Element.scans) scans ∧
    List.Forall₂ IsCommand (es.filter (Element.contributes "SBO")) (CommandSet.commands sboCommands) ∧
    List.Forall₂ IsCommand (es.filter (Element.contributes "DO")) (CommandSet.commands doCommands) ∧
    outcome = .ok (master ++ scans ++
      (if es.any (fun e => e.funcType == "SBO") then [.selectAndOperate sboCommands] else []) ++
      (if es.any (fun e => e.funcType == "DO") then [.directOperate doCommands] else []))

/-- The value of a command fits into the type of the command, and the group and the second
index of a scan into theirs. -/
structure Element.Fits (e : Element) : Prop where
  int16 : e.funcType = "SBO" ∨ e.funcType = "DO" → e.funcName = "AnalogOutputInt16" →
    ∃ n, toInt16 e.value = .ok n
  int32 : e.funcType = "SBO" ∨ e.funcType = "DO" → e.funcName = "AnalogOutputInt32" →
    ∃ n, toInt32 e.value = .ok n
  group : e.funcType = "Scan" → ∀ m, e.groupVar = some m → m.1 ≤ 255
  stop : e.funcType = "Scan" → ∀ m, e.groupVar = some m →
    ∃ stop : ℕ, stop ≤ 65535 ∧ toInt32 e.value.round = .ok stop

/-! ## The names of scans -/

theorem afterPrefix_eq_some {pre s rest : List Char} :
    afterPrefix pre s = some rest ↔ s = pre ++ rest := by
  unfold afterPrefix
  split
  · next h =>
    obtain ⟨rest', rfl⟩ := List.isPrefixOf_iff_prefix.mp h
    simp
  · next h =>
    constructor
    · intro e
      cases e
    · intro e
      exact absurd (List.isPrefixOf_iff_prefix.mpr ⟨rest, e.symm⟩) h

/-- The names that match are those of the form `Group<g>Var<v>`. -/
theorem matchGroupVar_eq_some {name : String} {group : List Char} {var : Char} :
    matchGroupVar name = some (group, var) ↔
      name.toList = "Group".toList ++ group ++ "Var".toList ++ [var] ∧ group ≠ [] ∧
        (∀ c ∈ group, c.isDigit = true) ∧ var.isDigit = true := by
  have hvar : ∀ ds : List Char, (∀ c ∈ ds, c.isDigit = true) →
      (ds ++ ("Var".toList ++ [var])).takeWhile Char.isDigit = ds ∧
        (ds ++ ("Var".toList ++ [var])).dropWhile Char.isDigit = "Var".toList ++ [var] := by
    intro ds hds
    rw [List.takeWhile_append_of_pos hds, List.dropWhile_append_of_pos hds]
    exact ⟨List.append_nil ds, rfl⟩
  constructor
  · intro h
    simp only [matchGroupVar, Option.bind_eq_bind, Option.bind_eq_some_iff, afterPrefix_eq_some] at h
    obtain ⟨s, hname, s', hs', h⟩ := h
    split at h
    · next c =>
      split at h
      · next hc =>
        cases h
        refine ⟨?_, hc.1, List.all_eq_true.mp List.all_takeWhile, hc.2⟩
        rw [hname, List.append_assoc, List.append_assoc, ← hs', List.takeWhile_append_dropWhile]
      · cases h
    · cases h
  · intro ⟨hname, hne, hds, hdigit⟩
    rw [List.append_assoc, List.append_assoc] at hname
    have hgroup : afterPrefix "Group".toList name.toList =
        some (group ++ ("Var".toList ++ [var])) := afterPrefix_eq_some.mpr hname
    have hrest : afterPrefix "Var".toList ("Var".toList ++ [var]) = some [var] :=
      afterPrefix_eq_some.mpr rfl
    rw [matchGroupVar, hgroup]
    simp only [Option.bind_eq_bind, Option.bind_some, hvar group hds, hrest]
    rw [if_pos ⟨hne, hdigit⟩]

/-! ## One command -/

theorem controlCode_eq_some {value : Double} {code : ControlCode} :
    controlCode value = some code ↔ value = code.value := by
  have hone := Double.eqv_fin (d := value) (q := 1) (by decide)
  have htwo := Double.eqv_fin (d := value) (q := 2) (by decide)
  have hthree := Double.eqv_fin (d := value) (q := 3) (by decide)
  have hfour := Double.eqv_fin (d := value) (q := 4) (by decide)
  constructor
  · intro h
    unfold controlCode at h
    split at h
    · next hv =>
      cases h
      exact hone.mp hv
    split at h
    · next hv =>
      cases h
      exact htwo.mp hv
    split at h
    · next hv =>
      cases h
      exact hthree.mp hv
    split at h
    · next hv =>
      cases h
      exact hfour.mp hv
    · cases h
  · intro h
    rw [h]
    cases code <;> decide

theorem controlCode_isSome {value : Double} :
    (controlCode value).isSome = true ↔
      value = .fin 1 ∨ value = .fin 2 ∨ value = .fin 3 ∨ value = .fin 4 := by
  rw [Option.isSome_iff_exists]
  constructor
  · intro ⟨code, h⟩
    have hvalue := controlCode_eq_some.mp h
    cases code with
    | pulseOn => exact Or.inl hvalue
    | pulseOff => exact Or.inr (Or.inl hvalue)
    | latchOn => exact Or.inr (Or.inr (Or.inl hvalue))
    | latchOff => exact Or.inr (Or.inr (Or.inr hvalue))
  · intro h
    rcases h with h | h | h | h
    · exact ⟨.pulseOn, controlCode_eq_some.mpr h⟩
    · exact ⟨.pulseOff, controlCode_eq_some.mpr h⟩
    · exact ⟨.latchOn, controlCode_eq_some.mpr h⟩
    · exact ⟨.latchOff, controlCode_eq_some.mpr h⟩

theorem contributes_eq {e : Element} : e.contributes e.funcType =
    (e.funcName == "CROB" && (controlCode e.value).isSome ||
      e.funcName ∈ ["AnalogOutputInt16", "AnalogOutputInt32", "AnalogOutputFloat32",
        "AnalogOutputDouble64"]) := by
  have hcode : (e.value == .fin 1 || e.value == .fin 2 || e.value == .fin 3 || e.value == .fin 4) =
      (controlCode e.value).isSome := by
    rw [Bool.eq_iff_iff, controlCode_isSome]
    simp [or_assoc]
  rw [Element.contributes, hcode, beq_self_eq_true, Bool.true_and]

/-- What a header holds is the command of the element, if it contributes one. -/
theorem startHeader_ok {e : Element} {set : CommandSet} (hindex : e.index ≤ 65535)
    (h : startHeader e.funcName e.index e.value = .ok set) :
    List.Forall₂ IsCommand ([e].filter (Element.contributes e.funcType)) (CommandSet.commands set) := by
  have hcontributes := contributes_eq (e := e)
  unfold startHeader at h
  rw [Cpp.toUInt16_of_le hindex] at h
  split at h
  · next hname =>
    split at h
    · next code hcode =>
      cases h
      rw [List.filter_singleton, hcontributes, hname, hcode]
      exact .cons (.crob code hname (controlCode_eq_some.mp hcode)) .nil
    · next hcode =>
      cases h
      rw [List.filter_singleton, hcontributes, hname, hcode]
      exact .nil
  split at h
  · next hname =>
    obtain ⟨n, hn, h⟩ := Fallible.bind_ok.mp h
    cases h
    rw [List.filter_singleton, hcontributes, hname]
    exact .cons (.int16 n hname hn) .nil
  split at h
  · next hname =>
    obtain ⟨n, hn, h⟩ := Fallible.bind_ok.mp h
    cases h
    rw [List.filter_singleton, hcontributes, hname]
    exact .cons (.int32 n hname hn) .nil
  split at h
  · next hname =>
    cases h
    rw [List.filter_singleton, hcontributes, hname]
    exact .cons (.float32 hname) .nil
  split at h
  · next hname =>
    cases h
    rw [List.filter_singleton, hcontributes, hname]
    exact .cons (.double64 hname) .nil
  · next hcrob hint16 hint32 hfloat32 hdouble64 =>
    cases h
    rw [List.filter_singleton, hcontributes, beq_false_of_ne hcrob]
    simp [hint16, hint32, hfloat32, hdouble64, CommandSet.commands]

/-- A header is started unless the value has no conversion. -/
theorem startHeader_total {e : Element} :
    (∃ set, startHeader e.funcName e.index e.value = .ok set) ↔
      (e.funcName = "AnalogOutputInt16" → ∃ n, toInt16 e.value = .ok n) ∧
      (e.funcName = "AnalogOutputInt32" → ∃ n, toInt32 e.value = .ok n) := by
  unfold startHeader
  split
  · next hname =>
    split <;> simp [hname, pure, Except.pure]
  split
  · next hname =>
    rw [Fallible.exists_bind_pure]
    simp [hname]
  split
  · next hname =>
    rw [Fallible.exists_bind_pure]
    simp [hname]
  split
  · next hname => simp [hname, pure, Except.pure]
  split
  · next hname => simp [hname, pure, Except.pure]
  · next hint16 hint32 _ _ => simp [hint16, hint32, pure, Except.pure]

/-! ## One pass -/

/-- Whether an element is a scan. -/
def Element.asksScan (e : Element) : Bool := e.funcType == "Scan" && e.groupVar.isSome

/-- The scan that is sent for an element, whether its group and range fit or not. -/
def SendsScan (e : Element) (r : Request) : Prop :=
  ∃ (group var : ℕ) (stop : Int), e.groupVar = some (group, var) ∧
    toInt32 e.value.round = .ok stop ∧ r = .scanRange (Cpp.toUInt8 group) var e.index (Cpp.toUInt16 stop)

/-- The passes over the elements `es`. -/
structure Fired (es : List Element) (s s' : Firing) : Prop where
  scans : ∃ rs, s'.master = s.master ++ rs ∧
    List.Forall₂ SendsScan (es.filter Element.asksScan) rs
  sbo : ∃ set, s'.sboCommands = s.sboCommands ++ set ∧
    List.Forall₂ IsCommand (es.filter (Element.contributes "SBO")) (CommandSet.commands set)
  direct : ∃ set, s'.doCommands = s.doCommands ++ set ∧
    List.Forall₂ IsCommand (es.filter (Element.contributes "DO")) (CommandSet.commands set)
  sboFuncCodes : s'.sboFuncCodes = (s.sboFuncCodes || es.any (fun e => e.funcType == "SBO"))
  doFuncCodes : s'.doFuncCodes = (s.doFuncCodes || es.any (fun e => e.funcType == "DO"))

/-- No conversion of the element ends the program. -/
structure Element.Runs (e : Element) : Prop where
  value : e.funcType = "SBO" ∨ e.funcType = "DO" →
    (e.funcName = "AnalogOutputInt16" → ∃ n, toInt16 e.value = .ok n) ∧
    (e.funcName = "AnalogOutputInt32" → ∃ n, toInt32 e.value = .ok n)
  scan : e.funcType = "Scan" → ∀ m, e.groupVar = some m →
    m.1 ≤ 2147483647 ∧ ∃ stop, toInt32 e.value.round = .ok stop

theorem filter_contributes_of_ne {e : Element} {funcType : String} (h : e.funcType ≠ funcType) :
    [e].filter (Element.contributes funcType) = [] := by
  simp [Element.contributes, h]

theorem filter_asksScan_of_ne {e : Element} (h : e.funcType ≠ "Scan") :
    [e].filter Element.asksScan = [] := by
  simp [Element.asksScan, h]

/-- A digit is a number up to 9. -/
theorem digitsVal_singleton_le {c : Char} (h : c.isDigit = true) : PTree.digitsVal [c] ≤ 9 := by
  simp only [Char.isDigit, Bool.and_eq_true, decide_eq_true_eq] at h
  have hc : c.toNat ≤ 57 := h.2
  have hzero : '0'.toNat = 48 := rfl
  simp only [PTree.digitsVal, List.foldl_cons, List.foldl_nil, hzero]
  omega

theorem fireScan_none {e : Element} (h : e.groupVar = none) (s : Firing) :
    fireScan e.cmd s = .ok s := by
  have hmatch : matchGroupVar e.cmd.fName = none := Option.map_eq_none_iff.mp h
  unfold fireScan
  rw [hmatch]
  rfl

/-- A scan whose name matches is sent unless its group or its second index is too large for an
`int`. -/
theorem fireScan_matched {c : CmdStruct} {group : List Char} {var : Char}
    (hmatch : matchGroupVar c.fName = some (group, var)) (s : Firing) :
    fireScan c s = if PTree.digitsVal group ≤ 2147483647 then (do
        let stop ← toInt32 c.value.round
        pure { s with
          master := s.master ++ [.scanRange (Cpp.toUInt8 (PTree.digitsVal group))
            (PTree.digitsVal [var]) (Cpp.toUInt16 c.index) (Cpp.toUInt16 stop)] })
      else .error .throws := by
  obtain ⟨-, hne, hgroup, hvar⟩ := matchGroupVar_eq_some.mp hmatch
  have hle := digitsVal_singleton_le hvar
  have hvarId : CppString.stoi [var] = .ok (PTree.digitsVal [var] : Int) := by
    have hnumber : CppString.IsNumber [var] (PTree.digitsVal [var]) :=
      ⟨List.cons_ne_nil _ _, by simpa using hvar, rfl⟩
    rw [hnumber.stoi, if_pos (by omega)]
  have hvar8 : Cpp.toUInt8 (PTree.digitsVal [var]) = PTree.digitsVal [var] := by
    unfold Cpp.toUInt8
    omega
  have hgroupId : CppString.IsNumber group (PTree.digitsVal group) := ⟨hne, hgroup, rfl⟩
  unfold fireScan
  rw [hmatch]
  simp only [hgroupId.stoi, hvarId]
  split
  · show (do
      let stop ← toInt32 c.value.round
      pure _) = _
    rw [hvar8]
  · rfl

theorem fireScan_some {e : Element} {m : ℕ × ℕ} (h : e.groupVar = some m)
    (hindex : e.index ≤ 65535) (s : Firing) :
    fireScan e.cmd s = if m.1 ≤ 2147483647 then (do
        let stop ← toInt32 e.value.round
        pure { s with
          master := s.master ++ [.scanRange (Cpp.toUInt8 m.1) m.2 e.index (Cpp.toUInt16 stop)] })
      else .error .throws := by
  obtain ⟨⟨group, var⟩, hmatch, rfl⟩ := Option.map_eq_some_iff.mp h
  have hname : matchGroupVar e.cmd.fName = some (group, var) := hmatch
  rw [fireScan_matched hname, show e.cmd.index = e.index from rfl, Cpp.toUInt16_of_le hindex]
  rfl

/-- The pass over an element returns unless one of its conversions fails. -/
theorem fireCommand_total {e : Element} (hindex : e.index ≤ 65535) (s : Firing) :
    (∃ s', fireCommand s e.cmd = .ok s') ↔ e.Runs := by
  have htype : e.cmd.fType = e.funcType := rfl
  have hstart := startHeader_total (e := e)
  have hvalue : (e.funcType = "SBO" ∨ e.funcType = "DO") → e.funcType ≠ "Scan" →
      (e.Runs ↔ ∃ set, startHeader e.funcName e.index e.value = .ok set) := by
    intro hset hscan
    rw [hstart]
    exact ⟨fun h => h.value hset, fun h => ⟨fun _ => h, fun hs => absurd hs hscan⟩⟩
  unfold fireCommand
  rw [htype]
  split
  · next hsbo =>
    rw [hvalue (Or.inl hsbo) (by rw [hsbo]; decide)]
    exact Fallible.exists_bind_pure
  split
  · next hdo =>
    rw [hvalue (Or.inr hdo) (by rw [hdo]; decide)]
    exact Fallible.exists_bind_pure
  split
  · next hsbo hdo hscan =>
    have hnone : ¬(e.funcType = "SBO" ∨ e.funcType = "DO") := not_or.mpr ⟨hsbo, hdo⟩
    cases hgroup : e.groupVar with
    | none =>
      refine iff_of_true ⟨s, fireScan_none hgroup s⟩ ⟨fun h => absurd h hnone, ?_⟩
      intro _ m hm
      rw [hgroup] at hm
      cases hm
    | some m =>
      rw [fireScan_some hgroup hindex]
      split
      · next hle =>
        rw [Fallible.exists_bind_pure]
        refine ⟨fun h => ⟨fun hset => absurd hset hnone, fun _ m' hm' => ?_⟩, fun h => ?_⟩
        · cases hgroup.symm.trans hm'
          exact ⟨hle, h⟩
        · exact (h.scan hscan m hgroup).2
      · next hle =>
        refine iff_of_false (fun ⟨s', h⟩ => ?_) (fun h => hle (h.scan hscan m hgroup).1)
        cases h
  · next hsbo hdo hscan =>
    exact iff_of_true ⟨s, rfl⟩ ⟨fun h => absurd h (not_or.mpr ⟨hsbo, hdo⟩), fun h => absurd h hscan⟩

/-- What one pass does. -/
theorem Fired.step {e : Element} {s s' : Firing} (hindex : e.index ≤ 65535)
    (h : fireCommand s e.cmd = .ok s') : Fired [e] s s' := by
  have htype : e.cmd.fType = e.funcType := rfl
  unfold fireCommand at h
  rw [htype] at h
  split at h
  · next hsbo =>
    obtain ⟨set, hset, h⟩ := Fallible.bind_ok.mp h
    cases h
    have hscan : e.funcType ≠ "Scan" := by rw [hsbo]; decide
    have hdo : e.funcType ≠ "DO" := by rw [hsbo]; decide
    refine ⟨⟨[], (List.append_nil _).symm, ?_⟩, ⟨set, rfl, ?_⟩, ⟨[], (List.append_nil _).symm, ?_⟩,
      by simp [hsbo], by simp [hsbo]⟩
    · rw [filter_asksScan_of_ne hscan]
      exact .nil
    · exact hsbo ▸ startHeader_ok hindex hset
    · rw [filter_contributes_of_ne hdo]
      exact .nil
  split at h
  · next hsbo hdo =>
    obtain ⟨set, hset, h⟩ := Fallible.bind_ok.mp h
    cases h
    have hscan : e.funcType ≠ "Scan" := by rw [hdo]; decide
    refine ⟨⟨[], (List.append_nil _).symm, ?_⟩, ⟨[], (List.append_nil _).symm, ?_⟩, ⟨set, rfl, ?_⟩,
      by simp [hdo], by simp [hdo]⟩
    · rw [filter_asksScan_of_ne hscan]
      exact .nil
    · rw [filter_contributes_of_ne hsbo]
      exact .nil
    · exact hdo ▸ startHeader_ok hindex hset
  · next hsbo hdo =>
    -- neither of the command sets changes
    have hscans : ∃ rs, s' = { s with master := s.master ++ rs } ∧
        List.Forall₂ SendsScan ([e].filter Element.asksScan) rs := by
      split at h
      · next hscan =>
        cases hgroup : e.groupVar with
        | none =>
          rw [fireScan_none hgroup] at h
          cases h
          refine ⟨[], by rw [List.append_nil], ?_⟩
          simp [Element.asksScan, hgroup]
        | some m =>
          rw [fireScan_some hgroup hindex] at h
          split at h
          · obtain ⟨stop, hstop, h⟩ := Fallible.bind_ok.mp h
            cases h
            refine ⟨_, rfl, ?_⟩
            rw [List.filter_singleton, Element.asksScan, hscan, hgroup]
            exact .cons ⟨m.1, m.2, stop, hgroup, hstop, rfl⟩ .nil
          · cases h
      · next hscan =>
        cases h
        refine ⟨[], by rw [List.append_nil], ?_⟩
        rw [filter_asksScan_of_ne hscan]
        exact .nil
    obtain ⟨rs, rfl, hrs⟩ := hscans
    refine ⟨⟨rs, rfl, hrs⟩, ⟨[], (List.append_nil _).symm, ?_⟩, ⟨[], (List.append_nil _).symm, ?_⟩,
      by simp [hsbo], by simp [hdo]⟩
    · rw [filter_contributes_of_ne hsbo]
      exact .nil
    · rw [filter_contributes_of_ne hdo]
      exact .nil

/-! ## The loop -/

theorem Fired.nil (s : Firing) : Fired [] s s := by
  refine ⟨⟨[], (List.append_nil _).symm, .nil⟩, ⟨[], (List.append_nil _).symm, .nil⟩,
    ⟨[], (List.append_nil _).symm, .nil⟩, by simp, by simp⟩

theorem Fired.append {es es' : List Element} {s s' s'' : Firing} (h : Fired es s s')
    (h' : Fired es' s' s'') : Fired (es ++ es') s s'' := by
  obtain ⟨rs, hmaster, hrs⟩ := h.scans
  obtain ⟨rs', hmaster', hrs'⟩ := h'.scans
  obtain ⟨sbo, hsbo, hsboCommands⟩ := h.sbo
  obtain ⟨sbo', hsbo', hsboCommands'⟩ := h'.sbo
  obtain ⟨direct, hdirect, hdirectCommands⟩ := h.direct
  obtain ⟨direct', hdirect', hdirectCommands'⟩ := h'.direct
  refine ⟨⟨rs ++ rs', ?_, ?_⟩, ⟨sbo ++ sbo', ?_, ?_⟩, ⟨direct ++ direct', ?_, ?_⟩, ?_, ?_⟩
  · rw [hmaster', hmaster, List.append_assoc]
  · rw [List.filter_append]
    exact List.rel_append hrs hrs'
  · rw [hsbo', hsbo, List.append_assoc]
  · rw [List.filter_append, CommandSet.commands, List.flatten_append]
    exact List.rel_append hsboCommands hsboCommands'
  · rw [hdirect', hdirect, List.append_assoc]
  · rw [List.filter_append, CommandSet.commands, List.flatten_append]
    exact List.rel_append hdirectCommands hdirectCommands'
  · rw [h'.sboFuncCodes, h.sboFuncCodes, List.any_append, Bool.or_assoc]
  · rw [h'.doFuncCodes, h.doFuncCodes, List.any_append, Bool.or_assoc]

/-- What the whole loop does. -/
theorem Fired.loop {es : List Element} (hindex : ∀ e ∈ es, e.index ≤ 65535) {s s' : Firing}
    (h : (es.map Element.cmd).foldlM fireCommand s = .ok s') :
    Fired es s s' ∧ ∀ e ∈ es, e.Runs := by
  induction es generalizing s with
  | nil =>
    cases h
    exact ⟨.nil _, by simp⟩
  | cons e es ih =>
    obtain ⟨hi, hindex⟩ := List.forall_mem_cons.mp hindex
    rw [List.map_cons, List.foldlM_cons] at h
    obtain ⟨s₁, h₁, h⟩ := Fallible.bind_ok.mp h
    obtain ⟨hfired, hruns⟩ := ih hindex h
    refine ⟨(Fired.step hi h₁).append hfired, List.forall_mem_cons.mpr ⟨?_, hruns⟩⟩
    exact (fireCommand_total hi _).mp ⟨s₁, h₁⟩

/-! ## Delivery -/

theorem Element.Fits.runs {e : Element} (h : e.Fits) : e.Runs := by
  refine ⟨fun hset => ⟨h.int16 hset, h.int32 hset⟩, fun hscan m hm => ?_⟩
  obtain ⟨stop, -, hstop⟩ := h.stop hscan m hm
  have hgroup := h.group hscan m hm
  exact ⟨by omega, stop, hstop⟩

theorem Element.asksScan_of_scans {e : Element} (h : e.scans = true) : e.asksScan = true := by
  simp only [scans, Bool.and_eq_true, Option.any_eq_true] at h
  obtain ⟨htype, m, hm, -⟩ := h
  simp [asksScan, htype, hm]

/-- All scans are of groups that fit exactly if no more of them are asked for than should be. -/
theorem filter_scans_eq_iff {es : List Element} :
    es.filter Element.scans = es.filter Element.asksScan ↔
      ∀ e ∈ es, e.asksScan = true → e.scans = true := by
  constructor
  · intro h e he hasks
    exact (List.mem_filter.mp (h ▸ List.mem_filter.mpr ⟨he, hasks⟩)).2
  · intro h
    apply List.filter_congr
    intro e he
    rw [Bool.eq_iff_iff]
    exact ⟨Element.asksScan_of_scans, h e he⟩

/-- What the master was asked for, from what the loop has left. -/
theorem fireOffMasterCommand_ok {master requests : List Request} {cmds : List CmdStruct} :
    fireOffMasterCommand master cmds = .ok requests ↔
      ∃ s, cmds.foldlM fireCommand (.start master) = .ok s ∧
        s.master ++ (if s.sboFuncCodes then [.selectAndOperate s.sboCommands] else []) ++
          (if s.doFuncCodes then [.directOperate s.doCommands] else []) = requests := by
  unfold fireOffMasterCommand
  rw [Fallible.bind_ok]
  refine exists_congr fun s => and_congr_right fun _ => ?_
  rw [Fallible.pure_ok]
  cases s.sboFuncCodes <;> cases s.doFuncCodes <;> simp

/-- What is sent for a scan that fits is its own group and its own range. -/
theorem SendsScan.isScan {e : Element} {r : Request} (h : SendsScan e r)
    (hasks : e.asksScan = true) (hfits : e.Fits) : IsScan e r := by
  obtain ⟨group, var, stop, hm, hstop, rfl⟩ := h
  have hscan : e.funcType = "Scan" := by
    simp only [Element.asksScan, Bool.and_eq_true, beq_iff_eq] at hasks
    exact hasks.1
  obtain ⟨stop', hle, hstop'⟩ := hfits.stop hscan _ hm
  cases hstop.symm.trans hstop'
  have hgroup : Cpp.toUInt8 group = group := by
    have := hfits.group hscan _ hm
    unfold Cpp.toUInt8
    omega
  exact ⟨group, var, stop', hm, hstop', by rw [hgroup, Cpp.toUInt16_of_le hle]⟩

theorem delivers_of_fits {es : List Element} (hindex : ∀ e ∈ es, e.index ≤ 65535)
    (hfits : ∀ e ∈ es, e.Fits) (master : List Request) :
    Delivers master es (fireOffMasterCommand master (es.map Element.cmd)) := by
  have hruns : ∀ c ∈ es.map Element.cmd, ∀ s, True → ∃ s', fireCommand s c = .ok s' ∧ True := by
    intro c hc s _
    obtain ⟨e, he, rfl⟩ := List.mem_map.mp hc
    obtain ⟨s', h⟩ := (fireCommand_total (hindex e he) s).mpr (hfits e he).runs
    exact ⟨s', h, trivial⟩
  obtain ⟨s, hs, -⟩ := Fallible.foldlM_total (fun _ => True) hruns (s := .start master) trivial
  obtain ⟨hfired, -⟩ := Fired.loop hindex hs
  obtain ⟨rs, hmaster, hrs⟩ := hfired.scans
  obtain ⟨sbo, hsbo, hsboCommands⟩ := hfired.sbo
  obtain ⟨direct, hdirect, hdirectCommands⟩ := hfired.direct
  have hfilter : es.filter Element.scans = es.filter Element.asksScan := by
    rw [filter_scans_eq_iff]
    intro e he hasks
    simp only [Element.asksScan, Bool.and_eq_true, beq_iff_eq, Option.isSome_iff_exists] at hasks
    obtain ⟨htype, m, hm⟩ := hasks
    simp [Element.scans, htype, hm, (hfits e he).group htype m hm]
  refine ⟨rs, sbo, direct, ?_, hsboCommands, hdirectCommands, ?_⟩
  · rw [hfilter]
    have hscans : ∀ e ∈ es.filter Element.asksScan, e.asksScan = true ∧ e.Fits := by
      intro e he
      exact ⟨(List.mem_filter.mp he).2, hfits e (List.mem_filter.mp he).1⟩
    exact ((List.forall₂_and_left _ _).mpr ⟨hscans, hrs⟩).imp fun e r h => h.2.isScan h.1.1 h.1.2
  · rw [fireOffMasterCommand_ok]
    refine ⟨s, hs, ?_⟩
    rw [hmaster, hsbo, hdirect, hfired.sboFuncCodes, hfired.doFuncCodes]
    rfl

theorem fits_of_delivers {es : List Element} (hindex : ∀ e ∈ es, e.index ≤ 65535)
    {master : List Request}
    (h : Delivers master es (fireOffMasterCommand master (es.map Element.cmd))) :
    ∀ e ∈ es, e.Fits := by
  obtain ⟨scans, sboCommands, doCommands, hscans, -, -, hout⟩ := h
  obtain ⟨s, hs, hmaster⟩ := fireOffMasterCommand_ok.mp hout
  obtain ⟨hfired, hruns⟩ := Fired.loop hindex hs
  obtain ⟨rs, hrs, hsends⟩ := hfired.scans
  -- the two command sets take the same places in both lists of requests, so the scans agree
  have hsame : rs = scans := by
    rw [hrs, hfired.sboFuncCodes, hfired.doFuncCodes] at hmaster
    have h₁ := List.append_inj_left' hmaster (by cases es.any (fun e => e.funcType == "DO") <;> rfl)
    have h₂ := List.append_inj_left' h₁ (by cases es.any (fun e => e.funcType == "SBO") <;> rfl)
    exact List.append_cancel_left h₂
  subst hsame
  have hfilter : es.filter Element.scans = es.filter Element.asksScan := by
    apply List.Sublist.eq_of_length
    · exact List.monotone_filter_right es fun e => Element.asksScan_of_scans
    · rw [hscans.length_eq, hsends.length_eq]
  have hmem : ∀ e ∈ es, e.funcType = "Scan" → ∀ m, e.groupVar = some m →
      m.1 ≤ 255 ∧ ∃ stop : ℕ, stop ≤ 65535 ∧ toInt32 e.value.round = .ok stop := by
    intro e he htype m hm
    have hasks : e.asksScan = true := by simp [Element.asksScan, htype, hm]
    have hscan := filter_scans_eq_iff.mp hfilter e he hasks
    rw [hfilter] at hscans
    have hboth := hscans.mp (S := fun e r => IsScan e r ∧ SendsScan e r)
      (fun _ _ h h' => ⟨h, h'⟩) hsends
    obtain ⟨r, -, hr, hr'⟩ := Fallible.exists_right hboth (List.mem_filter.mpr ⟨he, hasks⟩)
    obtain ⟨_, _, stop, _, hstop, rfl⟩ := hr
    obtain ⟨_, _, stop', _, hstop', heq⟩ := hr'
    simp only [Request.scanRange.injEq] at heq
    simp only [Element.scans, hm, Option.any_some, Bool.and_eq_true, decide_eq_true_eq] at hscan
    refine ⟨hscan.2, stop, ?_, hstop⟩
    rw [heq.2.2.2]
    exact Cpp.toUInt16_le stop'
  intro e he
  have hrun := hruns e he
  exact ⟨fun hset => (hrun.value hset).1, fun hset => (hrun.value hset).2,
    fun htype m hm => (hmem e he htype m hm).1, fun htype m hm => (hmem e he htype m hm).2⟩

theorem HoldsElements.index_le {W : LuaWorld} {pairs : List (LuaValue × LuaValue)} {es : List Element}
    (h : HoldsElements W pairs es) : ∀ e ∈ es, e.index ≤ 65535 := by
  intro e he
  obtain ⟨ref, -, t, -, helement⟩ := Fallible.exists_left h he
  exact helement.index_le

/-- Whatever the stack holds and whatever the script leaves in `data`: the elements come to
their commands and scans exactly if all of them fit. -/
theorem luaInvokeScript_delivers_iff {env : LuaEnv} {format : Double → String} {L : Lua}
    {W : LuaWorld} {f data : ℕ} {results : List LuaValue} {t : LuaTable} {es : List Element}
    (master : List Request) (hf : L.world.globals.get? "operate_outstation" = some (.function f))
    (hcall : env.callFunction f [] L.world = .ok (results, W))
    (hdata : W.globals.get? "data" = some (.table data)) (ht : W.tables[data]? = some t)
    (hne : t.entries.entries ≠ []) (hes : HoldsElements W (env.traversal t) es) :
    Delivers master es ((luaInvokeScript env format master L).map Prod.fst) ↔
      ∀ e ∈ es, e.Fits := by
  have hne' : env.traversal t ≠ [] := fun h => hne (List.nil_perm.mp (h ▸ env.traversal_perm t))
  obtain ⟨p, rest, hp⟩ := List.exists_cons_of_ne_nil hne'
  have heq : (luaInvokeScript env format master L).map Prod.fst =
      fireOffMasterCommand master (es.map Element.cmd) := by
    rw [luaInvokeScript_eq master hf hcall hdata ht (p := p) (by rw [hp]; rfl) hes]
    cases fireOffMasterCommand master (es.map Element.cmd) <;> rfl
  rw [heq]
  exact ⟨fits_of_delivers hes.index_le, fun h => delivers_of_fits hes.index_le h master⟩

/-! ## A script with two elements -/

def elementTable (e : Element) : LuaTable where
  entries :=
    ⟨[(.number (.fin 1), .string e.funcType), (.number (.fin 2), .string e.funcName),
      (.number (.fin 3), .number (.fin e.index)), (.number (.fin 4), .number e.value)],
      show [LuaValue.number (.fin 1), .number (.fin 2), .number (.fin 3), .number (.fin 4)].Nodup
        by decide⟩
  nil_notMem := show LuaValue.nil ∉
    [LuaValue.number (.fin 1), .number (.fin 2), .number (.fin 3), .number (.fin 4)] by decide

/-- The table `{a, true, b}` as the table 0, with `a` and `b` as the tables 1 and 2. -/
def sentTable : LuaTable where
  entries := ⟨[(.number (.fin 1), .table 1), (.number (.fin 2), .boolean true),
    (.number (.fin 3), .table 2)], by decide⟩
  nil_notMem := by decide

def sentWorld (a b : Element) : LuaWorld :=
  { globals := .ofList [("operate_outstation", .function 0), ("data", .table 0)]
    tables := [sentTable, elementTable a, elementTable b] }

theorem le_int64Max : (2147483647 : Int) ≤ 9223372036854775807 := by decide

theorem entries_perm (t : LuaTable) : t.entries.entries.Perm t.entries.entries := List.Perm.refl _

/-- The function `operate_outstation` of a script that always sends the same two. -/
def sendingEnv (a b : Element) : LuaEnv where
  maxInteger := 9223372036854775807
  maxInteger_ge := le_int64Max
  traversal t := t.entries.entries
  traversal_perm := entries_perm
  tonumber _ := none
  callFunction _ _ _ := .ok ([.table 0], sentWorld a b)

def sendingState : Lua :=
  { world := { globals := .ofList [("operate_outstation", .function 0)], tables := [] }
    stack := [] }

theorem isElement_elementTable {e : Element} (hindex : e.index ≤ 65535)
    (htype : Cpp.cString e.funcType = e.funcType) (hname : Cpp.cString e.funcName = e.funcName) :
    IsElement (elementTable e) e := by
  refine ⟨hindex, e.funcType, e.funcName, .fin e.index, htype, hname, ?_, List.Perm.refl _⟩
  simp [Double.eqv]

theorem holds_sentTable {a b : Element} (ha : IsElement (elementTable a) a)
    (hb : IsElement (elementTable b) b) :
    HoldsElements (sentWorld a b) sentTable.entries.entries [a, b] := by
  show List.Forall₂ _ [1, 2] [a, b]
  exact .cons ⟨elementTable a, rfl, ha⟩ (.cons ⟨elementTable b, rfl, hb⟩ .nil)

def relayElement : Element :=
  { funcType := "SBO", funcName := "CROB", index := 4, value := .fin 1 }

def scanElement (group : String) : Element :=
  { funcType := "Scan", funcName := "Group" ++ group ++ "Var2", index := 0, value := .fin 9 }

/-- A scan of a group that no `int` holds ends the program; the relay command behind it is
never handed over. -/
theorem oversizedGroup_not_delivered :
    HoldsElements (sentWorld (scanElement "2147483648") relayElement) sentTable.entries.entries
      [scanElement "2147483648", relayElement] ∧
    ¬ Delivers [] [scanElement "2147483648", relayElement]
      ((luaInvokeScript (sendingEnv (scanElement "2147483648") relayElement) (fun _ => "") []
        sendingState).map Prod.fst) := by
  refine ⟨holds_sentTable (isElement_elementTable (by decide) (by decide) (by decide))
    (isElement_elementTable (by decide) (by decide) (by decide)), ?_⟩
  intro h
  obtain ⟨scans, sboCommands, doCommands, -, -, -, hout⟩ := h
  have hthrows : (luaInvokeScript (sendingEnv (scanElement "2147483648") relayElement)
      (fun _ => "") [] sendingState).map Prod.fst = .error .throws := by decide +kernel
  rw [hthrows] at hout
  cases hout

theorem relayElement_fits : relayElement.Fits := by
  refine ⟨?_, ?_, ?_, ?_⟩
  · intro _ h
    exact absurd h (by decide)
  · intro _ h
    exact absurd h (by decide)
  · intro h
    exact absurd h (by decide)
  · intro h
    exact absurd h (by decide)

theorem scanElement_fits : (scanElement "30").Fits := by
  have hgroup : (scanElement "30").groupVar = some (30, 2) := by decide
  refine ⟨?_, ?_, ?_, ?_⟩
  · intro _ h
    exact absurd h (by decide)
  · intro _ h
    exact absurd h (by decide)
  · intro _ m hm
    cases hgroup.symm.trans hm
    decide
  · intro _ m hm
    exact ⟨9, by decide, by decide +kernel⟩

theorem luaInvokeScript_delivers_two :
    Delivers [] [scanElement "30", relayElement]
      ((luaInvokeScript (sendingEnv (scanElement "30") relayElement) (fun _ => "") []
        sendingState).map Prod.fst) :=
  (luaInvokeScript_delivers_iff [] rfl rfl rfl rfl (by decide)
    (holds_sentTable (isElement_elementTable (by decide) (by decide) (by decide))
      (isElement_elementTable (by decide) (by decide) (by decide)))).mpr
    (List.forall_mem_cons.mpr ⟨scanElement_fits, List.forall_mem_cons.mpr
      ⟨relayElement_fits, by simp⟩⟩)

end IcsTrafficGen.Dnp3
