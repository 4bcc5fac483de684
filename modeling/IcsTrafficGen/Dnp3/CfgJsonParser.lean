import IcsTrafficGen.Lib.CppString
import IcsTrafficGen.Dnp3.Node

/- The readers of `CfgJsonParser` that fill the data of an outstation. Each takes the
   tree of one entry of "Nodes" and the station it fills; an exception ends the
   parse, and so the program. -/
namespace IcsTrafficGen.Dnp3

/-- `EVENT_BUFFER_SIZE`. -/
def eventBufferSize : Int := 100

def readDataPoint (pointTree : PTree) (dp : DataPoint) : Cpp DataPoint := do
  let pointType ← pointTree.get PTree.asString ["Type"]
  let eventClass ← pointTree.get PTree.asInt ["Event Class"]
  let sVariation ← pointTree.get PTree.asInt ["sVariation"]
  let eVariation ← pointTree.get PTree.asInt ["eVariation"]
  let deadband := pointTree.getOptional PTree.asString ["Deadband"]
  pure { dp with
    pointType := pointType, eventClass := eventClass, sVariation := sVariation
    eVariation := eVariation, deadband := deadband.orElse (fun _ => dp.deadband) }

/-- The loop that gives every type with points the default event buffer. The type is passed on
as a C string. -/
def resetEvtBuffers (station : Node) : Node :=
  { station with
    evtBufferSize := station.dbSize.entries.foldl
      (fun d e => if 0 < e.2 then d.insert (Cpp.cString e.1) eventBufferSize else d)
      station.evtBufferSize }

def pushPtToStn (station : Node) (dpt : DataPoint) : Cpp Node := do
  let size ← Cpp.addInt dpt.index 1
  pure { station with
    dbSize := growSize station.dbSize dpt.pointType size
    dataPoints := station.dataPoints ++ [dpt] }

/-- The next match of `([0-9]+)-*([0-9]+)*`, its two submatches, and what follows it. The
second submatch is empty where no digits come after the dashes. -/
def nextMatch (s : List Char) : (List Char × List Char) × List Char :=
  let s := s.dropWhile (fun c => !c.isDigit)
  let rest := (s.dropWhile Char.isDigit).dropWhile (fun c => c == '-')
  ((s.takeWhile Char.isDigit, rest.takeWhile Char.isDigit), rest.dropWhile Char.isDigit)

/-- The matches that `std::sregex_iterator` goes through; each takes at least one character. -/
def indexMatches : ℕ → List Char → List (List Char × List Char)
  | 0, _ => []
  | fuel + 1, s =>
    if s.any Char.isDigit then (nextMatch s).1 :: indexMatches fuel (nextMatch s).2 else []

/-- `for(int i = startIndex; i <= endIndex; i++)` with a copy of the point for each. -/
def pushRange (dp : DataPoint) (startIndex endIndex : Int) (station : Node) : Cpp Node :=
  (List.range (endIndex + 1 - startIndex).toNat).foldlM
    (fun st (k : ℕ) => pushPtToStn st { dp with index := startIndex + k }) station

/-- The second number of a match. Where it cannot be read, the exception is caught and the
first one stands for it. -/
def endIndexOf (startIndex : Int) (m : List Char) : Int :=
  match CppString.stoi m with
  | .ok n => n
  | .error _ => startIndex

/-- One pass of the loop over the matches. -/
def readRange (dp : DataPoint) (station : Node) (m : List Char × List Char) : Cpp Node := do
  let startIndex ← CppString.stoi m.1
  pushRange dp startIndex (endIndexOf startIndex m.2) station

def readIndex (pointTree : PTree) (dp : DataPoint) (station : Node) : Cpp Node :=
  match pointTree.getOptional PTree.asInt ["Index"] with
  | some index => pushPtToStn station { dp with index := index }
  | none => pure station

def readIndexList (pointTree : PTree) (dp : DataPoint) (station : Node) : Cpp Node :=
  match pointTree.getOptional PTree.asString ["Index List"] with
  | some indexes =>
    (indexMatches indexes.toList.length indexes.toList).foldlM (readRange dp) station
  | none => pure station

/-- One pass of the loop over "Data". -/
def readDataEntry (station : Node) (pointTree : PTree) : Cpp Node := do
  let dp ← readDataPoint pointTree .new
  let station ← readIndex pointTree dp station
  readIndexList pointTree dp station

def readDataGenerationSpecs (nodeTree : PTree) (station : Node) : Cpp Node :=
  match nodeTree.childAt? ["Data"] with
  | none => pure station
  | some dataTree => do
    let station ← dataTree.children.foldlM (fun st p => readDataEntry st p.2) station
    pure (resetEvtBuffers station)

/-- One pass of the loop over "Event Data". -/
def readEventBuffer (station : Node) (pTree : PTree) : Cpp Node := do
  let pointType ← pTree.get PTree.asString ["Type"]
  let size ← pTree.get PTree.asInt ["Size"]
  pure { station with evtBufferSize := station.evtBufferSize.insert pointType size }

def readEventBufferSpecs (nodeTree : PTree) (station : Node) : Cpp Node :=
  match nodeTree.childAt? ["Event Data"] with
  | none => pure station
  | some bufferTree => bufferTree.children.foldlM (fun st p => readEventBuffer st p.2) station

/-- One pass of the loop over "Mapped Data". -/
def readMappedPoint (source : String) (station : Node) (pointTree : PTree) : Cpp Node := do
  let dp ← readDataPoint pointTree .new
  let index ← pointTree.get PTree.asInt ["Index"]
  let size ← Cpp.addInt index 1
  let inputIndex ← pointTree.get PTree.asInt ["InputIndex"]
  let mdp : MappedDataPoint := { index := index, inputIndex := inputIndex, pointType := dp.pointType }
  pure { station with
    dbSize := growSize station.dbSize dp.pointType size
    dataPoints := station.dataPoints ++ [{ dp with index := index }]
    dataSources := station.dataSources.insert source
      ((station.dataSources.get? source).getD [] ++ [mdp]) }

/-- One pass of the loop over "Data Sources". -/
def readSource (station : Node) (sTree : String × PTree) : Cpp Node := do
  let source ← sTree.2.get PTree.asString ["Source"]
  match sTree.2.childAt? ["Mapped Data"] with
  | none => pure station
  | some dataTree =>
    let station ← dataTree.children.foldlM (fun st p => readMappedPoint source st p.2) station
    pure (resetEvtBuffers station)

def readMappedDataGenerationSpecs (nodeTree : PTree) (station : Node) : Cpp Node :=
  match nodeTree.childAt? ["Data Sources"] with
  | none => pure station
  | some sourceTree => sourceTree.children.foldlM readSource station

/-! ## What the loops keep -/

theorem pushPtToStn_ok {n n' : Node} {dp : DataPoint} (h : pushPtToStn n dp = .ok n') :
    Cpp.InInt (dp.index + 1) ∧ n' = { n with
      dbSize := growSize n.dbSize dp.pointType (dp.index + 1)
      dataPoints := n.dataPoints ++ [dp] } := by
  obtain ⟨size, hsize, h⟩ := Fallible.bind_ok.mp h
  obtain ⟨hint, rfl⟩ := Cpp.addInt_ok.mp hsize
  exact ⟨hint, (Fallible.pure_ok.mp h).symm⟩

theorem readMappedPoint_ok {source : String} {n n' : Node} {pointTree : PTree}
    (h : readMappedPoint source n pointTree = .ok n') :
    ∃ dp index inputIndex, readDataPoint pointTree .new = .ok dp ∧
      pointTree.get PTree.asInt ["Index"] = .ok index ∧ Cpp.InInt (index + 1) ∧
      n' = { n with
        dbSize := growSize n.dbSize dp.pointType (index + 1)
        dataPoints := n.dataPoints ++ [{ dp with index := index }]
        dataSources := n.dataSources.insert source ((n.dataSources.get? source).getD [] ++
          [⟨index, inputIndex, dp.pointType⟩]) } := by
  obtain ⟨dp, hdp, h⟩ := Fallible.bind_ok.mp h
  obtain ⟨index, hindex, h⟩ := Fallible.bind_ok.mp h
  obtain ⟨size, hsize, h⟩ := Fallible.bind_ok.mp h
  obtain ⟨inputIndex, -, h⟩ := Fallible.bind_ok.mp h
  obtain ⟨hint, rfl⟩ := Cpp.addInt_ok.mp hsize
  exact ⟨dp, index, inputIndex, hdp, hindex, hint, (Fallible.pure_ok.mp h).symm⟩

/-- What every pushed point keeps holds behind an entry of "Data". -/
theorem readDataEntry_invariant {P : Node → Prop}
    (hpush : ∀ dp n n', P n → pushPtToStn n dp = .ok n' → P n') {pointTree : PTree} {n n' : Node}
    (hn : P n) (h : readDataEntry n pointTree = .ok n') : P n' := by
  obtain ⟨dp, -, h⟩ := Fallible.bind_ok.mp h
  obtain ⟨n₁, h₁, h⟩ := Fallible.bind_ok.mp h
  have hn₁ : P n₁ := by
    unfold readIndex at h₁
    split at h₁
    · exact hpush _ _ _ hn h₁
    · exact Fallible.pure_ok.mp h₁ ▸ hn
  have hrange : ∀ m n n', P n → readRange dp n m = .ok n' → P n' := by
    intro m n n' hn h
    obtain ⟨startIndex, -, h⟩ := Fallible.bind_ok.mp h
    exact Fallible.foldlM_invariant P (fun _ _ _ _ hn h => hpush _ _ _ hn h) hn h
  unfold readIndexList at h
  split at h
  · exact Fallible.foldlM_invariant P (fun _ _ _ _ hn h => hrange _ _ _ hn h) hn₁ h
  · exact Fallible.pure_ok.mp h ▸ hn₁

/-- What every mapped point and the event buffers keep holds of the station that is read. -/
theorem readMappedDataGenerationSpecs_invariant {P : Node → Prop}
    (hpoint : ∀ source pointTree n n', P n → readMappedPoint source n pointTree = .ok n' → P n')
    (hreset : ∀ n, P n → P (resetEvtBuffers n)) {nodeTree : PTree} {n n' : Node} (hn : P n)
    (h : readMappedDataGenerationSpecs nodeTree n = .ok n') : P n' := by
  have hsource : ∀ sTree n n', P n → readSource n sTree = .ok n' → P n' := by
    intro sTree n n' hn h
    obtain ⟨source, -, h⟩ := Fallible.bind_ok.mp h
    cases htree : sTree.2.childAt? ["Mapped Data"] with
    | none =>
      rw [htree] at h
      exact Fallible.pure_ok.mp h ▸ hn
    | some dataTree =>
      rw [htree] at h
      obtain ⟨n₁, h₁, h⟩ := Fallible.bind_ok.mp h
      rw [← Fallible.pure_ok.mp h]
      apply hreset
      exact Fallible.foldlM_invariant P (fun _ _ _ _ hn h => hpoint _ _ _ _ hn h) hn h₁
  unfold readMappedDataGenerationSpecs at h
  split at h
  · exact Fallible.pure_ok.mp h ▸ hn
  · exact Fallible.foldlM_invariant P (fun _ _ _ _ hn h => hsource _ _ _ hn h) hn h

end IcsTrafficGen.Dnp3
