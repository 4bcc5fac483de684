import IcsTrafficGen.Dnp3.Node

/- The mapping outstation: it collects the values that the masters of other stations
   receive, and publishes them under its own indexes. A callback of a source master
   (`MappingSoeHandler::Process`) writes the input array of that source and raises its
   flag; the outstation's own loop (`passThruDataChanges`) copies flagged arrays to the
   out arrays and hands the updates to the DNP3 outstation. Each of the two runs under
   `mutex`, so each is one step here.

   The analog, binary and counter members of the class are the three values of
   `Channel`: `analogValues` is `values .analog`, and so on. The flags of a source that
   is missing from its map count as false, as `operator[]` makes them. -/
namespace IcsTrafficGen.Dnp3

/-- `dnp3Point`. -/
structure Dnp3Point where
  value : Double
  timestamp : Int
  deriving DecidableEq, Repr

/-- A value-initialised `dnp3Point`. -/
def Dnp3Point.zero : Dnp3Point := { value := .zero, timestamp := 0 }

/-- A measurement of a callback: `opendnp3::Indexed`. -/
structure Indexed (α : Type) where
  index : Nat
  value : α
  time : Int

/-- The measurement types of `opendnp3` that are published. -/
inductive Meas where
  | analog (v : Double)
  | binary (v : Bool)
  | counter (v : UInt32)
  deriving DecidableEq, Repr

def Meas.channel : Meas → Channel
  | .analog _ => .analog
  | .binary _ => .binary
  | .counter _ => .counter

inductive Quality where
  | online
  | restart
  deriving DecidableEq, Repr

/-- The arguments of one `UpdateBuilder::Update`; the index is the `int` that the source passes,
before the parameter of the library, a `uint16_t`, narrows it. -/
structure Update where
  meas : Meas
  quality : Quality
  time : Int
  index : Int
  deriving DecidableEq, Repr

structure MappingOutstation where
  node : Node
  values : Channel → String → Option (List Dnp3Point)
  flag : Channel → String → Bool
  outValues : Channel → List Dnp3Point
  /-- The updates applied to `outstationInstance`, in order. -/
  applied : List Update

/-- A copy of a table with one cell changed. -/
def setCell {α : Type} (f : Channel → String → α) (c : Channel) (src : String) (a : α) :
    Channel → String → α :=
  Function.update f c (Function.update (f c) src a)

section
variable {α : Type} (f : Channel → String → α) (c d : Channel) (src s : String) (a : α)

@[simp] theorem setCell_self : setCell f c src a c src = a := by simp [setCell]

theorem setCell_of_ne (h : ¬ (d = c ∧ s = src)) : setCell f c src a d s = f d s := by
  by_cases hd : d = c
  · subst hd
    have hs : s ≠ src := fun e => h ⟨rfl, e⟩
    simp [setCell, hs]
  · simp [setCell, hd]

end

/-- The value as the measurement type of the channel: `double` to `double`, `bool` and
`uint32_t`. -/
def Channel.meas : Channel → Double → Cpp Meas
  | .analog, v => .ok (.analog v)
  | .binary, v => .ok (.binary v.toBool)
  | .counter, v => do
    let n ← v.toUInt32
    pure (.counter n)

namespace MappingOutstation

/-- The object the constructor builds for a configured node. -/
def new (node : Node) : MappingOutstation :=
  { node := node, values := fun _ _ => none, flag := fun _ _ => false, outValues := fun _ => []
    applied := [] }

/-- The input array of a source, which is empty where it is missing. -/
def input (m : MappingOutstation) (c : Channel) (src : String) : List Dnp3Point :=
  (m.values c src).getD []

/-! ## `run` up to its loop -/

/-- The sizes of the input arrays of one source. -/
def sourceSizes (mdpList : List MappedDataPoint) : Cpp (Dict String Int) :=
  mdpList.foldlM (fun dbSize dp => do
    let size ← Cpp.addInt dp.index 1
    pure (growSize dbSize dp.pointType size)) .empty

/-- `resize` of an input array; the analog and binary arrays are also zeroed. -/
def resizeInput (c : Channel) (src : String) (dbSize : Dict String Int) (m : MappingOutstation) :
    Cpp MappingOutstation := do
  let pts ← Cpp.resize .zero (m.input c src) (sizeAt dbSize c.pointType)
  -- the counter array is only resized, so it keeps what it had
  let pts := if c = .counter then pts else pts.map (fun _ => .zero)
  pure { m with values := setCell m.values c src (some pts) }

def resizeOut (c : Channel) (m : MappingOutstation) : Cpp MappingOutstation := do
  let pts ← Cpp.resize .zero (m.outValues c) (sizeAt m.node.dbSize c.pointType)
  pure { m with outValues := Function.update m.outValues c pts }

def configureSource (m : MappingOutstation) (source : String × List MappedDataPoint) :
    Cpp MappingOutstation := do
  let dbSize ← sourceSizes source.2
  let m ← m.resizeInput .analog source.1 dbSize
  let m ← m.resizeInput .binary source.1 dbSize
  m.resizeInput .counter source.1 dbSize

def configureInputMultiplexingArrays (m : MappingOutstation) : Cpp MappingOutstation := do
  let m ← m.node.dataSources.entries.foldlM configureSource m
  let m ← m.resizeOut .analog
  let m ← m.resizeOut .binary
  m.resizeOut .counter

/-- The loop of `run` that clears the flags of every source. -/
def clearFlags (m : MappingOutstation) : MappingOutstation :=
  { m with
    flag := m.node.dataSources.keys.foldl
      (fun flag src => setCell (setCell (setCell flag .analog src false) .binary src false)
        .counter src false) m.flag }

/-- The start of `run`. -/
def start (m : MappingOutstation) : Cpp MappingOutstation := do
  let m ← m.configureInputMultiplexingArrays
  pure m.clearFlags

/-! ## `MappingSoeHandler::Process` -/

/-- The lambda of a callback: write the pair into the input array, unless its index is
not in it, or its value is already there and it carries no time. -/
def storePair (pts : List Dnp3Point) (pair : Indexed Double) : List Dnp3Point :=
  match pts[pair.index]? with
  | none => pts
  | some pt =>
    if pt.value.eqv pair.value && pair.time == 0 then pts
    else pts.set pair.index { value := pair.value, timestamp := pair.time }

/-- A callback of the source `src` for the channel `c`, its values as `double`s. -/
def process (c : Channel) (src : String) (pairs : List (Indexed Double)) (m : MappingOutstation) :
    MappingOutstation :=
  { m with
    values := match m.values c src with
      | none => m.values
      | some pts => setCell m.values c src (some (pairs.foldl storePair pts))
    flag := setCell m.flag c src true }

/-- The measurements with their values converted to `double`. -/
def toDoubles {α : Type} (conv : α → Double) (values : List (Indexed α)) : List (Indexed Double) :=
  values.map (fun p => { index := p.index, value := conv p.value, time := p.time })

def processBinary (src : String) (values : List (Indexed Bool)) : MappingOutstation → MappingOutstation :=
  process .binary src (toDoubles .ofBool values)

def processAnalog (src : String) (values : List (Indexed Double)) :
    MappingOutstation → MappingOutstation :=
  process .analog src (toDoubles id values)

def processCounter (src : String) (values : List (Indexed UInt32)) :
    MappingOutstation → MappingOutstation :=
  process .counter src (toDoubles .ofUInt32 values)

/-! ## `passThruDataChanges` -/

/-- The two assignments that copy the input cell of a mapped point to its out cell. -/
def copyCell (c : Channel) (src : String) (dp : MappedDataPoint) (m : MappingOutstation) :
    Cpp (MappingOutstation × Dnp3Point) := do
  let pt ← Cpp.vecGet (m.input c src) dp.inputIndex
  let out ← Cpp.vecSet (m.outValues c) dp.index pt
  pure ({ m with outValues := Function.update m.outValues c out }, pt)

/-- One pass of the loop over the points of a flagged source: copy the cell, and add the
update to the builder. -/
def passPoint (c : Channel) (src : String) (st : MappingOutstation × List Update)
    (dp : MappedDataPoint) : Cpp (MappingOutstation × List Update) :=
  if dp.pointType ≠ c.pointType then pure st
  else do
    let (m, pt) ← st.1.copyCell c src dp
    let meas ← c.meas pt.value
    pure (m, st.2 ++ [{ meas := meas, quality := .online, time := pt.timestamp, index := dp.index }])

/-- `flag[srcName] = false`. -/
def lower (c : Channel) (src : String) (m : MappingOutstation) : MappingOutstation :=
  { m with flag := setCell m.flag c src false }

def passChannel (c : Channel) (src : String) (mdpList : List MappedDataPoint)
    (st : MappingOutstation × List Update) : Cpp (MappingOutstation × List Update) :=
  if st.1.flag c src then
    mdpList.foldlM (passPoint c src) (st.1.lower c src, st.2)
  else pure st

def passSource (st : MappingOutstation × List Update) (source : String × List MappedDataPoint) :
    Cpp (MappingOutstation × List Update) := do
  let st ← passChannel .analog source.1 source.2 st
  let st ← passChannel .binary source.1 source.2 st
  passChannel .counter source.1 source.2 st

def passThruDataChanges (m : MappingOutstation) : Cpp MappingOutstation := do
  let st ← m.node.dataSources.entries.foldlM passSource (m, [])
  pure { st.1 with applied := st.1.applied ++ st.2 }

/-! ## The copy loops of `injectDataChanges` -/

def copyPoint (c : Channel) (src : String) (m : MappingOutstation) (dp : MappedDataPoint) :
    Cpp MappingOutstation :=
  if dp.pointType ≠ c.pointType then pure m
  else do
    let (m, _) ← m.copyCell c src dp
    pure m

/-- The flag of the source is lowered and its points are copied. -/
def copyPoints (c : Channel) (src : String) (mdpList : List MappedDataPoint)
    (m : MappingOutstation) : Cpp MappingOutstation :=
  mdpList.foldlM (copyPoint c src) (m.lower c src)

end MappingOutstation
end IcsTrafficGen.Dnp3
