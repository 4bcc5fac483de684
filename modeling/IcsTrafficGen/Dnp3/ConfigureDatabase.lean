import IcsTrafficGen.Dnp3.InjectDataChanges
import IcsTrafficGen.Dnp3.ParseConfig

/- `Station::ConfigureDatabase`: each point of a station writes an entry of its database, with
   the variations and the class that the tables of `Station.cpp` give for its numbers. The
   tables are global: all stations share them, and the masters ask them which class scans to
   set up. -/
namespace IcsTrafficGen.Dnp3

/-- An enumerator of one of the variations: its group and its number. -/
structure GroupVariation where
  group : ℕ
  variation : ℕ
  deriving DecidableEq, Repr

/-- `opendnp3::PointClass`. -/
inductive PointClass where
  | class0
  | class1
  | class2
  | class3
  | other (value : ℕ)
  deriving DecidableEq, Repr

/-- The point types that `ConfigureDatabase` knows. -/
inductive PointKind where
  | analog
  | binary
  | doubleBinary
  | counter
  | frozenCounter
  deriving DecidableEq, Repr

/-! ## The tables -/

def variationMap (group : ℕ) (variations : List ℕ) : Dict Int GroupVariation :=
  .ofList (variations.map fun (v : ℕ) => ((v : Int), ⟨group, v⟩))

def sAnalogInputVarMap : Dict Int GroupVariation := variationMap 30 [1, 2, 3, 4, 5, 6]

def eAnalogInputVarMap : Dict Int GroupVariation := variationMap 32 [1, 2, 3, 4, 5, 6, 7, 8]

def sCounterVarMap : Dict Int GroupVariation := variationMap 20 [1, 2, 5, 6]

def eCounterVarMap : Dict Int GroupVariation := variationMap 22 [1, 2, 5, 6]

def sFrozenCounterVarMap : Dict Int GroupVariation := variationMap 21 [1, 2, 5, 6, 9, 10]

def eFrozenCounterVarMap : Dict Int GroupVariation := variationMap 23 [1, 2, 5, 6]

def sBinaryVarMap : Dict Int GroupVariation := variationMap 1 [1, 2]

def eBinaryVarMap : Dict Int GroupVariation := variationMap 2 [1, 2, 3]

def sDoubleBinaryVarMap : Dict Int GroupVariation := variationMap 3 [2]

def eDoubleBinaryVarMap : Dict Int GroupVariation := variationMap 4 [1, 2, 3]

def pointClassVarMap : Dict String PointClass :=
  .ofList [("0", .class0), ("1", .class1), ("2", .class2), ("3", .class3)]

/-- The state of the tables. -/
structure Tables where
  sVarMap : PointKind → Dict Int GroupVariation
  eVarMap : PointKind → Dict Int GroupVariation
  pointClassVarMap : Dict String PointClass

/-- The tables as they are initialised. -/
def Tables.initial : Tables where
  sVarMap
    | .analog => sAnalogInputVarMap
    | .binary => sBinaryVarMap
    | .doubleBinary => sDoubleBinaryVarMap
    | .counter => sCounterVarMap
    | .frozenCounter => sFrozenCounterVarMap
  eVarMap
    | .analog => eAnalogInputVarMap
    | .binary => eBinaryVarMap
    | .doubleBinary => eDoubleBinaryVarMap
    | .counter => eCounterVarMap
    | .frozenCounter => eFrozenCounterVarMap
  pointClassVarMap := Dnp3.pointClassVarMap

/-! ## `ConfigureDatabase` -/

/-- What the library and the stream conversions add: the enumerators that a new entry of a table
gets, and the `float` of a text. -/
structure ConfigureEnv where
  zeroVariation : GroupVariation
  zeroClass : PointClass
  readFloat : String → Option Double

/-- `map[key]`: a key that is missing is inserted. -/
def subscript {κ υ : Type} [LinearOrder κ] (init : υ) (map : Dict κ υ) (key : κ) : υ × Dict κ υ :=
  match map.get? key with
  | some v => (v, map)
  | none => (init, map.insert key init)

/-- What is written for a point. -/
structure DatabaseEntry where
  kind : PointKind
  index : Int
  svariation : GroupVariation
  evariation : GroupVariation
  clazz : PointClass
  deadband : Option Double
  deriving DecidableEq, Repr

/-- The tables, what the station has written of its database, and the indexes it records. -/
structure Configuring where
  tables : Tables
  view : List DatabaseEntry
  dpTypeIndexMap : Dict String (List Int)

def PointKind.pointType : PointKind → String
  | .analog => "Analog Input"
  | .binary => "Binary Input"
  | .doubleBinary => "Double Binary Input"
  | .counter => "Counter"
  | .frozenCounter => "Frozen Counter"

/-- The variations that are set where `at` throws: of the data, and of the events. -/
def PointKind.fallback : PointKind → Int × Int
  | .analog => (5, 7)
  | .binary => (1, 1)
  | .doubleBinary => (2, 1)
  | .counter => (5, 5)
  | .frozenCounter => (5, 5)

/-- `dp.deadband`, where it is a number above zero. -/
def positiveDeadband (env : ConfigureEnv) (dp : DataPoint) : Option Double :=
  match dp.deadband.bind env.readFloat with
  | some (.fin q) => if 0 < q then some (.fin q) else none
  | some (.inf false) => some (.inf false)
  | _ => none

/-- The variation that is looked up: a number that the table lacks is replaced first. -/
def checkedVariation (map : Dict Int GroupVariation) (fallback variation : Int) : Int :=
  if (map.get? variation).isSome then variation else fallback

/-- The branch of a point type. -/
def configurePoint (env : ConfigureEnv) (kind : PointKind) (s : Configuring) (dp : DataPoint) :
    Configuring :=
  let sVariation := checkedVariation (s.tables.sVarMap kind) kind.fallback.1 dp.sVariation
  let eVariation := checkedVariation (s.tables.eVarMap kind) kind.fallback.2 dp.eVariation
  let (svariation, sMap) := subscript env.zeroVariation (s.tables.sVarMap kind) sVariation
  let (clazz, classMap) :=
    subscript env.zeroClass s.tables.pointClassVarMap (toString dp.eventClass)
  let (evariation, eMap) := subscript env.zeroVariation (s.tables.eVarMap kind) eVariation
  { tables :=
      { sVarMap := Function.update s.tables.sVarMap kind sMap
        eVarMap := Function.update s.tables.eVarMap kind eMap
        pointClassVarMap := classMap }
    view := s.view ++
      [{ kind := kind, index := dp.index, svariation := svariation, evariation := evariation
         clazz := clazz, deadband := if kind = .analog then positiveDeadband env dp else none }]
    dpTypeIndexMap := s.dpTypeIndexMap.insert dp.pointType
      (dp.index :: (s.dpTypeIndexMap.get? dp.pointType).getD []) }

/-- The branch that is taken; the other types have none. -/
def kindOf (pointType : String) : Option PointKind :=
  if pointType = "Analog Input" then some .analog
  else if pointType = "Binary Input" then some .binary
  else if pointType = "Double Binary Input" then some .doubleBinary
  else if pointType = "Counter" then some .counter
  else if pointType = "Frozen Counter" then some .frozenCounter
  else none

/-- One pass of the loop over the points. -/
def configureDataPoint (env : ConfigureEnv) (s : Configuring) (dp : DataPoint) : Configuring :=
  match kindOf dp.pointType with
  | some kind => configurePoint env kind s dp
  | none => s

def configureDatabase (env : ConfigureEnv) (tables : Tables) (node : Node) : Configuring :=
  node.dataPoints.foldl (configureDataPoint env)
    { tables := tables, view := [], dpTypeIndexMap := .empty }

/-! ## The class scans of a master -/

/-- `ClassField::AllClasses()`, or the field of one class. -/
inductive ClassField where
  | allClasses
  | ofClass (c : PointClass)
  deriving DecidableEq, Repr

/-- One pass of the loop of `MasterStation::run` over the poll points: the scan that is added,
if the table counts the class. -/
def classScan (map : Dict String PointClass) (pp : PollPoint) : Option (ClassField × Int) :=
  if pp.eventClass = "0123" then some (.allClasses, pp.frequency)
  else (map.get? pp.eventClass).map fun c => (.ofClass c, pp.frequency)

/-- The scans that a master sets up. -/
def addClassScans (map : Dict String PointClass) (pollPoints : List PollPoint) :
    List (ClassField × Int) :=
  pollPoints.filterMap (classScan map)

end IcsTrafficGen.Dnp3
