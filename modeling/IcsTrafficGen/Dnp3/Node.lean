import IcsTrafficGen.Lib.Dict
import IcsTrafficGen.Lib.Cpp
import Mathlib.Data.String.Basic

/- The data of a DNP3 station as the configuration gives it: its points, the points
   it maps from other stations, and the size of its database for each point type.
   A point type is a string, and any string can occur in a configuration. -/
namespace IcsTrafficGen.Dnp3

/-- `DataPoint`. The deadband is the text of its key, if there is one; its conversion
to a `float` happens where it is used. -/
structure DataPoint where
  index : Int
  sVariation : Int
  eVariation : Int
  eventClass : Int
  pointType : String
  deadband : Option String
  deriving DecidableEq, Repr

/-- The constructor `DataPoint()`. -/
def DataPoint.new : DataPoint :=
  { index := 0, sVariation := 1, eVariation := 1, eventClass := 2, pointType := "",
    deadband := none }

structure MappedDataPoint where
  index : Int
  inputIndex : Int
  pointType : String
  deriving DecidableEq, Repr

/-- The fields of `Node` that the data readers fill. -/
structure Node where
  dataPoints : List DataPoint
  dataSources : Dict String (List MappedDataPoint)
  dbSize : Dict String Int
  evtBufferSize : Dict String Int
  deriving DecidableEq

def zeroSizes (types : List String) : Dict String Int :=
  types.foldl (fun d t => d.insert t 0) .empty

/-- The constructor `Node()`. -/
def Node.new : Node :=
  { dataPoints := []
    dataSources := .empty
    dbSize := zeroSizes ["Binary Input", "Double Binary Input", "Analog Input", "Counter",
      "Frozen Counter", "Binary Output", "Analog Output", "Time Interval"]
    evtBufferSize := zeroSizes ["Binary Input", "Double Binary Input", "Analog Input", "Counter",
      "Frozen Counter", "Binary Output", "Analog Output"] }

/-- `dbSize[t]`, which counts as 0 (and is set to 0 by the lookup) where it is missing. -/
def sizeAt (d : Dict String Int) (t : String) : Int := (d.get? t).getD 0

/-- `if (dbSize[t] < size) dbSize[t] = size;` -/
def growSize (d : Dict String Int) (t : String) (size : Int) : Dict String Int :=
  d.insert t (if sizeAt d t < size then size else sizeAt d t)

theorem sizeAt_growSize (d : Dict String Int) (t t' : String) (size : Int) :
    sizeAt (growSize d t size) t' = if t' = t then max (sizeAt d t) size else sizeAt d t' := by
  unfold growSize
  rw [sizeAt, Dict.get?_insert]
  by_cases h : t' = t
  · rw [if_pos h, if_pos h, Option.getD_some]
    split <;> omega
  · rw [if_neg h, if_neg h, sizeAt]

theorem le_sizeAt_growSize (d : Dict String Int) (t t' : String) (size : Int) :
    sizeAt d t' ≤ sizeAt (growSize d t size) t' := by
  rw [sizeAt_growSize]
  split
  · next ht => exact ht ▸ le_max_left _ _
  · exact le_refl _

theorem sizeAt_zeroSizes (types : List String) (t : String) : sizeAt (zeroSizes types) t = 0 := by
  have hstep : ∀ d : Dict String Int, sizeAt d t = 0 →
      sizeAt (types.foldl (fun d t => d.insert t 0) d) t = 0 := by
    induction types with
    | nil => exact fun d hd => hd
    | cons t' types ih =>
      intro d hd
      apply ih
      rw [sizeAt, Dict.get?_insert]
      split
      · rfl
      · exact hd
  exact hstep .empty rfl

/-- A point of the mapping, with the source station it comes from. -/
def Node.mapped (n : Node) : List (String × MappedDataPoint) :=
  n.dataSources.entries.flatMap (fun e => e.2.map (fun dp => (e.1, dp)))

theorem Node.mem_mapped {n : Node} {src : String} {dp : MappedDataPoint} :
    (src, dp) ∈ n.mapped ↔ ∃ l, n.dataSources.get? src = some l ∧ dp ∈ l := by
  simp [Node.mapped, Dict.get?_eq_some]

/-- The point types that are multiplexed. -/
inductive Channel where
  | analog
  | binary
  | counter
  deriving DecidableEq, Repr

def Channel.pointType : Channel → String
  | .analog => "Analog Input"
  | .binary => "Binary Input"
  | .counter => "Counter"

theorem Channel.pointType_inj {c d : Channel} (h : c.pointType = d.pointType) : c = d := by
  cases c <;> cases d <;> first | rfl | exact absurd h (by decide)

end IcsTrafficGen.Dnp3
