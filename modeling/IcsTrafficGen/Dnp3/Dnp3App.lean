import IcsTrafficGen.Dnp3.InjectDataChanges
import IcsTrafficGen.Dnp3.LuaSwitch
import IcsTrafficGen.Dnp3.ParseConfig
import IcsTrafficGen.Lib.Fanout
import Mathlib.Data.Finset.Insert

/- `dnp3app`: the stations that `main` makes of the configured nodes, how it binds the source
   masters to the mapping outstations, and what these do to each other from then on. A
   master that has bound outstations passes every measurement it receives to its
   destinations, one outstation after another, each under the `mutex` of that outstation;
   the loops of the outstations run beside. The callbacks of one master come one after
   another; everything else interleaves in any order. -/
namespace IcsTrafficGen.Dnp3

/-! ## The configured nodes -/

/-- A node with the settings that `main` and the loops of the stations read of it. -/
structure ConfiguredNode extends StationNode where
  luaFileNames : List String
  luaKeySwitch : String
  boundOutstations : List String
  deriving DecidableEq

/-- The values of the children, or what stands if the path is missing. -/
def childValues (nodeTree : PTree) (path : List String) (default : List String) : List String :=
  match nodeTree.childAt? path with
  | some tree => tree.children.map fun c => c.2.data
  | none => default

/-- `readLuaFileNames`, over the name that the constructor sets. -/
def readLuaFileNames (nodeTree : PTree) (station : StationNode) : List String :=
  childValues nodeTree ["Lua File", station.role] [station.name ++ ".lua"]

def readLuaFileKeySwitch (nodeTree : PTree) (station : StationNode) : String :=
  (nodeTree.getOptional PTree.asString ["Lua Switch Trigger", station.role]).getD ""

/-- `readBoundOutstations`, which only a master has. -/
def readBoundOutstations (nodeTree : PTree) (station : StationNode) : List String :=
  if station.role = "Master" then childValues nodeTree ["Bound Outstations"] [] else []

def readSettings (nodeTree : PTree) (station : StationNode) : ConfiguredNode :=
  { station with
    luaFileNames := readLuaFileNames nodeTree station
    luaKeySwitch := readLuaFileKeySwitch nodeTree station
    boundOutstations := readBoundOutstations nodeTree station }

/-- One pass of the loop over "Nodes", with the settings of the stations it appends. -/
def readConfiguredNode (s : CfgJsonParser × List ConfiguredNode) (nodeTree : PTree) :
    Cpp (CfgJsonParser × List ConfiguredNode) := do
  let p ← CfgJsonParser.readNode s.1 nodeTree
  pure (p, s.2 ++ (p.nodes.drop s.1.nodes.length).map (readSettings nodeTree))

/-! ## The stations of `main` -/

/-- What `main` has when its loop over the nodes is through. -/
structure Stations where
  luaTriggers : Finset String
  /-- The nodes whose station has a thread. -/
  threads : List ConfiguredNode
  srcMasterStations : List ConfiguredNode
  mappedOutStations : List ConfiguredNode

def Stations.initial : Stations :=
  { luaTriggers := ∅, threads := [], srcMasterStations := [], mappedOutStations := [] }

/-- One pass of the loop over the nodes. -/
def startStation (s : Stations) (vect : ConfiguredNode) : Stations :=
  let s :=
    if vect.luaKeySwitch = "" then s
    else { s with luaTriggers := insert vect.luaKeySwitch s.luaTriggers }
  if vect.role = "Master" then
    { s with
      srcMasterStations :=
        if vect.boundOutstations = [] then s.srcMasterStations else s.srcMasterStations ++ [vect]
      threads := s.threads ++ [vect] }
  else if vect.role = "Outstation" then
    { s with
      mappedOutStations :=
        if vect.dataSources.entries = [] then s.mappedOutStations else s.mappedOutStations ++ [vect]
      threads := s.threads ++ [vect] }
  else s

def startStations (nodes : List ConfiguredNode) : Stations := nodes.foldl startStation .initial

/-- The mapping outstations of a name, by their places in the list. -/
def Stations.named (s : Stations) (boundOutStnName : String) :
    List (Fin s.mappedOutStations.length) :=
  (List.finRange s.mappedOutStations.length).filter fun i =>
    s.mappedOutStations[i].name = boundOutStnName

/-- `destStations` of a master, when the loops over the names it binds are through. -/
def Stations.destStations (s : Stations) (masterStation : ConfiguredNode) :
    List (Fin s.mappedOutStations.length) :=
  masterStation.boundOutstations.flatMap s.named

/-! ## A running outstation -/

/-- The values of a callback of the data handler. -/
inductive Values where
  | binary (values : List (Indexed Bool))
  | analog (values : List (Indexed Double))
  | counter (values : List (Indexed UInt32))

/-- The callback at one destination. -/
def Values.event (srcName : String) : Values → Event
  | .binary values => .binary srcName values
  | .analog values => .analog srcName values
  | .counter values => .counter srcName values

inductive StationAct where
  | receive (srcName : String) (values : Values)
  | pass
  /-- The script is changed; what that leaves of the Lua state. -/
  | loadFile (L : Lua)

/-- One step of a mapping outstation, which has a script or not. One that stops the program or is
undefined is no step. -/
def stationAct (env : LuaEnv) (script : Bool) (o : MappingOutstation × Lua) :
    StationAct → Option (MappingOutstation × Lua)
  | .receive srcName values => ((values.event srcName).exec o.1).toOption.map fun m => (m, o.2)
  | .pass =>
    if script then (MappingOutstation.injectDataChanges env o.1 o.2).toOption
    else o.1.passThruDataChanges.toOption.map fun m => (m, o.2)
  | .loadFile L => if script then some (o.1, L) else none

/-- A mapping outstation that has come to its loop, by itself. -/
def mappingStation (env : LuaEnv) (script : Bool) (node : Node) (L : Lua) :
    Machine (MappingOutstation × Lua) StationAct where
  init := (MappingOutstation.sized node, L)
  step := stationAct env script

/-! ## All of them -/

namespace Stations

section
variable (s : Stations)

/-- A source master and a mapping outstation, by their places in the lists of `main`. -/
abbrev Src : Type := Fin s.srcMasterStations.length
abbrev Dest : Type := Fin s.mappedOutStations.length

def srcName (k : s.Src) : String := s.srcMasterStations[k].name

def destNode (i : s.Dest) : Node := s.mappedOutStations[i].toNode

/-- The destinations of a source master. -/
def destinations (k : s.Src) : List s.Dest := s.destStations s.srcMasterStations[k]

/-- `lua_script_exists` of an outstation. -/
def script (fileExists : String → Bool) (i : s.Dest) : Bool :=
  LuaNode.luaScriptExists fileExists
    { kind := .mappingOutstation, luaFileNames := s.mappedOutStations[i].luaFileNames
      luaKeySwitch := s.mappedOutStations[i].luaKeySwitch }

/-- `DestinationList` of every handler, the measurements on their way, and the outstations. -/
structure App where
  destinationList : s.Src → List s.Dest
  net : Fanout s.Src s.Dest Values
  outstations : s.Dest → MappingOutstation × Lua

inductive AppAct where
  /-- `UpdateDestinations` of a master, which `main` calls when the threads are already running. -/
  | updateDestinations (k : s.Src)
  /-- A callback comes; it goes to the destinations of this moment. -/
  | callback (k : s.Src) (values : Values)
  /-- The callback has locked the next destination, and lets it go. -/
  | deliver (k : s.Src)
  | finish (k : s.Src)
  | pass (i : s.Dest)
  | loadFile (i : s.Dest) (L : Lua)

end

variable {s : Stations}

def App.act (env : LuaEnv) (fileExists : String → Bool) (app : s.App) (i : s.Dest)
    (a : StationAct) : Option s.App :=
  (stationAct env (s.script fileExists i) (app.outstations i) a).map fun o =>
    { app with outstations := Function.update app.outstations i o }

def App.send (app : s.App) (a : FanoutAct s.Src s.Dest Values) : Option s.App :=
  (app.net.step a).map fun net => { app with net }

/-- The callback at its next destination. -/
def App.deliver (env : LuaEnv) (fileExists : String → Bool) (app : s.App) (k : s.Src) :
    Option s.App :=
  match app.net.sending k with
  | some (values, i :: _) =>
    (app.act env fileExists i (.receive (s.srcName k) values)).bind fun app => app.send (.deliver k)
  | _ => none

/-- Nothing guards the list; to replace it while a callback goes through it is undefined. -/
def App.updateDestinations (app : s.App) (k : s.Src) : Option s.App :=
  match app.net.sending k with
  | none => some { app with
      destinationList := Function.update app.destinationList k (s.destinations k) }
  | some _ => none

def App.step (env : LuaEnv) (fileExists : String → Bool) (app : s.App) : s.AppAct → Option s.App
  | .updateDestinations k => app.updateDestinations k
  | .callback k values => app.send (.send k values (app.destinationList k))
  | .deliver k => app.deliver env fileExists k
  | .finish k => app.send (.finish k)
  | .pass i => app.act env fileExists i .pass
  | .loadFile i L => app.act env fileExists i (.loadFile L)

end Stations

/-- The application when its outstations have come to their loops, with the Lua state of each. -/
def dnp3App (s : Stations) (env : LuaEnv) (fileExists : String → Bool) (luaState : s.Dest → Lua) :
    Machine s.App s.AppAct where
  init :=
    { destinationList := fun _ => []
      net := .new
      outstations := fun i => (MappingOutstation.sized (s.destNode i), luaState i) }
  step := Stations.App.step env fileExists

end IcsTrafficGen.Dnp3
