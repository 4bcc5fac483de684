import IcsTrafficGen.Lib.Lua
import IcsTrafficGen.Lib.CppString

/- What a DNP3 master does with the table `data` that its script leaves:
   `LuaInvokeScript` reads the elements of the table into a list of `cmdStruct`, and
   `FireOffMasterCommand` sends them off. The requests that the master is given are
   recorded in their order; what is printed is left out. -/
namespace IcsTrafficGen.Dnp3

/-! ## Requests -/

inductive ControlCode where
  | pulseOn
  | pulseOff
  | latchOn
  | latchOff
  deriving DecidableEq, Repr

/-- The commands, each with its value in its own type. -/
inductive Command where
  | controlRelayOutputBlock (code : ControlCode)
  | analogOutputInt16 (value : Int)
  | analogOutputInt32 (value : Int)
  | analogOutputFloat32 (value : Double)
  | analogOutputDouble64 (value : Double)
  deriving DecidableEq, Repr

/-- A header: the commands that were added to it, each with its index. -/
abbrev CommandHeader := List (Command × ℕ)

/-- `opendnp3::CommandSet`: its headers. -/
abbrev CommandSet := List CommandHeader

/-- The commands of a set, whatever header they are under. -/
def CommandSet.commands (set : CommandSet) : List (Command × ℕ) := set.flatten

/-- What a master is asked for. -/
inductive Request where
  | scanRange (group variation start stop : ℕ)
  | selectAndOperate (commands : CommandSet)
  | directOperate (commands : CommandSet)
  deriving DecidableEq, Repr

/-- The conversion of a `double` to `int16_t`. -/
def toInt16 (d : Double) : Cpp Int := d.toInt (-32768) 32767

/-- The conversion of a `double` to `int`. -/
def toInt32 (d : Double) : Cpp Int := d.toInt (-2147483648) 2147483647

structure CmdStruct where
  fName : String
  fType : String
  index : Int
  value : Double
  deriving DecidableEq, Repr

/-- `new cmdStruct()`, which sets the numbers to zero. -/
def CmdStruct.new : CmdStruct := { fName := "", fType := "", index := 0, value := .zero }

namespace MasterStation

/-! ## `LuaInvokeScript` -/

/-- A text of the script; a null pointer is no text. -/
def readText (format : Double → String) : LuaM String := do
  match ← Lua.toCString format 2 with
  | some s => pure s
  | none => Lua.lift (.error .undefined)

/-- The `switch` over the place of an entry in its element. The value of the entry is
below a copy of its key. -/
def storeEntry (env : LuaEnv) (format : Double → String) (cmd : CmdStruct) (i : Int) :
    LuaM CmdStruct :=
  if i = 0 then do
    let s ← readText format
    pure { cmd with fType := s }
  else if i = 1 then do
    let s ← readText format
    pure { cmd with fName := s }
  else if i = 2 then do
    let d ← Lua.toNumber env 2
    let index ← Lua.lift (toInt32 d)
    pure { cmd with index := index }
  else if i = 3 then do
    let d ← Lua.toNumber env 2
    pure { cmd with value := d }
  else pure cmd

/-- One pass of the loop over an element. -/
def readEntry (env : LuaEnv) (format : Double → String) (cmd : CmdStruct) :
    LuaM (Bool × CmdStruct) := do
  Lua.pushValue 2
  let key ← Lua.toInteger env 1
  let i ← Lua.lift (Lua.subInteger env key 1)
  let cmd ← storeEntry env format cmd (Cpp.wrapInt i)
  Lua.pop 2
  pure (true, cmd)

/-- The element at the index -2, below a copy of its key. -/
def readElement (env : LuaEnv) (format : Double → String) (cmdList : List CmdStruct) :
    LuaM (List CmdStruct) := do
  Lua.pushValue 2
  Lua.pushNil
  let cmd ← Lua.whileNext env (readEntry env format) .new
  Lua.pop 1
  pure (cmdList ++ [cmd])

/-- An element that is no table is passed over. -/
def readIfTable (env : LuaEnv) (format : Double → String) (cmdList : List CmdStruct) :
    LuaM (List CmdStruct) := do
  let table ← Lua.isTable 2
  if table then readElement env format cmdList else pure cmdList

/-- One pass of the loop over `data`. -/
def readData (env : LuaEnv) (format : Double → String) (cmdList : List CmdStruct) :
    LuaM (Bool × List CmdStruct) := do
  Lua.pushValue 2
  let cmdList ← readIfTable env format cmdList
  Lua.pop 2
  pure (true, cmdList)

/-! ## `FireOffMasterCommand` -/

/-- The local variables of the loop, with what the master was asked for in it. -/
structure Firing where
  sboCommands : CommandSet
  doCommands : CommandSet
  sboFuncCodes : Bool
  doFuncCodes : Bool
  master : List Request
  deriving DecidableEq, Repr

def Firing.start (master : List Request) : Firing :=
  { sboCommands := [], doCommands := [], sboFuncCodes := false, doFuncCodes := false
    master := master }

/-- The code of a relay command. A value that is none of the four has no command. -/
def controlCode (value : Double) : Option ControlCode :=
  if value.eqv (.fin 1) then some .pulseOn
  else if value.eqv (.fin 2) then some .pulseOff
  else if value.eqv (.fin 3) then some .latchOn
  else if value.eqv (.fin 4) then some .latchOff
  else none

/-- What the names of functions append to a command set: a header, or nothing for a name
that is not known. -/
def startHeader (funcName : String) (index : Int) (value : Double) : Cpp CommandSet :=
  if funcName = "CROB" then
    match controlCode value with
    | some code => pure [[(.controlRelayOutputBlock code, Cpp.toUInt16 index)]]
    | none => pure [[]]
  else if funcName = "AnalogOutputInt16" then do
    let n ← toInt16 value
    pure [[(.analogOutputInt16 n, Cpp.toUInt16 index)]]
  else if funcName = "AnalogOutputInt32" then do
    let n ← toInt32 value
    pure [[(.analogOutputInt32 n, Cpp.toUInt16 index)]]
  else if funcName = "AnalogOutputFloat32" then
    pure [[(.analogOutputFloat32 value.toFloat32, Cpp.toUInt16 index)]]
  else if funcName = "AnalogOutputDouble64" then
    pure [[(.analogOutputDouble64 value, Cpp.toUInt16 index)]]
  else pure []

/-- What follows a prefix of a text. -/
def afterPrefix (pre s : List Char) : Option (List Char) :=
  if pre.isPrefixOf s then some (s.drop pre.length) else none

/-- `std::regex_match` with `Group([0-9]+)Var([0-9])`: the two submatches. -/
def matchGroupVar (funcName : String) : Option (List Char × Char) := do
  let s ← afterPrefix "Group".toList funcName.toList
  let group := s.takeWhile Char.isDigit
  let s ← afterPrefix "Var".toList (s.dropWhile Char.isDigit)
  match s with
  | [c] => if group ≠ [] ∧ c.isDigit then some (group, c) else none
  | _ => none

/-- A scan is not accumulated, but asked for at once. -/
def fireScan (c : CmdStruct) (s : Firing) : Cpp Firing :=
  match matchGroupVar c.fName with
  | none => pure s
  | some (group, var) => do
    let groupId ← CppString.stoi group
    let varId ← CppString.stoi [var]
    let stop ← toInt32 c.value.round
    pure { s with
      master := s.master ++
        [.scanRange (Cpp.toUInt8 groupId) (Cpp.toUInt8 varId) (Cpp.toUInt16 c.index) (Cpp.toUInt16 stop)] }

/-- One pass of the loop over the commands. -/
def fireCommand (s : Firing) (c : CmdStruct) : Cpp Firing :=
  if c.fType = "SBO" then do
    let set ← startHeader c.fName c.index c.value
    pure { s with sboFuncCodes := true, sboCommands := s.sboCommands ++ set }
  else if c.fType = "DO" then do
    let set ← startHeader c.fName c.index c.value
    pure { s with doFuncCodes := true, doCommands := s.doCommands ++ set }
  else if c.fType = "Scan" then fireScan c s
  else pure s

def fireOffMasterCommand (master : List Request) (cmdList : List CmdStruct) :
    Cpp (List Request) := do
  let s ← cmdList.foldlM fireCommand (.start master)
  let master := if s.sboFuncCodes then s.master ++ [.selectAndOperate s.sboCommands] else s.master
  pure (if s.doFuncCodes then master ++ [.directOperate s.doCommands] else master)

/-- The end of `LuaInvokeScript`, where `data` has an entry. What the first look at it has
left on the stack stays there. -/
def readCommands (env : LuaEnv) (format : Double → String) (master : List Request) :
    LuaM (List Request) := do
  Lua.getGlobal "data"
  Lua.pushNil
  let cmdList ← Lua.whileNext env (readData env format) []
  Lua.pop 1
  Lua.lift (fireOffMasterCommand master cmdList)

def luaInvokeScript (env : LuaEnv) (format : Double → String) (master : List Request) :
    LuaM (List Request) := do
  Lua.getGlobal "operate_outstation"
  Lua.call env 0 1
  Lua.getGlobal "data"
  Lua.pushNil
  let any ← Lua.next env 2
  if any then readCommands env format master else pure master

end MasterStation
end IcsTrafficGen.Dnp3
