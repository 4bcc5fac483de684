import IcsTrafficGen.Lib.Python

/- `json_parser.process_nodes`: the masters of the configuration, and one outstation
   node for every address that hosts outstations. The parsed file is a dictionary
   `cfg`; an exception that no `except` catches, `SystemExit` included, ends the call.
   What the call changes outside of the parser is the state `World`: the addresses
   the CIDR generator still has, and the virtual interfaces that were brought up. -/
namespace IcsTrafficGen.Modbus

/-- `none` for `cidr` is a configuration without "CIDR Notation". -/
structure World where
  cidr : Option (List String)
  vnictrack : Nat
  up : List (String × String)
  deriving DecidableEq

/-- What is not decided by the program: the result of the `ifconfig` call, and the order
and the choice that a set makes of its members, here listed in the order they came. -/
structure Env where
  ifconfig : String → String → Option Exc
  iter : List String → List String
  iter_perm : ∀ l, (iter l).Perm l
  pop : List String → Option String
  pop_mem : ∀ l, l ≠ [] → ∃ s ∈ l, pop l = some s

abbrev Config := Dict String Json

structure MasterNode where
  name : Json
  ipaddr : Json
  vnic : Option String
  outstationAddr : Json
  pollDict : Json ⊕ Dict Scalar Json
  simulate : Json
  outstationInfo : Dict Scalar Json
  port : Scalar

structure OutstationNode where
  names : List String
  ipaddr : Scalar
  vnic : Option String
  port : Scalar
  simulate : Scalar
  datastore : Dict Scalar Json
  nameIdMap : Dict String Scalar

/-! ## Fields of the outstations -/

/-- `self.json_data[name]`, as far as `get` is used of it. -/
def outstationDict (cfg : Config) (name : String) : Py (Dict String Json) :=
  match cfg.get? name with
  | some j => j.asDict
  | none => .error .keyError

/-- `self.json_data[name].get(key, default)`. -/
def outstationGet (cfg : Config) (key : String) (default : Json) (name : String) : Py Json := do
  let fields ← outstationDict cfg name
  pure ((fields.get? key).getD default)

def unitId (cfg : Config) : String → Py Json := outstationGet cfg "Unit ID" (.num 0)

def dataCount (cfg : Config) : String → Py Json := outstationGet cfg "Data Count" (.num 10)

def getOutstationDatastore (cfg : Config) (names : List String) : Py (Dict Scalar Json) := do
  let entries ← names.mapM fun name => do
    let id ← unitId cfg name
    let count ← dataCount cfg name
    let key ← id.hash
    pure (key, count)
  pure (Dict.ofList entries)

def getOutstationUnitids (cfg : Config) (names : List String) : Py (Dict String Scalar) := do
  let ids ← names.mapM (unitId cfg)
  let keys ← ids.mapM Json.hash
  let nameUnitidMap := Dict.ofList (names.zip keys)
  -- two outstations at one address with one unit id
  if ¬ nameUnitidMap.values.Nodup then .error .systemExit
  let top ← Scalar.max nameUnitidMap.values
  let n ← top.int
  if 247 < n then do
    top.formatInt
    .error .systemExit
  pure nameUnitidMap

/-- The values of one field, if all outstations have the same. -/
def commonField (cfg : Config) (key : String) (default : Json) (names : List String) :
    Py (List Scalar) := do
  let values ← names.mapM (outstationGet cfg key default)
  let keys ← values.mapM Json.hash
  if 1 < keys.dedup.length then .error .systemExit
  pure keys

/-- `len(ports)==1 and ports[0] or 502`. -/
def choosePort : List Scalar → Scalar
  | [port] => if port.truthy then port else .num 502
  | _ => .num 502

def getOutstationPort (cfg : Config) (names : List String) : Py Scalar := do
  let ports ← commonField cfg "Port" .null names
  pure (choosePort ports)

def getOutstationSim (cfg : Config) (names : List String) : Py Scalar := do
  let simulate ← commonField cfg "Simulate" (.num 1) names
  match simulate with
  | sim :: _ => pure sim
  | [] => .error .indexError

/-! ## Addresses and interfaces -/

/-- `self.cidr.get_addr()`. -/
def getAddr : PyM World String := fun w =>
  match w.cidr with
  | none => .error .attributeError w
  | some [] => .error .systemExit w
  | some (addr :: addrs) => .ok addr { w with cidr := some addrs }

/-- `self.json_data["Virtual Interface"]`, which is then added to a string. -/
def virtualInterface (cfg : Config) : Py String :=
  match cfg.get? "Virtual Interface" with
  | some (.scalar (.str vnic)) => .ok vnic
  | some _ => .error .typeError
  | none => .error .keyError

/-- `subprocess.call(["ifconfig", vnic, ipaddr])` and the next interface number. -/
def callIfconfig (env : Env) (vnic : String) (ipaddr : Json) : PyM World Unit := fun w =>
  match ipaddr with
  | .scalar (.str ip) =>
    match env.ifconfig vnic ip with
    | some e => .error e w
    | none => .ok () { w with vnictrack := w.vnictrack + 1, up := w.up ++ [(vnic, ip)] }
  | _ => .error .typeError w

/-- `node.allocate(self.json_data["Virtual Interface"])`, which sets the node's `vnic`. -/
def allocate (env : Env) (cfg : Config) (ipaddr : Json) : PyM World (Option String) := do
  let interface ← PyM.lift (virtualInterface cfg)
  let w ← get
  let vnic := interface ++ ":" ++ toString w.vnictrack
  callIfconfig env vnic ipaddr
  pure (some vnic)

/-! ## Masters -/

/-- A kept entry of "Master Nodes": the outstations it lists and the node made of it. -/
structure KeptMaster where
  entry : Dict String Json
  outstations : List String
  node : MasterNode

structure ParserState where
  masterNodes : List KeptMaster
  outstationCidrAddrs : Dict String String
  /-- The members in the order they came. -/
  outstationSet : List String

def ParserState.init : ParserState :=
  { masterNodes := [], outstationCidrAddrs := .empty, outstationSet := [] }

/-- The statements under `try`: the default of the address is computed first, also
where the entry has an address. -/
def masterNameAddr (connectedNodes : Json) : PyM World (Json × Json) := do
  let name ← PyM.lift (connectedNodes.getItem "Name")
  let entry ← PyM.lift connectedNodes.asDict
  -- an argument of `get`, so an address is drawn in either case
  let default ← getAddr
  pure (name, (entry.get? "IP Address").getD (.str default))

/-- The names, if each is a key of the configuration. -/
def definedNames (cfg : Config) (items : List Json) : Py (List String) :=
  items.mapM fun item => do
    match ← item.hash with
    | .str name => if name ∈ cfg.keys then pure name else .error .systemExit
    | _ => .error .systemExit

def readPollInterval (entry : Dict String Json) : Py (Json ⊕ Dict Scalar Json) := do
  let interval := (entry.get? "Poll Interval").getD (.obj [])
  if interval.truthy then do
    let items ← interval.iter
    let polls ← items.mapM fun p => do
      let dataType ← p.getItem "Data type"
      let frequency ← p.getItem "Frequency"
      let key ← dataType.hash
      pure (key, frequency)
    pure (.inr (Dict.ofList polls))
  else pure (.inl interval)

def cidrAddrOf (addrs : Dict String String) (name : String) : Py String :=
  match addrs.get? name with
  | some addr => .ok addr
  | none => .error .keyError

/-- The address that some member of the set has been given. -/
def poppedAddr (env : Env) (st : ParserState) (assignedOts : List String) : Py String :=
  match env.pop assignedOts with
  | some name => cidrAddrOf st.outstationCidrAddrs name
  | none => .error .keyError

/-- The address for the outstations of a master, none of which has one configured. -/
def sharedAddr (env : Env) (st : ParserState) (names : List String) : PyM World String := do
  let assignedOts := st.outstationSet.filter (· ∈ names)
  let assigned ← PyM.lift (assignedOts.mapM (cidrAddrOf st.outstationCidrAddrs))
  match assigned.dedup with
  | [] => getAddr
  | [_] => PyM.lift (poppedAddr env st assignedOts)
  | _ => PyM.raise .systemExit

/-- A value used as a key of `self.json_data`. -/
def nameOf : Json → Py String
  | .scalar (.str name) => .ok name
  | _ => .error .keyError

/-- The configured address, which all outstations of the master must have. -/
def configuredAddr (cfg : Config) (outstations : Json) (ips : List Json) : Py Json := do
  let first ← outstations.first
  let name ← nameOf first
  let ip ← outstationGet cfg "IP Address" .null name
  if ips.all (fun x => x.eqv ip) then pure ip else .error .systemExit

/-- The address of the outstations of a master, and the generated addresses with it. -/
def outstationAddr (env : Env) (cfg : Config) (st : ParserState) (outstations : Json)
    (names : List String) : PyM World (Json × Dict String String) := do
  let ips ← PyM.lift (names.mapM (outstationGet cfg "IP Address" .null))
  if ips.any Json.truthy then do
    let ip ← PyM.lift (configuredAddr cfg outstations ips)
    pure (ip, st.outstationCidrAddrs)
  else do
    let addr ← sharedAddr env st names
    pure (.str addr, st.outstationCidrAddrs.update (names.map (fun name => (name, addr))))

/-- `s.update(names)` of a set. -/
def setUpdate (s names : List String) : List String :=
  names.foldl (fun s name => if name ∈ s then s else s ++ [name]) s

/-- The interface of a master, unless its entry has an address. -/
def masterVnic (env : Env) (cfg : Config) (entry : Dict String Json) (masterIp : Json) :
    PyM World (Option String) :=
  if ((entry.get? "IP Address").getD .null).truthy then pure none else allocate env cfg masterIp

/-- What follows the `try` statement, for an entry with its name and address. -/
def addMaster (env : Env) (cfg : Config) (st : ParserState) (connectedNodes : Json)
    (masterName masterIp : Json) : PyM World ParserState := do
  let entry ← PyM.lift connectedNodes.asDict
  let vnic ← masterVnic env cfg entry masterIp
  let outstations := (entry.get? "Outstations").getD (.arr [])
  let items ← PyM.lift outstations.iter
  let names ← PyM.lift (definedNames cfg items)
  let (addr, cidrAddrs) ← outstationAddr env cfg st outstations names
  let pollDict ← PyM.lift (readPollInterval entry)
  let info ← PyM.lift (getOutstationDatastore cfg names)
  let port ← PyM.lift (getOutstationPort cfg names)
  let node : MasterNode :=
    { name := masterName, ipaddr := masterIp, vnic := vnic, outstationAddr := addr
      pollDict := pollDict, simulate := (entry.get? "Simulate").getD (.num 1)
      outstationInfo := info, port := port }
  pure { masterNodes := st.masterNodes ++ [{ entry := entry, outstations := names, node := node }]
         outstationCidrAddrs := cidrAddrs
         outstationSet := setUpdate st.outstationSet names }

/-- One pass of the loop over "Master Nodes". -/
def processMaster (env : Env) (cfg : Config) (st : ParserState) (connectedNodes : Json) :
    PyM World ParserState := do
  -- the bare `except`: the entry is passed over, an address it has drawn stays drawn
  match ← PyM.attempt (masterNameAddr connectedNodes) with
  | none => pure st
  | some (masterName, masterIp) => addMaster env cfg st connectedNodes masterName masterIp

/-! ## Outstations -/

/-- `self.json_data[name].get("IP Address") or outstation_cidr_addrs[name]`, as a key. -/
def hostAddr (cfg : Config) (st : ParserState) (name : String) : Py Scalar := do
  let ip ← outstationGet cfg "IP Address" .null name
  if ip.truthy then ip.hash
  else do
    let addr ← cidrAddrOf st.outstationCidrAddrs name
    pure (.str addr)

/-- One pass of the loop that collects the outstations by address. -/
def groupOutstation (cfg : Config) (st : ParserState) (m : Dict Scalar (List String))
    (name : String) : Py (Dict Scalar (List String)) := do
  let ipaddr ← hostAddr cfg st name
  pure (m.set ipaddr ((m.get? ipaddr).getD [] ++ [name]))

/-- The interface of an outstation node, unless an address is configured. -/
def outstationVnic (env : Env) (cfg : Config) (ipaddr : Scalar) (names : List String) :
    PyM World (Option String) := do
  let ips ← PyM.lift (names.mapM (outstationGet cfg "IP Address" .null))
  if ips.any Json.truthy then pure none else allocate env cfg (.scalar ipaddr)

/-- One pass of the loop that makes the node of an address. -/
def outstationNode (env : Env) (cfg : Config) (nodes : List OutstationNode)
    (e : Scalar × List String) : PyM World (List OutstationNode) := do
  let port ← PyM.lift (getOutstationPort cfg e.2)
  let simulate ← PyM.lift (getOutstationSim cfg e.2)
  let datastore ← PyM.lift (getOutstationDatastore cfg e.2)
  let nameIdMap ← PyM.lift (getOutstationUnitids cfg e.2)
  let vnic ← outstationVnic env cfg e.1 e.2
  PyM.lift port.formatInt
  pure (nodes ++ [{ names := e.2, ipaddr := e.1, vnic := vnic, port := port, simulate := simulate
                    datastore := datastore, nameIdMap := nameIdMap }])

/-- The kept masters and the outstation nodes. -/
structure Nodes where
  masters : List KeptMaster
  outstations : List OutstationNode

/-- The entries the first loop goes over. -/
def masterEntries (cfg : Config) : Py (List Json) :=
  match cfg.get? "Master Nodes" with
  | some j => j.iter
  | none => .error .keyError

/-- The first two loops: the masters, and the outstations by address. -/
def collectOutstations (env : Env) (cfg : Config) :
    PyM World (ParserState × Dict Scalar (List String)) := do
  let masterNodes ← PyM.lift (masterEntries cfg)
  let st ← masterNodes.foldlM (processMaster env cfg) .init
  -- a set is gone through in an order of its own
  let ipaddrOutstationMap ← PyM.lift
    ((env.iter st.outstationSet).foldlM (groupOutstation cfg st) .empty)
  pure (st, ipaddrOutstationMap)

def processNodes (env : Env) (cfg : Config) : PyM World Nodes := do
  let (st, ipaddrOutstationMap) ← collectOutstations env cfg
  let outstationNodes ← ipaddrOutstationMap.entries.foldlM (outstationNode env cfg) []
  pure { masters := st.masterNodes, outstations := outstationNodes }

end IcsTrafficGen.Modbus
