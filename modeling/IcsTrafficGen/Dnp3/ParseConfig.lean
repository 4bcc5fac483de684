import IcsTrafficGen.Dnp3.CfgJsonParser
import IcsTrafficGen.Dnp3.CidrCalculator

/- The constructor of `CfgJsonParser`, as far as the names, the addresses, the ports and the
   data of the stations go. It takes the entries of "Nodes" one by one and appends the
   stations that an entry names. The tree is what `read_json` makes of the file. -/
namespace IcsTrafficGen.Dnp3

structure PollPoint where
  frequency : Int
  eventClass : String
  deriving DecidableEq, Repr

/-- A `Node` with what makes it a station on the network. -/
structure StationNode extends Node where
  name : String
  role : String
  port : Int
  vnic : String
  localIPAddress : String
  remoteIPAddress : String
  remoteDNP3Addr : ℕ
  localDNP3Addr : ℕ
  pollPoints : List PollPoint
  deriving DecidableEq

/-- `Node(name, role)`. The DNP3 addresses have no value before they are assigned. -/
def StationNode.new (name role : String) : StationNode :=
  { Node.new with
    name := name, role := role, port := 20000, vnic := "", localIPAddress := "",
    remoteIPAddress := "", remoteDNP3Addr := 0, localDNP3Addr := 0, pollPoints := [] }

structure CfgJsonParser where
  nodes : List StationNode
  virtualNetworkInterfaceCard : String
  cidrGenerator : Option CidrCalculator
  /-- `std::vector<uint16_t>`. -/
  localDnp3Addrs : List ℕ
  vnictrack : Int
  /-- The commands that were run. -/
  commands : List String
  deriving DecidableEq

/-- The stations of an entry; a role that the entry does not name has none. -/
structure StationPair where
  master : Option StationNode
  outstation : Option StationNode
  deriving DecidableEq

namespace CfgJsonParser

/-! ## DNP3 addresses -/

def readAllDnp3Addresses (nodeTrees : List PTree) : List ℕ :=
  nodeTrees.flatMap fun v =>
    ((v.getOptional PTree.asInt ["DNP3 Address", "Master"]).toList ++
      (v.getOptional PTree.asInt ["DNP3 Address", "Outstation"]).toList).map Cpp.toUInt16

/-- The address behind the largest so far, as an `int`; it is narrowed when it is stored. -/
def getNextDNP3Address (localDnp3Addrs : List ℕ) : Int × List ℕ :=
  let allocatableDnp3Addr : Int :=
    if localDnp3Addrs = [] then 90 else (localDnp3Addrs.foldl max 0 : ℕ) + 1
  (allocatableDnp3Addr, localDnp3Addrs ++ [Cpp.toUInt16 allocatableDnp3Addr])

/-- The configured address, or the next one. -/
def chooseDNP3Address (cfgDnp3Addr : Option Int) (localDnp3Addrs : List ℕ) : Int × List ℕ :=
  match cfgDnp3Addr with
  | some addr => (addr, localDnp3Addrs)
  | none => getNextDNP3Address localDnp3Addrs

def readAssignDNP3Addresses (nodeTree : PTree) (p : CfgJsonParser) (pair : StationPair) :
    CfgJsonParser × StationPair :=
  let (mAddr, addrs) :=
    chooseDNP3Address (nodeTree.getOptional PTree.asInt ["DNP3 Address", "Master"]) p.localDnp3Addrs
  let (oAddr, addrs) :=
    chooseDNP3Address (nodeTree.getOptional PTree.asInt ["DNP3 Address", "Outstation"]) addrs
  ({ p with localDnp3Addrs := addrs },
    { master := pair.master.map fun m =>
        { m with localDNP3Addr := Cpp.toUInt16 mAddr, remoteDNP3Addr := Cpp.toUInt16 oAddr }
      outstation := pair.outstation.map fun o =>
        { o with localDNP3Addr := Cpp.toUInt16 oAddr, remoteDNP3Addr := Cpp.toUInt16 mAddr } })

/-! ## IP addresses and ports -/

/-- `allocateIpAddress`, and the command that `Node::Allocate` runs. -/
def allocateIpAddress (p : CfgJsonParser) (node : StationNode) (ipAddress : String) :
    Cpp (CfgJsonParser × StationNode) := do
  let vnic := p.virtualNetworkInterfaceCard ++ ":" ++ toString p.vnictrack
  let vnictrack ← Cpp.addInt p.vnictrack 1
  pure ({ p with
      vnictrack := vnictrack
      commands := p.commands ++ ["ifconfig " ++ vnic ++ " " ++ ipAddress] },
    { node with localIPAddress := ipAddress, vnic := vnic })

/-- The configured address, or one from the generator if there is one. -/
def assignIpAddress (ipAddr : Option String) (p : CfgJsonParser) (node : StationNode) :
    Cpp (CfgJsonParser × StationNode) :=
  match ipAddr, p.cidrGenerator with
  | some ip, _ => pure (p, { node with localIPAddress := ip })
  | none, some gen =>
    let (ip, gen) := gen.getNextIpAddress
    allocateIpAddress { p with cidrGenerator := some gen } node ip
  | none, none => pure (p, node)

/-- A role that is not there is passed over. -/
def assignIfNamed (ipAddr : Option String) (p : CfgJsonParser) :
    Option StationNode → Cpp (CfgJsonParser × Option StationNode)
  | none => pure (p, none)
  | some node => do
    let (p, node) ← assignIpAddress ipAddr p node
    pure (p, some node)

/-- What the master is told of the outstation's address: the configured one, and at last the
one that the outstation has. -/
def setRemoteIp (ipAddr : Option String) (outstation : Option StationNode) (m : StationNode) :
    StationNode :=
  match outstation, ipAddr with
  | some o, _ => { m with remoteIPAddress := o.localIPAddress }
  | none, some ip => { m with remoteIPAddress := ip }
  | none, none => m

def readAssignIpAddresses (nodeTree : PTree) (p : CfgJsonParser) (pair : StationPair) :
    Cpp (CfgJsonParser × StationPair) := do
  let ipAddr := nodeTree.getOptional PTree.asString ["IP Address", "Outstation"]
  let (p, master) ←
    assignIfNamed (nodeTree.getOptional PTree.asString ["IP Address", "Master"]) p pair.master
  let (p, outstation) ← assignIfNamed ipAddr p pair.outstation
  pure (p, { master := master.map (setRemoteIp ipAddr outstation), outstation := outstation })

def readPort (ipPort : Option Int) (node : StationNode) : StationNode :=
  { node with port := ipPort.getD node.port }

def readIpPorts (nodeTree : PTree) (pair : StationPair) : StationPair :=
  { master :=
      pair.master.map (readPort (nodeTree.getOptional PTree.asInt ["IP Port", "Master"]))
    outstation :=
      pair.outstation.map (readPort (nodeTree.getOptional PTree.asInt ["IP Port", "Outstation"])) }

/-! ## The entries -/

/-- One pass of the loop over "Poll Interval". -/
def readPollPoint (station : StationNode) (pTree : PTree) : Cpp StationNode := do
  let eventClass ← pTree.get PTree.asString ["Event Class"]
  let frequency ← pTree.get PTree.asInt ["Frequency"]
  pure { station with
    pollPoints := station.pollPoints ++ [{ frequency := frequency, eventClass := eventClass }] }

def readPollingSpecs (nodeTree : PTree) (station : StationNode) : Cpp StationNode :=
  match nodeTree.childAt? ["Poll Interval"] with
  | none => pure station
  | some pollTree => pollTree.children.foldlM (fun st p => readPollPoint st p.2) station

/-- The data of an outstation. -/
def readData (nodeTree : PTree) (station : StationNode) : Cpp StationNode := do
  let node ← readDataGenerationSpecs nodeTree station.toNode
  let node ← readMappedDataGenerationSpecs nodeTree node
  let node ← readEventBufferSpecs nodeTree node
  pure { station with toNode := node }

/-- What is read for a role, if the entry names it: the stations to append. -/
def readRole (read : StationNode → Cpp StationNode) : Option StationNode → Cpp (List StationNode)
  | none => pure []
  | some station => do
    let station ← read station
    pure [station]

def namedStation (nodeTree : PTree) (role : String) : Option StationNode :=
  (nodeTree.getOptional PTree.asString ["Name", role]).map fun name => .new name role

/-- One pass of the loop over "Nodes". -/
def readNode (p : CfgJsonParser) (nodeTree : PTree) : Cpp CfgJsonParser := do
  let pair : StationPair :=
    { master := namedStation nodeTree "Master", outstation := namedStation nodeTree "Outstation" }
  let (p, pair) ← readAssignIpAddresses nodeTree p pair
  let (p, pair) := readAssignDNP3Addresses nodeTree p pair
  let pair := readIpPorts nodeTree pair
  let masters ← readRole (readPollingSpecs nodeTree) pair.master
  let outstations ← readRole (readData nodeTree) pair.outstation
  pure { p with nodes := p.nodes ++ masters ++ outstations }

def readCidr (propTree : PTree) : Cpp (Option CidrCalculator) :=
  match propTree.getOptional PTree.asString ["CIDR Notation"] with
  | some cidr => do
    let gen ← CidrCalculator.new cidr
    pure (some gen)
  | none => pure none

/-- The entries of "Nodes". -/
def nodeTrees (propTree : PTree) : Cpp (List PTree) :=
  match propTree.childAt? ["Nodes"] with
  | some tree => .ok (tree.children.map Prod.snd)
  | none => .error .throws

/-- The constructor. -/
def new (propTree : PTree) : Cpp CfgJsonParser := do
  let virtInterface := propTree.getOptional PTree.asString ["Virtual Interface"]
  let gen ← readCidr propTree
  let trees ← nodeTrees propTree
  trees.foldlM readNode
    { nodes := [], virtualNetworkInterfaceCard := virtInterface.getD "", cidrGenerator := gen
      localDnp3Addrs := readAllDnp3Addresses trees, vnictrack := 0, commands := [] }

end CfgJsonParser
end IcsTrafficGen.Dnp3
