import IcsTrafficGen.Modbus.OutstationNodes

/- The order of a set. String hashing differs from one process to the next, so two calls
   for one file go through `outstation_set` in different orders, and `pop` takes another
   member of `assigned_ots`. No result shows it. What is popped has the one address that
   all members have, so the loop over the masters is the same (`processMaster_follows`);
   and the second half makes the same nodes of a group in any order (`Matches`). Only the
   order of the nodes and of their names is another, and with it the numbers of the
   interfaces. -/
namespace IcsTrafficGen.Modbus

section
variable {env env' : Env} {cfg : Config} {starts : String → String → Prop}

/-! ## The masters -/

variable {w w₁ w₂ : World} {st st' : ParserState} {groups groups' : Dict Scalar (List String)}
variable {nodes nodes' : Nodes}

end

end IcsTrafficGen.Modbus
