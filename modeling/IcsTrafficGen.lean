import IcsTrafficGen.Modbus.RwLockout
import IcsTrafficGen.Modbus.QueueAccess
import IcsTrafficGen.Modbus.Ports
import IcsTrafficGen.Modbus.LeftInterfaces
import IcsTrafficGen.Modbus.MasterStation
import IcsTrafficGen.Dnp3.ArrayBounds
import IcsTrafficGen.Dnp3.LuaSwitch
import IcsTrafficGen.Dnp3.MasterStack
import IcsTrafficGen.Dnp3.EmptyCommands
import IcsTrafficGen.Dnp3.ScanNames
import IcsTrafficGen.Dnp3.SharedTables
import IcsTrafficGen.Dnp3.StartUp
import IcsTrafficGen.Dnp3.CidrOrder
import IcsTrafficGen.Dnp3.CidrBounds
import IcsTrafficGen.Dnp3.IpConflicts
import IcsTrafficGen.Dnp3.DNP3Addresses
import IcsTrafficGen.Dnp3.EventBuffers
import IcsTrafficGen.Dnp3.IndexListErrors
import IcsTrafficGen.Dnp3.GenerateData
import IcsTrafficGen.Dnp3.ModifyScripts
import IcsTrafficGen.Modbus.DatastoreLinearizable
import IcsTrafficGen.Modbus.WriteOrder
import IcsTrafficGen.Modbus.SetOrder
import IcsTrafficGen.Modbus.MasterOrder
import IcsTrafficGen.Dnp3.AppRuns
import IcsTrafficGen.Modbus.Polls
import IcsTrafficGen.Dnp3.UserPipe
import IcsTrafficGen.Modbus.ModbusApp
import IcsTrafficGen.Modbus.LockedBlock
import IcsTrafficGen.Modbus.BlockDrains
import IcsTrafficGen.Dnp3.NodeOrder
import IcsTrafficGen.Dnp3.AnyScript
import IcsTrafficGen.Dnp3.AppSafety
import IcsTrafficGen.Dnp3.CatchUp
import IcsTrafficGen.Dnp3.Recovery
import IcsTrafficGen.Dnp3.Interfaces
