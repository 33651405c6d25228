/-!
# Kinds of message, functions and error codes

The numbers below are part of the bus protocol. Each table has a code, a name for log lines and a
partial inverse of the code.
-/

namespace AxisNode

/-- Every kind of message on the bus, whether or not a record of it is catalogued. -/
inductive MessageKind where
  | heartbeatRequest
  | heartbeatResponse
  | deviceInfoRequest
  | deviceInfoResponse
  | taskInfoRequest
  | taskInfoResponse
  | instrumentInfoRequest
  | stopRequest
  | getStatusRequest
  | errorMessage
  | getStatusResponse
  | enableMotorRequest
  | disableMotorRequest
  | readLimitSwitchRequest
  | readLimitSwitchResponse
  | moveRequest
  | motorPositionRequest
  | moveCompleted
  | motorPositionResponse
  | addLinearMoveRequest
  | getMoveGroupRequest
  | getMoveGroupResponse
  | executeMoveGroupRequest
  | clearAllMoveGroupsRequest
  | homeRequest
  | writeMotorDriverRegister
  | readMotorDriverRegister
  | readMotorDriverRegisterResponse
  | writeMotorCurrentRequest
  | setMotionConstraints
  | getMotionConstraintsRequest
  | getMotionConstraintsResponse
  | writeEeprom
  | readEepromRequest
  | readEepromResponse
  | readPresenceSensingVoltageRequest
  | readPresenceSensingVoltageResponse
deriving DecidableEq, Repr

namespace MessageKind

/-- The code of a kind in an identifier. -/
def code : MessageKind → UInt16
  | heartbeatRequest => 0x3ff
  | heartbeatResponse => 0x3fe
  | deviceInfoRequest => 0x302
  | deviceInfoResponse => 0x303
  | taskInfoRequest => 0x304
  | taskInfoResponse => 0x305
  | instrumentInfoRequest => 0x306
  | stopRequest => 0x0
  | getStatusRequest => 0x1
  | errorMessage => 0x2
  | getStatusResponse => 0x5
  | enableMotorRequest => 0x6
  | disableMotorRequest => 0x7
  | readLimitSwitchRequest => 0x8
  | readLimitSwitchResponse => 0x9
  | moveRequest => 0x10
  | motorPositionRequest => 0x12
  | moveCompleted => 0x13
  | motorPositionResponse => 0x14
  | addLinearMoveRequest => 0x15
  | getMoveGroupRequest => 0x16
  | getMoveGroupResponse => 0x17
  | executeMoveGroupRequest => 0x18
  | clearAllMoveGroupsRequest => 0x19
  | homeRequest => 0x20
  | writeMotorDriverRegister => 0x30
  | readMotorDriverRegister => 0x31
  | readMotorDriverRegisterResponse => 0x32
  | writeMotorCurrentRequest => 0x33
  | setMotionConstraints => 0x101
  | getMotionConstraintsRequest => 0x102
  | getMotionConstraintsResponse => 0x103
  | writeEeprom => 0x201
  | readEepromRequest => 0x202
  | readEepromResponse => 0x203
  | readPresenceSensingVoltageRequest => 0x600
  | readPresenceSensingVoltageResponse => 0x601

/-- The name under which the log shows a kind. -/
def name : MessageKind → String
  | heartbeatRequest => "HeartbeatRequest"
  | heartbeatResponse => "HeartbeatResponse"
  | deviceInfoRequest => "DeviceInfoRequest"
  | deviceInfoResponse => "DeviceInfoResponse"
  | taskInfoRequest => "TaskInfoRequest"
  | taskInfoResponse => "TaskInfoResponse"
  | instrumentInfoRequest => "InstrumentInfoRequest"
  | stopRequest => "StopRequest"
  | getStatusRequest => "GetStatusRequest"
  | errorMessage => "ErrorMessage"
  | getStatusResponse => "GetStatusResponse"
  | enableMotorRequest => "EnableMotorRequest"
  | disableMotorRequest => "DisableMotorRequest"
  | readLimitSwitchRequest => "ReadLimitSwitchRequest"
  | readLimitSwitchResponse => "ReadLimitSwitchResponse"
  | moveRequest => "MoveRequest"
  | motorPositionRequest => "MotorPositionRequest"
  | moveCompleted => "MoveCompleted"
  | motorPositionResponse => "MotorPositionResponse"
  | addLinearMoveRequest => "AddLinearMoveRequest"
  | getMoveGroupRequest => "GetMoveGroupRequest"
  | getMoveGroupResponse => "GetMoveGroupResponse"
  | executeMoveGroupRequest => "ExecuteMoveGroupRequest"
  | clearAllMoveGroupsRequest => "ClearAllMoveGroupsRequest"
  | homeRequest => "HomeRequest"
  | writeMotorDriverRegister => "WriteMotorDriverRegister"
  | readMotorDriverRegister => "ReadMotorDriverRegister"
  | readMotorDriverRegisterResponse => "ReadMotorDriverRegisterResponse"
  | writeMotorCurrentRequest => "WriteMotorCurrentRequest"
  | setMotionConstraints => "SetMotionConstraints"
  | getMotionConstraintsRequest => "GetMotionConstraintsRequest"
  | getMotionConstraintsResponse => "GetMotionConstraintsResponse"
  | writeEeprom => "WriteEeprom"
  | readEepromRequest => "ReadEepromRequest"
  | readEepromResponse => "ReadEepromResponse"
  | readPresenceSensingVoltageRequest => "ReadPresenceSensingVoltageRequest"
  | readPresenceSensingVoltageResponse => "ReadPresenceSensingVoltageResponse"

/-- All kinds that have a code. -/
def all : List MessageKind :=
  [heartbeatRequest, heartbeatResponse, deviceInfoRequest, deviceInfoResponse, taskInfoRequest,
    taskInfoResponse, instrumentInfoRequest, stopRequest, getStatusRequest, errorMessage,
    getStatusResponse, enableMotorRequest, disableMotorRequest, readLimitSwitchRequest,
    readLimitSwitchResponse, moveRequest, motorPositionRequest, moveCompleted,
    motorPositionResponse, addLinearMoveRequest, getMoveGroupRequest, getMoveGroupResponse,
    executeMoveGroupRequest, clearAllMoveGroupsRequest, homeRequest, writeMotorDriverRegister,
    readMotorDriverRegister, readMotorDriverRegisterResponse, writeMotorCurrentRequest,
    setMotionConstraints, getMotionConstraintsRequest, getMotionConstraintsResponse, writeEeprom,
    readEepromRequest, readEepromResponse, readPresenceSensingVoltageRequest,
    readPresenceSensingVoltageResponse]

/-- The kind that carries a code, if the code is assigned. -/
def ofCode? (c : UInt16) : Option MessageKind := all.find? fun k => k.code == c

@[simp] theorem ofCode?_code (k : MessageKind) : ofCode? k.code = some k := by
  cases k <;> decide

theorem ofCode?_eq_some_iff {c : UInt16} {k : MessageKind} : ofCode? c = some k ↔ k.code = c := by
  constructor
  · intro h
    simpa using List.find?_some h
  · rintro rfl
    exact ofCode?_code k

end MessageKind

/-- The class of a frame, carried in the low bits of its identifier. -/
inductive FunctionCode where
  | networkManagement
  | sync
  | error
  | command
  | status
  | parameters
  | bootloader
  | heartbeat
deriving DecidableEq, Repr

namespace FunctionCode

/-- The code of a function in an identifier. -/
def code : FunctionCode → UInt8
  | networkManagement => 0
  | sync => 1
  | error => 2
  | command => 3
  | status => 4
  | parameters => 5
  | bootloader => 6
  | heartbeat => 7

/-- The name under which a function is shown. -/
def name : FunctionCode → String
  | networkManagement => "NetworkManagement"
  | sync => "Sync"
  | error => "Error"
  | command => "Command"
  | status => "Status"
  | parameters => "Parameters"
  | bootloader => "Bootloader"
  | heartbeat => "Heartbeat"

/-- All functions that have a code. -/
def all : List FunctionCode :=
  [networkManagement, sync, error, command, status, parameters, bootloader, heartbeat]

/-- The function of a code, if there is one. -/
def ofCode? (c : UInt8) : Option FunctionCode := all.find? fun f => f.code == c

@[simp] theorem ofCode?_code (f : FunctionCode) : ofCode? f.code = some f := by
  cases f <;> decide

end FunctionCode

/-- What an error notice is about. -/
inductive ErrorCode where
  | ok
  | invalidSize
  | badChecksum
  | invalidByteCount
  | invalidInput
  | hardware
  | timeout
  | estopDetected
  | collisionDetected
  | labwareDropped
  | estopReleased
  | motorBusy
  | stopRequested
  | overPressure
deriving DecidableEq, Repr

namespace ErrorCode

/-- The code of an error on the wire. -/
def code : ErrorCode → UInt16
  | ok => 0x0
  | invalidSize => 0x1
  | badChecksum => 0x2
  | invalidByteCount => 0x3
  | invalidInput => 0x4
  | hardware => 0x5
  | timeout => 0x6
  | estopDetected => 0x7
  | collisionDetected => 0x8
  | labwareDropped => 0x9
  | estopReleased => 0xa
  | motorBusy => 0xb
  | stopRequested => 0xc
  | overPressure => 0xd

/-- The name under which an error is shown. -/
def name : ErrorCode → String
  | ok => "Ok"
  | invalidSize => "InvalidSize"
  | badChecksum => "BadChecksum"
  | invalidByteCount => "InvalidByteCount"
  | invalidInput => "InvalidInput"
  | hardware => "Hardware"
  | timeout => "Timeout"
  | estopDetected => "EstopDetected"
  | collisionDetected => "CollisionDetected"
  | labwareDropped => "LabwareDropped"
  | estopReleased => "EstopReleased"
  | motorBusy => "MotorBusy"
  | stopRequested => "StopRequested"
  | overPressure => "OverPressure"

/-- All errors that have a code. -/
def all : List ErrorCode :=
  [ok, invalidSize, badChecksum, invalidByteCount, invalidInput, hardware, timeout, estopDetected,
    collisionDetected, labwareDropped, estopReleased, motorBusy, stopRequested, overPressure]

/-- The error of a code, if there is one. -/
def ofCode? (c : UInt16) : Option ErrorCode := all.find? fun e => e.code == c

@[simp] theorem ofCode?_code (e : ErrorCode) : ofCode? e.code = some e := by
  cases e <;> decide

end ErrorCode

/-- How grave an error notice is. -/
inductive Severity where
  | none
  | warning
  | recoverable
  | unrecoverable
deriving DecidableEq, Repr

namespace Severity

/-- The code of a severity on the wire. -/
def code : Severity → UInt16
  | none => 0
  | warning => 1
  | recoverable => 2
  | unrecoverable => 3

/-- The name under which a severity is shown. -/
def name : Severity → String
  | none => "None"
  | warning => "Warning"
  | recoverable => "Recoverable"
  | unrecoverable => "Unrecoverable"

/-- All severities that have a code. -/
def all : List Severity := [none, warning, recoverable, unrecoverable]

/-- The severity of a code, if there is one. -/
def ofCode? (c : UInt16) : Option Severity := all.find? fun s => s.code == c

@[simp] theorem ofCode?_code (s : Severity) : ofCode? s.code = some s := by
  cases s <;> decide

end Severity

/-- Why a frame, a record or a filter was refused. -/
inductive BusError where
  | payloadTooShort
  | bufferTooSmall
  | payloadTooLong
  | unknownId
  | unsupportedFilter
  | bus
deriving DecidableEq, Repr

/-- The name under which the log shows what went wrong on the bus. -/
def BusError.name : BusError → String
  | payloadTooShort => "PayloadTooShort"
  | bufferTooSmall => "BufferTooSmall"
  | payloadTooLong => "PayloadTooLong"
  | unknownId => "UnknownId"
  | unsupportedFilter => "UnsupportedFilter"
  | bus => "Bus"

/-- All that can go wrong on the bus. -/
def BusError.all : List BusError :=
  [payloadTooShort, bufferTooSmall, payloadTooLong, unknownId, unsupportedFilter, bus]

end AxisNode
