import AxisNode.Bus.Kind
import AxisNode.Motion.Constraints
import AxisNode.Motion.Move
import AxisNode.Wire.Cursor

/-!
# The catalogue of messages

Each catalogued kind has a record: named fields in a fixed order with nothing between them. A
payload longer than its record is read from the front, since frames are padded; a shorter one is
refused. `Message.ofValues?_values` says that a message can be put together again from its own
fields.
-/

namespace AxisNode

/-- How many moves a group holds, and for how many ticks they run. -/
structure GroupReport where
  group : UInt8
  moves : UInt8
  duration : UInt32
deriving DecidableEq, Repr

/-- Where the axis is, and how far that can be trusted. -/
structure PositionReport where
  /-- In micrometres. -/
  position : UInt32
  encoder : Int32
  flags : UInt8
deriving DecidableEq, Repr

/-- The end of a move as told to the host. -/
structure Completion where
  group : UInt8
  seq : UInt8
  /-- In whole steps. -/
  position : UInt32
  encoder : Int32
  ack : UInt8
deriving DecidableEq, Repr

/-- The messages that have a record, each with what it carries. -/
inductive Message where
  | heartbeatRequest
  | heartbeatResponse
  | deviceInfoRequest
  | deviceInfoResponse (version : UInt32)
  | stopRequest
  | enableMotorRequest
  | disableMotorRequest
  | readLimitSwitchRequest
  | readLimitSwitchResponse (pressed : UInt8)
  | motorPositionRequest
  | motorPositionResponse (report : PositionReport)
  | setMotionConstraints (c : MotionConstraints)
  | getMotionConstraintsRequest
  | getMotionConstraintsResponse (c : MotionConstraints)
  | addLinearMoveRequest (m : LinearMove)
  | homeRequest (m : HomeMove)
  | getMoveGroupRequest (group : UInt8)
  | getMoveGroupResponse (report : GroupReport)
  | executeMoveGroupRequest (group startTrigger cancelTrigger : UInt8)
  | clearAllMoveGroupsRequest
  | moveCompleted (c : Completion)
  | errorMessage (severity code : UInt16)
  | writeMotorDriverRegister (address : UInt8) (data : UInt32)
  | readMotorDriverRegister (address : UInt8)
  | readMotorDriverRegisterResponse (address : UInt8) (data : UInt32)
  /-- Currents in amperes with sixteen fractional bits; zero leaves a current as it is. -/
  | writeMotorCurrentRequest (hold run : UInt32)
deriving DecidableEq, Repr

/-- The record of a kind: the names and types of its fields. -/
def MessageKind.record? : MessageKind → Option (List (String × WireType))
  | heartbeatRequest | heartbeatResponse | deviceInfoRequest | stopRequest | enableMotorRequest
  | disableMotorRequest | readLimitSwitchRequest | motorPositionRequest
  | getMotionConstraintsRequest | clearAllMoveGroupsRequest => some []
  | deviceInfoResponse => some [("version", .u32)]
  | readLimitSwitchResponse => some [("switch_status", .u8)]
  | motorPositionResponse =>
      some [("current_position", .u32), ("encoder_position", .i32), ("position_flags", .u8)]
  | setMotionConstraints | getMotionConstraintsResponse =>
      some [("min_velocity", .i32), ("max_velocity", .i32), ("min_acceleration", .i32),
        ("max_acceleration", .i32)]
  | addLinearMoveRequest =>
      some [("group_id", .u8), ("seq_id", .u8), ("duration", .u32), ("acceleration", .i32),
        ("velocity", .i32), ("request_stop_condition", .u8)]
  | homeRequest =>
      some [("group_id", .u8), ("seq_id", .u8), ("duration", .u32), ("velocity", .i32)]
  | getMoveGroupRequest => some [("group_id", .u8)]
  | getMoveGroupResponse =>
      some [("group_id", .u8), ("num_moves", .u8), ("total_duration", .u32)]
  | executeMoveGroupRequest =>
      some [("group_id", .u8), ("start_trigger", .u8), ("cancel_trigger", .u8)]
  | moveCompleted =>
      some [("group_id", .u8), ("seq_id", .u8), ("current_position", .u32),
        ("encoder_position", .i32), ("ack_id", .u8)]
  | errorMessage => some [("severity", .u16), ("error_code", .u16)]
  | writeMotorDriverRegister | readMotorDriverRegisterResponse =>
      some [("reg_address", .u8), ("data", .u32)]
  | readMotorDriverRegister => some [("reg_address", .u8)]
  | writeMotorCurrentRequest => some [("hold_current", .u32), ("run_current", .u32)]
  | taskInfoRequest | taskInfoResponse | instrumentInfoRequest | getStatusRequest
  | getStatusResponse | moveRequest | writeEeprom | readEepromRequest | readEepromResponse
  | readPresenceSensingVoltageRequest | readPresenceSensingVoltageResponse => none

/-- The number of bytes of a kind's record. -/
def MessageKind.size? (k : MessageKind) : Option Nat :=
  k.record?.map fun fields => fields.foldl (fun n f => n + f.2.width) 0

namespace Message

/-- The kind under which a message travels. -/
def kind : Message → MessageKind
  | heartbeatRequest => .heartbeatRequest
  | heartbeatResponse => .heartbeatResponse
  | deviceInfoRequest => .deviceInfoRequest
  | deviceInfoResponse _ => .deviceInfoResponse
  | stopRequest => .stopRequest
  | enableMotorRequest => .enableMotorRequest
  | disableMotorRequest => .disableMotorRequest
  | readLimitSwitchRequest => .readLimitSwitchRequest
  | readLimitSwitchResponse _ => .readLimitSwitchResponse
  | motorPositionRequest => .motorPositionRequest
  | motorPositionResponse _ => .motorPositionResponse
  | setMotionConstraints _ => .setMotionConstraints
  | getMotionConstraintsRequest => .getMotionConstraintsRequest
  | getMotionConstraintsResponse _ => .getMotionConstraintsResponse
  | addLinearMoveRequest _ => .addLinearMoveRequest
  | homeRequest _ => .homeRequest
  | getMoveGroupRequest _ => .getMoveGroupRequest
  | getMoveGroupResponse _ => .getMoveGroupResponse
  | executeMoveGroupRequest _ _ _ => .executeMoveGroupRequest
  | clearAllMoveGroupsRequest => .clearAllMoveGroupsRequest
  | moveCompleted _ => .moveCompleted
  | errorMessage _ _ => .errorMessage
  | writeMotorDriverRegister _ _ => .writeMotorDriverRegister
  | readMotorDriverRegister _ => .readMotorDriverRegister
  | readMotorDriverRegisterResponse _ _ => .readMotorDriverRegisterResponse
  | writeMotorCurrentRequest _ _ => .writeMotorCurrentRequest

/-- The fields of a message in the order of its record. -/
def values : Message → List WireValue
  | heartbeatRequest | heartbeatResponse | deviceInfoRequest | stopRequest | enableMotorRequest
  | disableMotorRequest | readLimitSwitchRequest | motorPositionRequest
  | getMotionConstraintsRequest | clearAllMoveGroupsRequest => []
  | deviceInfoResponse version => [.u32 version]
  | readLimitSwitchResponse pressed => [.u8 pressed]
  | motorPositionResponse r => [.u32 r.position, .i32 r.encoder, .u8 r.flags]
  | setMotionConstraints c | getMotionConstraintsResponse c =>
      [.i32 c.minVelocity, .i32 c.maxVelocity, .i32 c.minAcceleration, .i32 c.maxAcceleration]
  | addLinearMoveRequest m =>
      [.u8 m.group, .u8 m.seq, .u32 m.duration, .i32 m.acceleration, .i32 m.velocity, .u8 m.stop]
  | homeRequest m => [.u8 m.group, .u8 m.seq, .u32 m.duration, .i32 m.velocity]
  | getMoveGroupRequest group => [.u8 group]
  | getMoveGroupResponse r => [.u8 r.group, .u8 r.moves, .u32 r.duration]
  | executeMoveGroupRequest group start cancel => [.u8 group, .u8 start, .u8 cancel]
  | moveCompleted c => [.u8 c.group, .u8 c.seq, .u32 c.position, .i32 c.encoder, .u8 c.ack]
  | errorMessage severity code => [.u16 severity, .u16 code]
  | writeMotorDriverRegister address data => [.u8 address, .u32 data]
  | readMotorDriverRegister address => [.u8 address]
  | readMotorDriverRegisterResponse address data => [.u8 address, .u32 data]
  | writeMotorCurrentRequest hold run => [.u32 hold, .u32 run]

/-- A message from its kind and fields; `none` if they do not follow the kind's record. -/
def ofValues? (k : MessageKind) (values : List WireValue) : Option Message :=
  match k with
  | .heartbeatRequest => bare .heartbeatRequest
  | .heartbeatResponse => bare .heartbeatResponse
  | .deviceInfoRequest => bare .deviceInfoRequest
  | .stopRequest => bare .stopRequest
  | .enableMotorRequest => bare .enableMotorRequest
  | .disableMotorRequest => bare .disableMotorRequest
  | .readLimitSwitchRequest => bare .readLimitSwitchRequest
  | .motorPositionRequest => bare .motorPositionRequest
  | .getMotionConstraintsRequest => bare .getMotionConstraintsRequest
  | .clearAllMoveGroupsRequest => bare .clearAllMoveGroupsRequest
  | .deviceInfoResponse =>
      match values with
      | [.u32 version] => some (.deviceInfoResponse version)
      | _ => none
  | .readLimitSwitchResponse =>
      match values with
      | [.u8 pressed] => some (.readLimitSwitchResponse pressed)
      | _ => none
  | .motorPositionResponse =>
      match values with
      | [.u32 position, .i32 encoder, .u8 flags] =>
          some (.motorPositionResponse ⟨position, encoder, flags⟩)
      | _ => none
  | .setMotionConstraints => (constraints values).map .setMotionConstraints
  | .getMotionConstraintsResponse => (constraints values).map .getMotionConstraintsResponse
  | .addLinearMoveRequest =>
      match values with
      | [.u8 group, .u8 seq, .u32 duration, .i32 acceleration, .i32 velocity, .u8 stop] =>
          some (.addLinearMoveRequest ⟨group, seq, duration, acceleration, velocity, stop⟩)
      | _ => none
  | .homeRequest =>
      match values with
      | [.u8 group, .u8 seq, .u32 duration, .i32 velocity] =>
          some (.homeRequest ⟨group, seq, duration, velocity⟩)
      | _ => none
  | .getMoveGroupRequest =>
      match values with
      | [.u8 group] => some (.getMoveGroupRequest group)
      | _ => none
  | .getMoveGroupResponse =>
      match values with
      | [.u8 group, .u8 moves, .u32 duration] =>
          some (.getMoveGroupResponse ⟨group, moves, duration⟩)
      | _ => none
  | .executeMoveGroupRequest =>
      match values with
      | [.u8 group, .u8 start, .u8 cancel] => some (.executeMoveGroupRequest group start cancel)
      | _ => none
  | .moveCompleted =>
      match values with
      | [.u8 group, .u8 seq, .u32 position, .i32 encoder, .u8 ack] =>
          some (.moveCompleted ⟨group, seq, position, encoder, ack⟩)
      | _ => none
  | .errorMessage =>
      match values with
      | [.u16 severity, .u16 code] => some (.errorMessage severity code)
      | _ => none
  | .writeMotorDriverRegister =>
      match values with
      | [.u8 address, .u32 data] => some (.writeMotorDriverRegister address data)
      | _ => none
  | .readMotorDriverRegister =>
      match values with
      | [.u8 address] => some (.readMotorDriverRegister address)
      | _ => none
  | .readMotorDriverRegisterResponse =>
      match values with
      | [.u8 address, .u32 data] => some (.readMotorDriverRegisterResponse address data)
      | _ => none
  | .writeMotorCurrentRequest =>
      match values with
      | [.u32 hold, .u32 run] => some (.writeMotorCurrentRequest hold run)
      | _ => none
  | _ => none
where
  bare (m : Message) : Option Message := if values.isEmpty then some m else none
  constraints : List WireValue → Option MotionConstraints
    | [.i32 minVelocity, .i32 maxVelocity, .i32 minAcceleration, .i32 maxAcceleration] =>
        some ⟨minVelocity, maxVelocity, minAcceleration, maxAcceleration⟩
    | _ => none

@[simp] theorem ofValues?_values (m : Message) : ofValues? m.kind m.values = some m := by
  cases m <;> rfl

/-- The encoded fields of a message. -/
def bytes (m : Message) : List UInt8 := m.values.flatMap WireValue.encode

/-- Writes the fields of a message into a buffer. -/
def writeTo (m : Message) (w : WireWriter) : WireWriter × Option BusError := w.writeAll m.values

/-- Reads a message of a kind from the front of a payload. -/
def parse (k : MessageKind) (payload : List UInt8) : Except BusError Message :=
  match k.record? with
  | none => .error .unknownId
  | some fields =>
      match WireReader.readAll { bytes := payload } (fields.map Prod.snd) with
      | .error e => .error e
      | .ok (values, _) =>
          match ofValues? k values with
          | some m => .ok m
          | none => .error .unknownId

/-- An error notice. -/
def error (severity : Severity) (code : ErrorCode) : Message :=
  .errorMessage severity.code code.code

end Message

end AxisNode
