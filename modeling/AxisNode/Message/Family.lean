import AxisNode.Message.Catalog

/-!
# Families of messages

A family is a closed set of catalogued kinds together with the type its members are handled as. Each
task of the node takes one family, and every reply belongs to one.
-/

namespace AxisNode

/-- The messages that one task understands: their kinds, and the way to and from a type of the
task's own. -/
structure Family (α : Type) where
  members : List MessageKind
  toMessage : α → Message
  ofMessage? : Message → Option α

namespace Family

variable {α : Type}

/-- Whether a kind belongs to the family. -/
def accepts (F : Family α) (k : MessageKind) : Bool := k ∈ F.members

/-- Reads a payload as the member of a kind. -/
def parse? (F : Family α) (k : MessageKind) (payload : List UInt8) : Option α :=
  if F.accepts k then
    match Message.parse k payload with
    | .ok m => F.ofMessage? m
    | .error _ => none
  else none

/-- The messages of the given kinds, as they are. -/
def ofKinds (members : List MessageKind) : Family Message where
  members
  toMessage m := m
  ofMessage? m := if m.kind ∈ members then some m else none

end Family

/-- What the node answers at once, on the receiving side. -/
inductive SystemRequest where
  | heartbeat
  | deviceInfo
deriving DecidableEq, Repr

/-- The message that asks for it. -/
def SystemRequest.toMessage : SystemRequest → Message
  | heartbeat => .heartbeatRequest
  | deviceInfo => .deviceInfoRequest

/-- What a node answers on its own. -/
def Family.system : Family SystemRequest where
  members := [.heartbeatRequest, .deviceInfoRequest]
  toMessage := SystemRequest.toMessage
  ofMessage?
    | .heartbeatRequest => some .heartbeat
    | .deviceInfoRequest => some .deviceInfo
    | _ => none

/-- What may be asked of the move groups. -/
inductive GroupRequest where
  | stage (m : StagedMove)
  | report (group : UInt8)
  | clearAll
  | execute (group startTrigger cancelTrigger : UInt8)
  | stop
deriving DecidableEq, Repr

/-- The message that asks for it. Linear and homing moves have messages of their own. -/
def GroupRequest.toMessage : GroupRequest → Message
  | stage (.linear m) => .addLinearMoveRequest m
  | stage (.home m) => .homeRequest m
  | report group => .getMoveGroupRequest group
  | clearAll => .clearAllMoveGroupsRequest
  | execute group start cancel => .executeMoveGroupRequest group start cancel
  | stop => .stopRequest

/-- What the staging task is asked for. -/
def Family.group : Family GroupRequest where
  members := [.addLinearMoveRequest, .homeRequest, .getMoveGroupRequest,
    .clearAllMoveGroupsRequest, .executeMoveGroupRequest, .stopRequest]
  toMessage := GroupRequest.toMessage
  ofMessage?
    | .addLinearMoveRequest m => some (.stage (.linear m))
    | .homeRequest m => some (.stage (.home m))
    | .getMoveGroupRequest group => some (.report group)
    | .clearAllMoveGroupsRequest => some .clearAll
    | .executeMoveGroupRequest group start cancel => some (.execute group start cancel)
    | .stopRequest => some .stop
    | _ => none

/-- What may be asked of the axis controller over the bus. -/
inductive MotionRequest where
  | enable
  | disable
  | setConstraints (c : MotionConstraints)
  | getConstraints
  | position
  | limitSwitch
deriving DecidableEq, Repr

/-- The message that asks for it. -/
def MotionRequest.toMessage : MotionRequest → Message
  | enable => .enableMotorRequest
  | disable => .disableMotorRequest
  | setConstraints c => .setMotionConstraints c
  | getConstraints => .getMotionConstraintsRequest
  | position => .motorPositionRequest
  | limitSwitch => .readLimitSwitchRequest

/-- What the axis controller is asked for directly. -/
def Family.motion : Family MotionRequest where
  members := [.enableMotorRequest, .disableMotorRequest, .setMotionConstraints,
    .getMotionConstraintsRequest, .motorPositionRequest, .readLimitSwitchRequest]
  toMessage := MotionRequest.toMessage
  ofMessage?
    | .enableMotorRequest => some .enable
    | .disableMotorRequest => some .disable
    | .setMotionConstraints c => some (.setConstraints c)
    | .getMotionConstraintsRequest => some .getConstraints
    | .motorPositionRequest => some .position
    | .readLimitSwitchRequest => some .limitSwitch
    | _ => none

/-- What may be asked of the driver chip. -/
inductive ChipRequest where
  | write (address : UInt8) (data : UInt32)
  | read (address : UInt8)
  | setCurrents (hold run : UInt32)
deriving DecidableEq, Repr

/-- The message that asks for it. -/
def ChipRequest.toMessage : ChipRequest → Message
  | write address data => .writeMotorDriverRegister address data
  | read address => .readMotorDriverRegister address
  | setCurrents hold run => .writeMotorCurrentRequest hold run

/-- What the task of the driver chip is asked for. -/
def Family.chip : Family ChipRequest where
  members := [.writeMotorDriverRegister, .readMotorDriverRegister, .writeMotorCurrentRequest]
  toMessage := ChipRequest.toMessage
  ofMessage?
    | .writeMotorDriverRegister address data => some (.write address data)
    | .readMotorDriverRegister address => some (.read address)
    | .writeMotorCurrentRequest hold run => some (.setCurrents hold run)
    | _ => none

/-- What the node sends. -/
inductive Reply where
  | heartbeat
  | deviceInfo (version : UInt32)
  | limitSwitch (pressed : UInt8)
  | position (report : PositionReport)
  | constraints (c : MotionConstraints)
  | group (report : GroupReport)
  | completed (c : Completion)
  | error (severity code : UInt16)
  | register (address : UInt8) (data : UInt32)
deriving DecidableEq, Repr

namespace Reply

/-- The message in which a reply travels. -/
def toMessage : Reply → Message
  | heartbeat => .heartbeatResponse
  | deviceInfo version => .deviceInfoResponse version
  | limitSwitch pressed => .readLimitSwitchResponse pressed
  | position report => .motorPositionResponse report
  | constraints c => .getMotionConstraintsResponse c
  | group report => .getMoveGroupResponse report
  | completed c => .moveCompleted c
  | error severity code => .errorMessage severity code
  | register address data => .readMotorDriverRegisterResponse address data

/-- The kind under which a reply travels. -/
def kind (r : Reply) : MessageKind := r.toMessage.kind

end Reply

/-- What a node sends. -/
def Family.reply : Family Reply where
  members := [.heartbeatResponse, .deviceInfoResponse, .readLimitSwitchResponse,
    .motorPositionResponse, .getMotionConstraintsResponse, .getMoveGroupResponse, .moveCompleted,
    .errorMessage, .readMotorDriverRegisterResponse]
  toMessage := Reply.toMessage
  ofMessage?
    | .heartbeatResponse => some .heartbeat
    | .deviceInfoResponse version => some (.deviceInfo version)
    | .readLimitSwitchResponse pressed => some (.limitSwitch pressed)
    | .motorPositionResponse report => some (.position report)
    | .getMotionConstraintsResponse c => some (.constraints c)
    | .getMoveGroupResponse report => some (.group report)
    | .moveCompleted c => some (.completed c)
    | .errorMessage severity code => some (.error severity code)
    | .readMotorDriverRegisterResponse address data => some (.register address data)
    | _ => none

end AxisNode
