import AxisNode.Bus.Address
import AxisNode.Bus.Kind
import AxisNode.Motion.Constraints
import AxisNode.Motion.Move

/-!
# Events

A step of the node answers with its next state and with the events it caused, oldest first: lines
for the log and calls on the line that powers the motor. A log line is kept as what happened; its
wording and its level are read off in one place.
-/

namespace AxisNode

/-- How much a line of the log matters. -/
inductive LogLevel where
  | trace
  | debug
  | info
  | warn
  | error
deriving DecidableEq, Repr

/-- The name under which the log shows a level. -/
def LogLevel.name : LogLevel → String
  | trace => "TRACE"
  | debug => "DEBUG"
  | info => "INFO"
  | warn => "WARN"
  | error => "ERROR"

/-- Everything the node has to say about itself. -/
inductive LogLine where
  -- the bus
  | nodeReady (node : NodeAddress)
  | installingFilters (node : NodeAddress)
  | unknownMessage (code : UInt16)
  | noTarget (kind : MessageKind)
  | unparsed (kind : MessageKind) (length : Nat)
  | taskQueueFull (kind : MessageKind)
  | heartbeat
  | outboxFull (kind : MessageKind)
  | sendFailed (kind : MessageKind) (reason : BusError)
  | receiveOverrun
  -- move groups
  | stageMove (group seq : UInt8)
  | noSlot (group seq : UInt8)
  | noGroupToExecute (group : UInt8)
  | executeGroup (group : UInt8) (moves : Nat)
  | notForwarded (group seq : UInt8)
  | clearGroupsForStop
  | discardedForStop
  | stopNotForwarded
  | noGroupToReport (group : UInt8)
  -- the axis controller
  | enableMotor
  | disableMotor
  | setConstraints (c : MotionConstraints)
  | stop
  | moveOutOfRange (group seq : UInt8)
  | homeOutOfRange (group seq : UInt8)
  | queueMove (group seq : UInt8) (ticks : UInt32) (stop : StopCondition)
  | moveQueueFull (group seq : UInt8)
  -- the driver chip
  | writeRegister (address : UInt8) (data : UInt32)
  | writeInvalidRegister (address : UInt8)
  | writeRegisterFailed (address : UInt8)
  | readInvalidRegister (address : UInt8)
  | readRegisterFailed (address : UInt8)
  | writeCurrent (hold run : UInt32)
  | writeCurrentFailed
  -- reports to the host
  | positionOverflow
  | acksLost
  | ack (group seq : UInt8) (reason : AckReason)
deriving DecidableEq, Repr

namespace LogLine

/-- The level of a line. What is dropped is a warning, and what fails at the hardware is an
error. -/
def level : LogLine → LogLevel
  | unknownMessage _ | noTarget _ | heartbeat | ack _ _ _ => .trace
  | installingFilters _ | unparsed _ _ | stageMove _ _ | executeGroup _ _ | setConstraints _
  | queueMove _ _ _ _ | writeRegister _ _ | writeCurrent _ _ => .debug
  | nodeReady _ | clearGroupsForStop | enableMotor | disableMotor | stop => .info
  | taskQueueFull _ | outboxFull _ | receiveOverrun | noSlot _ _ | noGroupToExecute _
  | notForwarded _ _ | discardedForStop | stopNotForwarded | noGroupToReport _
  | moveOutOfRange _ _ | homeOutOfRange _ _ | moveQueueFull _ _ | writeInvalidRegister _
  | readInvalidRegister _ | acksLost => .warn
  | sendFailed _ _ | writeRegisterFailed _ | readRegisterFailed _ | writeCurrentFailed
  | positionOverflow => .error

/-- The text of a line. -/
def text : LogLine → String
  | nodeReady node => s!"node {node.name} ready"
  | installingFilters node => s!"installing node filters for {node.name}"
  | unknownMessage code => s!"unknown message id {code}"
  | noTarget kind => s!"no target for {kind.name}"
  | unparsed kind length => s!"could not parse {kind.name} ({length} bytes)"
  | taskQueueFull kind => s!"task queue full, dropping {kind.name}"
  | heartbeat => "heartbeat"
  | outboxFull kind => s!"can writer queue full, dropping {kind.name}"
  | sendFailed kind reason => s!"failed to send {kind.name}: {reason.name}"
  | receiveOverrun => "can rx fifo overrun"
  | stageMove group seq => s!"stage move {group}/{seq}"
  | noSlot group seq => s!"move {group}/{seq} rejected: no such slot"
  | noGroupToExecute group => s!"execute: no group {group}"
  | executeGroup group moves => s!"execute group {group}: {moves} moves"
  | notForwarded group seq => s!"motion controller queue full, dropping {group}/{seq}"
  | clearGroupsForStop => "stop: clearing move groups"
  | discardedForStop => "motion controller queue full, discarding it ahead of stop"
  | stopNotForwarded => "stop not forwarded"
  | noGroupToReport group => s!"get move group: no group {group}"
  | enableMotor => "enable motor"
  | disableMotor => "disable motor"
  | setConstraints c =>
      s!"set motion constraints: vel {c.minVelocity}..{c.maxVelocity}, " ++
        s!"acc {c.minAcceleration}..{c.maxAcceleration}"
  | stop => "stop"
  | moveOutOfRange group seq => s!"move {group}/{seq} out of range, dropped"
  | homeOutOfRange group seq => s!"home {group}/{seq} out of range, dropped"
  | queueMove group seq ticks condition =>
      s!"queue move {group}/{seq}: {ticks} ticks, MoveStopCondition({condition.bits})"
  | moveQueueFull group seq => s!"move queue full, dropping {group}/{seq}"
  | writeRegister address data => s!"write driver register {address}: {data}"
  | writeInvalidRegister address => s!"write to invalid driver register {address}"
  | writeRegisterFailed address => s!"driver register {address} write failed"
  | readInvalidRegister address => s!"read of invalid driver register {address}"
  | readRegisterFailed address => s!"driver register {address} read failed"
  | writeCurrent hold run => s!"write motor current: hold {hold}, run {run}"
  | writeCurrentFailed => "motor current write failed"
  | positionOverflow => "position overflow, axis halted"
  | acksLost => "move ack queue overflowed, completions lost"
  | ack group seq reason => s!"ack {group}/{seq}: {reason.name}"

/-- A line as the log shows it. -/
def render (l : LogLine) : String := l.level.name ++ " " ++ l.text

end LogLine

/-- What a task does besides changing the node. -/
inductive Event where
  | log (line : LogLine)
  /-- The motor was switched on or off. -/
  | motor (on : Bool)
deriving DecidableEq, Repr

namespace Event

/-- The line that an event writes to the log. -/
def line? : Event → Option LogLine
  | log l => some l
  | motor _ => none

/-- How an event switches the motor. -/
def motor? : Event → Option Bool
  | log _ => none
  | motor on => some on

end Event

end AxisNode
