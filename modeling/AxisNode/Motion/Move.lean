import AxisNode.Motion.FixedPoint

/-!
# Moves

A move is staged in the units of the wire and queued in steps. It runs for a fixed number of ticks
unless its stop condition ends it first, and its end is told by an acknowledgement.
-/

namespace AxisNode

/-- A move of constant acceleration: millimetres per tick and micrometres per tick squared, both as
signed fractions. -/
structure LinearMove where
  group : UInt8
  seq : UInt8
  duration : UInt32
  acceleration : Int32
  velocity : Int32
  stop : UInt8
deriving DecidableEq, Repr

/-- A move at constant velocity toward the limit switch. -/
structure HomeMove where
  group : UInt8
  seq : UInt8
  duration : UInt32
  velocity : Int32
deriving DecidableEq, Repr

/-- A move as it lies in a slot of a move group. -/
inductive StagedMove where
  | linear (m : LinearMove)
  | home (m : HomeMove)
deriving DecidableEq, Repr

namespace StagedMove

/-- The group in which a move is staged. -/
def group : StagedMove → UInt8
  | linear m => m.group
  | home m => m.group

/-- The slot of the group, and the place in its order. -/
def seq : StagedMove → UInt8
  | linear m => m.seq
  | home m => m.seq

/-- How many ticks a move may take. -/
def duration : StagedMove → UInt32
  | linear m => m.duration
  | home m => m.duration

end StagedMove

/-- What may end a move before its ticks run out, as a set of bits. -/
structure StopCondition where
  bits : UInt8
deriving DecidableEq, Repr

namespace StopCondition

/-- The condition that the limit switch is pressed. -/
def limitSwitch : StopCondition := ⟨0x1⟩

/-- The empty condition is contained in none. -/
def contains (c d : StopCondition) : Bool := c.bits &&& d.bits == d.bits && d.bits != 0

end StopCondition

/-- A move in steps, ready to run. -/
structure Move where
  group : UInt8
  seq : UInt8
  /-- The number of ticks it may take. -/
  duration : UInt32
  /-- Steps per tick at the start. -/
  velocity : Int
  /-- The change of velocity on each tick. -/
  acceleration : Int
  stop : StopCondition
deriving DecidableEq, Repr

namespace Move

/-- A move that ends when the limit switch is pressed. -/
def homes (m : Move) : Bool := m.stop.contains .limitSwitch

/-- The distance covered in all ticks: the velocity is raised before each advance. -/
def travel (m : Move) : Int :=
  let d : Int := m.duration.toNat
  m.velocity * d + (m.acceleration * d * (d + 1)).tdiv 2

/-- The position after all ticks when starting at `start`; `none` if it cannot be stored. -/
def targetFrom (m : Move) (start : Int) : Option Int := FixedPoint.fit? (start + m.travel)

end Move

/-- Why a move ended. -/
inductive AckReason where
  | completeWithoutCondition
  | stoppedByCondition
  | timeout
  | positionError
  | conditionMet
deriving DecidableEq, Repr

namespace AckReason

/-- The code of a reason on the wire. -/
def code : AckReason → UInt8
  | completeWithoutCondition => 0x1
  | stoppedByCondition => 0x2
  | timeout => 0x3
  | positionError => 0x4
  | conditionMet => 0x8

/-- The name under which the log shows a reason. -/
def name : AckReason → String
  | completeWithoutCondition => "CompleteWithoutCondition"
  | stoppedByCondition => "StoppedByCondition"
  | timeout => "Timeout"
  | positionError => "PositionError"
  | conditionMet => "ConditionMet"

/-- The reason of a code; an unassigned code is read as a completion. -/
def ofCode (c : UInt8) : AckReason :=
  ([stoppedByCondition, timeout, positionError, conditionMet].find? fun r => r.code == c).getD
    completeWithoutCondition

end AckReason

/-- The notice that a move has ended, with the axis as it was then. -/
structure MoveAck where
  group : UInt8
  seq : UInt8
  /-- In whole steps. -/
  position : UInt32
  encoder : Int32
  flags : UInt8
  reason : AckReason
deriving DecidableEq, Repr

end AxisNode
