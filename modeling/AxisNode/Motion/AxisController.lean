import AxisNode.Event
import AxisNode.Motion.Drivetrain
import AxisNode.Motion.StepGenerator

/-!
# The axis controller

The controller turns staged moves into moves in steps and queues them for the step generator. It
switches the motor on with the first move it queues, and a stop only asks the interrupt to cancel.
-/

namespace AxisNode

/-- The scales of an axis, the limits on its moves and whether its motor is on. -/
structure AxisController where
  scale : AxisScale
  constraints : MotionConstraints
  enabled : Bool := false
deriving DecidableEq, Repr

/-- The controller and its end of the link after a step. -/
structure MotionStep where
  controller : AxisController
  link : MoveLink
  /-- Whether the move was queued. -/
  accepted : Bool
  events : List Event
deriving DecidableEq, Repr

namespace AxisController

open FixedPoint

/-- A staged move in steps, within the constraints; `none` if a number cannot be stored. -/
def convert? (c : AxisController) : StagedMove → Option Move
  | .linear m => do
      let velocity ← scale? c.scale.stepsPerMillimetre (c.constraints.boundVelocity m.velocity)
      let acceleration ←
        scale? c.scale.stepsPerMicrometre (c.constraints.boundAcceleration m.acceleration)
      return {
        group := m.group
        seq := m.seq
        duration := m.duration
        velocity
        acceleration
        stop := ⟨m.stop⟩ }
  | .home m => do
      let velocity ← scale? c.scale.stepsPerMillimetre (c.constraints.boundVelocity m.velocity)
      return {
        group := m.group
        seq := m.seq
        duration := m.duration
        velocity
        acceleration := 0
        stop := .limitSwitch }

/-- The line about a move of which a number cannot be stored. -/
def outOfRange : StagedMove → LogLine
  | .linear m => .moveOutOfRange m.group m.seq
  | .home m => .homeOutOfRange m.group m.seq

/-- Switches the motor on. -/
def enable (c : AxisController) : AxisController × List Event :=
  ({ c with enabled := true }, [.motor true])

/-- Without holding torque the step count can no longer be trusted. -/
def disable (c : AxisController) (link : MoveLink) : AxisController × MoveLink × List Event :=
  ({ c with enabled := false }, { link with status := link.status.lower .stepperOk },
    [.motor false])

/-- Queues a move in steps, switching the motor on first if it is off. -/
def push (c : AxisController) (link : MoveLink) (m : Move) : MotionStep :=
  let (c, powered) := if c.enabled then (c, []) else c.enable
  let events := powered ++ [.log (.queueMove m.group m.seq m.duration m.stop)]
  match link.moves.push? m with
  | some moves => ⟨c, { link with moves }, true, events⟩
  | none => ⟨c, link, false, events ++ [.log (.moveQueueFull m.group m.seq)]⟩

/-- Queues a staged move. One that cannot be converted is dropped and changes nothing. -/
def queueMove (c : AxisController) (link : MoveLink) (m : StagedMove) : MotionStep :=
  match c.convert? m with
  | some move => c.push link move
  | none => ⟨c, link, false, [.log (outOfRange m)]⟩

/-- Abandons the active move and the waiting ones on the next tick. -/
def stop (link : MoveLink) : MoveLink × List Event :=
  ({ link with status := link.status.requestCancel }, [.log .stop])

/-- The position of the axis in micrometres, in the low 32 bits of the product. -/
def motorPosition (c : AxisController) (status : AxisStatus) : UInt32 :=
  UInt32.ofInt (c.scale.micrometresPerStep * status.position.toNat / stepUnit)

end AxisController

end AxisNode
