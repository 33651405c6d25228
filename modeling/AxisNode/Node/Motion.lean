import AxisNode.Motion.AxisController
import AxisNode.Node.Staging

/-!
# Commands to the axis controller

Requests arrive over the bus; moves and stops arrive from the staging task. All share one queue, and
replies go to the host.
-/

namespace AxisNode

/-- The axis controller with its end of the link, and the way out for its answers. -/
structure MotionTask where
  controller : AxisController
  link : MoveLink
  outbox : Outbox
  host : NodeAddress
deriving DecidableEq, Repr

namespace MotionTask

/-- Leaves an answer for the host in the outbox. -/
def reply (r : Reply) (t : MotionTask) : MotionTask × List Event :=
  let posted := t.outbox.post t.host r
  ({ t with outbox := posted.outbox }, posted.events)

/-- Where the axis is now. -/
def positionReport (t : MotionTask) : PositionReport where
  position := t.controller.motorPosition t.link.status
  encoder := t.link.status.encoder
  flags := ⟨t.link.status.flags.bits⟩

/-- Handles a request that came straight from the bus. -/
def handleRequest (r : MotionRequest) (t : MotionTask) : MotionTask × List Event :=
  match r with
  | .enable =>
      let (controller, events) := t.controller.enable
      ({ t with controller }, .log .enableMotor :: events)
  | .disable =>
      let (controller, link, events) := t.controller.disable t.link
      ({ t with controller, link }, .log .disableMotor :: events)
  | .setConstraints c =>
      ({ t with controller := { t.controller with constraints := c } },
        [.log (.setConstraints c)])
  | .getConstraints => t.reply (.constraints t.controller.constraints)
  | .position => t.reply (.position t.positionReport)
  | .limitSwitch => t.reply (.limitSwitch (if t.link.status.limitSwitch then 1 else 0))

/-- Handles one command. Moves and stops come from the staging task. -/
def handle (c : MotionCommand) (t : MotionTask) : MotionTask × List Event :=
  match c with
  | .request r => t.handleRequest r
  | .move m =>
      let step := t.controller.queueMove t.link m
      ({ t with controller := step.controller, link := step.link }, step.events)
  | .stop =>
      let (link, events) := AxisController.stop t.link
      ({ t with link }, .log .stop :: events)

end MotionTask

end AxisNode
