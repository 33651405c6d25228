import AxisNode.Node.ChipAccess
import AxisNode.Node.Motion
import AxisNode.Node.Reports
import AxisNode.Routing

/-!
# The node

A node holds the queues, the tasks that read them and the step generator. A received frame is routed
to a queue or answered at once; a poll gives each task one turn in a fixed order; a timer tick runs
the step generator. Nothing else changes a node.
-/

namespace AxisNode

/-- What tells one node from another. -/
structure NodeSetup where
  node : NodeAddress
  /-- Where every reply goes. -/
  host : NodeAddress := .host
  version : UInt32 := 0
deriving DecidableEq, Repr

/-- How much each queue and the table of moves can hold. -/
structure Depths where
  requests : Nat := 10
  outbox : Nat := 16
  moves : Nat := 15
  acks : Nat := 15
  groups : Nat := 3
  slots : Nat := 12
deriving DecidableEq, Repr

/-- A node: the axis with its controller, the staged moves, the driver chip and the queues between
the tasks. -/
structure Node (τ : Type) where
  setup : NodeSetup
  axis : StepGenerator
  controller : AxisController
  table : MoveTable
  driver : ChipDriver τ
  overflowReported : Bool := false
  groupRequests : Queue GroupRequest
  motionCommands : Queue MotionCommand
  chipRequests : Queue ChipRequest
  outbox : Outbox

/-- A node after a turn of one task, and whether the task had anything to do. -/
structure Turn (τ : Type) where
  node : Node τ
  ran : Bool
  events : List Event

/-- A node and its bus after a poll, and whether any task had anything to do. -/
structure Polled (τ β : Type) where
  node : Node τ
  bus : β
  ran : Bool
  events : List Event

namespace Node

variable {τ : Type}

/-- A node with empty queues and an idle generator. -/
def assemble (setup : NodeSetup) (depths : Depths) (controller : AxisController)
    (driver : ChipDriver τ) : Node τ where
  setup
  axis := { moves := .empty depths.moves, acks := .empty depths.acks }
  controller
  table := .empty depths.groups depths.slots
  driver
  groupRequests := .empty depths.requests
  motionCommands := .empty depths.requests
  chipRequests := .empty depths.requests
  outbox := .empty depths.outbox

/-- A node ready to run. -/
def start (setup : NodeSetup) (controller : AxisController) (driver : ChipDriver τ) :
    Node τ × List PinCall × List Event :=
  let n := assemble setup {} controller driver
  let (axis, calls) := StepGenerator.start n.axis.toMoveLink
  ({ n with axis }, calls, [.log (.nodeReady setup.node)])

/-- Puts back the link that a task has worked on. -/
def setLink (link : MoveLink) (n : Node τ) : Node τ :=
  { n with axis := { n.axis with toMoveLink := link } }

/-- Leaves a reply for the host in the outbox. -/
def post (r : Reply) (n : Node τ) : Node τ × List Event :=
  let posted := n.outbox.post n.setup.host r
  ({ n with outbox := posted.outbox }, posted.events)

/-- Answers what needs no task. -/
def answer (r : SystemRequest) (n : Node τ) : Node τ × List Event :=
  match r with
  | .heartbeat =>
      let (n, events) := n.post .heartbeat
      (n, .log .heartbeat :: events)
  | .deviceInfo => n.post (.deviceInfo n.setup.version)

/-- The way of a received frame into the node. -/
def routes (node : NodeAddress) : Route (Node τ) :=
  .forNode node <| .all [
    .leaf (.handling .system answer),
    .leaf (.queueing .group (fun r => r) (fun n => n.groupRequests)
      fun q n => { n with groupRequests := q }),
    .leaf (.queueing .motion .request (fun n => n.motionCommands)
      fun q n => { n with motionCommands := q }),
    .leaf (.queueing .chip (fun r => r) (fun n => n.chipRequests)
      fun q n => { n with chipRequests := q })]

/-- Takes a received frame. -/
def handleFrame (n : Node τ) (id : FrameId) (payload : List UInt8) : Node τ × List Event :=
  (routes n.setup.node).deliver id payload n

/-- The part of the node that the staging task works on. -/
def stagingTask (isOpen : Bool) (n : Node τ) : StagingTask where
  table := n.table
  motion := { queue := n.motionCommands, isOpen }
  outbox := n.outbox
  host := n.setup.host

/-- A turn of the staging task: at most one request, polled for a number of times. The way to the
motion queue may be shut. -/
def runStagingWithin (polls : Nat) (isOpen : Bool) (n : Node τ) : Turn τ :=
  match n.groupRequests.popWithin? polls with
  | none => ⟨n, false, []⟩
  | some (r, groupRequests) =>
      let (t, events) := (n.stagingTask isOpen).handle r
      ⟨{ n with
          groupRequests
          table := t.table
          motionCommands := t.motion.queue
          outbox := t.outbox }, true, events⟩

/-- A turn that polls once, with the way to the motion queue open. -/
def runStaging (n : Node τ) : Turn τ := n.runStagingWithin 1 true

/-- The part of the node that the motion task works on. -/
def motionTask (n : Node τ) : MotionTask where
  controller := n.controller
  link := n.axis.toMoveLink
  outbox := n.outbox
  host := n.setup.host

/-- A turn of the motion task. -/
def runMotionWithin (polls : Nat) (n : Node τ) : Turn τ :=
  match n.motionCommands.popWithin? polls with
  | none => ⟨n, false, []⟩
  | some (c, motionCommands) =>
      let (t, events) := n.motionTask.handle c
      ⟨setLink t.link { n with motionCommands, controller := t.controller, outbox := t.outbox },
        true, events⟩

/-- A turn that polls once. -/
def runMotion (n : Node τ) : Turn τ := n.runMotionWithin 1

/-- The part of the node that the chip task works on. -/
def chipTask (n : Node τ) : ChipTask τ where
  driver := n.driver
  outbox := n.outbox
  host := n.setup.host

/-- A turn of the chip task. -/
def runChipWithin [RegisterLink τ] (polls : Nat) (n : Node τ) : Turn τ :=
  match n.chipRequests.popWithin? polls with
  | none => ⟨n, false, []⟩
  | some (r, chipRequests) =>
      let (t, events) := n.chipTask.handle r
      ⟨{ n with chipRequests, driver := t.driver, outbox := t.outbox }, true, events⟩

/-- A turn that polls once. -/
def runChip [RegisterLink τ] (n : Node τ) : Turn τ := n.runChipWithin 1

/-- The part of the node that the report task works on. -/
def reportTask (n : Node τ) : ReportTask where
  link := n.axis.toMoveLink
  overflowReported := n.overflowReported
  outbox := n.outbox
  host := n.setup.host

/-- A turn of the report task. -/
def runReports (n : Node τ) : Turn τ :=
  let r := n.reportTask.run
  ⟨setLink r.task.link
      { n with overflowReported := r.task.overflowReported, outbox := r.task.outbox },
    r.sent, r.events⟩

/-- A turn of the sending task. -/
def runOutbox {β : Type} [FrameBus β] (n : Node τ) (bus : β) : Polled τ β :=
  let s := n.outbox.sendNext bus
  ⟨{ n with outbox := s.outbox }, s.bus, s.taken, s.events⟩

/-- Gives every task one turn, the most urgent first, and then sends at most one frame. -/
def poll {β : Type} [RegisterLink τ] [FrameBus β] (n : Node τ) (bus : β) : Polled τ β :=
  let reports := n.runReports
  let motion := reports.node.runMotion
  let staging := motion.node.runStaging
  let chip := staging.node.runChip
  let sent := chip.node.runOutbox bus
  { sent with
    ran := reports.ran || motion.ran || staging.ran || chip.ran || sent.ran
    events := reports.events ++ motion.events ++ staging.events ++ chip.events ++ sent.events }

/-- One timer tick. -/
def interrupt (limit : Bool) (encoder : Option Int32) (n : Node τ) : Node τ × List PinCall :=
  let (axis, calls) := n.axis.interrupt limit encoder
  ({ n with axis }, calls)

end Node

end AxisNode
