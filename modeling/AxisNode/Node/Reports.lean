import AxisNode.Motion.StepGenerator
import AxisNode.Node.Outbox

/-!
# Reports to the host

The interrupt can neither log nor send. It leaves acknowledgements and raises flags, and the report
task turns both into frames: an overflow once for as long as its flag stays up, lost
acknowledgements whenever their flag is up, and at most one acknowledgement on each turn.
-/

namespace AxisNode

/-- The link to the step generator, watched for what the host should be told. -/
structure ReportTask where
  link : MoveLink
  /-- Whether the overflow that the flag shows has been told. -/
  overflowReported : Bool
  outbox : Outbox
  host : NodeAddress
deriving DecidableEq, Repr

/-- The report task after some work, and whether it sent anything. -/
structure Reported where
  task : ReportTask
  sent : Bool
  events : List Event
deriving DecidableEq, Repr

namespace ReportTask

/-- Leaves a report for the host in the outbox. -/
def reply (r : Reply) (t : ReportTask) : ReportTask × List Event :=
  let posted := t.outbox.post t.host r
  ({ t with outbox := posted.outbox }, posted.events)

/-- The report of a fault of the hardware. -/
def fault (severity : Severity) : Reply := .error severity.code ErrorCode.hardware.code

/-- Reports the overflow flag when it is up and was not at the last turn. -/
def reportOverflow (t : ReportTask) : Reported :=
  let overflow := t.link.status.has .overflow
  if overflow && !t.overflowReported then
    let (t, events) := t.reply (fault .unrecoverable)
    ⟨{ t with overflowReported := true }, true, .log .positionOverflow :: events⟩
  else ⟨{ t with overflowReported := overflow }, false, []⟩

/-- Reports that acknowledgements were lost, and lowers the flag. -/
def reportLost (t : ReportTask) : Reported :=
  if t.link.status.has .ackDropped then
    let t := { t with link := { t.link with status := t.link.status.lower .ackDropped } }
    let (t, events) := t.reply (fault .warning)
    ⟨t, true, .log .acksLost :: events⟩
  else ⟨t, false, []⟩

/-- What the host is told of an acknowledgement. -/
def completion (a : MoveAck) : Completion where
  group := a.group
  seq := a.seq
  position := a.position
  encoder := a.encoder
  ack := a.reason.code

/-- Takes the oldest acknowledgement and reports that its move is complete. -/
def reportAck (t : ReportTask) : Reported :=
  match t.link.acks.pop? with
  | none => ⟨t, false, []⟩
  | some (a, acks) =>
      let t := { t with link := { t.link with acks } }
      let (t, events) := t.reply (.completed (completion a))
      ⟨t, true, .log (.ack a.group a.seq a.reason) :: events⟩

/-- One turn: the flags first, then the oldest acknowledgement. -/
def run (t : ReportTask) : Reported :=
  let overflow := t.reportOverflow
  let lost := overflow.task.reportLost
  let ack := lost.task.reportAck
  ⟨ack.task, overflow.sent || lost.sent || ack.sent,
    overflow.events ++ lost.events ++ ack.events⟩

end ReportTask

end AxisNode
