import AxisNode.Board.CanController
import AxisNode.Board.Pins
import AxisNode.Board.Stepper
import AxisNode.Board.TickTimer
import AxisNode.Bus.Recording
import AxisNode.Node.Basic
import AxisNode.Proofs.Motion.Run
import AxisNode.Proofs.Motion.StepCount
import AxisNode.Proofs.Motion.Trajectory
import AxisNode.Proofs.Node.Run
import AxisNode.Proofs.Motion.Table
import AxisNode.Proofs.Node.Delivery
import AxisNode.Proofs.Node.Origins
import AxisNode.Proofs.Node.StopOrder
import AxisNode.Proofs.Motion.Phase
import AxisNode.Proofs.Motion.Switch
import AxisNode.Proofs.Motion.Ledger
import AxisNode.Proofs.Message
import AxisNode.Proofs.Node.Built
import AxisNode.Proofs.Node.Polling
import AxisNode.Proofs.Node.Execution
import AxisNode.Proofs.Node.Reports
import AxisNode.Proofs.Node.Overflow
import AxisNode.Proofs.Node.Power
import AxisNode.Proofs.Motion.Trust
import AxisNode.Proofs.Node.Trust
import AxisNode.Proofs.Families
import AxisNode.Proofs.Visits
import AxisNode.Proofs.Motion.Cancel
import AxisNode.Proofs.Motion.Sequence
import AxisNode.Proofs.Node.Intake
import AxisNode.Proofs.Node.Slots
import AxisNode.Proofs.Node.Sending
import AxisNode.Proofs.Node.Acceptance
import AxisNode.Proofs.Node.Quiescence
import AxisNode.Proofs.Motion.Independence
import AxisNode.Proofs.Motion.VelocityLimit
import AxisNode.Proofs.Board.Encoder
import AxisNode.Proofs.Motion.PositionReport
import AxisNode.Proofs.Chip.Mirror
import AxisNode.Proofs.Board.Readings
import AxisNode.Proofs.Chip.Current
import AxisNode.Proofs.Motion.Target
import AxisNode.Proofs.Cursor
