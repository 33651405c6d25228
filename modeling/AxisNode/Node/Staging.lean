import AxisNode.Motion.Table
import AxisNode.Node.Outbox

/-!
# Staging and executing moves

The staging task keeps the move groups. Executing a group forwards its moves in slot order to the
motion queue. A stop empties the groups and goes the same way, so that it always comes behind the
moves of an earlier execute; if the motion queue is full, everything in it makes room for the stop.
-/

namespace AxisNode

/-- What travels to the axis controller. -/
inductive MotionCommand where
  | request (r : MotionRequest)
  | move (m : StagedMove)
  | stop
deriving DecidableEq, Repr

/-- The move groups, the way to the axis controller and the way out for reports. -/
structure StagingTask where
  table : MoveTable
  motion : Inlet MotionCommand
  outbox : Outbox
  host : NodeAddress
deriving DecidableEq, Repr

namespace StagingTask

/-- Puts a move into its slot; one that has no slot is dropped. -/
def stage (m : StagedMove) (t : StagingTask) : StagingTask × List Event :=
  match t.table.stage? m with
  | some table => ({ t with table }, [.log (.stageMove m.group m.seq)])
  | none => (t, [.log (.stageMove m.group m.seq), .log (.noSlot m.group m.seq)])

/-- Sends one move on; a move that finds no room is dropped. -/
def forward (m : StagedMove) (t : StagingTask) : StagingTask × List Event :=
  match t.motion.push? (.move m) with
  | some motion => ({ t with motion }, [])
  | none => (t, [.log (.notForwarded m.group m.seq)])

/-- Sends moves on one after another, also behind one that was dropped. -/
def forwardAll : List StagedMove → StagingTask → StagingTask × List Event
  | [], t => (t, [])
  | m :: moves, t =>
      let (t, first) := t.forward m
      let (t, others) := forwardAll moves t
      (t, first ++ others)

/-- Sends every move of a group on. The group keeps its moves. -/
def execute (group : UInt8) (t : StagingTask) : StagingTask × List Event :=
  match t.table.group? group with
  | none => (t, [.log (.noGroupToExecute group)])
  | some g =>
      let (t, events) := t.forwardAll g.moves
      (t, .log (.executeGroup group g.size) :: events)

/-- Empties every group and sends the stop on behind what was already forwarded. -/
def stop (t : StagingTask) : StagingTask × List Event :=
  let t := { t with table := t.table.clear }
  match t.motion.push? .stop with
  | some motion => ({ t with motion }, [.log .clearGroupsForStop])
  | none =>
      let emptied := t.motion.clear
      match emptied.push? .stop with
      | some motion =>
          ({ t with motion }, [.log .clearGroupsForStop, .log .discardedForStop])
      | none =>
          ({ t with motion := emptied },
            [.log .clearGroupsForStop, .log .discardedForStop, .log .stopNotForwarded])

/-- What is told of a group. -/
def describe (group : UInt8) (g : MoveGroup) : GroupReport where
  group
  moves := UInt8.ofNat (min g.size 255)
  duration := g.duration

/-- Tells the host of a group, if there is one. -/
def report (group : UInt8) (t : StagingTask) : StagingTask × List Event :=
  match t.table.group? group with
  | none => (t, [.log (.noGroupToReport group)])
  | some g =>
      let posted := t.outbox.post t.host (.group (describe group g))
      ({ t with outbox := posted.outbox }, posted.events)

/-- Handles one request. The triggers that an execute names are not used. -/
def handle (r : GroupRequest) (t : StagingTask) : StagingTask × List Event :=
  match r with
  | .stage m => t.stage m
  | .report group => t.report group
  | .clearAll => ({ t with table := t.table.clear }, [])
  | .execute group _ _ => t.execute group
  | .stop => t.stop

end StagingTask

end AxisNode
