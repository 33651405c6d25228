import AxisNode.Node.Basic
import AxisNode.Proofs.Motion.Drive
import AxisNode.Proofs.Node.Staging
import AxisNode.Proofs.Routing

/-!
# Runs of the node

Frames arrive, the tasks take their turns, and a tick may fall between any two turns. A run is any
sequence of these, and a poll is five turns one after another. What happens to the step generator in
a run of the node is a run of its own, so what holds of the generator in all its runs holds of it in
a node.
-/

namespace AxisNode

/-- The tasks that take turns. -/
inductive NodeTask where
  | reports
  | motion
  | staging
  | chip
  | outbox
deriving DecidableEq, Repr

/-- Something that happens to a node. -/
inductive NodeEvent where
  | frame (id : FrameId) (payload : List UInt8)
  | turn (task : NodeTask)
  | tick (limit : Bool) (encoder : Option Int32)
deriving DecidableEq, Repr

/-- Whether the interrupt runs with the event. -/
def NodeEvent.isTick : NodeEvent → Bool
  | tick _ _ => true
  | _ => false

/-- A node and the bus it sends to. -/
structure Site (τ β : Type) where
  node : Node τ
  bus : β

/-- The turns of one poll. -/
def NodeEvent.poll : List NodeEvent :=
  [.turn .reports, .turn .motion, .turn .staging, .turn .chip, .turn .outbox]

/-- The staged move in a command. -/
@[simp] def MotionCommand.move? : MotionCommand → Option StagedMove
  | move m => some m
  | _ => none

/-- What a command to the controller does to the step generator. -/
def AxisController.axisEvents (c : AxisController) (command : MotionCommand) : List AxisEvent :=
  match command with
  | .move m => (c.convert? m).toList.map .enqueue
  | .stop => [.requestCancel]
  | .request .disable => [.disable]
  | .request _ => []

namespace Node

variable {τ : Type} {n : Node τ}

/-! ## Frames -/

/-- A frame queues requests and replies but touches neither the axis nor the table, and to the
axis controller it queues nothing but requests. -/
structure Received (n n' : Node τ) : Prop where
  axis : n'.axis = n.axis
  controller : n'.controller = n.controller
  table : n'.table = n.table
  capacity : n'.motionCommands.capacity = n.motionCommands.capacity
  commands : ∃ rs : List MotionRequest,
    n'.motionCommands.items = n.motionCommands.items ++ rs.map .request

theorem Received.of_eq {n' n'' : Node τ} (h : Received n n') (ha : n''.axis = n'.axis)
    (hc : n''.controller = n'.controller) (ht : n''.table = n'.table)
    (hq : n''.motionCommands = n'.motionCommands) : Received n n'' := by
  obtain ⟨ha', hc', ht', hcap, hcmd⟩ := h
  exact ⟨ha.trans ha', hc.trans hc', ht.trans ht', hq ▸ hcap, hq ▸ hcmd⟩

theorem received_answer (r : SystemRequest) {n' : Node τ} (h : Received n n') :
    Received n (n'.answer r).1 := by
  cases r with
  | heartbeat => exact h.of_eq rfl rfl rfl rfl
  | deviceInfo => exact h.of_eq rfl rfl rfl rfl

/-- A frame changes nothing but queues. -/
theorem received_handleFrame (n : Node τ) (id : FrameId) (payload : List UInt8) :
    Received n (n.handleFrame id payload).1 := by
  apply Route.deliver_keeps
  · intro l hl
    simp only [routes, Route.forNode, Route.all, List.foldr, Route.leaves, List.mem_append,
      List.mem_singleton, List.not_mem_nil, or_false] at hl
    obtain rfl | rfl | rfl | rfl := hl
    · exact Leaf.handling_keeps fun r _ h => received_answer r h
    · exact Leaf.queueing_keeps fun _ _ _ _ h => h.of_eq rfl rfl rfl rfl
    · apply Leaf.queueing_keeps
      intro r n' q hq h
      obtain ⟨-, hi, hcap⟩ := Queue.push?_eq_some_iff.mp hq
      obtain ⟨rs, hrs⟩ := h.commands
      refine ⟨h.axis, h.controller, h.table, hcap.trans h.capacity, rs ++ [r], ?_⟩
      rw [hi, hrs, List.map_append, List.append_assoc]
      rfl
    · exact Leaf.queueing_keeps fun _ _ _ _ h => h.of_eq rfl rfl rfl rfl
  · exact ⟨rfl, rfl, rfl, rfl, [], (List.append_nil _).symm⟩

/-! ## Turns -/

/-- What the report task does to the step generator. -/
def reportEvents (n : Node τ) : List AxisEvent :=
  (if n.axis.status.has .ackDropped then [.clearDropped] else []) ++ [.takeAck]

theorem link_reportOverflow (t : ReportTask) : t.reportOverflow.task.link = t.link := by
  unfold ReportTask.reportOverflow
  dsimp only
  split <;> rfl

theorem link_reportLost (t : ReportTask) :
    t.reportLost.task.link =
      if t.link.status.has .ackDropped
      then { t.link with status := t.link.status.lower .ackDropped } else t.link := by
  unfold ReportTask.reportLost
  split <;> rfl

theorem link_reportAck (t : ReportTask) :
    t.reportAck.task.link =
      (t.link.acks.pop?.map fun p => { t.link with acks := p.2 }).getD t.link := by
  unfold ReportTask.reportAck
  cases t.link.acks.pop? <;> rfl

theorem axis_runReports (n : Node τ) : n.runReports.node.axis = n.axis.run n.reportEvents := by
  have hlink : n.runReports.node.axis =
      { n.axis with
        toMoveLink := n.reportTask.reportOverflow.task.reportLost.task.reportAck.task.link } := rfl
  have htask : n.reportTask.link = n.axis.toMoveLink := rfl
  rw [hlink, link_reportAck, link_reportLost, link_reportOverflow, htask, reportEvents]
  cases hd : n.axis.status.has .ackDropped <;> cases hq : n.axis.acks.pop? <;>
    simp [StepGenerator.run, StepGenerator.step, StepGenerator.react, StepGenerator.mapStatus, hq]

/-- Reporting leaves the moves alone. -/
theorem run_reportEvents (n : Node τ) :
    (n.axis.run n.reportEvents).moves = n.axis.moves ∧
      (n.axis.run n.reportEvents).active = n.axis.active := by
  have htake : ∀ g : StepGenerator, (g.react .takeAck).moves = g.moves :=
    StepGenerator.moves_react .takeAck (by simp)
  rw [reportEvents]
  split
  · exact ⟨(htake _).trans (StepGenerator.moves_react .clearDropped (by simp) n.axis),
      StepGenerator.active_react .takeAck _⟩
  · exact ⟨htake _, StepGenerator.active_react .takeAck _⟩

/-- A command passes at most one move on, behind the ones that wait. -/
theorem moves_run_axisEvents (c : AxisController) (command : MotionCommand) (g : StepGenerator) :
    ∃ new, (g.run (c.axisEvents command)).moves.items = g.moves.items ++ new ∧
      new.Sublist (command.move?.bind c.convert?).toList := by
  have hnone : g.moves.items = g.moves.items ++ [] := (List.append_nil _).symm
  cases command with
  | request r => cases r <;> exact ⟨[], hnone, List.nil_sublist _⟩
  | stop => exact ⟨[], hnone, List.nil_sublist _⟩
  | move m =>
      simp only [AxisController.axisEvents, MotionCommand.move?, Option.bind_some]
      cases c.convert? m with
      | none => exact ⟨[], hnone, List.nil_sublist _⟩
      | some move =>
          simp only [Option.toList_some, List.map_cons, List.map_nil, StepGenerator.run,
            StepGenerator.step, StepGenerator.react]
          cases hq : g.moves.push? move with
          | none => exact ⟨[], hnone, List.nil_sublist _⟩
          | some q => exact ⟨[move], (Queue.push?_eq_some_iff.mp hq).2.1, List.Sublist.refl _⟩

theorem active_run_axisEvents (c : AxisController) (command : MotionCommand)
    (g : StepGenerator) : (g.run (c.axisEvents command)).active = g.active := by
  cases command with
  | request r => cases r <;> rfl
  | stop => rfl
  | move m =>
      simp only [AxisController.axisEvents]
      cases c.convert? m with
      | none => rfl
      | some move => exact StepGenerator.active_react (.enqueue move) g

theorem runMotion_of_none (h : n.motionCommands.pop? = none) : n.runMotion = ⟨n, false, []⟩ := by
  simp [runMotion, runMotionWithin, Queue.popWithin?, h]

theorem axis_runMotion {command : MotionCommand} {q : Queue MotionCommand}
    (h : n.motionCommands.pop? = some (command, q)) :
    n.runMotion.node.axis = n.axis.run (n.controller.axisEvents command) ∧
      n.runMotion.node.motionCommands = q ∧ n.runMotion.node.table = n.table ∧
      n.runMotion.node.groupRequests = n.groupRequests := by
  have hrun : n.runMotion.node = setLink (n.motionTask.handle command).1.link
      { n with
        motionCommands := q
        controller := (n.motionTask.handle command).1.controller
        outbox := (n.motionTask.handle command).1.outbox } := by
    simp [runMotion, runMotionWithin, Queue.popWithin?, h]
  rw [hrun]
  refine ⟨?_, rfl, rfl, rfl⟩
  cases command with
  | request r => cases r <;> rfl
  | move m => exact n.controller.run_queueMove n.axis m
  | stop => rfl

theorem runStaging_of_none (h : n.groupRequests.pop? = none) :
    n.runStaging = ⟨n, false, []⟩ := by
  simp [runStaging, runStagingWithin, Queue.popWithin?, h]

theorem runStaging_of_some {r : GroupRequest} {q : Queue GroupRequest}
    (h : n.groupRequests.pop? = some (r, q)) :
    n.runStaging.node = { n with
      groupRequests := q
      table := (StagingTask.handle r (n.stagingTask true)).1.table
      motionCommands := (StagingTask.handle r (n.stagingTask true)).1.motion.queue
      outbox := (StagingTask.handle r (n.stagingTask true)).1.outbox } := by
  simp [runStaging, runStagingWithin, Queue.popWithin?, h]

/-- A turn of the staging task handles one request; the axis does not notice. -/
theorem runStaging_spec {r : GroupRequest} {q : Queue GroupRequest}
    (h : n.groupRequests.pop? = some (r, q)) (hc : 0 < n.motionCommands.capacity) :
    n.runStaging.node.axis = n.axis ∧ n.runStaging.node.controller = n.controller ∧
      n.runStaging.node.groupRequests = q ∧
      n.runStaging.node.table = StagingTask.tableAfter r n.table ∧
      n.runStaging.node.motionCommands.capacity = n.motionCommands.capacity ∧
      n.runStaging.node.motionCommands.items =
        StagingTask.queueAfter r n.table n.motionCommands.capacity n.motionCommands.items := by
  obtain ⟨hcap, hi⟩ := StagingTask.queue_handle (t := n.stagingTask true) r rfl hc
  rw [runStaging_of_some h]
  exact ⟨rfl, rfl, rfl, StagingTask.table_handle r _, hcap, hi⟩

theorem axis_runStaging (n : Node τ) : n.runStaging.node.axis = n.axis := by
  cases hq : n.groupRequests.pop? with
  | none => rw [runStaging_of_none hq]
  | some p => rw [runStaging_of_some (r := p.1) (q := p.2) hq]

theorem axis_runChip [RegisterLink τ] (n : Node τ) : n.runChip.node.axis = n.axis := by
  unfold runChip runChipWithin
  split <;> rfl

/-- The moves that are staged, queued or active and the work that waits are the same. -/
structure SameWork (n n' : Node τ) : Prop where
  controller : n'.controller = n.controller
  table : n'.table = n.table
  groupRequests : n'.groupRequests = n.groupRequests
  motionCommands : n'.motionCommands = n.motionCommands
  moves : n'.axis.moves = n.axis.moves
  active : n'.axis.active = n.axis.active

theorem sameWork_runReports (n : Node τ) : n.SameWork n.runReports.node := by
  obtain ⟨hmoves, hactive⟩ := run_reportEvents n
  refine ⟨rfl, rfl, rfl, rfl, ?_, ?_⟩
  · rw [axis_runReports]
    exact hmoves
  · rw [axis_runReports]
    exact hactive

theorem sameWork_runChip [RegisterLink τ] (n : Node τ) : n.SameWork n.runChip.node := by
  unfold runChip runChipWithin
  split <;> exact ⟨rfl, rfl, rfl, rfl, rfl, rfl⟩

theorem sameWork_runOutbox {β : Type} [FrameBus β] (n : Node τ) (bus : β) :
    n.SameWork (n.runOutbox bus).node := ⟨rfl, rfl, rfl, rfl, rfl, rfl⟩

/-- What an event does to the step generator. -/
def axisEvents (e : NodeEvent) (n : Node τ) : List AxisEvent :=
  match e with
  | .turn .reports => n.reportEvents
  | .turn .motion =>
      match n.motionCommands.pop? with
      | some (command, _) => n.controller.axisEvents command
      | none => []
  | .tick limit encoder => [.tick limit encoder]
  | _ => []

theorem isTick_commandEvents (c : AxisController) (command : MotionCommand) :
    ∀ x ∈ c.axisEvents command, x.isTick = false := by
  intro x hx
  cases command with
  | stop => rw [List.mem_singleton.mp hx]; rfl
  | move m =>
      obtain ⟨move, -, rfl⟩ := List.mem_map.mp hx
      rfl
  | request r =>
      cases r with
      | disable => rw [List.mem_singleton.mp hx]; rfl
      | _ => exact absurd hx List.not_mem_nil

theorem isTick_axisEvents {e : NodeEvent} (he : e.isTick = false) (n : Node τ) :
    ∀ x ∈ n.axisEvents e, x.isTick = false := by
  intro x hx
  cases e with
  | frame id payload => exact absurd hx List.not_mem_nil
  | tick limit encoder => cases he
  | turn task =>
      cases task with
      | reports =>
          simp only [axisEvents, reportEvents] at hx
          split at hx <;> simp at hx
          · obtain rfl | rfl := hx <;> rfl
          · rw [hx]; rfl
      | motion =>
          simp only [axisEvents] at hx
          cases hq : n.motionCommands.pop? with
          | none => simp [hq] at hx
          | some p =>
              rw [hq] at hx
              exact isTick_commandEvents n.controller p.1 x hx
      | _ => exact absurd hx List.not_mem_nil

end Node

/-- An event at which a run is cut is its last event or lies in what came before that. -/
theorem concat_eq_append_cons_iff {α : Type} {xs ys zs : List α} {x y : α} :
    xs ++ [x] = ys ++ y :: zs ↔
      xs = ys ∧ x = y ∧ zs = [] ∨ ∃ zs', zs = zs' ++ [x] ∧ xs = ys ++ y :: zs' := by
  constructor
  · intro h
    obtain rfl | ⟨zs, z, rfl⟩ := List.eq_nil_or_concat zs
    · obtain ⟨hxs, hx⟩ := List.append_inj' h rfl
      exact .inl ⟨hxs, List.singleton_inj.mp hx, rfl⟩
    · rw [List.concat_eq_append, ← List.cons_append, ← List.append_assoc] at h
      obtain ⟨hxs, hx⟩ := List.append_inj' h rfl
      exact .inr ⟨zs, by rw [List.concat_eq_append, List.singleton_inj.mp hx], hxs⟩
  · rintro (⟨rfl, rfl, rfl⟩ | ⟨zs, rfl, rfl⟩)
    · rfl
    · rw [List.append_assoc, List.cons_append]

namespace Site

variable {τ β : Type} [RegisterLink τ] [FrameBus β]

/-- One turn of a task. Only the sending task touches the bus. -/
def turn (task : NodeTask) (s : Site τ β) : Site τ β :=
  match task with
  | .reports => { s with node := s.node.runReports.node }
  | .motion => { s with node := s.node.runMotion.node }
  | .staging => { s with node := s.node.runStaging.node }
  | .chip => { s with node := s.node.runChip.node }
  | .outbox => ⟨(s.node.runOutbox s.bus).node, (s.node.runOutbox s.bus).bus⟩

/-- What an event does to the node and the bus. -/
def step (e : NodeEvent) (s : Site τ β) : Site τ β :=
  match e with
  | .frame id payload => { s with node := (s.node.handleFrame id payload).1 }
  | .turn task => s.turn task
  | .tick limit encoder => { s with node := (s.node.interrupt limit encoder).1 }

/-- Node and bus after a list of events. -/
def run (s : Site τ β) : List NodeEvent → Site τ β
  | [] => s
  | e :: es => run (s.step e) es

theorem run_append (s : Site τ β) (es fs : List NodeEvent) :
    s.run (es ++ fs) = (s.run es).run fs := by
  induction es generalizing s with
  | nil => rfl
  | cons e es ih => exact ih (s.step e)

theorem run_concat (s : Site τ β) (es : List NodeEvent) (e : NodeEvent) :
    s.run (es ++ [e]) = (s.run es).step e :=
  run_append s es [e]

/-- The five turns of a poll are a poll. -/
theorem run_poll (s : Site τ β) :
    s.run NodeEvent.poll = ⟨(s.node.poll s.bus).node, (s.node.poll s.bus).bus⟩ := rfl

/-- What a run does to the step generator. -/
def axisEvents (s : Site τ β) : List NodeEvent → List AxisEvent
  | [] => []
  | e :: es => s.node.axisEvents e ++ axisEvents (s.step e) es

theorem axisEvents_append (s : Site τ β) (es fs : List NodeEvent) :
    s.axisEvents (es ++ fs) = s.axisEvents es ++ (s.run es).axisEvents fs := by
  induction es generalizing s with
  | nil => rfl
  | cons e es ih => simp only [List.cons_append, axisEvents, run, ih, List.append_assoc]

theorem axis_step (e : NodeEvent) (s : Site τ β) :
    (s.step e).node.axis = s.node.axis.run (s.node.axisEvents e) := by
  cases e with
  | frame id payload => exact (Node.received_handleFrame s.node id payload).axis
  | turn task =>
      cases task with
      | reports => exact Node.axis_runReports s.node
      | motion =>
          cases hq : s.node.motionCommands.pop? with
          | none => simp [step, turn, Node.axisEvents, Node.runMotion_of_none hq, hq,
              StepGenerator.run]
          | some p =>
              obtain ⟨command, q⟩ := p
              simp only [Node.axisEvents, hq]
              exact (Node.axis_runMotion hq).1
      | staging => exact Node.axis_runStaging s.node
      | chip => exact Node.axis_runChip s.node
      | outbox => rfl
  | tick limit encoder => rfl

/-- The step generator of a node runs as it does on its own. -/
theorem axis_run (s : Site τ β) (es : List NodeEvent) :
    (s.run es).node.axis = s.node.axis.run (s.axisEvents es) := by
  induction es generalizing s with
  | nil => rfl
  | cons e es ih =>
      calc
        ((s.step e).run es).node.axis
            = (s.step e).node.axis.run ((s.step e).axisEvents es) := ih (s.step e)
        _ = (s.node.axis.run (s.node.axisEvents e)).run ((s.step e).axisEvents es) := by
            rw [axis_step]
        _ = s.node.axis.run (s.axisEvents (e :: es)) := (StepGenerator.run_append _ _ _).symm

end Site

end AxisNode
