import AxisNode.Proofs.Motion.Ledger
import AxisNode.Proofs.Node.StopOrder
import AxisNode.Proofs.Node.Execution

/-!
# What the host is told

The report task takes an acknowledgement or a flag away and hands the frame that stands for it to
the outbox, which it shares with every other task. What finds no room there is not tried again: it
is named in the log and is gone. So every move that has retired is told by one frame, or that frame
was dropped and named, or its acknowledgement was lost and the next turn hands over a warning, or it
still waits.
-/

namespace AxisNode

/-- The kind of a reply that found no room in the outbox. -/
def Event.dropped? : Event → Option MessageKind
  | log (.outboxFull kind) => some kind
  | _ => none

/-- The completion that a reply tells of. -/
def Reply.completed? : Reply → Option Completion
  | completed c => some c
  | _ => none

/-! ## Replies handed over one after another -/

/-- How many replies the outbox still takes. -/
def Outbox.room (o : Outbox) : Nat := o.capacity - o.items.length

/-- Replies were handed to an outbox one after another: those that found room are queued in their
order, and each of the others is named in the log and is gone. -/
structure Hands (destination : NodeAddress) (rs : List Reply) (before after : Outbox)
    (events : List Event) : Prop where
  capacity : after.capacity = before.capacity
  queued : after.items = before.items ++ (rs.take before.room).map (Outgoing.make destination)
  dropped : events.filterMap Event.dropped? = (rs.drop before.room).map Reply.kind

namespace Hands

variable {destination : NodeAddress} {rs rs' : List Reply} {o o' o'' : Outbox}
variable {events events' : List Event}

theorem nothing (h : events.filterMap Event.dropped? = []) : Hands destination [] o o events :=
  ⟨rfl, by simp, by simp [h]⟩

theorem post (destination : NodeAddress) (o : Outbox) (r : Reply) :
    Hands destination [r] o (o.post destination r).outbox (o.post destination r).events := by
  have hl := o.length_le
  unfold Outbox.post
  cases hp : o.push? (.make destination r) with
  | none =>
      have hroom : o.room = 0 := Nat.sub_eq_zero_of_le (Queue.push?_eq_none_iff.mp hp)
      exact ⟨rfl, by simp [hroom], by simp [hroom, Event.dropped?]⟩
  | some q =>
      obtain ⟨hlt, hi, hc⟩ := Queue.push?_eq_some_iff.mp hp
      obtain ⟨n, hroom⟩ : ∃ n, o.room = n + 1 := ⟨o.room - 1, by unfold Outbox.room; omega⟩
      exact ⟨hc, by simp [hroom, hi], by simp [hroom]⟩

/-- A line that names no reply may stand in front. -/
theorem cons {e : Event} (h : Hands destination rs o o' events) (he : e.dropped? = none) :
    Hands destination rs o o' (e :: events) :=
  ⟨h.capacity, h.queued, by rw [List.filterMap_cons_none he, h.dropped]⟩

theorem room (h : Hands destination rs o o' events) : o'.room = o.room - rs.length := by
  have hl := o.length_le
  simp only [Outbox.room, h.capacity, h.queued, List.length_append, List.length_map,
    List.length_take]
  omega

theorem append (h : Hands destination rs o o' events) (h' : Hands destination rs' o' o'' events') :
    Hands destination (rs ++ rs') o o'' (events ++ events') := by
  refine ⟨h'.capacity.trans h.capacity, ?_, ?_⟩
  · rw [h'.queued, h.queued, h.room, List.take_append, List.map_append, List.append_assoc]
  · rw [List.filterMap_append, h.dropped, h'.dropped, h.room, List.drop_append, List.map_append]

end Hands

/-! ## A turn of the report task -/

namespace ReportTask

/-- A halt that was not told of yet is due. -/
def overflowDue (t : ReportTask) : List Reply :=
  if t.link.status.has .overflow && !t.overflowReported then [fault .unrecoverable] else []

/-- A warning is due when acknowledgements were lost. -/
def lostDue (t : ReportTask) : List Reply :=
  if t.link.status.has .ackDropped then [fault .warning] else []

/-- The completion of the oldest acknowledgement is due. -/
def ackDue (t : ReportTask) : List Reply :=
  (t.link.acks.items.head?.map fun a => .completed (completion a)).toList

/-- The frames that a turn hands to the outbox, one for whatever it takes away. -/
def due (t : ReportTask) : List Reply := t.overflowDue ++ t.lostDue ++ t.ackDue

/-- The same, each with whether it found room. -/
def handed (t : ReportTask) : List (Reply × Bool) :=
  (t.due.take t.outbox.room).map (·, true) ++ (t.due.drop t.outbox.room).map (·, false)

theorem map_fst_handed (t : ReportTask) : t.handed.map Prod.fst = t.due := by
  simp [handed, Function.comp_def]

/-- The one completion that is due tells of the acknowledgement in front. -/
theorem completed_handed (t : ReportTask) :
    t.handed.filterMap (fun p => p.1.completed?) =
      t.link.acks.items.head?.toList.map completion := by
  have hfst : t.handed.filterMap (fun p => p.1.completed?) = t.due.filterMap Reply.completed? := by
    rw [← map_fst_handed, List.filterMap_map]
    rfl
  have hoverflow : t.overflowDue.filterMap Reply.completed? = [] := by
    unfold overflowDue
    split <;> rfl
  have hlost : t.lostDue.filterMap Reply.completed? = [] := by
    unfold lostDue
    split <;> rfl
  rw [hfst, due, List.filterMap_append, List.filterMap_append, hoverflow, hlost, ackDue]
  cases t.link.acks.items.head? <;> rfl

theorem hands_reportOverflow (t : ReportTask) :
    t.reportOverflow.task.host = t.host ∧
      Hands t.host t.overflowDue t.outbox t.reportOverflow.task.outbox t.reportOverflow.events := by
  unfold reportOverflow overflowDue
  dsimp only
  split
  · exact ⟨rfl, (Hands.post t.host t.outbox _).cons rfl⟩
  · exact ⟨rfl, .nothing rfl⟩

theorem hands_reportLost (t : ReportTask) :
    t.reportLost.task.host = t.host ∧
      Hands t.host t.lostDue t.outbox t.reportLost.task.outbox t.reportLost.events := by
  unfold reportLost lostDue
  split
  · exact ⟨rfl, (Hands.post t.host t.outbox _).cons rfl⟩
  · exact ⟨rfl, .nothing rfl⟩

theorem hands_reportAck (t : ReportTask) :
    t.reportAck.task.link.acks.items = t.link.acks.items.tail ∧
      Hands t.host t.ackDue t.outbox t.reportAck.task.outbox t.reportAck.events := by
  unfold reportAck ackDue
  cases hq : t.link.acks.pop? with
  | none =>
      rw [Queue.pop?_eq_none_iff.mp hq]
      exact ⟨rfl, .nothing rfl⟩
  | some p =>
      obtain ⟨a, acks⟩ := p
      have hitems := (Queue.pop?_eq_some_iff.mp hq).1
      rw [hitems]
      exact ⟨rfl, (Hands.post t.host t.outbox _).cons rfl⟩

/-- Whatever a turn takes away, it hands over the frame that stands for it. -/
theorem hands_run (t : ReportTask) :
    Hands t.host t.due t.outbox t.run.task.outbox t.run.events ∧
      t.run.task.link.acks.items = t.link.acks.items.tail ∧
      t.run.task.link.status.has .ackDropped = false ∧
      t.run.task.overflowReported = t.link.status.has .overflow := by
  obtain ⟨hhost, hoverflow⟩ := t.hands_reportOverflow
  obtain ⟨hhost', hlost⟩ := t.reportOverflow.task.hands_reportLost
  obtain ⟨htail, hack⟩ := t.reportOverflow.task.reportLost.task.hands_reportAck
  -- What is due from each part does not depend on what the parts before it have done.
  have hlink : t.reportOverflow.task.link = t.link := Node.link_reportOverflow t
  obtain ⟨hacks, -, -⟩ := t.reportOverflow.task.link_lost
  have hlostDue : t.reportOverflow.task.lostDue = t.lostDue := by
    rw [lostDue, hlink, lostDue]
  have hackDue : t.reportOverflow.task.reportLost.task.ackDue = t.ackDue := by
    rw [ackDue, hacks, hlink, ackDue]
  rw [hlostDue, hhost] at hlost
  rw [hackDue, hhost', hhost] at hack
  obtain ⟨-, -, hdropped, -⟩ := t.run_spec
  refine ⟨(hoverflow.append hlost).append hack, ?_, hdropped, ?_⟩
  · rw [hacks, hlink] at htail
    exact htail
  · exact ((reportAck_spec _).2.trans (reportLost_spec _).2).trans (reportOverflow_spec t).2

end ReportTask

/-! ## The acknowledgements of a run -/

namespace Node

variable {τ : Type}

open StepGenerator

/-- What a node hands to the host of its own accord on an event. -/
def told (e : NodeEvent) (n : Node τ) : List (Reply × Bool) :=
  match e with
  | .turn .reports => n.reportTask.handed
  | _ => []

theorem delivered_commandEvents (c : AxisController) (command : MotionCommand) (g : StepGenerator) :
    g.collect delivered (c.axisEvents command) = [] := by
  cases command with
  | stop => rfl
  | move m =>
      simp only [AxisController.axisEvents]
      cases c.convert? m <;> rfl
  | request r => cases r <;> rfl

theorem delivered_reportEvents (n : Node τ) :
    n.axis.collect delivered n.reportEvents = n.axis.acks.items.head?.toList := by
  have hpop : ∀ q : Queue MoveAck, (q.pop?.map Prod.fst).toList = q.items.head?.toList := by
    intro q
    cases hq : q.pop? with
    | none => rw [Queue.pop?_eq_none_iff.mp hq]; rfl
    | some p => rw [(Queue.pop?_eq_some_iff.mp hq).1]; rfl
  unfold reportEvents
  split
  · exact (List.append_nil _).trans (hpop _)
  · exact (List.append_nil _).trans (hpop _)

/-- The completions that are handed over tell of the acknowledgements that are taken. -/
theorem completed_told (e : NodeEvent) (n : Node τ) :
    (n.told e).filterMap (fun p => p.1.completed?) =
      (n.axis.collect delivered (n.axisEvents e)).map ReportTask.completion := by
  cases e with
  | frame id payload => rfl
  | tick limit encoder => rfl
  | turn task =>
      cases task with
      | reports =>
          rw [told, ReportTask.completed_handed, axisEvents, delivered_reportEvents]
          rfl
      | motion =>
          simp only [axisEvents]
          cases n.motionCommands.pop? with
          | none => rfl
          | some p =>
              dsimp only
              rw [delivered_commandEvents]
              rfl
      | staging => rfl
      | chip => rfl
      | outbox => rfl

/-- Only a turn of the report task lowers the flag of a lost acknowledgement. -/
theorem clearDropped_notMem_axisEvents {e : NodeEvent} (he : e ≠ .turn .reports) (n : Node τ) :
    .clearDropped ∉ n.axisEvents e := by
  cases e with
  | frame id payload => exact List.not_mem_nil
  | tick limit encoder => simp [axisEvents]
  | turn task =>
      cases task with
      | reports => exact absurd rfl he
      | motion =>
          simp only [axisEvents]
          cases n.motionCommands.pop? with
          | none => exact List.not_mem_nil
          | some p =>
              obtain ⟨command, q⟩ := p
              cases command with
              | stop => simp [AxisController.axisEvents]
              | move m => simp [AxisController.axisEvents]
              | request r => cases r <;> simp [AxisController.axisEvents]
      | _ => exact List.not_mem_nil

end Node

/-- The flag of a lost acknowledgement stays up until it is lowered. -/
theorem StepGenerator.lost_run {g : StepGenerator} {es : List AxisEvent}
    (h : g.status.has .ackDropped = true) (hes : .clearDropped ∉ es) :
    (g.run es).status.has .ackDropped = true := by
  induction es generalizing g with
  | nil => exact h
  | cons e es ih =>
      rw [List.mem_cons, not_or] at hes
      refine ih ?_ hes.2
      have he : (e != .clearDropped) = true := by simpa using Ne.symm hes.1
      rw [lost_step, h, he]
      simp

namespace Site

variable {τ β : Type} [RegisterLink τ] [FrameBus β] {s : Site τ β}

open StepGenerator

/-- What the report task hands to the outbox in a run, each frame with whether it found room. -/
def told (s : Site τ β) : List NodeEvent → List (Reply × Bool)
  | [] => []
  | e :: es => s.node.told e ++ (s.step e).told es

/-- One completion is handed over for every acknowledgement that is taken. -/
theorem completed_told (s : Site τ β) (es : List NodeEvent) :
    (s.told es).filterMap (fun p => p.1.completed?) =
      (s.node.axis.collect delivered (s.axisEvents es)).map ReportTask.completion := by
  induction es generalizing s with
  | nil => rfl
  | cons e es ih =>
      rw [told, List.filterMap_append, ih, Node.completed_told, axisEvents, collect_append,
        List.map_append, axis_step]

theorem lost_run {es : List NodeEvent} (h : s.node.axis.status.has .ackDropped = true)
    (hes : .turn .reports ∉ es) : (s.run es).node.axis.status.has .ackDropped = true := by
  induction es generalizing s with
  | nil => exact h
  | cons e es ih =>
      rw [List.mem_cons, not_or] at hes
      refine ih ?_ hes.2
      rw [axis_step]
      exact StepGenerator.lost_run h
        (Node.clearDropped_notMem_axisEvents (Ne.symm hes.1) s.node)

end Site

open StepGenerator in
/-- Each move that has retired has offered one acknowledgement. Those that found room are taken in
their order, and whatever a turn of the report task takes away it hands over as one frame, which is
queued for the host if there is room and is otherwise dropped and named in the log. For one that
found no room the next turn hands over a warning. -/
theorem retired_moves_are_handed_over {τ β : Type} [RegisterLink τ] [FrameBus β]
    (setup : NodeSetup) (controller : AxisController) (driver : ChipDriver τ) (bus : β)
    (es : List NodeEvent) :
    let start : Site τ β := ⟨(Node.start setup controller driver).1, bus⟩
    let s := start.run es
    let axis := start.node.axis
    let attempts := axis.collect attempted (start.axisEvents es)
    let t := s.node.reportTask
    attempts.map Prod.fst = (axis.ledger (start.axisEvents es)).ended.filterMap Ending.ack? ∧
    (start.told es).filterMap (fun p => p.1.completed?) ++
        s.node.axis.acks.items.map ReportTask.completion =
      ((attempts.filter Prod.snd).map Prod.fst).map ReportTask.completion ∧
    (∀ before limit encoder quiet, es = before ++ .tick limit encoder :: quiet →
      .turn .reports ∉ quiet →
      ((attempted (.tick limit encoder) (start.run before).node.axis).any fun o => !o.2) = true →
      ReportTask.fault .warning ∈ t.due) ∧
    Hands t.host t.due t.outbox t.run.task.outbox t.run.events ∧
    t.run.task.link.acks.items = t.link.acks.items.tail ∧
    t.run.task.link.status.has .ackDropped = false ∧
    t.run.task.overflowReported = t.link.status.has .overflow := by
  intro start s axis attempts t
  have hb : (axis.run (start.axisEvents es)).Books (axis.ledger (start.axisEvents es)) :=
    (Books.start 15 15).run _
  refine ⟨?_, ?_, ?_, t.hands_run⟩
  · rw [map_fst_attempted, hb.acks]
    exact (offered_account axis {} _).symm
  · have hd := delivered_run axis (start.axisEvents es)
    have hacks : (axis.run (start.axisEvents es)).acks = s.node.axis.acks :=
      congrArg (·.acks) (start.axis_run es).symm
    rw [hacks] at hd
    rw [Site.completed_told, ← List.map_append, hd]
    rfl
  · intro before limit encoder quiet hes hquiet hlost
    have hup : ((start.run before).step (.tick limit encoder)).node.axis.status.has .ackDropped =
        true := by
      rw [Site.axis_step]
      exact (lost_step _ _).trans (by rw [hlost]; rfl)
    have hs : s = ((start.run before).step (.tick limit encoder)).run quiet := by
      simp only [s, hes, Site.run_append]
      rfl
    have hflag : t.link.status.has .ackDropped = true := by
      have h := Site.lost_run hup hquiet
      rw [← hs] at h
      exact h
    simp [ReportTask.due, ReportTask.lostDue, hflag]

/-- Eight moves of one tick each are executed and run to their end. -/
def runEight : List NodeEvent :=
  [executeFirst, .turn .staging] ++ List.replicate 8 (.turn .motion) ++
    List.replicate 10 (.tick false none)

/-- Sixteen moves end before the report task has its turn. The acknowledgement of the last one is
lost, so that a warning is due next to the completion of the first. -/
theorem retired_moves_are_handed_over_of_sixteen :
    let es := stageSlots [0, 1, 2, 3, 4, 5, 6, 7] ++ runEight ++ runEight
    let s := gantry.run es
    let t := s.node.reportTask
    (gantry.node.axis.ledger (gantry.axisEvents es)).ended.length = 16 ∧
      s.node.axis.acks.items.length = 15 ∧ ReportTask.fault .warning ∈ t.due ∧
      Hands t.host t.due t.outbox t.run.task.outbox t.run.events ∧
      t.due.map Reply.kind = [.errorMessage, .moveCompleted] := by
  intro es s t
  obtain ⟨-, -, hwarning, hhands, -⟩ := retired_moves_are_handed_over ⟨.gantryX, .host, 0⟩
    .tenMicrometresPerStep ({ link := {} } : ChipDriver RegisterFile)
    ({} : RecordingBus) es
  refine ⟨by decide +kernel, by decide +kernel, ?_, hhands, by decide +kernel⟩
  exact hwarning es.dropLast false none [] rfl List.not_mem_nil (by decide +kernel)

/-- With the outbox full the completion of a move is dropped: its acknowledgement is taken away, no
frame tells of it and no warning is due. -/
theorem completion_dropped_behind_heartbeats :
    let moved := stageSlots [0] ++ [executeFirst, .turn .staging, .turn .motion] ++
      List.replicate 3 (.tick false none)
    let s := gantry.run (moved ++ List.replicate 16 (.request .heartbeatRequest))
    let t := s.step (.turn .reports)
    (gantry.node.axis.ledger (gantry.axisEvents moved)).ended.length = 1 ∧
      s.node.axis.acks.items.length = 1 ∧ t.node.axis.acks.items = [] ∧
      t.node.outbox.items.map (·.reply) = List.replicate 16 .heartbeat ∧
      t.node.reportTask.due = [] := by
  refine ⟨?_, ?_, ?_, ?_, ?_⟩
  all_goals decide +kernel

end AxisNode
