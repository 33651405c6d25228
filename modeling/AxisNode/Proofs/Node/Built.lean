import AxisNode.Proofs.Node.Run

/-!
# What a node keeps from its build

Items come and go, but the address of a node and what its queues can hold are settled when it is
built. In every state of a run they are as they were at the start.
-/

namespace AxisNode

theorem Outbox.capacity_post (o : Outbox) (destination : NodeAddress) (r : Reply) :
    (o.post destination r).outbox.capacity = o.capacity := by
  unfold post
  cases h : o.push? (.make destination r) with
  | none => rfl
  | some q => exact (Queue.push?_eq_some_iff.mp h).2.2

/-! ## Tasks post to the outbox -/

namespace ReportTask

/-- A report leaves the outbox as it was unless it sends something, and never changes its depth. -/
structure Tells (t : ReportTask) (r : Reported) : Prop where
  capacity : r.task.outbox.capacity = t.outbox.capacity
  idle : r.sent = false → r.task.outbox = t.outbox

theorem tells_reportOverflow (t : ReportTask) : t.Tells t.reportOverflow := by
  unfold reportOverflow
  dsimp only
  split
  · exact ⟨Outbox.capacity_post _ _ _, nofun⟩
  · exact ⟨rfl, fun _ => rfl⟩

theorem tells_reportLost (t : ReportTask) : t.Tells t.reportLost := by
  unfold reportLost
  split
  · exact ⟨Outbox.capacity_post _ _ _, nofun⟩
  · exact ⟨rfl, fun _ => rfl⟩

theorem tells_reportAck (t : ReportTask) : t.Tells t.reportAck := by
  unfold reportAck
  split
  · exact ⟨rfl, fun _ => rfl⟩
  · exact ⟨Outbox.capacity_post _ _ _, nofun⟩

theorem tells_run (t : ReportTask) : t.Tells t.run := by
  have ho := t.tells_reportOverflow
  have hl := t.reportOverflow.task.tells_reportLost
  have ha := t.reportOverflow.task.reportLost.task.tells_reportAck
  refine ⟨ha.capacity.trans (hl.capacity.trans ho.capacity), fun hs => ?_⟩
  simp only [run, Bool.or_eq_false_iff] at hs
  exact (ha.idle hs.2).trans ((hl.idle hs.1.2).trans (ho.idle hs.1.1))

end ReportTask

theorem MotionTask.capacity_handle (c : MotionCommand) (t : MotionTask) :
    (t.handle c).1.outbox.capacity = t.outbox.capacity := by
  cases c with
  | request r =>
      cases r with
      | getConstraints => exact Outbox.capacity_post _ _ _
      | position => exact Outbox.capacity_post _ _ _
      | limitSwitch => exact Outbox.capacity_post _ _ _
      | _ => rfl
  | _ => rfl

theorem StagingTask.capacity_handle (r : GroupRequest) (t : StagingTask) :
    (t.handle r).1.outbox.capacity = t.outbox.capacity := by
  cases r with
  | stage m =>
      simp only [handle, stage]
      split <;> rfl
  | report group =>
      simp only [handle, report]
      split
      · rfl
      · exact Outbox.capacity_post _ _ _
  | clearAll => rfl
  | execute group start cancel =>
      simp only [handle, execute]
      split
      · rfl
      · next g _ =>
          obtain ⟨motion, h⟩ := exists_forwardAll g.moves t
          simp only [h]
  | stop =>
      simp only [handle, stop]
      split
      · rfl
      · split <;> rfl

theorem ChipTask.capacity_handle {τ : Type} [RegisterLink τ] (r : ChipRequest) (t : ChipTask τ) :
    (t.handle r).1.outbox.capacity = t.outbox.capacity := by
  cases r with
  | write address data =>
      simp only [handle, write]
      split <;> rfl
  | read address => exact Outbox.capacity_post _ _ _
  | setCurrents hold run =>
      simp only [handle, setCurrents]
      split <;> rfl

/-! ## Runs of the generator -/

namespace StepGenerator

theorem capacity_perform (d : TickAction) (g : StepGenerator) :
    (g.perform d).moves.capacity = g.moves.capacity := by
  cases d with
  | cancel => rfl
  | settle => rfl
  | load =>
      cases hq : g.moves.pop? with
      | none => simp only [perform, load_eq_of_none hq]
      | some p =>
          obtain ⟨m, moves⟩ := p
          rw [perform, moves_load hq]
          exact (Queue.pop?_eq_some_iff.mp hq).2
  | zero => exact congrArg Queue.capacity (moves_finish .stoppedByCondition g.atSwitch)
  | advance => exact congrArg Queue.capacity (moves_advance g)
  | finish reason => exact congrArg Queue.capacity (moves_finish reason g)

theorem capacity_receive (t : AckTray) (a : MoveAck) :
    (t.receive a).queue.capacity = t.queue.capacity := by
  unfold AckTray.receive
  cases hq : t.queue.push? a with
  | none => rfl
  | some q => exact (Queue.push?_eq_some_iff.mp hq).2.2

theorem capacity_foldl_receive (as : List MoveAck) (t : AckTray) :
    (as.foldl AckTray.receive t).queue.capacity = t.queue.capacity := by
  induction as generalizing t with
  | nil => rfl
  | cons a as ih => exact (ih _).trans (capacity_receive t a)

theorem capacity_react (e : AxisEvent) (g : StepGenerator) :
    (g.react e).moves.capacity = g.moves.capacity ∧
      (g.react e).acks.capacity = g.acks.capacity := by
  cases e with
  | enqueue m =>
      cases hq : g.moves.push? m with
      | none => simp [react, hq]
      | some q => simp [react, hq, (Queue.push?_eq_some_iff.mp hq).2.2]
  | takeAck =>
      cases hq : g.acks.pop? with
      | none => simp [react, hq]
      | some p => simp [react, hq, (Queue.pop?_eq_some_iff.mp hq).2]
  | _ => exact ⟨rfl, rfl⟩

/-- Neither queue of a generator changes its depth in a run. -/
theorem capacity_run (g : StepGenerator) (es : List AxisEvent) :
    (g.run es).moves.capacity = g.moves.capacity ∧
      (g.run es).acks.capacity = g.acks.capacity := by
  apply run_invariant (P := fun h : StepGenerator =>
    h.moves.capacity = g.moves.capacity ∧ h.acks.capacity = g.acks.capacity)
  · intro limit d h _ hh
    have hacks := congrArg (·.queue.capacity) (tray_perform d h)
    rw [capacity_foldl_receive] at hacks
    exact ⟨(capacity_perform d h).trans hh.1, hacks.trans hh.2⟩
  · intro h limit hh
    exact hh
  · intro h encoder hh
    exact hh
  · intro e h hh
    obtain ⟨hm, ha⟩ := capacity_react e h
    exact ⟨hm.trans hh.1, ha.trans hh.2⟩
  · exact ⟨rfl, rfl⟩

end StepGenerator

namespace Node

variable {τ : Type} {n n' : Node τ} {setup : NodeSetup} {d : Depths}

/-- A node has this setup and queues of these depths. -/
structure Built (setup : NodeSetup) (d : Depths) (n : Node τ) : Prop where
  setup : n.setup = setup
  groupRequests : n.groupRequests.capacity = d.requests
  motionCommands : n.motionCommands.capacity = d.requests
  chipRequests : n.chipRequests.capacity = d.requests
  outbox : n.outbox.capacity = d.outbox
  moves : n.axis.moves.capacity = d.moves
  acks : n.axis.acks.capacity = d.acks

theorem built_start (setup : NodeSetup) (controller : AxisController) (driver : ChipDriver τ) :
    (start setup controller driver).1.Built setup {} :=
  ⟨rfl, rfl, rfl, rfl, rfl, rfl, rfl⟩

theorem Built.of_run (hd : n.Built setup d) (es : List AxisEvent) (hs : n'.setup = n.setup)
    (ha : n'.axis = n.axis.run es) (hg : n'.groupRequests.capacity = n.groupRequests.capacity)
    (hm : n'.motionCommands.capacity = n.motionCommands.capacity)
    (hc : n'.chipRequests.capacity = n.chipRequests.capacity)
    (ho : n'.outbox.capacity = n.outbox.capacity) : n'.Built setup d := by
  obtain ⟨hmoves, hacks⟩ := n.axis.capacity_run es
  exact ⟨hs.trans hd.setup, hg.trans hd.groupRequests, hm.trans hd.motionCommands,
    hc.trans hd.chipRequests, ho.trans hd.outbox, (ha ▸ hmoves).trans hd.moves,
    (ha ▸ hacks).trans hd.acks⟩

theorem Built.post (hd : n.Built setup d) (r : Reply) : (n.post r).1.Built setup d :=
  ⟨hd.setup, hd.groupRequests, hd.motionCommands, hd.chipRequests,
    (Outbox.capacity_post _ _ _).trans hd.outbox, hd.moves, hd.acks⟩

theorem Built.handleFrame (hd : n.Built setup d) (id : FrameId) (payload : List UInt8) :
    (n.handleFrame id payload).1.Built setup d := by
  apply Route.deliver_keeps
  · intro l hl
    simp only [routes, Route.forNode, Route.all, List.foldr, Route.leaves, List.mem_append,
      List.mem_singleton, List.not_mem_nil, or_false] at hl
    obtain rfl | rfl | rfl | rfl := hl
    · apply Leaf.handling_keeps
      intro r n hn
      cases r with
      | heartbeat => exact hn.post .heartbeat
      | deviceInfo => exact hn.post (.deviceInfo n.setup.version)
    all_goals
      apply Leaf.queueing_keeps
      intro r n q hq hn
      have hcap := (Queue.push?_eq_some_iff.mp hq).2.2
    · exact ⟨hn.setup, hcap.trans hn.groupRequests, hn.motionCommands, hn.chipRequests, hn.outbox,
        hn.moves, hn.acks⟩
    · exact ⟨hn.setup, hn.groupRequests, hcap.trans hn.motionCommands, hn.chipRequests, hn.outbox,
        hn.moves, hn.acks⟩
    · exact ⟨hn.setup, hn.groupRequests, hn.motionCommands, hcap.trans hn.chipRequests, hn.outbox,
        hn.moves, hn.acks⟩
  · exact hd

theorem Built.runReports (hd : n.Built setup d) : n.runReports.node.Built setup d :=
  hd.of_run _ rfl (axis_runReports n) rfl rfl rfl n.reportTask.tells_run.capacity

theorem Built.runMotion (hd : n.Built setup d) : n.runMotion.node.Built setup d := by
  cases hq : n.motionCommands.pop? with
  | none => rwa [runMotion_of_none hq]
  | some p =>
      obtain ⟨c, q⟩ := p
      obtain ⟨haxis, hcommands, -, hgroup⟩ := axis_runMotion hq
      have hrun : n.runMotion.node.setup = n.setup ∧
          n.runMotion.node.chipRequests = n.chipRequests ∧
          n.runMotion.node.outbox = (n.motionTask.handle c).1.outbox := by
        simp [Node.runMotion, runMotionWithin, Queue.popWithin?, hq, setLink]
      apply hd.of_run _ hrun.1 haxis (congrArg Queue.capacity hgroup)
      · rw [hcommands]
        exact (Queue.pop?_eq_some_iff.mp hq).2
      · rw [hrun.2.1]
      · rw [hrun.2.2]
        exact MotionTask.capacity_handle c n.motionTask

theorem Built.runStaging (hd : n.Built setup d) (h0 : 0 < d.requests) :
    n.runStaging.node.Built setup d := by
  cases hq : n.groupRequests.pop? with
  | none => rwa [runStaging_of_none hq]
  | some p =>
      obtain ⟨r, q⟩ := p
      obtain ⟨haxis, -, hgroup, -, hcapacity, -⟩ :=
        runStaging_spec hq (hd.motionCommands.symm ▸ h0)
      apply hd.of_run [] (by rw [runStaging_of_some hq]) haxis
      · rw [hgroup]
        exact (Queue.pop?_eq_some_iff.mp hq).2
      · exact hcapacity
      · rw [runStaging_of_some hq]
      · rw [runStaging_of_some hq]
        exact StagingTask.capacity_handle r (n.stagingTask true)

theorem Built.runChip [RegisterLink τ] (hd : n.Built setup d) : n.runChip.node.Built setup d := by
  unfold Node.runChip runChipWithin Queue.popWithin?
  cases hq : n.chipRequests.pop? with
  | none => exact hd
  | some p =>
      obtain ⟨r, q⟩ := p
      have hcap := (Queue.pop?_eq_some_iff.mp hq).2
      exact ⟨hd.setup, hd.groupRequests, hd.motionCommands, hcap.trans hd.chipRequests,
        (ChipTask.capacity_handle r n.chipTask).trans hd.outbox, hd.moves, hd.acks⟩

theorem Built.runOutbox {β : Type} [FrameBus β] (hd : n.Built setup d) (bus : β) :
    (n.runOutbox bus).node.Built setup d := by
  refine ⟨hd.setup, hd.groupRequests, hd.motionCommands, hd.chipRequests,
    Eq.trans ?_ hd.outbox, hd.moves, hd.acks⟩
  unfold Node.runOutbox Outbox.sendNext
  cases hq : n.outbox.pop? with
  | none => rfl
  | some p =>
      have hcap := (Queue.pop?_eq_some_iff.mp hq).2
      dsimp only
      split <;> exact hcap

end Node

open Node in
/-- Neither the setup of a node nor the depth of a queue changes in a run. -/
theorem Site.built_run {τ β : Type} [RegisterLink τ] [FrameBus β] {s : Site τ β}
    {setup : NodeSetup} {d : Depths} (hd : s.node.Built setup d) (h0 : 0 < d.requests)
    (es : List NodeEvent) : (s.run es).node.Built setup d := by
  induction es generalizing s with
  | nil => exact hd
  | cons e es ih =>
      apply ih
      cases e with
      | frame id payload => exact hd.handleFrame id payload
      | tick limit encoder =>
          exact hd.of_run [.tick limit encoder] rfl rfl rfl rfl rfl rfl
      | turn task =>
          cases task with
          | reports => exact hd.runReports
          | motion => exact hd.runMotion
          | staging => exact hd.runStaging h0
          | chip => exact hd.runChip
          | outbox => exact hd.runOutbox s.bus

end AxisNode
