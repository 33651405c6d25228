import AxisNode.Proofs.Node.Built
import Mathlib.Data.Nat.Find

/-!
# Polling until nothing is left

Each turn of a task takes at most one item from its queue, and what it puts on other queues is
handled by a task that gets its turn sooner or later. So a node that only polls runs dry: first the
requests to the move groups, then the commands to the axis controller, and at last the outbox.

## Implementation notes

Of a node only the numbers of waiting items matter here; `Node.work` collects them.
-/

namespace AxisNode

/-! ## The report task -/

namespace ReportTask

theorem reportOverflow_spec (t : ReportTask) :
    t.reportOverflow.sent = (t.link.status.has .overflow && !t.overflowReported) ∧
      t.reportOverflow.task.overflowReported = t.link.status.has .overflow := by
  unfold reportOverflow
  cases ho : t.link.status.has .overflow <;> cases t.overflowReported <;> exact ⟨rfl, rfl⟩

theorem reportLost_spec (t : ReportTask) :
    t.reportLost.sent = t.link.status.has .ackDropped ∧
      t.reportLost.task.overflowReported = t.overflowReported := by
  unfold reportLost
  cases ho : t.link.status.has .ackDropped <;> exact ⟨rfl, rfl⟩

theorem reportAck_spec (t : ReportTask) :
    t.reportAck.sent = decide (0 < t.link.acks.items.length) ∧
      t.reportAck.task.overflowReported = t.overflowReported := by
  unfold reportAck
  cases hq : t.link.acks.pop? with
  | none => simp [Queue.pop?_eq_none_iff.mp hq]
  | some p =>
      have hitems := (Queue.pop?_eq_some_iff.mp hq).1
      exact ⟨by simp [hitems], rfl⟩

theorem link_lost (t : ReportTask) :
    t.reportLost.task.link.acks = t.link.acks ∧
      t.reportLost.task.link.status.has .ackDropped = false ∧
      t.reportLost.task.link.status.has .overflow = t.link.status.has .overflow := by
  rw [Node.link_reportLost]
  cases ha : t.link.status.has .ackDropped <;> simp [ha]

theorem link_acked (t : ReportTask) :
    t.reportAck.task.link.acks.items.length = t.link.acks.items.length - 1 ∧
      t.reportAck.task.link.status = t.link.status := by
  rw [Node.link_reportAck]
  cases hq : t.link.acks.pop? with
  | none => simp [Queue.pop?_eq_none_iff.mp hq]
  | some p => exact ⟨Queue.length_pop? hq, rfl⟩

/-- A turn reports what the flags and the acknowledgements ask for, and leaves no flag to report. -/
theorem run_spec (t : ReportTask) :
    t.run.sent = (decide (0 < t.link.acks.items.length) || (t.link.status.has .ackDropped ||
        (t.link.status.has .overflow && !t.overflowReported))) ∧
      t.run.task.link.acks.items.length = t.link.acks.items.length - 1 ∧
      t.run.task.link.status.has .ackDropped = false ∧
      t.run.task.overflowReported = t.run.task.link.status.has .overflow := by
  obtain ⟨hsent, hreported⟩ := t.reportOverflow_spec
  have hlink : t.reportOverflow.task.link = t.link := Node.link_reportOverflow t
  obtain ⟨hsent', hreported'⟩ := t.reportOverflow.task.reportLost_spec
  obtain ⟨hacks', hlost', hoverflow'⟩ := t.reportOverflow.task.link_lost
  obtain ⟨hsent'', hreported''⟩ := t.reportOverflow.task.reportLost.task.reportAck_spec
  obtain ⟨hacks'', hstatus''⟩ := t.reportOverflow.task.reportLost.task.link_acked
  rw [hlink] at hsent' hacks' hoverflow'
  rw [hacks'] at hsent'' hacks''
  refine ⟨?_, hacks'', ?_, ?_⟩
  · simp only [run, hsent, hsent', hsent'']
    cases t.link.status.has .ackDropped <;>
      cases decide (0 < t.link.acks.items.length) <;> simp
  · exact (congrArg (·.has .ackDropped) hstatus'').trans hlost'
  · calc t.run.task.overflowReported
        = t.link.status.has .overflow := hreported''.trans (hreported'.trans hreported)
      _ = t.run.task.link.status.has .overflow :=
          ((congrArg (·.has .overflow) hstatus'').trans hoverflow').symm

end ReportTask

/-! ## One turn of each task -/

/-- How many items wait in each queue of a node, and whether a flag waits to be reported. -/
structure Work where
  groupRequests : Nat
  motionCommands : Nat
  chipRequests : Nat
  acks : Nat
  outbox : Nat
  unreported : Bool
deriving DecidableEq, Repr

namespace Node

variable {τ : Type} {n : Node τ}

/-- What is left to do in a node. -/
def work (n : Node τ) : Work where
  groupRequests := n.groupRequests.items.length
  motionCommands := n.motionCommands.items.length
  chipRequests := n.chipRequests.items.length
  acks := n.axis.acks.items.length
  outbox := n.outbox.items.length
  unreported := n.axis.status.has .ackDropped ||
    (n.axis.status.has .overflow && !n.overflowReported)

/-- A turn of the report task takes an acknowledgement and leaves no flag to report. -/
theorem work_runReports (n : Node τ) :
    n.runReports.ran = (decide (0 < n.work.acks) || n.work.unreported) ∧
      ∃ o, n.runReports.node.work =
          { n.work with acks := n.work.acks - 1, unreported := false, outbox := o } ∧
        (n.runReports.ran = false → o = n.work.outbox) := by
  obtain ⟨hsent, hacks, hlost, hreported⟩ := n.reportTask.run_spec
  have hunreported : n.runReports.node.work.unreported = false := by
    simp only [work, runReports, setLink, hlost, hreported, Bool.false_or]
    exact Bool.and_not_self _
  have hacks' : n.runReports.node.work.acks = n.work.acks - 1 := hacks
  refine ⟨hsent, n.runReports.node.work.outbox, ?_, fun hs => ?_⟩
  · rw [← hunreported, ← hacks']
    rfl
  · exact congrArg (fun o : Outbox => o.items.length) (n.reportTask.tells_run.idle hs)

theorem link_motion (t : MotionTask) (c : MotionCommand) :
    (t.handle c).1.link.acks = t.link.acks ∧
      (t.handle c).1.link.status.has .ackDropped = t.link.status.has .ackDropped ∧
      (t.handle c).1.link.status.has .overflow = t.link.status.has .overflow := by
  cases c with
  | request r =>
      cases r with
      | disable => simp [MotionTask.handle, MotionTask.handleRequest, AxisController.disable]
      | _ => exact ⟨rfl, rfl, rfl⟩
  | move m =>
      simp only [MotionTask.handle, AxisController.queueMove, AxisController.push]
      split
      · split <;> exact ⟨rfl, rfl, rfl⟩
      · exact ⟨rfl, rfl, rfl⟩
  | stop => exact ⟨rfl, rfl, rfl⟩

theorem work_runMotion (n : Node τ) :
    n.runMotion.ran = decide (0 < n.work.motionCommands) ∧
      ∃ o, n.runMotion.node.work =
          { n.work with motionCommands := n.work.motionCommands - 1, outbox := o } ∧
        (n.runMotion.ran = false → o = n.work.outbox) := by
  cases hq : n.motionCommands.pop? with
  | none =>
      have hi := Queue.pop?_eq_none_iff.mp hq
      rw [runMotion_of_none hq]
      exact ⟨by simp [work, hi], n.work.outbox, by simp [work, hi], fun _ => rfl⟩
  | some p =>
      obtain ⟨c, q⟩ := p
      obtain ⟨hacks, hlost, hoverflow⟩ := link_motion n.motionTask c
      have hi := (Queue.pop?_eq_some_iff.mp hq).1
      have hrun : n.runMotion = ⟨setLink (n.motionTask.handle c).1.link
          { n with
            motionCommands := q
            controller := (n.motionTask.handle c).1.controller
            outbox := (n.motionTask.handle c).1.outbox }, true, (n.motionTask.handle c).2⟩ := by
        simp [runMotion, runMotionWithin, Queue.popWithin?, hq]
      rw [hrun]
      refine ⟨by simp [work, hi], (n.motionTask.handle c).1.outbox.items.length, ?_, by simp⟩
      simp only [work, setLink, hacks, hlost, hoverflow, ← Queue.length_pop? hq]
      rfl

/-- A turn of the staging task may fill the queue to the axis controller. -/
theorem work_runStaging (n : Node τ) :
    n.runStaging.ran = decide (0 < n.work.groupRequests) ∧
      ∃ m o, n.runStaging.node.work =
          { n.work with
            groupRequests := n.work.groupRequests - 1
            motionCommands := m
            outbox := o } ∧
        (n.runStaging.ran = false → m = n.work.motionCommands ∧ o = n.work.outbox) := by
  cases hq : n.groupRequests.pop? with
  | none =>
      have hi := Queue.pop?_eq_none_iff.mp hq
      rw [runStaging_of_none hq]
      exact ⟨by simp [work, hi], n.work.motionCommands, n.work.outbox, by simp [work, hi],
        fun _ => ⟨rfl, rfl⟩⟩
  | some p =>
      obtain ⟨r, q⟩ := p
      have hi := (Queue.pop?_eq_some_iff.mp hq).1
      have hran : n.runStaging.ran = true := by
        simp [runStaging, runStagingWithin, Queue.popWithin?, hq]
      refine ⟨by simp [hran, work, hi], n.runStaging.node.work.motionCommands,
        n.runStaging.node.work.outbox, ?_, fun h => absurd hran (by simp [h])⟩
      rw [runStaging_of_some hq]
      simp only [work, ← Queue.length_pop? hq]

theorem work_runChip [RegisterLink τ] (n : Node τ) :
    n.runChip.ran = decide (0 < n.work.chipRequests) ∧
      ∃ o, n.runChip.node.work =
          { n.work with chipRequests := n.work.chipRequests - 1, outbox := o } ∧
        (n.runChip.ran = false → o = n.work.outbox) := by
  unfold runChip runChipWithin Queue.popWithin?
  cases hq : n.chipRequests.pop? with
  | none =>
      have hi := Queue.pop?_eq_none_iff.mp hq
      exact ⟨by simp [work, hi], n.work.outbox, by simp [work, hi], fun _ => rfl⟩
  | some p =>
      obtain ⟨r, q⟩ := p
      have hi := (Queue.pop?_eq_some_iff.mp hq).1
      refine ⟨by simp [work, hi], (n.chipTask.handle r).1.outbox.items.length, ?_, nofun⟩
      simp only [work, ← Queue.length_pop? hq]
      rfl

theorem work_runOutbox {β : Type} [FrameBus β] (n : Node τ) (bus : β) :
    (n.runOutbox bus).ran = decide (0 < n.work.outbox) ∧
      (n.runOutbox bus).node.work = { n.work with outbox := n.work.outbox - 1 } := by
  unfold runOutbox Outbox.sendNext
  cases hq : n.outbox.pop? with
  | none => simp [work, Queue.pop?_eq_none_iff.mp hq]
  | some p =>
      have hi := (Queue.pop?_eq_some_iff.mp hq).1
      dsimp only
      split <;> simp [work, hi]

end Node

/-! ## A poll -/

/-- Only the outbox may have something left. -/
structure Work.AtRest (w : Work) : Prop where
  groupRequests : w.groupRequests = 0
  motionCommands : w.motionCommands = 0
  chipRequests : w.chipRequests = 0
  acks : w.acks = 0
  reported : w.unreported = false

namespace Node

variable {τ β : Type} [RegisterLink τ] [FrameBus β]

/-- A poll takes one item from every queue, but a request to the move groups may refill the queue to
the axis controller, and any task may put a reply into the outbox. -/
theorem work_poll (n : Node τ) (bus : β) :
    ∃ m o, (n.poll bus).node.work =
        ⟨n.work.groupRequests - 1, m, n.work.chipRequests - 1, n.work.acks - 1, o - 1, false⟩ ∧
      (n.work.groupRequests = 0 → m = n.work.motionCommands - 1) ∧
      (n.work.AtRest → o = n.work.outbox) ∧
      ((n.poll bus).ran = false ↔ n.work.AtRest ∧ n.work.outbox = 0) := by
  obtain ⟨hran₁, o₁, hwork₁, hidle₁⟩ := n.work_runReports
  obtain ⟨hran₂, o₂, hwork₂, hidle₂⟩ := n.runReports.node.work_runMotion
  rw [hwork₁] at hran₂ hwork₂ hidle₂
  obtain ⟨hran₃, m, o₃, hwork₃, hidle₃⟩ := n.runReports.node.runMotion.node.work_runStaging
  rw [hwork₂] at hran₃ hwork₃ hidle₃
  obtain ⟨hran₄, o₄, hwork₄, hidle₄⟩ :=
    n.runReports.node.runMotion.node.runStaging.node.work_runChip
  rw [hwork₃] at hran₄ hwork₄ hidle₄
  obtain ⟨hran₅, hwork₅⟩ :=
    n.runReports.node.runMotion.node.runStaging.node.runChip.node.work_runOutbox bus
  rw [hwork₄] at hran₅ hwork₅
  have hrest : n.work.AtRest → o₄ = n.work.outbox := by
    intro h
    rw [hidle₄ (by simp [hran₄, h.chipRequests]),
      (hidle₃ (by simp [hran₃, h.groupRequests])).2,
      hidle₂ (by simp [hran₂, h.motionCommands]),
      hidle₁ (by simp [hran₁, h.acks, h.reported])]
  refine ⟨m, o₄, hwork₅, fun h => (hidle₃ (by simp [hran₃, h])).1, hrest, ?_⟩
  have hran : (n.poll bus).ran = (n.runReports.ran || n.runReports.node.runMotion.ran ||
      n.runReports.node.runMotion.node.runStaging.ran ||
      n.runReports.node.runMotion.node.runStaging.node.runChip.ran ||
      (n.runReports.node.runMotion.node.runStaging.node.runChip.node.runOutbox bus).ran) := rfl
  rw [hran, hran₁, hran₂, hran₃, hran₄, hran₅]
  simp only [Bool.or_eq_false_iff, decide_eq_false_iff_not, Nat.not_lt, Nat.le_zero]
  constructor
  · rintro ⟨⟨⟨⟨⟨hacks, hreported⟩, hmotion⟩, hgroup⟩, hchip⟩, ho⟩
    have h : n.work.AtRest := ⟨hgroup, hmotion, hchip, hacks, hreported⟩
    exact ⟨h, (hrest h).symm.trans ho⟩
  · rintro ⟨h, ho⟩
    exact ⟨⟨⟨⟨⟨h.acks, h.reported⟩, h.motionCommands⟩, h.groupRequests⟩, h.chipRequests⟩,
      (hrest h).trans ho⟩

end Node

/-! ## Polls one after another -/

/-- A number that is counted down from some point on reaches zero. -/
theorem countdown {f : Nat → Nat} {a : Nat} (h : ∀ i, a ≤ i → f (i + 1) = f i - 1) (i : Nat) :
    f (a + i) = f a - i := by
  induction i with
  | zero => rfl
  | succ i ih =>
      rw [← Nat.add_assoc, h (a + i) (Nat.le_add_right a i), ih]
      omega

namespace Site

variable {τ β : Type} [RegisterLink τ] [FrameBus β] {s : Site τ β} {setup : NodeSetup}
  {d : Depths}

/-- One poll of the node. -/
def poll (s : Site τ β) : Site τ β := s.run NodeEvent.poll

/-- Whether a poll finds anything to do. -/
def busy (s : Site τ β) : Bool := (s.node.poll s.bus).ran

/-- The site after a number of polls with nothing between them. -/
def polls (s : Site τ β) : Nat → Site τ β
  | 0 => s
  | k + 1 => (polls s k).poll

/-- One more poll takes one item from every queue. -/
theorem work_polls (s : Site τ β) (k : Nat) :
    let w := (s.polls k).node.work
    ∃ m o, (s.polls (k + 1)).node.work =
        ⟨w.groupRequests - 1, m, w.chipRequests - 1, w.acks - 1, o - 1, false⟩ ∧
      (w.groupRequests = 0 → m = w.motionCommands - 1) ∧ (w.AtRest → o = w.outbox) ∧
      ((s.polls k).busy = false ↔ w.AtRest ∧ w.outbox = 0) := by
  have hpoll : (s.polls (k + 1)).node = ((s.polls k).node.poll (s.polls k).bus).node :=
    congrArg Site.node (run_poll (s.polls k))
  rw [hpoll]
  exact (s.polls k).node.work_poll (s.polls k).bus

theorem built_polls (hd : s.node.Built setup d) (h0 : 0 < d.requests) (k : Nat) :
    (s.polls k).node.Built setup d := by
  induction k with
  | zero => exact hd
  | succ k ih => exact built_run ih h0 NodeEvent.poll

/-- Each poll takes one request from every queue of requests and one acknowledgement. -/
theorem requests_polls (s : Site τ β) (k : Nat) :
    (s.polls k).node.work.groupRequests = s.node.work.groupRequests - k ∧
      (s.polls k).node.work.chipRequests = s.node.work.chipRequests - k ∧
      (s.polls k).node.work.acks = s.node.work.acks - k := by
  induction k with
  | zero => exact ⟨rfl, rfl, rfl⟩
  | succ k ih =>
      obtain ⟨m, o, hw, -⟩ := s.work_polls k
      rw [hw]
      dsimp only
      omega

/-- Once the requests to the move groups are handled, each poll takes a command. -/
theorem motionCommands_polls (s : Site τ β) (k : Nat) :
    (s.polls (s.node.work.groupRequests + k)).node.work.motionCommands =
      (s.polls s.node.work.groupRequests).node.work.motionCommands - k := by
  apply countdown (f := fun i => (s.polls i).node.work.motionCommands)
  intro i hi
  obtain ⟨m, o, hw, hm, -⟩ := s.work_polls i
  obtain ⟨hg, -, -⟩ := s.requests_polls i
  rw [← hm (by omega)]
  exact congrArg Work.motionCommands hw

/-- After enough polls only the outbox has something left. -/
theorem atRest_polls (hd : s.node.Built setup d) (h0 : 0 < d.requests) {k : Nat}
    (hg : s.node.work.groupRequests + d.requests ≤ k) (hc : s.node.work.chipRequests ≤ k)
    (ha : s.node.work.acks ≤ k) (hk : 0 < k) : (s.polls k).node.work.AtRest := by
  obtain ⟨hgroup, hchip, hacks⟩ := s.requests_polls k
  obtain ⟨j, rfl⟩ : ∃ j, k = j + 1 := ⟨k - 1, by omega⟩
  obtain ⟨m, o, hw, -⟩ := s.work_polls j
  have hreported : (s.polls (j + 1)).node.work.unreported = false := congrArg Work.unreported hw
  have hbound : (s.polls s.node.work.groupRequests).node.work.motionCommands ≤ d.requests := by
    rw [← (built_polls hd h0 s.node.work.groupRequests).motionCommands]
    exact (s.polls s.node.work.groupRequests).node.motionCommands.length_le
  have hmotion := s.motionCommands_polls (j + 1 - s.node.work.groupRequests)
  rw [Nat.add_sub_cancel' (by omega)] at hmotion
  exact ⟨by omega, by omega, by omega, by omega, hreported⟩

/-- After enough polls nothing is left to do. -/
theorem busy_polls (hd : s.node.Built setup d) (h0 : 0 < d.requests) {k : Nat}
    (hg : s.node.work.groupRequests + d.requests ≤ k) (hc : s.node.work.chipRequests ≤ k)
    (ha : s.node.work.acks ≤ k) (hk : 0 < k) : (s.polls (k + d.outbox)).busy = false := by
  have hrest : ∀ i, k ≤ i → (s.polls i).node.work.AtRest := fun i hi =>
    atRest_polls hd h0 (by omega) (by omega) (by omega) (by omega)
  have houtbox : (s.polls (k + d.outbox)).node.work.outbox =
      (s.polls k).node.work.outbox - d.outbox := by
    apply countdown (f := fun i => (s.polls i).node.work.outbox)
    intro i hi
    obtain ⟨m, o, hw, -, ho, -⟩ := s.work_polls i
    rw [← ho (hrest i hi)]
    exact congrArg Work.outbox hw
  have hbound : (s.polls k).node.work.outbox ≤ d.outbox := by
    rw [← (built_polls hd h0 k).outbox]
    exact (s.polls k).node.outbox.length_le
  obtain ⟨m, o, -, -, -, hbusy⟩ := s.work_polls (k + d.outbox)
  exact hbusy.mpr ⟨hrest _ (Nat.le_add_right k d.outbox), by omega⟩

/-- A node that only polls has nothing left to do at some point. -/
theorem exists_first_idle (hd : s.node.Built setup d) (h0 : 0 < d.requests) :
    ∃ k, (∀ j < k, (s.polls j).busy = true) ∧ (s.polls k).busy = false := by
  have hidle : ∃ k, (s.polls k).busy = false := by
    refine ⟨_, busy_polls (k := s.node.work.groupRequests + d.requests +
      s.node.work.chipRequests + s.node.work.acks) hd h0 ?_ ?_ ?_ ?_⟩
    all_goals omega
  refine ⟨Nat.find hidle, fun j hj => ?_, Nat.find_spec hidle⟩
  simpa using Nat.find_min hidle hj

end Site

end AxisNode
