import AxisNode.Proofs.Node.Polling

/-!
# A node at rest

A poll that finds nothing to do leaves nothing behind: every queue of a task is empty and no flag
waits to be reported, so every later poll finds the node as this one left it. A node that only polls
comes to such a poll within the time in which its requests, what they forward and the replies are
handled one after another.
-/

namespace AxisNode

/-- A turn with nothing to report remembers whether the axis is halted. -/
theorem ReportTask.run_of_idle {t : ReportTask} (ha : t.link.acks.items = [])
    (hl : t.link.status.has .ackDropped = false)
    (ho : (t.link.status.has .overflow && !t.overflowReported) = false) :
    t.run = ⟨{ t with overflowReported := t.link.status.has .overflow }, false, []⟩ := by
  have hacks : t.link.acks.pop? = none := Queue.pop?_eq_none_iff.mpr ha
  simp [run, reportOverflow, ho, reportLost, hl, reportAck, hacks]

namespace Node

variable {τ β : Type} {n : Node τ}

/-- Nothing waits in any queue that a task reads. -/
structure Drained (n : Node τ) : Prop where
  groupRequests : n.groupRequests.items = []
  motionCommands : n.motionCommands.items = []
  chipRequests : n.chipRequests.items = []
  outbox : n.outbox.items = []
  acks : n.axis.acks.items = []

/-- The node as a poll without work leaves it. -/
def rested (n : Node τ) : Node τ := { n with overflowReported := n.axis.status.has .overflow }

theorem drained_of_atRest (h : n.work.AtRest) (ho : n.work.outbox = 0) : n.Drained where
  groupRequests := List.length_eq_zero_iff.mp h.groupRequests
  motionCommands := List.length_eq_zero_iff.mp h.motionCommands
  chipRequests := List.length_eq_zero_iff.mp h.chipRequests
  outbox := List.length_eq_zero_iff.mp ho
  acks := List.length_eq_zero_iff.mp h.acks

/-- The flag that a resting node has told needs no second report. -/
theorem unreported_rested (hu : n.work.unreported = false) :
    n.rested.work.unreported = false := by
  have hl := (Bool.or_eq_false_iff.mp hu).1
  simp only [work, rested, hl, Bool.false_or]
  exact Bool.and_not_self _

theorem runReports_of_idle (ha : n.axis.acks.items = []) (hu : n.work.unreported = false) :
    n.runReports = ⟨n.rested, false, []⟩ := by
  obtain ⟨hl, ho⟩ := Bool.or_eq_false_iff.mp hu
  have hrun := ReportTask.run_of_idle (t := n.reportTask) ha hl ho
  simp only [runReports, hrun]
  rfl

theorem runChip_of_none [RegisterLink τ] (h : n.chipRequests.pop? = none) :
    n.runChip = ⟨n, false, []⟩ := by
  simp [runChip, runChipWithin, Queue.popWithin?, h]

theorem runOutbox_of_none [FrameBus β] (h : n.outbox.pop? = none) (bus : β) :
    n.runOutbox bus = ⟨n, bus, false, []⟩ := by
  simp [runOutbox, Outbox.sendNext, h]

variable [RegisterLink τ] [FrameBus β]

/-- A poll of a node without work sends nothing, logs nothing and keeps every queue. -/
theorem poll_of_drained (hd : n.Drained) (hu : n.work.unreported = false) (bus : β) :
    n.poll bus = ⟨n.rested, bus, false, []⟩ := by
  have hmotion : n.rested.motionCommands.pop? = none :=
    Queue.pop?_eq_none_iff.mpr hd.motionCommands
  have hgroup : n.rested.groupRequests.pop? = none := Queue.pop?_eq_none_iff.mpr hd.groupRequests
  have hchip : n.rested.chipRequests.pop? = none := Queue.pop?_eq_none_iff.mpr hd.chipRequests
  have houtbox : n.rested.outbox.pop? = none := Queue.pop?_eq_none_iff.mpr hd.outbox
  simp only [poll, runReports_of_idle hd.acks hu, runMotion_of_none hmotion,
    runStaging_of_none hgroup, runChip_of_none hchip, runOutbox_of_none houtbox]
  rfl

theorem poll_of_idle {bus : β} (h : (n.poll bus).ran = false) :
    n.Drained ∧ n.work.unreported = false ∧ n.poll bus = ⟨n.rested, bus, false, []⟩ := by
  obtain ⟨_, _, _, _, _, hrest⟩ := n.work_poll bus
  obtain ⟨hatRest, houtbox⟩ := hrest.mp h
  have hd := drained_of_atRest hatRest houtbox
  exact ⟨hd, hatRest.reported, poll_of_drained hd hatRest.reported bus⟩

/-- A poll after one that found nothing to do changes nothing at all. -/
theorem poll_rested {bus : β} (h : (n.poll bus).ran = false) :
    n.rested.poll bus = ⟨n.rested, bus, false, []⟩ := by
  obtain ⟨hd, hu, -⟩ := poll_of_idle h
  have hd' : n.rested.Drained :=
    ⟨hd.groupRequests, hd.motionCommands, hd.chipRequests, hd.outbox, hd.acks⟩
  exact poll_of_drained hd' (unreported_rested hu) bus

end Node

namespace Site

variable {τ β : Type} [RegisterLink τ] [FrameBus β] {s : Site τ β}

theorem poll_of_idle (h : s.busy = false) : s.poll = ⟨s.node.rested, s.bus⟩ := by
  rw [poll, run_poll, (Node.poll_of_idle h).2.2]

/-- Once a poll has found nothing to do, all later ones leave the site as it is. -/
theorem polls_of_idle {k : Nat} (h : (s.polls k).busy = false) (i : Nat) :
    s.polls (k + 1 + i) = ⟨(s.polls k).node.rested, (s.polls k).bus⟩ := by
  induction i with
  | zero => exact poll_of_idle h
  | succ i ih =>
      calc s.polls (k + 1 + (i + 1))
          = (s.polls (k + 1 + i)).poll := rfl
        _ = Site.poll ⟨(s.polls k).node.rested, (s.polls k).bus⟩ := by rw [ih]
        _ = ⟨(s.polls k).node.rested, (s.polls k).bus⟩ := by
            rw [poll, run_poll, Node.poll_rested h]

/-- The polls until a node is at rest: as many as empty the queues of requests one into the other,
and then the outbox. -/
theorem exists_first_idle_le {setup : NodeSetup} {d : Depths} (hd : s.node.Built setup d)
    (h0 : 0 < d.requests) (ha : d.acks ≤ 2 * d.requests) :
    ∃ k ≤ 2 * d.requests + d.outbox,
      (∀ j < k, (s.polls j).busy = true) ∧ (s.polls k).busy = false := by
  obtain ⟨k, hbusy, hidle⟩ := exists_first_idle hd h0
  refine ⟨k, ?_, hbusy, hidle⟩
  have hgroup : s.node.work.groupRequests ≤ d.requests :=
    hd.groupRequests ▸ s.node.groupRequests.length_le
  have hchip : s.node.work.chipRequests ≤ d.requests :=
    hd.chipRequests ▸ s.node.chipRequests.length_le
  have hacks : s.node.work.acks ≤ d.acks := hd.acks ▸ s.node.axis.acks.length_le
  have hlast : (s.polls (2 * d.requests + d.outbox)).busy = false :=
    busy_polls hd h0 (by omega) (by omega) (by omega) (by omega)
  by_contra hlt
  have hstill := hbusy _ (Nat.lt_of_not_le hlt)
  rw [hlast] at hstill
  exact Bool.false_ne_true hstill

/-- Whatever has happened to a node and whatever its bus and the link to its chip answer, a node
that only polls from then on finds something to do at most 36 times in a row. Once a poll finds
nothing to do, every queue of a task is empty, and all later polls find nothing to do, log nothing
and leave node and bus as they are. -/
theorem polls_come_to_rest (setup : NodeSetup) (controller : AxisController)
    (driver : ChipDriver τ) (bus : β) (es : List NodeEvent) :
    let start : Site τ β := ⟨(Node.start setup controller driver).1, bus⟩
    let s := start.run es
    (∃ k ≤ 36, (∀ j < k, (s.polls j).busy = true) ∧ (s.polls k).busy = false) ∧
      ∀ k, (s.polls k).busy = false →
        let t := s.polls (k + 1)
        t.node.Drained ∧ t.node.poll t.bus = ⟨t.node, t.bus, false, []⟩ ∧
          ∀ j, k < j → s.polls j = t := by
  intro start s
  have hd : s.node.Built setup {} :=
    built_run (Node.built_start setup controller driver) (by decide) es
  refine ⟨exists_first_idle_le hd (by decide) (by decide), fun k hidle => ?_⟩
  have hrest := polls_of_idle hidle
  have hnext : s.polls (k + 1) = ⟨(s.polls k).node.rested, (s.polls k).bus⟩ := hrest 0
  obtain ⟨hdrained, -, -⟩ := Node.poll_of_idle hidle
  rw [hnext]
  refine ⟨?_, Node.poll_rested hidle, fun j hj => ?_⟩
  · exact ⟨hdrained.groupRequests, hdrained.motionCommands, hdrained.chipRequests,
      hdrained.outbox, hdrained.acks⟩
  · obtain ⟨i, rfl⟩ := Nat.exists_eq_add_of_lt hj
    rw [Nat.add_right_comm]
    exact hrest i

end Site

end AxisNode
