import AxisNode.Bus.Recording
import AxisNode.Proofs.Message
import AxisNode.Proofs.Node.Delivery
import AxisNode.Proofs.Node.Polling

/-!
# An executed group reaches the step generator

A request to execute a group is queued, the staging task sends the moves of the group on to the
axis controller, and the controller passes them on to the step generator, one in each poll. The
queue to the controller takes ten moves at once and a group may hold twelve, so the moves behind the
tenth are dropped; the first ten arrive, converted and in the order of their slots.
-/

namespace AxisNode

/-! ## The request arrives -/

theorem GroupRequest.kind_mem (r : GroupRequest) :
    r.toMessage.kind ∈ Family.group.members := by
  cases r with
  | stage m => cases m <;> exact List.mem_of_elem_eq_true rfl
  | _ => exact List.mem_of_elem_eq_true rfl

/-- No kind of request to the move groups belongs to another family of the node. -/
theorem Family.group_disjoint : ∀ k ∈ group.members,
    k ∉ system.members ∧ k ∉ motion.members ∧ k ∉ chip.members := by
  decide

namespace AxisController

variable {c : AxisController} {m : StagedMove} {move : Move}

/-- Conversion depends on the scale and the constraints alone. -/
theorem convert?_congr {c' : AxisController} (hs : c'.scale = c.scale)
    (hc : c'.constraints = c.constraints) : c'.convert? = c.convert? := by
  funext m
  cases m <;> simp [convert?, hs, hc]

theorem convert?_queueMove (c : AxisController) (link : MoveLink) (m : StagedMove) :
    (c.queueMove link m).controller.convert? = c.convert? := by
  have hpush : ∀ move, (c.push link move).controller.scale = c.scale ∧
      (c.push link move).controller.constraints = c.constraints := by
    intro move
    cases he : c.enabled <;> cases hq : link.moves.push? move <;> simp [push, enable, he, hq]
  unfold queueMove
  cases c.convert? m with
  | none => rfl
  | some move => exact convert?_congr (hpush move).1 (hpush move).2

theorem seq_of_convert? (h : c.convert? m = some move) : move.seq = m.seq := by
  cases m <;> simp [convert?, bind, Option.bind_eq_some_iff] at h <;> grind [StagedMove.seq]

theorem map_seq_of_convert? {moves : List Move} {staged : List StagedMove}
    (h : moves.map some = staged.map c.convert?) :
    moves.map (·.seq) = staged.map StagedMove.seq := by
  induction staged generalizing moves with
  | nil => simpa using h
  | cons m staged ih =>
      obtain ⟨move, moves, rfl, hmove, hrest⟩ := List.map_eq_cons_iff.mp h
      rw [List.map_cons, List.map_cons, ih hrest, seq_of_convert? hmove.symm]

/-- Conversion keeps moves in the order of their slots. -/
theorem pairwise_seq_of_convert? {moves : List Move} {staged : List StagedMove}
    (h : moves.map some = staged.map c.convert?)
    (hs : staged.Pairwise fun a b => a.seq < b.seq) :
    moves.Pairwise fun a b => a.seq < b.seq := by
  have hstaged : (staged.map StagedMove.seq).Pairwise (· < ·) := hs.map _ fun _ _ h => h
  rw [← map_seq_of_convert? h] at hstaged
  exact List.pairwise_map.mp hstaged

end AxisController

namespace Node

variable {τ β : Type} {n n' : Node τ} {group : UInt8} {moves : List Move}

/-- A request to the move groups is queued if there is room. -/
theorem handleFrame_group (r : GroupRequest) {target : NodeAddress} (function : FunctionCode)
    {payload : List UInt8} (ht : n.setup.node.accepts target.code = true)
    (hp : Family.group.parse? r.toMessage.kind payload = some r) {q : Queue GroupRequest}
    (hq : n.groupRequests.push? r = some q) :
    (n.handleFrame (.make target r.toMessage.kind function) payload).1 =
      { n with groupRequests := q } := by
  have hgroup := r.kind_mem
  obtain ⟨hsystem, hmotion, hchip⟩ := Family.group_disjoint _ hgroup
  simp [handleFrame, routes, Route.forNode, Route.all, Route.deliver, Route.accepts, ht,
    Leaf.queueing, Leaf.reading, Leaf.handling, hgroup, hsystem, hmotion, hchip, hp, hq]

/-! ## The moves on their way -/

/-- Nothing but a request to execute a group waits, and these are the moves it comes to. -/
structure Requested (n : Node τ) (moves : List Move) : Prop where
  request : ∃ group start cancel g, n.groupRequests.items = [.execute group start cancel] ∧
    n.table.group? group = some g ∧
    moves.map some = (g.moves.take n.motionCommands.capacity).map n.controller.convert?
  motionCommands : n.motionCommands.items = []
  axis : n.axis.moves.items = []
  capacity : 0 < n.motionCommands.capacity
  room : moves.length ≤ n.axis.moves.capacity

/-- Some of the moves have reached the step generator, and the others wait for the controller. -/
structure Forwarded (n : Node τ) (moves : List Move) : Prop where
  groupRequests : n.groupRequests.items = []
  pending : ∃ (staged : List StagedMove) (rest : List Move),
    n.motionCommands.items = staged.map .move ∧
    rest.map some = staged.map n.controller.convert? ∧ n.axis.moves.items ++ rest = moves
  room : moves.length ≤ n.axis.moves.capacity

theorem Requested.of_sameWork (hr : n.Requested moves) (hw : n.SameWork n') :
    n'.Requested moves := by
  obtain ⟨hrequest, hcommands, haxis, hcapacity, hroom⟩ := hr
  constructor
  · rw [hw.groupRequests, hw.table, hw.motionCommands, hw.controller]
    exact hrequest
  · rw [hw.motionCommands]
    exact hcommands
  · rw [hw.moves]
    exact haxis
  · rw [hw.motionCommands]
    exact hcapacity
  · rw [hw.moves]
    exact hroom

theorem Forwarded.of_sameWork (hf : n.Forwarded moves) (hw : n.SameWork n') :
    n'.Forwarded moves := by
  obtain ⟨hgroup, hpending, hroom⟩ := hf
  constructor
  · rw [hw.groupRequests]
    exact hgroup
  · rw [hw.motionCommands, hw.controller, hw.moves]
    exact hpending
  · rw [hw.moves]
    exact hroom

/-- The staging task sends the moves on as far as the queue has room. -/
theorem Requested.runStaging (hr : n.Requested moves) : n.runStaging.node.Forwarded moves := by
  obtain ⟨⟨group, start, cancel, g, hitems, hg, hmoves⟩, hcommands, haxis, hcapacity, hroom⟩ := hr
  obtain ⟨q, hq, hrest⟩ := Queue.exists_pop?_of_cons hitems
  obtain ⟨haxis', hcontroller, hgroup, -, -, hqueue⟩ := runStaging_spec hq hcapacity
  constructor
  · rw [hgroup]
    exact hrest
  · refine ⟨g.moves.take n.motionCommands.capacity, moves, ?_, ?_, ?_⟩
    · rw [hqueue, hcommands]
      simp [StagingTask.queueAfter, hg, List.map_take]
    · rw [hcontroller, hmoves]
    · rw [haxis', haxis, List.nil_append]
  · rw [haxis']
    exact hroom

/-- Taking up a move changes nothing that a conversion depends on. -/
theorem convert?_runMotion {m : StagedMove} {q : Queue MotionCommand}
    (hq : n.motionCommands.pop? = some (.move m, q)) :
    n.runMotion.node.controller.convert? = n.controller.convert? := by
  have hrun : n.runMotion.node.controller = (n.motionTask.handle (.move m)).1.controller := by
    simp [runMotion, runMotionWithin, Queue.popWithin?, hq, setLink]
  rw [hrun]
  exact AxisController.convert?_queueMove n.controller n.motionTask.link m

/-- The controller passes the next move on, for which there is room. -/
theorem Forwarded.runMotion (hf : n.Forwarded moves) : n.runMotion.node.Forwarded moves := by
  obtain ⟨hgroup, ⟨staged, rest, hcommands, hconverted, hmoves⟩, hroom⟩ := hf
  cases staged with
  | nil =>
      rw [runMotion_of_none (Queue.pop?_eq_none_iff.mpr hcommands)]
      exact ⟨hgroup, ⟨[], rest, hcommands, hconverted, hmoves⟩, hroom⟩
  | cons m staged =>
      obtain ⟨move, rest, rfl, hmove, hrest⟩ := List.map_eq_cons_iff.mp hconverted
      obtain ⟨q, hq, hq'⟩ := Queue.exists_pop?_of_cons hcommands
      obtain ⟨haxis, hcommands', -, hgroup'⟩ := axis_runMotion hq
      have hlength : n.axis.moves.items.length < n.axis.moves.capacity := by
        apply Nat.lt_of_lt_of_le ?_ hroom
        rw [← hmoves, List.length_append, List.length_cons]
        omega
      obtain ⟨r, hr⟩ := Queue.exists_push? move hlength
      obtain ⟨-, hitems, hcapacity⟩ := Queue.push?_eq_some_iff.mp hr
      have haxis' : n.runMotion.node.axis.moves = r := by
        simp [haxis, AxisController.axisEvents, ← hmove, StepGenerator.run,
          StepGenerator.step, StepGenerator.react, hr]
      refine ⟨?_, ⟨staged, rest, ?_, ?_, ?_⟩, ?_⟩
      · rw [hgroup']
        exact hgroup
      · rw [hcommands', hq']
      · rw [convert?_runMotion hq]
        exact hrest
      · rw [haxis', hitems, List.append_assoc]
        exact hmoves
      · rw [haxis', hcapacity]
        exact hroom

end Node

namespace Site

variable {τ β : Type} [RegisterLink τ] [FrameBus β] {s : Site τ β} {moves : List Move}

theorem forwarded_turn (task : NodeTask) (hf : s.node.Forwarded moves) :
    (s.turn task).node.Forwarded moves := by
  cases task with
  | reports => exact hf.of_sameWork (Node.sameWork_runReports s.node)
  | motion => exact hf.runMotion
  | staging =>
      rw [turn, Node.runStaging_of_none (Queue.pop?_eq_none_iff.mpr hf.groupRequests)]
      exact hf
  | chip => exact hf.of_sameWork (Node.sameWork_runChip s.node)
  | outbox => exact hf.of_sameWork (Node.sameWork_runOutbox s.node s.bus)

/-- The first poll sends the moves on. -/
theorem forwarded_poll_of_requested (hr : s.node.Requested moves) :
    s.poll.node.Forwarded moves := by
  have hreports : (s.turn .reports).node.Requested moves :=
    hr.of_sameWork (Node.sameWork_runReports s.node)
  have hmotion : (s.turn .reports).node.motionCommands.pop? = none :=
    Queue.pop?_eq_none_iff.mpr hreports.motionCommands
  have hsame : (s.turn .reports).node.runMotion.node = (s.turn .reports).node := by
    rw [Node.runMotion_of_none hmotion]
  have hrequested : (s.turn .reports).node.runMotion.node.Requested moves := by
    rw [hsame]
    exact hreports
  have hstaging : (((s.turn .reports).turn .motion).turn .staging).node.Forwarded moves :=
    hrequested.runStaging
  exact forwarded_turn .outbox (forwarded_turn .chip hstaging)

theorem forwarded_poll (hf : s.node.Forwarded moves) : s.poll.node.Forwarded moves :=
  forwarded_turn .outbox (forwarded_turn .chip (forwarded_turn .staging
    (forwarded_turn .motion (forwarded_turn .reports hf))))

theorem forwarded_polls (hr : s.node.Requested moves) (k : Nat) :
    (s.polls (k + 1)).node.Forwarded moves := by
  induction k with
  | zero => exact forwarded_poll_of_requested hr
  | succ k ih => exact forwarded_poll ih

end Site

/-- Once polling has nothing left to do, every move has arrived. -/
theorem Site.moves_of_idle {τ β : Type} [RegisterLink τ] [FrameBus β] {s : Site τ β}
    {moves : List Move} (hr : s.node.Requested moves) {k : Nat} (hk : (s.polls k).busy = false) :
    (s.polls (k + 1)).node.axis.moves.items = moves := by
  obtain ⟨m, o, hwork, hm, -, hbusy⟩ := s.work_polls k
  obtain ⟨hrest, -⟩ := hbusy.mp hk
  have hnone : (s.polls (k + 1)).node.work.motionCommands = 0 := by
    refine (congrArg Work.motionCommands hwork).trans ?_
    rw [hm hrest.groupRequests, hrest.motionCommands]
  obtain ⟨-, ⟨staged, rest, hcommands, hconverted, hmoves⟩, -⟩ := forwarded_polls hr k
  have hstaged : staged = [] := by
    have hlength : (s.polls (k + 1)).node.motionCommands.items.length = 0 := hnone
    simpa [hcommands] using hlength
  rw [hstaged] at hconverted
  rw [← hmoves, List.map_eq_nil_iff.mp hconverted, List.append_nil]

/-- A node with nothing to do takes up a request to execute a group whose moves all convert. -/
theorem Site.requested_execute {τ β : Type} [RegisterLink τ] [FrameBus β] {s : Site τ β}
    {setup : NodeSetup} (hs : s.node.Built setup {}) {target : NodeAddress}
    (function : FunctionCode) {group : UInt8} (start cancel : UInt8) (padding : List UInt8)
    {g : MoveGroup} (htarget : setup.node.accepts target.code = true)
    (hgroup : s.node.groupRequests.items = []) (hcommands : s.node.motionCommands.items = [])
    (haxis : s.node.axis.moves.items = []) (hg : s.node.table.group? group = some g)
    (hconvert : ∀ m ∈ g.moves, (s.node.controller.convert? m).isSome = true) :
    let request : Message := .executeMoveGroupRequest group start cancel
    ∃ moves : List Move, moves.map some = (g.moves.take 10).map s.node.controller.convert? ∧
      (s.step (.frame (.make target request.kind function)
        (request.bytes ++ padding))).node.Requested moves := by
  intro request
  obtain ⟨q, hq⟩ : ∃ q, s.node.groupRequests.push? (.execute group start cancel) = some q := by
    apply Queue.exists_push?
    rw [hgroup, hs.groupRequests]
    decide
  have ht : (s.step (.frame (.make target request.kind function)
      (request.bytes ++ padding))).node = { s.node with groupRequests := q } :=
    Node.handleFrame_group (.execute group start cancel) function (hs.setup ▸ htarget)
      (Family.parse?_group (.execute group start cancel) padding) hq
  obtain ⟨moves, hconverted⟩ : ∃ moves : List Move,
      moves.map some = (g.moves.take 10).map s.node.controller.convert? := by
    refine ⟨(g.moves.take 10).filterMap s.node.controller.convert?, ?_⟩
    rw [List.map_filterMap_some_eq_filter_map_isSome, List.filter_eq_self, List.forall_mem_map]
    exact fun m hm => hconvert m (List.mem_of_mem_take hm)
  have hlength : moves.length ≤ 10 := by
    have hl := congrArg List.length hconverted
    rw [List.length_map, List.length_map, List.length_take] at hl
    omega
  refine ⟨moves, hconverted, ?_⟩
  rw [ht]
  refine ⟨⟨group, start, cancel, g, ?_, hg, ?_⟩, hcommands, haxis, ?_, ?_⟩
  · rw [(Queue.push?_eq_some_iff.mp hq).2.1, hgroup]
    rfl
  · exact hs.motionCommands ▸ hconverted
  · exact hs.motionCommands ▸ Nat.zero_lt_succ 9
  · exact hs.moves ▸ Nat.le_trans hlength (by decide)

open Site in
/-- A node with nothing to do takes a request to execute a group. When polling has nothing left to
do, the first ten moves of the group lie in the queue of the step generator, each converted and in
the order of their sequence numbers, and nothing else does. -/
theorem executed_moves_arrive {τ β : Type} [RegisterLink τ] [FrameBus β] (setup : NodeSetup)
    (controller : AxisController) (driver : ChipDriver τ) (bus : β) (before : List NodeEvent)
    (target : NodeAddress) (function : FunctionCode) (group start cancel : UInt8)
    (padding : List UInt8) (g : MoveGroup) :
    let s := (⟨(Node.start setup controller driver).1, bus⟩ : Site τ β).run before
    let request : Message := .executeMoveGroupRequest group start cancel
    let t := s.step (.frame (.make target request.kind function) (request.bytes ++ padding))
    setup.node.accepts target.code = true →
    s.node.groupRequests.items = [] → s.node.motionCommands.items = [] →
    s.node.axis.moves.items = [] → s.node.table.group? group = some g →
    (∀ m ∈ g.moves, (s.node.controller.convert? m).isSome = true) →
    ∃ k, (∀ j < k, (t.polls j).busy = true) ∧ (t.polls k).busy = false ∧
      let moves := (t.polls (k + 1)).node.axis.moves.items
      moves.map some = (g.moves.take 10).map s.node.controller.convert? ∧
        moves.Pairwise fun a b => a.seq < b.seq := by
  intro s request t htarget hgroup hcommands haxis hg hconvert
  have hbuilt : s.node.Built setup {} :=
    built_run (Node.built_start setup controller driver) (by decide) before
  have haligned : s.node.table.Aligned :=
    ((Accounted.start setup controller driver).run (β := β) before).aligned
  obtain ⟨moves, hconverted, hrequested⟩ := requested_execute hbuilt function start cancel padding
    htarget hgroup hcommands haxis hg hconvert
  have hbuilt' : t.node.Built setup {} := built_run hbuilt (by decide) [_]
  obtain ⟨k, hbusy, hidle⟩ := exists_first_idle hbuilt' (by decide)
  refine ⟨k, hbusy, hidle, ?_⟩
  rw [moves_of_idle hrequested hidle]
  exact ⟨hconverted, AxisController.pairwise_seq_of_convert? hconverted
    ((haligned.pairwise_moves hg).sublist (List.take_sublist 10 g.moves))⟩

/-- A node at the gantry, on an axis with a hundred steps to a millimetre. -/
def gantry : Site RegisterFile RecordingBus :=
  ⟨(Node.start ⟨.gantryX, .host, 0⟩ .tenMicrometresPerStep { link := {} }).1, {}⟩

/-- Moves of one tick each are staged in these slots of the first group. -/
def stageSlots (slots : List UInt8) : List NodeEvent :=
  slots.flatMap fun seq =>
    let m : Message := .addLinearMoveRequest ⟨0, seq, 1, 0, 0, 0⟩
    [.frame (.make .gantryX m.kind .command) m.bytes, .turn .staging]

/-- The first group is to be executed. -/
def executeFirst : NodeEvent :=
  .frame (.make .gantryX .executeMoveGroupRequest .command)
    (Message.executeMoveGroupRequest 0 0 0).bytes

/-- Two moves, staged against the order of their slots, arrive in that order. -/
theorem executed_moves_arrive_of_staged :
    let t := (gantry.run (stageSlots [7, 2])).step executeFirst
    ∃ k, (t.polls k).busy = false ∧
      (t.polls (k + 1)).node.axis.moves.items.map (·.seq) = [2, 7] := by
  intro t
  obtain ⟨g, hg⟩ : ∃ g, (gantry.run (stageSlots [7, 2])).node.table.group? 0 = some g :=
    Option.isSome_iff_exists.mp (by decide +kernel)
  have hslots : ((gantry.run (stageSlots [7, 2])).node.table.group? 0).map
      (fun g => (g.moves.take 10).map StagedMove.seq) = some [2, 7] := by
    decide +kernel
  have hconvert : ((gantry.run (stageSlots [7, 2])).node.table.group? 0).all (fun g =>
      g.moves.all fun m =>
        ((gantry.run (stageSlots [7, 2])).node.controller.convert? m).isSome) = true := by
    decide +kernel
  rw [hg, Option.map_some, Option.some_inj] at hslots
  rw [hg, Option.all_some, List.all_eq_true] at hconvert
  obtain ⟨k, -, hidle, hmoves, -⟩ := executed_moves_arrive ⟨.gantryX, .host, 0⟩
    .tenMicrometresPerStep ({ link := {} } : ChipDriver RegisterFile)
    ({} : RecordingBus) (stageSlots [7, 2]) .gantryX .command 0 0 0 [] g (by decide)
    (by decide +kernel) (by decide +kernel) (by decide +kernel) hg hconvert
  refine ⟨k, hidle, ?_⟩
  exact (AxisController.map_seq_of_convert? hmoves).trans hslots

/-- Of eleven staged moves the last one is lost, although nothing else waited in the node and each
of them converts. -/
theorem executed_moves_lost_behind_tenth :
    let slots : List UInt8 := [0, 1, 2, 3, 4, 5, 6, 7, 8, 9, 10]
    let s := gantry.run (stageSlots slots)
    let t := s.step executeFirst
    (s.node.table.group? 0).map (fun g => g.moves.map StagedMove.seq) = some slots ∧
      (s.node.table.group? 0).all
        (fun g => g.moves.all fun m => (s.node.controller.convert? m).isSome) = true ∧
      s.node.work = ⟨0, 0, 0, 0, 0, false⟩ ∧ s.node.axis.moves.items = [] ∧
      (∀ j < 11, (t.polls j).busy = true) ∧ (t.polls 11).busy = false ∧
      (t.polls 12).node.axis.moves.items.map (·.seq) = slots.dropLast := by
  refine ⟨?_, ?_, ?_, ?_, ?_, ?_, ?_⟩
  all_goals decide +kernel

end AxisNode
