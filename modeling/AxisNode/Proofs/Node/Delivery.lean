import AxisNode.Proofs.Motion.Table
import AxisNode.Proofs.Node.Outputs

/-!
# From staging to loading

A staged move is sent on by an execute, converted by the axis controller and loaded by the step
generator. On this way it crosses queues that refuse moves when they are full and drop them when
everything stops, but no queue adds a move, doubles one or lets one overtake another. So what is
loaded is a part of what was handled, and what was handled a part of what was executed, each in its
order.

## Implementation notes

The node notes what becomes of moves. One invariant accounts for both queues at once: the moves that
have left a queue, followed by the ones still in it, are a sublist of those that were sent to it.
-/

namespace AxisNode

/-- Something a node has done with moves. -/
inductive NodeNote where
  /-- A move was put into its slot. -/
  | staged (m : StagedMove)
  /-- A group was executed with these moves in its slots. -/
  | executed (group : UInt8) (moves : List StagedMove)
  /-- The controller, as it was then, took up a move. -/
  | handled (c : AxisController) (m : StagedMove)
  | axis (n : AxisNote)
deriving DecidableEq, Repr

namespace NodeNote

/-- The move that was staged. -/
@[simp] def staged? : NodeNote → Option StagedMove
  | staged m => some m
  | _ => none

/-- The group that was executed, with its moves. -/
@[simp] def batch? : NodeNote → Option (UInt8 × List StagedMove)
  | executed group moves => some (group, moves)
  | _ => none

/-- The move that was taken up, with the controller. -/
@[simp] def handled? : NodeNote → Option (AxisController × StagedMove)
  | handled c m => some (c, m)
  | _ => none

/-- The move that was loaded. -/
@[simp] def load? : NodeNote → Option Move
  | axis n => n.load?
  | _ => none

end NodeNote

/-- The moves that were staged. -/
def stagedMoves (h : List NodeNote) : List StagedMove := h.filterMap NodeNote.staged?

/-- The groups that were executed, each with its moves at that moment. -/
def batches (h : List NodeNote) : List (UInt8 × List StagedMove) := h.filterMap NodeNote.batch?

/-- The moves that the controller took up, each with the controller as it was then. -/
def handledMoves (h : List NodeNote) : List (AxisController × StagedMove) :=
  h.filterMap NodeNote.handled?

/-- The moves that the step generator loaded. -/
def loadedMoves (h : List NodeNote) : List Move := h.filterMap NodeNote.load?

theorem stagedMoves_append (h k : List NodeNote) :
    stagedMoves (h ++ k) = stagedMoves h ++ stagedMoves k := List.filterMap_append

theorem batches_append (h k : List NodeNote) : batches (h ++ k) = batches h ++ batches k :=
  List.filterMap_append

theorem handledMoves_append (h k : List NodeNote) :
    handledMoves (h ++ k) = handledMoves h ++ handledMoves k := List.filterMap_append

theorem loadedMoves_append (h k : List NodeNote) :
    loadedMoves (h ++ k) = loadedMoves h ++ loadedMoves k := List.filterMap_append

/-- The moves among commands to the axis controller. -/
def movesOf (commands : List MotionCommand) : List StagedMove :=
  commands.filterMap MotionCommand.move?

namespace Node

variable {τ : Type}

/-- What a node notes of an event. -/
def notes (e : NodeEvent) (n : Node τ) : List NodeNote :=
  match e with
  | .turn .staging =>
      match n.groupRequests.pop? with
      | some (.stage m, _) => (n.table.stage? m).toList.map fun _ => .staged m
      | some (.execute group _ _, _) =>
          (n.table.group? group).toList.map fun g => .executed group g.moves
      | _ => []
  | .turn .motion =>
      match n.motionCommands.pop? with
      | some (.move m, _) => [.handled n.controller m]
      | _ => []
  | .tick limit _ => (n.axis.tickNotes limit).map .axis
  | _ => []

theorem loadedMoves_tick (limit : Bool) (encoder : Option Int32) (n : Node τ) :
    loadedMoves (n.notes (.tick limit encoder)) = loads (n.axis.tickNotes limit) := by
  rw [notes, loadedMoves, List.filterMap_map]
  rfl

/-- The loads that are noted are the moves that a tick takes from the queue. -/
theorem loadedMoves_notes (e : NodeEvent) (n : Node τ) :
    loadedMoves (n.notes e) = n.onTick StepGenerator.dequeued e := by
  cases e with
  | frame id payload => rfl
  | tick limit encoder =>
      rw [loadedMoves_tick]
      exact StepGenerator.loads_eventNotes (.tick limit encoder) n.axis
  | turn task =>
      cases task with
      | staging =>
          cases hq : n.groupRequests.pop? with
          | none => simp [notes, hq, loadedMoves, onTick]
          | some p =>
              obtain ⟨r, q⟩ := p
              cases r <;> simp [notes, hq, loadedMoves, onTick]
      | motion =>
          cases hq : n.motionCommands.pop? with
          | none => simp [notes, hq, loadedMoves, onTick]
          | some p =>
              obtain ⟨command, q⟩ := p
              cases command <;> simp [notes, hq, loadedMoves, onTick]
      | _ => rfl

end Node

namespace Site

variable {τ β : Type} [RegisterLink τ] [FrameBus β]

/-- What a run notes, in order. -/
def history (s : Site τ β) : List NodeEvent → List NodeNote
  | [] => []
  | e :: es => s.node.notes e ++ history (s.step e) es

theorem history_eq_collect (s : Site τ β) (es : List NodeEvent) :
    s.history es = s.collect Node.notes es := by
  induction es generalizing s with
  | nil => rfl
  | cons e es ih => rw [history, collect, ih]

theorem loadedMoves_history (s : Site τ β) (es : List NodeEvent) :
    loadedMoves (s.history es) = s.collect (Node.onTick StepGenerator.dequeued) es := by
  rw [history_eq_collect]
  exact apply_collect rfl loadedMoves_append Node.loadedMoves_notes s es

end Site

/-- Every move in the node and every move that has left it is accounted for by the history. -/
structure Accounted {τ : Type} (n : Node τ) (h : List NodeNote) : Prop where
  room : 0 < n.motionCommands.capacity
  aligned : n.table.Aligned
  staged : ∀ i j m, n.table.slot? i j = some m → m ∈ stagedMoves h
  batches : ∀ b ∈ batches h, b.2.Pairwise (fun x y => x.seq < y.seq) ∧
    ∀ m ∈ b.2, m.group = b.1 ∧ m ∈ stagedMoves h
  /-- Moves reach the controller in the order in which they were sent on. -/
  commands : ((handledMoves h).map Prod.snd ++ movesOf n.motionCommands.items).Sublist
    ((AxisNode.batches h).flatMap Prod.snd)
  /-- Moves reach the step generator in the order in which they were taken up. -/
  moves : (loadedMoves h ++ n.axis.moves.items).Sublist
    ((handledMoves h).filterMap fun p => p.1.convert? p.2)

namespace Accounted

variable {τ β : Type} {n n' : Node τ} {h : List NodeNote}

theorem of_sameWork (ha : Accounted n h) (hw : n.SameWork n') : Accounted n' h := by
  constructor
  · exact hw.motionCommands ▸ ha.room
  · exact hw.table ▸ ha.aligned
  · exact hw.table ▸ ha.staged
  · exact ha.batches
  · exact hw.motionCommands ▸ ha.commands
  · exact hw.moves ▸ ha.moves

theorem movesOf_append (cs ds : List MotionCommand) :
    movesOf (cs ++ ds) = movesOf cs ++ movesOf ds := List.filterMap_append

theorem movesOf_cons (c : MotionCommand) (cs : List MotionCommand) :
    movesOf (c :: cs) = c.move?.toList ++ movesOf cs := by
  cases c <;> rfl

theorem movesOf_requests (rs : List MotionRequest) : movesOf (rs.map .request) = [] := by
  induction rs with
  | nil => rfl
  | cons r rs ih => exact ih

theorem movesOf_moves (ms : List StagedMove) : movesOf (ms.map .move) = ms := by
  induction ms with
  | nil => rfl
  | cons m ms ih => exact congrArg (m :: ·) ih

/-- A frame sends no move on. -/
theorem of_received (ha : Accounted n h) (hr : n.Received n') : Accounted n' h := by
  obtain ⟨rs, hrs⟩ := hr.commands
  constructor
  · exact hr.capacity ▸ ha.room
  · exact hr.table ▸ ha.aligned
  · exact hr.table ▸ ha.staged
  · exact ha.batches
  · rw [hrs, movesOf_append, movesOf_requests, List.append_nil]
    exact ha.commands
  · exact hr.axis ▸ ha.moves

theorem notes_motion {command : MotionCommand} {q : Queue MotionCommand}
    (hq : n.motionCommands.pop? = some (command, q)) :
    n.notes (.turn .motion) = command.move?.toList.map (.handled n.controller) := by
  simp only [Node.notes, hq]
  cases command <;> rfl

/-- The controller takes up the oldest command and may pass one move on. -/
theorem runMotion (ha : Accounted n h) :
    Accounted n.runMotion.node (h ++ n.notes (.turn .motion)) := by
  cases hq : n.motionCommands.pop? with
  | none =>
      simp only [Node.runMotion_of_none hq, Node.notes, hq, List.append_nil]
      exact ha
  | some p =>
      obtain ⟨command, q⟩ := p
      obtain ⟨haxis, hcommands, htable, -⟩ := Node.axis_runMotion hq
      obtain ⟨hitems, hcap⟩ := Queue.pop?_eq_some_iff.mp hq
      have hhandled : handledMoves (h ++ n.notes (.turn .motion)) =
          handledMoves h ++ command.move?.toList.map (n.controller, ·) := by
        cases command <;> simp [notes_motion hq, handledMoves]
      have hstaged : stagedMoves (h ++ n.notes (.turn .motion)) = stagedMoves h := by
        cases command <;> simp [notes_motion hq, stagedMoves]
      have hbatches : AxisNode.batches (h ++ n.notes (.turn .motion)) = AxisNode.batches h := by
        cases command <;> simp [notes_motion hq, AxisNode.batches]
      have hloaded : loadedMoves (h ++ n.notes (.turn .motion)) = loadedMoves h := by
        rw [loadedMoves_append, Node.loadedMoves_notes]
        exact List.append_nil _
      constructor
      · exact hcommands ▸ hcap ▸ ha.room
      · exact htable ▸ ha.aligned
      · rw [htable, hstaged]
        exact ha.staged
      · rw [hbatches, hstaged]
        exact ha.batches
      · have hsent : (handledMoves (h ++ n.notes (.turn .motion))).map Prod.snd ++
            movesOf q.items = (handledMoves h).map Prod.snd ++ movesOf n.motionCommands.items := by
          rw [hhandled, hitems, movesOf_cons, List.map_append, List.append_assoc]
          cases command <;> rfl
        rw [hcommands, hsent, hbatches]
        exact ha.commands
      · have hmade : (handledMoves (h ++ n.notes (.turn .motion))).filterMap
            (fun p => p.1.convert? p.2) =
            (handledMoves h).filterMap (fun p => p.1.convert? p.2) ++
              (command.move?.bind n.controller.convert?).toList := by
          rw [hhandled, List.filterMap_append]
          cases command.move? with
          | none => rfl
          | some m => cases hm : n.controller.convert? m <;> simp [hm]
        obtain ⟨new, hpassed, hnew⟩ := Node.moves_run_axisEvents n.controller command n.axis
        rw [hloaded, haxis, hmade, hpassed, ← List.append_assoc]
        exact ha.moves.append hnew

/-- The moves that a request sends on. -/
def forwarded (r : GroupRequest) (table : MoveTable) : List StagedMove :=
  match r with
  | .execute group _ _ => ((table.group? group).toList.flatMap MoveGroup.moves)
  | _ => []

/-- A request sends its moves on behind the ones that wait, and some or all may be lost. -/
theorem movesOf_queueAfter (r : GroupRequest) (table : MoveTable) (capacity : Nat)
    (items : List MotionCommand) :
    (movesOf (StagingTask.queueAfter r table capacity items)).Sublist
      (movesOf items ++ forwarded r table) := by
  have hkept : (movesOf items).Sublist (movesOf items ++ []) := List.sublist_append_left _ _
  cases r with
  | stage m => exact hkept
  | report group => exact hkept
  | clearAll => exact hkept
  | execute group start cancel =>
      simp only [StagingTask.queueAfter, forwarded]
      cases table.group? group with
      | none => exact hkept
      | some g =>
          have htake := (List.take_sublist capacity
            (items ++ g.moves.map MotionCommand.move)).filterMap MotionCommand.move?
          have hsent := movesOf_append items (g.moves.map .move)
          rw [movesOf_moves] at hsent
          simp only [Option.toList_some, List.flatMap_cons, List.flatMap_nil, List.append_nil]
          exact hsent ▸ htake
  | stop =>
      simp only [StagingTask.queueAfter, forwarded]
      split
      · rw [movesOf_append]
        exact List.Sublist.refl _
      · exact List.nil_sublist _

theorem aligned_tableAfter (r : GroupRequest) {table : MoveTable} (ha : table.Aligned) :
    (StagingTask.tableAfter r table).Aligned := by
  cases r with
  | stage m =>
      simp only [StagingTask.tableAfter]
      cases ht : table.stage? m with
      | none => exact ha
      | some t' => exact ha.stage? ht
  | report group => exact ha
  | clearAll => exact MoveTable.aligned_clear table
  | execute group start cancel => exact ha
  | stop => exact MoveTable.aligned_clear table

/-- What is in the table after a request was there before or was staged by the request. -/
theorem slot?_tableAfter {r : GroupRequest} {q : Queue GroupRequest} {i j : Nat} {m : StagedMove}
    (hq : n.groupRequests.pop? = some (r, q))
    (hs : (StagingTask.tableAfter r n.table).slot? i j = some m) :
    n.table.slot? i j = some m ∨ m ∈ stagedMoves (n.notes (.turn .staging)) := by
  cases r with
  | stage m' =>
      simp only [StagingTask.tableAfter] at hs
      cases ht : n.table.stage? m' with
      | none => exact .inl (by rwa [ht] at hs)
      | some t' =>
          rw [ht, Option.getD_some, MoveTable.slot?_of_stage? ht] at hs
          split at hs
          · obtain rfl := Option.some.inj hs
            exact .inr (by simp [Node.notes, hq, ht, stagedMoves])
          · exact .inl hs
  | report group => exact .inl hs
  | clearAll => simp [StagingTask.tableAfter] at hs
  | execute group start cancel => exact .inl hs
  | stop => simp [StagingTask.tableAfter] at hs

/-- What is executed lies in the table, in one group. -/
theorem mem_batches_staging {r : GroupRequest} {q : Queue GroupRequest}
    (hq : n.groupRequests.pop? = some (r, q)) {b : UInt8 × List StagedMove}
    (hb : b ∈ AxisNode.batches (n.notes (.turn .staging))) :
    ∃ g, n.table.group? b.1 = some g ∧ b.2 = g.moves := by
  cases r with
  | execute group start cancel =>
      cases hg : n.table.group? group with
      | none => simp [Node.notes, hq, hg, AxisNode.batches] at hb
      | some g =>
          simp only [Node.notes, hq, hg, AxisNode.batches, Option.toList_some, List.map_cons,
            List.map_nil, List.filterMap_cons, NodeNote.batch?, List.filterMap_nil,
            List.mem_singleton] at hb
          exact ⟨g, by rw [hb]; exact hg, by rw [hb]⟩
  | stage m => simp [Node.notes, hq, AxisNode.batches] at hb
  | _ => simp [Node.notes, hq, AxisNode.batches] at hb

theorem runStaging (ha : Accounted n h) :
    Accounted n.runStaging.node (h ++ n.notes (.turn .staging)) := by
  cases hq : n.groupRequests.pop? with
  | none =>
      simp only [Node.runStaging_of_none hq, Node.notes, hq, List.append_nil]
      exact ha
  | some p =>
      obtain ⟨r, q⟩ := p
      obtain ⟨haxis, -, -, htable, hcap, hitems⟩ := Node.runStaging_spec hq ha.room
      have hhandled : handledMoves (n.notes (.turn .staging)) = [] := by
        cases r <;> simp [Node.notes, hq, handledMoves]
      have hloaded : loadedMoves (n.notes (.turn .staging)) = [] := n.loadedMoves_notes _
      have hsent : (AxisNode.batches (n.notes (.turn .staging))).flatMap Prod.snd =
          forwarded r n.table := by
        cases r with
        | execute group start cancel =>
            cases hg : n.table.group? group <;>
              simp [Node.notes, hq, hg, AxisNode.batches, forwarded]
        | _ => simp [Node.notes, hq, AxisNode.batches, forwarded]
      constructor
      · exact hcap ▸ ha.room
      · exact htable ▸ aligned_tableAfter r ha.aligned
      · intro i j m hm
        rw [stagedMoves_append, List.mem_append]
        exact (slot?_tableAfter hq (htable ▸ hm)).imp (ha.staged i j m) (fun hn => hn)
      · intro b hb
        rw [stagedMoves_append]
        rw [batches_append, List.mem_append] at hb
        obtain hb | hb := hb
        · obtain ⟨hsorted, hmem⟩ := ha.batches b hb
          exact ⟨hsorted, fun m hm =>
            ⟨(hmem m hm).1, List.mem_append_left _ (hmem m hm).2⟩⟩
        · obtain ⟨g, hg, hmoves⟩ := mem_batches_staging hq hb
          rw [hmoves]
          refine ⟨ha.aligned.pairwise_moves hg, fun m hm => ?_⟩
          obtain ⟨j, hj⟩ := (MoveTable.mem_moves_iff hg).mp hm
          exact ⟨UInt8.toNat_inj.mp (ha.aligned _ _ _ hj).1,
            List.mem_append_left _ (ha.staged _ _ _ hj)⟩
      · rw [handledMoves_append, hhandled, List.append_nil, batches_append, List.flatMap_append,
          hsent, hitems]
        refine ((List.append_sublist_append_left _).mpr
          (movesOf_queueAfter r n.table _ _)).trans ?_
        rw [← List.append_assoc]
        exact (List.append_sublist_append_right _).mpr ha.commands
      · rw [loadedMoves_append, hloaded, handledMoves_append, hhandled, List.append_nil,
          List.append_nil, haxis]
        exact ha.moves

/-- A tick loads from the front of what waits. -/
theorem interrupt (ha : Accounted n h) (limit : Bool) (encoder : Option Int32) :
    Accounted (n.interrupt limit encoder).1 (h ++ n.notes (.tick limit encoder)) := by
  have hk : n.notes (.tick limit encoder) = (n.axis.tickNotes limit).map .axis := rfl
  have hstaged : stagedMoves (n.notes (.tick limit encoder)) = [] := by
    simp [hk, stagedMoves, List.filterMap_map]
  have hbatches : AxisNode.batches (n.notes (.tick limit encoder)) = [] := by
    simp [hk, AxisNode.batches, List.filterMap_map]
  have hhandled : handledMoves (n.notes (.tick limit encoder)) = [] := by
    simp [hk, handledMoves, List.filterMap_map]
  constructor
  · exact ha.room
  · exact ha.aligned
  · rw [stagedMoves_append, hstaged, List.append_nil]
    exact ha.staged
  · rw [batches_append, hbatches, stagedMoves_append, hstaged, List.append_nil, List.append_nil]
    exact ha.batches
  · rw [handledMoves_append, hhandled, batches_append, hbatches, List.append_nil, List.append_nil]
    exact ha.commands
  · rw [loadedMoves_append, Node.loadedMoves_tick, handledMoves_append, hhandled, List.append_nil,
      List.append_assoc]
    exact ((List.append_sublist_append_left _).mpr
      (StepGenerator.loads_interrupt limit encoder n.axis)).trans ha.moves

theorem start (setup : NodeSetup) (controller : AxisController) (driver : ChipDriver τ) :
    Accounted (Node.start setup controller driver).1 [] := by
  constructor
  · exact Nat.zero_lt_succ 9
  · exact MoveTable.aligned_empty 3 12
  · intro i j m hm
    exact absurd ((MoveTable.slot?_empty 3 12 i j).symm.trans hm) (by simp)
  · intro b hb
    exact absurd hb List.not_mem_nil
  · exact List.Sublist.refl _
  · exact List.Sublist.refl _

variable [RegisterLink τ] [FrameBus β]

theorem step {s : Site τ β} (ha : Accounted s.node h) (e : NodeEvent) :
    Accounted (s.step e).node (h ++ s.node.notes e) := by
  cases e with
  | frame id payload =>
      simp only [Node.notes, List.append_nil]
      exact ha.of_received (Node.received_handleFrame s.node id payload)
  | tick limit encoder => exact ha.interrupt limit encoder
  | turn task =>
      cases task with
      | motion => exact ha.runMotion
      | staging => exact ha.runStaging
      | reports =>
          simp only [Node.notes, List.append_nil]
          exact ha.of_sameWork (Node.sameWork_runReports s.node)
      | chip =>
          simp only [Node.notes, List.append_nil]
          exact ha.of_sameWork (Node.sameWork_runChip s.node)
      | outbox =>
          simp only [Node.notes, List.append_nil]
          exact ha.of_sameWork (Node.sameWork_runOutbox s.node s.bus)

theorem run {s : Site τ β} (ha : Accounted s.node h) (es : List NodeEvent) :
    Accounted (s.run es).node (h ++ s.history es) := by
  induction es generalizing s h with
  | nil =>
      rw [Site.history, List.append_nil]
      exact ha
  | cons e es ih =>
      rw [Site.history, ← List.append_assoc]
      exact ih (ha.step e)

end Accounted

/-- What a conversion yields comes from the items it does not refuse. -/
theorem exists_map_eq_of_sublist_filterMap {α γ : Type} {f : α → Option γ} {k : List γ}
    {l : List α} (h : k.Sublist (l.filterMap f)) :
    ∃ l' : List α, l'.Sublist l ∧ l'.map f = k.map some := by
  obtain ⟨l', hl, rfl⟩ := List.sublist_filterMap_iff.mp h
  refine ⟨l'.filter fun a => (f a).isSome, List.filter_sublist.trans hl, ?_⟩
  rw [List.map_filterMap_some_eq_filter_map_isSome, List.filter_map]
  rfl

/-- The moves that the step generator loads are a part, in order, of the moves that lay in the slots
of the executed groups when these were executed, each converted by the controller as it was when it
took the move up. The slots of a group are executed in the order of their sequence numbers and hold
nothing but moves that were staged in this group. What is loaded is what the ticks have taken from
the queue to the step generator. -/
theorem loaded_moves_in_order {τ β : Type} [RegisterLink τ] [FrameBus β] (setup : NodeSetup)
    (controller : AxisController) (driver : ChipDriver τ) (bus : β) (es : List NodeEvent) :
    let s : Site τ β := ⟨(Node.start setup controller driver).1, bus⟩
    let h := s.history es
    (∃ taken : List (AxisController × StagedMove), taken.Sublist (handledMoves h) ∧
      (taken.map Prod.snd).Sublist ((batches h).flatMap Prod.snd) ∧
      taken.map (fun p => p.1.convert? p.2) = (loadedMoves h).map some) ∧
    loadedMoves h = s.collect (Node.onTick StepGenerator.dequeued) es ∧
    ∀ b ∈ batches h, b.2.Pairwise (fun x y => x.seq < y.seq) ∧
      ∀ m ∈ b.2, m.group = b.1 ∧ m ∈ stagedMoves h := by
  intro s h
  have hstart : Accounted s.node [] := Accounted.start setup controller driver
  have ha : Accounted (s.run es).node h := hstart.run es
  have hmoves : (loadedMoves h).Sublist ((handledMoves h).filterMap fun p => p.1.convert? p.2) :=
    (List.sublist_append_left _ _).trans ha.moves
  have hcommands : ((handledMoves h).map Prod.snd).Sublist ((batches h).flatMap Prod.snd) :=
    (List.sublist_append_left _ _).trans ha.commands
  obtain ⟨taken, htaken, hconverted⟩ := exists_map_eq_of_sublist_filterMap hmoves
  refine ⟨?_, s.loadedMoves_history es, ha.batches⟩
  exact ⟨taken, htaken, (htaken.map Prod.snd).trans hcommands, hconverted⟩

end AxisNode
