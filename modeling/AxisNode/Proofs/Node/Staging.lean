import AxisNode.Node.Staging
import AxisNode.Proofs.Motion.Table

/-!
# What the staging task changes

For each request the table and the queue to the axis controller are given as they stand afterwards.
An execute fills the queue up to its capacity and warns of each move that is left over. A stop ends
up in the queue even if everything in it has to make room.
-/

namespace AxisNode.StagingTask

variable {t : StagingTask}

/-- The table once a request has been handled. -/
def tableAfter (r : GroupRequest) (table : MoveTable) : MoveTable :=
  match r with
  | .stage m => (table.stage? m).getD table
  | .clearAll => table.clear
  | .stop => table.clear
  | .report _ => table
  | .execute .. => table

/-- The queue to the axis controller once a request has been handled. -/
def queueAfter (r : GroupRequest) (table : MoveTable) (capacity : Nat)
    (items : List MotionCommand) : List MotionCommand :=
  match r with
  | .execute group _ _ =>
      match table.group? group with
      | some g => (items ++ g.moves.map MotionCommand.move).take capacity
      | none => items
  | .stop => if items.length < capacity then items ++ [.stop] else [.stop]
  | .stage _ => items
  | .report _ => items
  | .clearAll => items

/-- Sending moves on changes nothing but the way to the axis controller. -/
theorem exists_forwardAll (moves : List StagedMove) (t : StagingTask) :
    ∃ motion, (t.forwardAll moves).1 = { t with motion } := by
  induction moves generalizing t with
  | nil => exact ⟨t.motion, rfl⟩
  | cons m moves ih =>
      have hforward : ∃ motion, (t.forward m).1 = { t with motion } := by
        unfold forward
        split
        · exact ⟨_, rfl⟩
        · exact ⟨t.motion, rfl⟩
      obtain ⟨motion, hm⟩ := hforward
      obtain ⟨motion', hms⟩ := ih (t.forward m).1
      refine ⟨motion', ?_⟩
      calc
        ((t.forward m).1.forwardAll moves).1
            = { (t.forward m).1 with motion := motion' } := hms
        _ = { t with motion := motion' } := by rw [hm]

theorem forwardAll_table (moves : List StagedMove) (t : StagingTask) :
    (t.forwardAll moves).1.table = t.table := by
  obtain ⟨motion, h⟩ := exists_forwardAll moves t
  rw [h]

theorem stop_table (t : StagingTask) : t.stop.1.table = t.table.clear := by
  unfold stop
  dsimp only
  split
  · rfl
  · split <;> rfl

theorem table_handle (r : GroupRequest) (t : StagingTask) :
    (t.handle r).1.table = tableAfter r t.table := by
  cases r with
  | stage m =>
      simp only [handle, stage, tableAfter]
      cases t.table.stage? m <;> rfl
  | report group =>
      simp only [handle, report, tableAfter]
      cases t.table.group? group <;> rfl
  | clearAll => rfl
  | execute group start cancel =>
      simp only [handle, execute, tableAfter]
      cases t.table.group? group with
      | none => rfl
      | some g => exact forwardAll_table g.moves t
  | stop => exact stop_table t

/-- Sending one move on appends it if there is room. -/
theorem forward_queue (h : t.motion.isOpen = true) (m : StagedMove) :
    (t.forward m).1.motion.isOpen = true ∧
      (t.forward m).1.motion.queue.capacity = t.motion.queue.capacity ∧
      (t.forward m).1.motion.queue.items =
        (t.motion.queue.items ++ [MotionCommand.move m]).take t.motion.queue.capacity := by
  have hl := t.motion.queue.length_le
  unfold forward Inlet.push?
  rw [if_pos h]
  cases hq : t.motion.queue.push? (.move m) with
  | none =>
      have hfull := Queue.push?_eq_none_iff.mp hq
      refine ⟨h, rfl, ?_⟩
      rw [List.take_append_of_le_length hfull, List.take_of_length_le hl]
      rfl
  | some q =>
      obtain ⟨hroom, hi, hc⟩ := Queue.push?_eq_some_iff.mp hq
      refine ⟨h, hc, ?_⟩
      rw [List.take_of_length_le (by rw [List.length_append]; exact hroom)]
      exact hi

theorem take_append_take {α : Type} (n : Nat) (l k : List α) :
    (l.take n ++ k).take n = (l ++ k).take n := by
  rw [List.take_append, List.take_append, List.take_take, List.length_take, Nat.min_self]
  congr 2
  omega

/-- Sending moves on fills the queue up to its capacity and drops the others. -/
theorem forwardAll_queue (h : t.motion.isOpen = true) (moves : List StagedMove) :
    (t.forwardAll moves).1.motion.queue.capacity = t.motion.queue.capacity ∧
      (t.forwardAll moves).1.motion.queue.items =
        (t.motion.queue.items ++ moves.map MotionCommand.move).take t.motion.queue.capacity := by
  induction moves generalizing t with
  | nil =>
      refine ⟨rfl, ?_⟩
      rw [List.map_nil, List.append_nil, List.take_of_length_le t.motion.queue.length_le]
      rfl
  | cons m moves ih =>
      obtain ⟨ho, hc, hi⟩ := forward_queue h m
      obtain ⟨hc', hi'⟩ := ih ho
      constructor
      · exact hc'.trans hc
      · apply hi'.trans
        rw [hi, hc, take_append_take, List.append_assoc]
        rfl

/-- Nothing gets through while the way to the axis controller is shut. -/
theorem forwardAll_of_shut (h : t.motion.isOpen = false) (moves : List StagedMove) :
    (t.forwardAll moves).1 = t := by
  induction moves with
  | nil => rfl
  | cons m moves ih =>
      have hforward : (t.forward m).1 = t := by simp [forward, Inlet.push?, h]
      calc
        (t.forwardAll (m :: moves)).1 = ((t.forward m).1.forwardAll moves).1 := rfl
        _ = t := by rw [hforward, ih]

/-- A stop goes behind what was queued, or alone into the emptied queue. -/
theorem stop_queue (h : t.motion.isOpen = true) (hc : 0 < t.motion.queue.capacity) :
    t.stop.1.motion.queue.capacity = t.motion.queue.capacity ∧
      t.stop.1.motion.queue.items =
        if t.motion.queue.items.length < t.motion.queue.capacity
        then t.motion.queue.items ++ [.stop] else [.stop] := by
  unfold stop Inlet.push?
  dsimp only
  rw [if_pos h]
  cases hq : t.motion.queue.push? .stop with
  | some q =>
      obtain ⟨hroom, hi, hcap⟩ := Queue.push?_eq_some_iff.mp hq
      rw [if_pos hroom]
      exact ⟨hcap, hi⟩
  | none =>
      have hfull := Queue.push?_eq_none_iff.mp hq
      rw [if_neg (Nat.not_lt.mpr hfull)]
      have ho : t.motion.clear.isOpen = true := h
      dsimp only [Option.map_none]
      rw [if_pos ho]
      cases he : t.motion.clear.queue.push? .stop with
      | some q =>
          obtain ⟨-, hi, hcap⟩ := Queue.push?_eq_some_iff.mp he
          exact ⟨hcap, hi⟩
      | none => exact absurd hc (Nat.not_lt.mpr (Queue.push?_eq_none_iff.mp he))

theorem queue_handle (r : GroupRequest) (h : t.motion.isOpen = true)
    (hc : 0 < t.motion.queue.capacity) :
    (t.handle r).1.motion.queue.capacity = t.motion.queue.capacity ∧
      (t.handle r).1.motion.queue.items =
        queueAfter r t.table t.motion.queue.capacity t.motion.queue.items := by
  cases r with
  | stage m =>
      simp only [handle, stage, queueAfter]
      cases t.table.stage? m <;> exact ⟨rfl, rfl⟩
  | report group =>
      simp only [handle, report, queueAfter]
      cases t.table.group? group <;> exact ⟨rfl, rfl⟩
  | clearAll => exact ⟨rfl, rfl⟩
  | execute group start cancel =>
      simp only [handle, execute, queueAfter]
      cases t.table.group? group with
      | none => exact ⟨rfl, rfl⟩
      | some g => exact forwardAll_queue h g.moves
  | stop => exact stop_queue h hc

/-! ## What is left over -/

/-- The lines of a list of events that warn of something. -/
def warnings (events : List Event) : List LogLine :=
  (events.filterMap Event.line?).filter fun l => l.level = .warn

/-- The line about a move that found no room on its way to the axis controller. -/
def leftOver (m : StagedMove) : LogLine := .notForwarded m.group m.seq

theorem warnings_log_map_leftOver (moves : List StagedMove) :
    warnings (moves.map fun m => .log (leftOver m)) = moves.map leftOver := by
  unfold warnings
  rw [List.filterMap_map]
  induction moves with
  | nil => rfl
  | cons m moves ih => exact congrArg (leftOver m :: ·) ih

theorem forward_of_full (hfull : t.motion.queue.capacity ≤ t.motion.queue.items.length)
    (m : StagedMove) : t.forward m = (t, [.log (leftOver m)]) := by
  have hq : t.motion.queue.push? (.move m) = none := Queue.push?_eq_none_iff.mpr hfull
  unfold forward Inlet.push?
  rw [hq]
  split
  · next h => split at h <;> cases h
  · rfl

theorem events_forward_of_room (h : t.motion.isOpen = true)
    (hroom : t.motion.queue.items.length < t.motion.queue.capacity) (m : StagedMove) :
    (t.forward m).2 = [] := by
  obtain ⟨q, hq⟩ := Queue.exists_push? (.move m) hroom
  unfold forward Inlet.push?
  rw [if_pos h, hq]
  rfl

/-- Each move behind those that find room is told to be left over. -/
theorem events_forwardAll (h : t.motion.isOpen = true) (moves : List StagedMove) :
    (t.forwardAll moves).2 =
      (moves.drop (t.motion.queue.capacity - t.motion.queue.items.length)).map
        fun m => .log (leftOver m) := by
  induction moves generalizing t with
  | nil => rw [List.drop_nil]; rfl
  | cons m moves ih =>
      obtain ⟨ho, hc, hi⟩ := forward_queue h m
      have hevents : (t.forwardAll (m :: moves)).2 =
          (t.forward m).2 ++ ((t.forward m).1.forwardAll moves).2 := rfl
      rw [hevents, ih ho, hc]
      by_cases hroom : t.motion.queue.items.length < t.motion.queue.capacity
      · have hlength : (t.forward m).1.motion.queue.items.length =
            t.motion.queue.items.length + 1 := by
          rw [hi, List.take_of_length_le (by rw [List.length_append]; exact hroom),
            List.length_append]
          rfl
        have hdrop : t.motion.queue.capacity - t.motion.queue.items.length =
            t.motion.queue.capacity - (t.motion.queue.items.length + 1) + 1 := by omega
        rw [events_forward_of_room h hroom, hlength, hdrop, List.drop_succ_cons, List.nil_append]
      · have hfull := Nat.not_lt.mp hroom
        rw [forward_of_full hfull, Nat.sub_eq_zero_of_le hfull]
        rfl

/-- A stop that finds room is put behind the others; otherwise it is told that they had to go. -/
theorem events_stop (h : t.motion.isOpen = true) (hc : 0 < t.motion.queue.capacity) :
    t.stop.2 =
      if t.motion.queue.items.length < t.motion.queue.capacity
      then [.log .clearGroupsForStop] else [.log .clearGroupsForStop, .log .discardedForStop] := by
  unfold stop Inlet.push?
  dsimp only
  rw [if_pos h]
  by_cases hroom : t.motion.queue.items.length < t.motion.queue.capacity
  · obtain ⟨q, hq⟩ := Queue.exists_push? MotionCommand.stop hroom
    rw [if_pos hroom, hq]
    rfl
  · have ho : t.motion.clear.isOpen = true := h
    obtain ⟨q, hq⟩ := Queue.exists_push? (q := t.motion.clear.queue) MotionCommand.stop hc
    rw [if_neg hroom, Queue.push?_eq_none_iff.mpr (Nat.not_lt.mp hroom)]
    dsimp only [Option.map_none]
    rw [if_pos ho, hq]
    rfl

theorem execute_of_group? {group : UInt8} {g : MoveGroup} (hg : t.table.group? group = some g) :
    t.execute group = ((t.forwardAll g.moves).1,
      .log (.executeGroup group g.moves.length) :: (t.forwardAll g.moves).2) := by
  simp only [execute, hg, MoveGroup.size]

/-- For any table, and any queue to the axis controller that can hold something: executing a group
fills the queue with the moves in the slots of the group in the order of the slots, up to the
capacity, with one warning for each move that is left over, and changes no slot. A stop empties
every group and comes last in the queue, behind the others if there is room and alone if there is
not. -/
theorem execute_fills_queue_and_stop_gets_through (table : MoveTable)
    (queue : Queue MotionCommand) (outbox : Outbox) (destination : NodeAddress)
    (hcapacity : 0 < queue.capacity) :
    let t : StagingTask := { table, motion := { queue }, outbox, host := destination }
    (∀ group start cancel g, table.group? group = some g →
      let executed := t.handle (.execute group start cancel)
      let moves := (List.range g.capacity).filterMap (table.slot? group.toNat)
      let rest := moves.drop (queue.capacity - queue.items.length)
      executed.1.motion.queue.items =
          (queue.items ++ moves.map MotionCommand.move).take queue.capacity ∧
        executed.2 =
          .log (.executeGroup group moves.length) :: (rest.map fun m => .log (leftOver m)) ∧
        warnings executed.2 = rest.map leftOver ∧
        executed.1 = { t with motion := executed.1.motion } ∧
        executed.1.motion.queue.capacity = queue.capacity) ∧
    let stopped := t.handle .stop
    (∀ i j, stopped.1.table.slot? i j = none) ∧
      (∀ g ∈ stopped.1.table.groups, g.isEmpty = true) ∧
      stopped.1.table.dims = table.dims ∧
      stopped.1.motion.queue.items =
        (if queue.items.length < queue.capacity then queue.items ++ [.stop] else [.stop]) ∧
      stopped.1.motion.queue.items.getLast? = some .stop ∧
      stopped.1.motion.queue.capacity = queue.capacity ∧
      .log .stopNotForwarded ∉ stopped.2 := by
  intro t
  have ho : t.motion.isOpen = true := rfl
  refine ⟨?_, ?_⟩
  · intro group start cancel g hg executed moves rest
    have hmoves : g.moves = moves := MoveTable.moves_eq_slots hg
    have hexecuted : executed =
        ((t.forwardAll moves).1,
          .log (.executeGroup group moves.length) :: (t.forwardAll moves).2) :=
      hmoves ▸ execute_of_group? hg
    have hevents : executed.2 =
        .log (.executeGroup group moves.length) :: rest.map fun m => .log (leftOver m) := by
      rw [hexecuted, events_forwardAll ho]
    obtain ⟨hcap, hitems⟩ := forwardAll_queue ho moves
    obtain ⟨motion, hforward⟩ := exists_forwardAll moves t
    refine ⟨?_, hevents, ?_, ?_, ?_⟩
    · rw [hexecuted]
      exact hitems
    · rw [hevents]
      exact warnings_log_map_leftOver rest
    · rw [hexecuted, hforward]
    · rw [hexecuted]
      exact hcap
  · intro stopped
    have htable : stopped.1.table = table.clear := stop_table t
    obtain ⟨hcap, hitems⟩ := stop_queue ho hcapacity
    have hevents : stopped.2 = _ := events_stop ho hcapacity
    refine ⟨?_, ?_, ?_, hitems, ?_, hcap, ?_⟩
    · intro i j
      rw [htable]
      exact MoveTable.slot?_clear table i j
    · intro g hg
      rw [htable] at hg
      exact MoveTable.isEmpty_of_mem_clear hg
    · rw [htable]
      exact MoveTable.dims_clear table
    · rw [show stopped.1.motion.queue.items = _ from hitems]
      split
      · exact List.getLast?_concat
      · rfl
    · rw [hevents]
      split <;> decide

/-- Room for one more behind an enable request and a move of the other group. The second group has
moves in the first and the last of its three slots. Executing it warns of the last one; the stop
then finds a full queue and is left alone in it. -/
theorem execute_fills_queue_and_stop_gets_through_of_roomForOne :
    let early : StagedMove := .home ⟨0, 1, 5, 0⟩
    let first : StagedMove := .linear ⟨1, 0, 5, 0, 0, 0⟩
    let last : StagedMove := .home ⟨1, 2, 5, 0⟩
    let table : MoveTable := ⟨[⟨[none, some early, none]⟩, ⟨[some first, none, some last]⟩]⟩
    let queue : Queue MotionCommand :=
      { capacity := 3, items := [.request .enable, .move early], length_le := by decide }
    let t : StagingTask :=
      { table, motion := { queue }, outbox := .empty 2, host := .host }
    let executed := t.handle (.execute 1 0 0)
    0 < queue.capacity ∧ table.group? 1 = some ⟨[some first, none, some last]⟩ ∧
      executed.1.motion.queue.items = [.request .enable, .move early, .move first] ∧
      warnings executed.2 = [leftOver last] ∧ executed.1.table = table ∧
      (t.handle .stop).1.motion.queue.items = [.request .enable, .move early, .stop] ∧
      (executed.1.handle .stop).1.motion.queue.items = [.stop] ∧
      (executed.1.handle .stop).1.table.slot? 1 0 = none := by
  intro early first last table queue t executed
  have hcapacity : 0 < queue.capacity := by decide
  have hgroup : table.group? 1 = some ⟨[some first, none, some last]⟩ := rfl
  obtain ⟨hexecute, -, -, -, hstop, -⟩ :=
    execute_fills_queue_and_stop_gets_through table queue (.empty 2) .host hcapacity
  obtain ⟨hitems, -, hwarnings, hsame, hcap⟩ := hexecute 1 0 0 _ hgroup
  have hroom : 0 < executed.1.motion.queue.capacity := hcap ▸ hcapacity
  obtain ⟨-, hcleared, -, -, hstopped, -⟩ := execute_fills_queue_and_stop_gets_through
    executed.1.table executed.1.motion.queue executed.1.outbox executed.1.host hroom
  exact ⟨hcapacity, hgroup, hitems, hwarnings, congrArg StagingTask.table hsame, hstop,
    hstopped, hcleared 1 0⟩

end AxisNode.StagingTask
