import AxisNode.Proofs.Node.Outputs

/-!
# Where the work of a node comes from

Group requests are numbered in the order in which the staging task handles them. Here every command
in the queue to the controller, every move in the queue to the step generator and the active move
carry the number of the last request handled when they were sent on. Forgetting the numbers gives
back the queues of the node, so the numbers can be read as belonging to what is really there.

## Implementation notes

The numbers are not part of the node: they are computed beside a run. What is sent on by an execute
or a stop carries the number of just this request.
-/

namespace AxisNode

/-- The queued work of a node and the active move, each with its number. -/
structure Origins where
  /-- How many group requests have been handled. -/
  handled : Nat := 0
  commands : List (Nat × MotionCommand) := []
  moves : List (Nat × Move) := []
  active : Option (Nat × Move) := none
deriving DecidableEq, Repr

namespace Origins

/-- The commands once request `k` has been handled. -/
def sent (r : GroupRequest) (table : MoveTable) (capacity k : Nat)
    (commands : List (Nat × MotionCommand)) : List (Nat × MotionCommand) :=
  match r with
  | .execute group _ _ =>
      match table.group? group with
      | some g => (commands ++ g.moves.map fun m => (k, MotionCommand.move m)).take capacity
      | none => commands
  | .stop => if commands.length < capacity then commands ++ [(k, .stop)] else [(k, .stop)]
  | .stage _ => commands
  | .report _ => commands
  | .clearAll => commands

/-- The numbers once a group request has been handled. -/
def request (r : GroupRequest) (table : MoveTable) (capacity : Nat) (o : Origins) : Origins :=
  { o with
    handled := o.handled + 1
    commands := sent r table capacity (o.handled + 1) o.commands }

/-- What a frame adds to the commands gets the number of the last request. -/
def received (items : List MotionCommand) (o : Origins) : Origins :=
  { o with commands := o.commands ++ (items.drop o.commands.length).map (o.handled, ·) }

/-- The oldest command is handled, and a move keeps its number. -/
def handle (items : List Move) (o : Origins) : Origins :=
  match o.commands with
  | [] => o
  | (k, _) :: commands =>
      { o with commands, moves := o.moves ++ (items.drop o.moves.length).map (k, ·) }

theorem handle_of_nil {o : Origins} (h : o.commands = []) (items : List Move) :
    o.handle items = o := by
  simp only [handle, h]

theorem handle_of_cons {o : Origins} {c : Nat × MotionCommand} {rest : List (Nat × MotionCommand)}
    (h : o.commands = c :: rest) (items : List Move) :
    o.handle items = { o with
      commands := rest
      moves := o.moves ++ (items.drop o.moves.length).map (c.1, ·) } := by
  simp only [handle, h]

/-- A loaded move becomes active, an acknowledged one ends, and a cancel drops them all. -/
def note (o : Origins) : AxisNote → Origins
  | .cancelled => { o with moves := [], active := none }
  | .loaded _ => { o with moves := o.moves.tail, active := o.moves.head? }
  | .acked _ => { o with active := none }
  | _ => o

/-- The numbers after an event that took the node from `n` to `n'`. -/
def step {τ : Type} (e : NodeEvent) (n n' : Node τ) (o : Origins) : Origins :=
  match e with
  | .frame _ _ => o.received n'.motionCommands.items
  | .turn .staging =>
      match n.groupRequests.pop? with
      | some (r, _) => o.request r n.table n.motionCommands.capacity
      | none => o
  | .turn .motion => o.handle n'.axis.moves.items
  | .tick limit _ => (n.axis.tickNotes limit).foldl note o
  | _ => o

/-- Notes with the number of the move that was active when they were made. -/
def causes (o : Origins) : List AxisNote → List (Option Nat × AxisNote)
  | [] => []
  | n :: h => (o.active.map Prod.fst, n) :: (o.note n).causes h

/-- Nothing is left out. -/
theorem map_snd_causes (o : Origins) (h : List AxisNote) : (o.causes h).map Prod.snd = h := by
  induction h generalizing o with
  | nil => rfl
  | cons n h ih => exact congrArg (n :: ·) (ih (o.note n))

/-- What an event notes, with the number of the move that was active. -/
def eventCauses {τ : Type} (e : NodeEvent) (n : Node τ) (o : Origins) :
    List (Option Nat × AxisNote) :=
  match e with
  | .tick limit _ => o.causes (n.axis.tickNotes limit)
  | _ => []

theorem map_snd_eventCauses {τ : Type} (e : NodeEvent) (n : Node τ) (o : Origins) :
    (o.eventCauses e n).map Prod.snd = n.onTick StepGenerator.eventNotes e := by
  cases e with
  | tick limit encoder => exact o.map_snd_causes _
  | _ => rfl

end Origins

/-- A pulse on the lines or an acknowledgement. -/
def AxisNote.isEffect (n : AxisNote) : Bool := n.call?.isSome || n.ack?.isSome

namespace Site

variable {τ β : Type} [RegisterLink τ] [FrameBus β]

/-- The numbers after a run. -/
def origins (s : Site τ β) (o : Origins) : List NodeEvent → Origins
  | [] => o
  | e :: es => origins (s.step e) (o.step e s.node (s.step e).node) es

/-- What the ticks of a run note, with the number of the move that was active. -/
def causes (s : Site τ β) (o : Origins) : List NodeEvent → List (Option Nat × AxisNote)
  | [] => []
  | e :: es =>
      o.eventCauses e s.node ++ causes (s.step e) (o.step e s.node (s.step e).node) es

theorem origins_append (s : Site τ β) (o : Origins) (es fs : List NodeEvent) :
    s.origins o (es ++ fs) = (s.run es).origins (s.origins o es) fs := by
  induction es generalizing s o with
  | nil => rfl
  | cons e es ih => exact ih (s.step e) _

section Invariant

variable {I : Origins → Site τ β → Prop} {s : Site τ β} {o : Origins}
  (hstep : ∀ o s e, I o s → I (o.step e s.node (s.step e).node) (s.step e))

include hstep

/-- What every event keeps a run keeps. -/
theorem origins_invariant (es : List NodeEvent) (h : I o s) : I (s.origins o es) (s.run es) := by
  induction es generalizing s o with
  | nil => exact h
  | cons e es ih => exact ih (hstep o s e h)

/-- What holds of the causes in one tick holds of the causes in a run. -/
theorem causes_invariant {ok : Option Nat × AxisNote → Prop}
    (htick : ∀ o s limit, I o s → ∀ p ∈ o.causes (s.node.axis.tickNotes limit), ok p)
    (es : List NodeEvent) (h : I o s) : ∀ p ∈ s.causes o es, ok p := by
  induction es generalizing s o with
  | nil =>
      intro p hp
      exact absurd hp List.not_mem_nil
  | cons e es ih =>
      intro p hp
      rw [causes, List.mem_append] at hp
      obtain hp | hp := hp
      · cases e with
        | tick limit encoder => exact htick o s limit h p hp
        | frame id payload => exact absurd hp List.not_mem_nil
        | turn task => exact absurd hp List.not_mem_nil
      · exact ih (hstep o s e h) p hp

end Invariant

/-- The causes leave out nothing that the step generator notes. -/
theorem map_snd_causes (s : Site τ β) (o : Origins) (es : List NodeEvent) :
    (s.causes o es).map Prod.snd = s.node.axis.history (s.axisEvents es) := by
  rw [history_axisEvents]
  induction es generalizing s o with
  | nil => rfl
  | cons e es ih => rw [causes, List.map_append, Origins.map_snd_eventCauses, ih, collect]

end Site

/-! ## The numbered work is the work of the node -/

/-- The numbered moves are the moves of the step generator. -/
structure Origins.Follows (o : Origins) (g : StepGenerator) : Prop where
  moves : o.moves.map Prod.snd = g.moves.items
  active : o.active.map Prod.snd = g.active.map RunningMove.move

/-- The numbered commands and moves are those of the node. -/
structure Origins.Agrees {τ : Type} (o : Origins) (n : Node τ) : Prop where
  room : 0 < n.motionCommands.capacity
  commands : o.commands.map Prod.snd = n.motionCommands.items
  follows : o.Follows n.axis

namespace Origins

open StepGenerator

variable {o : Origins} {g : StepGenerator}

theorem Follows.of_eq {h : StepGenerator} (hf : o.Follows g) (hm : h.moves = g.moves)
    (ha : h.active = g.active) : o.Follows h :=
  ⟨hm ▸ hf.moves, ha ▸ hf.active⟩

theorem causes_append (o : Origins) (h k : List AxisNote) :
    o.causes (h ++ k) = o.causes h ++ (h.foldl note o).causes k := by
  induction h generalizing o with
  | nil => rfl
  | cons n h ih => exact congrArg (_ :: ·) (ih (o.note n))

/-- Every pulse and every acknowledgement among the notes has an active move. -/
def Caused (o : Origins) (h : List AxisNote) : Prop :=
  ∀ p ∈ o.causes h, p.2.isEffect = true → p.1.isSome = true

theorem Caused.append {h k : List AxisNote} (hh : o.Caused h) (hk : (h.foldl note o).Caused k) :
    o.Caused (h ++ k) := by
  intro p hp
  rw [causes_append, List.mem_append] at hp
  obtain hp | hp := hp
  · exact hh p hp
  · exact hk p hp

theorem Caused.nil : o.Caused [] := fun _ hp => absurd hp List.not_mem_nil

theorem caused_singleton {n : AxisNote} (h : n.isEffect = true → o.active.isSome = true) :
    o.Caused [n] := by
  intro p hp he
  obtain rfl := List.mem_singleton.mp hp
  rw [Option.isSome_map]
  exact h he

/-- While a move is active it causes every note that does not end it. -/
theorem caused_of_active {h : List AxisNote} (ha : o.active.isSome = true)
    (hn : ∀ n ∈ h, o.note n = o) : h.foldl note o = o ∧ o.Caused h := by
  induction h with
  | nil => exact ⟨rfl, Caused.nil⟩
  | cons n h ih =>
      have hfirst : o.note n = o := hn n (List.mem_cons_self ..)
      obtain ⟨hfold, hcaused⟩ := ih fun x hx => hn x (List.mem_cons_of_mem _ hx)
      have hone : o.Caused [n] := caused_singleton fun _ => ha
      constructor
      · rw [List.foldl_cons, hfirst]
        exact hfold
      · apply hone.append
        rw [List.foldl_cons, List.foldl_nil, hfirst]
        exact hcaused

theorem Follows.isSome {a : RunningMove} (hf : o.Follows g) (ha : g.active = some a) :
    o.active.isSome = true := by
  have h := congrArg Option.isSome hf.active
  rw [ha, Option.isSome_map] at h
  exact h

/-- The end of a move, if there is one. -/
theorem Follows.ended {h : StepGenerator} {a : RunningMove → MoveAck} (hf : o.Follows g)
    (hm : h.moves = g.moves) (ha : h.active = none) :
    ((g.active.toList.map fun x => AxisNote.acked (a x)).foldl note o).Follows h ∧
      o.Caused (g.active.toList.map fun x => AxisNote.acked (a x)) := by
  have hmoves : o.moves.map Prod.snd = h.moves.items := hm ▸ hf.moves
  cases hg : g.active with
  | none =>
      have hnone : o.active = none := by simpa [hg] using hf.active
      exact ⟨⟨hmoves, by rw [ha]; exact congrArg (Option.map Prod.snd) hnone⟩, Caused.nil⟩
  | some x => exact ⟨⟨hmoves, ha ▸ rfl⟩, caused_singleton fun _ => hf.isSome hg⟩

theorem Follows.finish (hf : o.Follows g) (reason : AckReason) :
    ((g.finishNotes reason).foldl note o).Follows (g.finish reason) ∧
      o.Caused (g.finishNotes reason) :=
  hf.ended (moves_finish reason g) (active_finish reason g)

theorem Follows.halt (hf : o.Follows g) :
    (g.haltNotes.foldl note o).Follows g.halt ∧ o.Caused g.haltNotes :=
  hf.ended (moves_halt g) (active_halt g)

theorem Follows.mount {m : Move} {moves : Queue Move} (hf : o.Follows g)
    (hq : g.moves.pop? = some (m, moves)) :
    (o.note (.loaded m)).Follows (g.mount m moves) := by
  have hmoves := hf.moves
  rw [(Queue.pop?_eq_some_iff.mp hq).1] at hmoves
  have hactive : (g.mount m moves).active = some { move := m, velocity := m.velocity } := rfl
  cases ho : o.moves with
  | nil => simp [ho] at hmoves
  | cons p ps =>
      rw [ho, List.map_cons, List.cons.injEq] at hmoves
      constructor
      · rw [moves_mount]
        simpa only [note, ho, List.tail_cons] using hmoves.2
      · rw [hactive]
        simpa only [note, ho, List.head?_cons, Option.map_some, Option.some.injEq] using hmoves.1

theorem Follows.load (hf : o.Follows g) :
    (g.loadNotes.foldl note o).Follows g.load ∧ o.Caused g.loadNotes := by
  cases hq : g.moves.pop? with
  | none =>
      rw [load_eq_of_none hq, loadNotes_of_none hq]
      exact ⟨hf, Caused.nil⟩
  | some p =>
      obtain ⟨m, moves⟩ := p
      have hm := hf.mount hq
      generalize hl : o.note (.loaded m) = o' at hm
      have hquiet : ∀ b : Bool, (if b then [AxisNote.rebased .top] else []).foldl note o' = o' ∧
          o'.Caused (if b then [AxisNote.rebased .top] else []) := by
        intro b
        cases b with
        | true => exact ⟨rfl, caused_singleton fun h => by simp [AxisNote.isEffect] at h⟩
        | false => exact ⟨rfl, Caused.nil⟩
      have hrest : ∀ h, o'.Caused h → o.Caused (.loaded m :: h) := by
        intro h hh
        have hfirst : o.Caused [.loaded m] :=
          caused_singleton fun h => by simp [AxisNote.isEffect] at h
        exact hfirst.append (by rwa [List.foldl_cons, hl])
      obtain ⟨hfold, hcaused⟩ := hquiet (m.homes && !g.status.has .stepperOk)
      rw [load_eq_of_some hq, loadNotes_of_some hq, List.foldl_cons, List.foldl_append, hl, hfold]
      cases m.targetFrom (g.mount m moves).position with
      | some target =>
          constructor
          · exact ⟨hm.moves, hm.active⟩
          · apply hrest
            exact hcaused.append (hfold ▸ Caused.nil)
      | none =>
          obtain ⟨hfollows, hended⟩ := hm.halt
          constructor
          · exact hfollows
          · apply hrest
            apply hcaused.append
            rw [hfold]
            exact hended

theorem Follows.advance (hf : o.Follows g) :
    (g.advanceNotes.foldl note o).Follows g.advance.1 ∧ o.Caused g.advanceNotes := by
  cases ha : g.active with
  | none =>
      rw [advance_of_none ha, advanceNotes_of_none ha]
      exact ⟨hf, Caused.nil⟩
  | some a =>
      cases hn : next? a g.position with
      | none =>
          rw [advance_of_stuck ha hn, advanceNotes_of_stuck ha hn]
          exact hf.halt
      | some p =>
          obtain ⟨v, q⟩ := p
          have hactive := hf.isSome ha
          have hmove := hf.active
          rw [ha] at hmove
          obtain ⟨hfold, hcaused⟩ := caused_of_active (h := g.advanceNotes) hactive (by
            rw [advanceNotes_of_next ha hn]
            intro n hm
            split at hm
            · simp only [List.mem_cons, List.not_mem_nil, or_false] at hm
              obtain rfl | rfl | rfl | rfl := hm <;> rfl
            · rw [List.mem_singleton.mp hm]
              rfl)
          rw [hfold, advance_of_next ha hn]
          exact ⟨⟨hf.moves, hmove⟩, hcaused⟩

theorem Follows.perform (hf : o.Follows g) (d : TickAction) :
    ((g.notes d).foldl note o).Follows (g.perform d) ∧ o.Caused (g.notes d) := by
  cases d with
  | cancel => exact ⟨⟨rfl, rfl⟩, caused_singleton fun h => by simp [AxisNote.isEffect] at h⟩
  | settle => exact ⟨hf.of_eq rfl rfl, Caused.nil⟩
  | load => exact hf.load
  | zero =>
      have hz : o.Follows g.atSwitch := hf.of_eq rfl rfl
      obtain ⟨hfollows, hcaused⟩ := hz.finish .stoppedByCondition
      have hfirst : o.Caused [.rebased .switch] :=
        caused_singleton fun h => by simp [AxisNote.isEffect] at h
      exact ⟨hfollows, hfirst.append hcaused⟩
  | advance => exact hf.advance
  | finish reason => exact hf.finish reason

theorem Follows.performAll (hf : o.Follows g) (ds : List TickAction) :
    ((notesAll ds g).foldl note o).Follows (performAll ds g) ∧ o.Caused (notesAll ds g) := by
  induction ds generalizing o g with
  | nil => exact ⟨hf, Caused.nil⟩
  | cons d ds ih =>
      obtain ⟨hfirst, hcaused⟩ := hf.perform d
      obtain ⟨hrest, hcaused'⟩ := ih hfirst
      constructor
      · rw [notesAll, List.foldl_append]
        exact hrest
      · exact hcaused.append hcaused'

theorem Follows.interrupt (hf : o.Follows g) (limit : Bool) (encoder : Option Int32) :
    ((g.tickNotes limit).foldl note o).Follows (g.interrupt limit encoder).1 ∧
      o.Caused (g.tickNotes limit) := by
  have hs : o.Follows (g.sample limit) := hf.of_eq rfl rfl
  obtain ⟨hfollows, hcaused⟩ := hs.performAll ((g.sample limit).actions limit)
  constructor
  · rw [interrupt_eq, tickNotes]
    dsimp only
    split
    · exact hfollows.of_eq rfl rfl
    · exact hfollows
  · exact hcaused

/-! ## Every event keeps the agreement -/

variable {τ β : Type} {n n' : Node τ}

theorem Agrees.of_sameWork (ha : o.Agrees n) (hw : n.SameWork n') : o.Agrees n' := by
  constructor
  · exact hw.motionCommands ▸ ha.room
  · exact hw.motionCommands ▸ ha.commands
  · exact ha.follows.of_eq hw.moves hw.active

/-- Notes do not change the commands. -/
theorem foldl_note (h : List AxisNote) (o : Origins) :
    (h.foldl note o).commands = o.commands ∧ (h.foldl note o).handled = o.handled := by
  induction h generalizing o with
  | nil => exact ⟨rfl, rfl⟩
  | cons n h ih =>
      obtain ⟨hc, hh⟩ := ih (o.note n)
      rw [List.foldl_cons, hc, hh]
      cases n <;> exact ⟨rfl, rfl⟩

/-- Numbering what was appended to a queue and forgetting the numbers gives the queue. -/
theorem map_snd_extend {α : Type} {old : List (Nat × α)} {items new : List α} (k : Nat)
    (h : items = old.map Prod.snd ++ new) :
    (old ++ (items.drop old.length).map (k, ·)).map Prod.snd = items := by
  have hnew : items.drop old.length = new := by
    rw [h]
    exact List.drop_left' (by rw [List.length_map])
  calc
    (old ++ (items.drop old.length).map (k, ·)).map Prod.snd
        = old.map Prod.snd ++ (new.map (k, ·)).map Prod.snd := by rw [hnew, List.map_append]
    _ = old.map Prod.snd ++ new := by rw [List.map_map]; exact congrArg (_ ++ ·) (List.map_id new)
    _ = items := h.symm

theorem Agrees.of_received (ha : o.Agrees n) (hr : n.Received n') :
    (o.received n'.motionCommands.items).Agrees n' := by
  obtain ⟨rs, hrs⟩ := hr.commands
  constructor
  · exact hr.capacity ▸ ha.room
  · exact map_snd_extend o.handled (by rw [hrs, ha.commands])
  · rw [hr.axis]
    exact ⟨ha.follows.moves, ha.follows.active⟩

/-- The numbers do not matter for what a request does to the queue. -/
theorem map_snd_sent (r : GroupRequest) (table : MoveTable) (capacity k : Nat)
    (commands : List (Nat × MotionCommand)) :
    (sent r table capacity k commands).map Prod.snd =
      StagingTask.queueAfter r table capacity (commands.map Prod.snd) := by
  cases r with
  | stage m => rfl
  | report group => rfl
  | clearAll => rfl
  | execute group start cancel =>
      simp only [sent, StagingTask.queueAfter]
      cases table.group? group with
      | none => rfl
      | some g => simp [List.map_take, Function.comp_def]
  | stop =>
      simp only [sent, StagingTask.queueAfter, List.length_map]
      split
      · rw [List.map_append]
        rfl
      · rfl

theorem Agrees.runStaging (ha : o.Agrees n) :
    (o.step (.turn .staging) n n.runStaging.node).Agrees n.runStaging.node := by
  cases hq : n.groupRequests.pop? with
  | none =>
      simp only [step, hq, Node.runStaging_of_none hq]
      exact ha
  | some p =>
      obtain ⟨r, q⟩ := p
      obtain ⟨haxis, -, -, -, hcap, hitems⟩ := Node.runStaging_spec hq ha.room
      simp only [step, hq]
      constructor
      · exact hcap ▸ ha.room
      · rw [hitems, ← ha.commands]
        exact map_snd_sent r n.table _ _ o.commands
      · rw [haxis]
        exact ⟨ha.follows.moves, ha.follows.active⟩

theorem Agrees.runMotion (ha : o.Agrees n) :
    (o.step (.turn .motion) n n.runMotion.node).Agrees n.runMotion.node := by
  have hcommands := ha.commands
  simp only [step]
  cases hq : n.motionCommands.pop? with
  | none =>
      have hempty : o.commands = [] := by
        rw [Queue.pop?_eq_none_iff.mp hq] at hcommands
        exact List.map_eq_nil_iff.mp hcommands
      rw [handle_of_nil hempty, Node.runMotion_of_none hq]
      exact ha
  | some p =>
      obtain ⟨command, q⟩ := p
      obtain ⟨haxis, hqueue, -⟩ := Node.axis_runMotion hq
      obtain ⟨hitems, hcap⟩ := Queue.pop?_eq_some_iff.mp hq
      obtain ⟨new, hmoves, -⟩ := Node.moves_run_axisEvents n.controller command n.axis
      rw [hitems] at hcommands
      obtain ⟨c, rest, ho, rfl, hrest⟩ := List.map_eq_cons_iff.mp hcommands
      rw [handle_of_cons ho]
      constructor
      · rw [hqueue, hcap]
        exact ha.room
      · rw [hqueue]
        exact hrest
      · constructor
        · exact map_snd_extend c.1 (by rw [haxis, hmoves, ha.follows.moves])
        · rw [haxis, Node.active_run_axisEvents]
          exact ha.follows.active

theorem agrees_start (setup : NodeSetup) (controller : AxisController) (driver : ChipDriver τ) :
    ({} : Origins).Agrees (Node.start setup controller driver).1 :=
  ⟨Nat.zero_lt_succ 9, rfl, rfl, rfl⟩

variable [RegisterLink τ] [FrameBus β] {s : Site τ β}

theorem Agrees.step (ha : o.Agrees s.node) (e : NodeEvent) :
    (o.step e s.node (s.step e).node).Agrees (s.step e).node := by
  cases e with
  | frame id payload => exact ha.of_received (Node.received_handleFrame s.node id payload)
  | tick limit encoder =>
      refine ⟨ha.room, ?_, (ha.follows.interrupt limit encoder).1⟩
      rw [Origins.step, (foldl_note _ o).1]
      exact ha.commands
  | turn task =>
      cases task with
      | motion => exact ha.runMotion
      | staging => exact ha.runStaging
      | reports => exact ha.of_sameWork (Node.sameWork_runReports s.node)
      | chip => exact ha.of_sameWork (Node.sameWork_runChip s.node)
      | outbox => exact ha.of_sameWork (Node.sameWork_runOutbox s.node s.bus)

theorem Agrees.run (ha : o.Agrees s.node) (es : List NodeEvent) :
    (s.origins o es).Agrees (s.run es).node := by
  apply Site.origins_invariant (I := fun o s => o.Agrees s.node)
  · intro o s e ha
    exact ha.step e
  · exact ha

/-- Every pulse and every acknowledgement of a run has an active move. -/
theorem Agrees.isSome_of_causes (ha : o.Agrees s.node) (es : List NodeEvent) :
    ∀ p ∈ s.causes o es, p.2.isEffect = true → p.1.isSome = true := by
  apply Site.causes_invariant (I := fun o s => o.Agrees s.node)
  · intro o s e ha
    exact ha.step e
  · intro o s limit ha
    exact (ha.follows.interrupt limit none).2
  · exact ha

end Origins

end AxisNode
