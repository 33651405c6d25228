import AxisNode.Motion.StepGenerator

/-!
# What a tick does

A tick samples the switch, does a few things one after another and reads the encoder. Here it is
taken apart into these actions, and each action says what it has done in notes: which move it
loaded, where it set the position anew, how it advanced, which calls it made and which
acknowledgement it offered. The notes of all ticks together are the history that statements about
runs speak of.

## Implementation notes

An action is a function of the generator alone, so a fact about a tick is proved once for each
action and then carried along the list of actions.
-/

namespace AxisNode

/-- One thing that a tick can do to the generator. -/
inductive TickAction where
  /-- Takes the request back and drops every move. -/
  | cancel
  /-- Forgets that a move has just ended. -/
  | settle
  | load
  /-- Ends a homing move at the pressed switch. -/
  | zero
  | advance
  | finish (reason : AckReason)
deriving DecidableEq, Repr

/-- Why a position was set anew instead of being counted on. -/
inductive Rebase where
  | start
  /-- The limit switch was reached. -/
  | switch
  /-- A homing move was loaded while the position was unknown. -/
  | top
deriving DecidableEq, Repr

/-- The position at which the count starts again. -/
def Rebase.position : Rebase → Int
  | start => 0
  | switch => 0
  | top => FixedPoint.topPosition

/-- Something that an action has done. -/
inductive AxisNote where
  | cancelled
  | loaded (m : Move)
  | rebased (r : Rebase)
  /-- The active move was advanced to a velocity and a position. -/
  | advanced (velocity position : Int)
  | called (c : PinCall)
  /-- An acknowledgement was offered to the queue, which may have been full. -/
  | acked (a : MoveAck)
deriving DecidableEq, Repr

/-- How the axis stands when a move ends. -/
def AxisStatus.ack (s : AxisStatus) (m : Move) (reason : AckReason) : MoveAck where
  group := m.group
  seq := m.seq
  position := s.position
  encoder := s.encoder
  flags := ⟨s.flags.bits⟩
  reason

namespace StepGenerator

open FixedPoint

variable {g : StepGenerator} {a : RunningMove} {m : Move}

/-! ## Offering acknowledgements -/

/-- Puts an acknowledgement on the queue, or raises the flag that says it was lost. -/
def offer (a : MoveAck) (g : StepGenerator) : StepGenerator :=
  match g.acks.push? a with
  | some acks => { g with acks }
  | none => g.mapStatus (·.raise .ackDropped)

@[simp] theorem position_offer (a : MoveAck) (g : StepGenerator) :
    (g.offer a).position = g.position := by
  unfold offer; split <;> rfl

@[simp] theorem active_offer (a : MoveAck) (g : StepGenerator) :
    (g.offer a).active = g.active := by
  unfold offer; split <;> rfl

@[simp] theorem phase_offer (a : MoveAck) (g : StepGenerator) :
    (g.offer a).phase = g.phase := by
  unfold offer; split <;> rfl

@[simp] theorem moves_offer (a : MoveAck) (g : StepGenerator) :
    (g.offer a).moves = g.moves := by
  unfold offer; split <;> rfl

@[simp] theorem status_position_offer (a : MoveAck) (g : StepGenerator) :
    (g.offer a).status.position = g.status.position := by
  unfold offer; split <;> rfl

@[simp] theorem status_limitSwitch_offer (a : MoveAck) (g : StepGenerator) :
    (g.offer a).status.limitSwitch = g.status.limitSwitch := by
  unfold offer; split <;> rfl

@[simp] theorem status_cancelRequested_offer (a : MoveAck) (g : StepGenerator) :
    (g.offer a).status.cancelRequested = g.status.cancelRequested := by
  unfold offer; split <;> rfl

/-- An acknowledgement that is lost raises its own flag and no other. -/
theorem status_has_offer (a : MoveAck) (g : StepGenerator) {x : AxisFlag} (hx : x ≠ .ackDropped) :
    (g.offer a).status.has x = g.status.has x := by
  unfold offer; split <;> simp [mapStatus, hx]

@[simp] theorem status_has_stepperOk_offer (a : MoveAck) (g : StepGenerator) :
    (g.offer a).status.has .stepperOk = g.status.has .stepperOk :=
  status_has_offer a g (by decide)

/-! ## Ending a move -/

/-- The generator as it halts, before it acknowledges the move it was running. -/
def halting (g : StepGenerator) : StepGenerator :=
  { g with
    phase := .halted
    active := none
    status := (g.status.lower .stepperOk).raise .overflow }

/-- The generator as it retires its move, before it acknowledges it. -/
def retiring (g : StepGenerator) : StepGenerator :=
  { g with active := none, phase := .moveComplete }

theorem halt_eq_of_active (h : g.active = some a) :
    g.halt = g.halting.offer (g.halting.status.ack a.move .positionError) := by
  simp only [halt, h]; rfl

theorem halt_eq_of_none (h : g.active = none) : g.halt = g.halting := by
  simp only [halt, h]; rfl

theorem finish_eq_of_active {reason : AckReason} (h : g.active = some a) :
    g.finish reason = g.retiring.offer (g.status.ack a.move reason) := by
  simp only [finish, h]; rfl

theorem finish_eq_of_none {reason : AckReason} (h : g.active = none) : g.finish reason = g := by
  simp only [finish, h]

theorem active_finish (reason : AckReason) (g : StepGenerator) :
    (g.finish reason).active = none := by
  cases ha : g.active with
  | none => rw [finish_eq_of_none ha, ha]
  | some a =>
      rw [finish_eq_of_active ha]
      exact active_offer _ _

theorem active_halt (g : StepGenerator) : g.halt.active = none := by
  cases ha : g.active with
  | none => rw [halt_eq_of_none ha]; rfl
  | some a =>
      rw [halt_eq_of_active ha]
      exact active_offer _ _

/-! ## Loading a move -/

theorem hasMoves_of_head? (h : g.moves.items.head? = some m) : g.hasMoves = true := by
  obtain ⟨rest, hr⟩ := List.head?_eq_some_iff.mp h
  simp [hasMoves, Queue.isEmpty, hr]

/-- Takes up a move that has left the queue, before its end is known. -/
def mount (m : Move) (moves : Queue Move) (g : StepGenerator) : StepGenerator :=
  let g := { g with moves }
  let g := if m.homes && !g.status.has .stepperOk then g.setPosition topPosition else g
  { g with active := some { move := m, velocity := m.velocity } }

@[simp] theorem status_has_mount (m : Move) (moves : Queue Move) (g : StepGenerator)
    (x : AxisFlag) : (g.mount m moves).status.has x = g.status.has x := by
  unfold mount
  dsimp only
  split <;> rfl

theorem load_eq_of_none (h : g.moves.pop? = none) : g.load = g := by
  simp only [load, h]

theorem load_eq_of_some {moves : Queue Move} (h : g.moves.pop? = some (m, moves)) :
    g.load = match m.targetFrom (g.mount m moves).position with
      | some target => { g.mount m moves with
          active := some { move := m, velocity := m.velocity, target }, phase := .stepping }
      | none => (g.mount m moves).halt := by
  simp only [load, h]
  rfl

/-- An advance raises the velocity first and keeps the position in range. -/
theorem next?_eq_some_iff {position v p : Int} :
    next? a position = some (v, p) ↔
      Fits v ∧ v = a.velocity + a.move.acceleration ∧ p = position + v ∧ 0 ≤ p ∧
        p ≤ topPosition := by
  simp only [next?, bind, Option.bind_eq_some_iff, fit?_eq_some_iff, Option.ite_none_right_eq_some,
    Option.some.injEq, Prod.mk.injEq]
  constructor
  · rintro ⟨w, ⟨hf, hw⟩, ⟨h0, ht⟩, rfl, rfl⟩
    exact ⟨hw ▸ hf, hw.symm, rfl, h0, ht⟩
  · rintro ⟨hf, rfl, rfl, h0, ht⟩
    exact ⟨_, ⟨hf, rfl⟩, ⟨h0, ht⟩, rfl, rfl⟩

/-! ## Actions and their notes -/

/-- The generator at the pressed switch, before it retires its move. -/
def atSwitch (g : StepGenerator) : StepGenerator :=
  (g.place 0).mapStatus (·.raise .stepperOk)

@[simp] theorem status_has_place (position : Int) (g : StepGenerator) (x : AxisFlag) :
    (g.place position).status.has x = g.status.has x := rfl

theorem status_has_atSwitch (g : StepGenerator) (x : AxisFlag) :
    g.atSwitch.status.has x = (g.status.has x || decide (x = .stepperOk)) := by
  simp [atSwitch, mapStatus]

/-- The generator after an action. -/
def perform (d : TickAction) (g : StepGenerator) : StepGenerator :=
  match d with
  | .cancel => { g with status := g.status.takeCancel.2 }.cancel
  | .settle => { g with phase := .idle }
  | .load => g.load
  | .zero => g.stopAtSwitch
  | .advance => g.advance.1
  | .finish reason => g.finish reason

/-- A halt acknowledges the active move with an error of position. -/
def haltNotes (g : StepGenerator) : List AxisNote :=
  g.active.toList.map fun a => .acked (g.halting.status.ack a.move .positionError)

/-- The end of a move acknowledges it. -/
def finishNotes (reason : AckReason) (g : StepGenerator) : List AxisNote :=
  g.active.toList.map fun a => .acked (g.status.ack a.move reason)

/-- A load takes the oldest move. It may have to start from the top, and it may end the move at once
with a halt. -/
def loadNotes (g : StepGenerator) : List AxisNote :=
  match g.moves.pop? with
  | none => []
  | some (m, moves) =>
      let mounted := g.mount m moves
      .loaded m ::
        ((if m.homes && !g.status.has .stepperOk then [.rebased .top] else []) ++
          if (m.targetFrom mounted.position).isNone then mounted.haltNotes else [])

/-- An advance goes on to the next position, with a pulse if the parity of the whole steps changes,
or halts. -/
def advanceNotes (g : StepGenerator) : List AxisNote :=
  match g.active with
  | none => []
  | some a =>
      match next? a g.position with
      | none => g.haltNotes
      | some (velocity, position) =>
          .advanced velocity position ::
            if crossesStep g.position position then
              [.called g.advance.1.direction, .called .step, .called .unstep]
            else []

theorem loadNotes_of_none (h : g.moves.pop? = none) : g.loadNotes = [] := by
  simp only [loadNotes, h]

theorem loadNotes_of_some {moves : Queue Move} (h : g.moves.pop? = some (m, moves)) :
    g.loadNotes = .loaded m ::
      ((if m.homes && !g.status.has .stepperOk then [.rebased .top] else []) ++
        if (m.targetFrom (g.mount m moves).position).isNone then (g.mount m moves).haltNotes
        else []) := by
  simp only [loadNotes, h]

theorem advance_of_none (h : g.active = none) : g.advance = (g, false) := by
  simp only [advance, h]

theorem advanceNotes_of_none (h : g.active = none) : g.advanceNotes = [] := by
  simp only [advanceNotes, h]

theorem advance_of_stuck (h : g.active = some a) (hn : next? a g.position = none) :
    g.advance = (g.halt, false) := by
  simp only [advance, h, hn]

theorem advanceNotes_of_stuck (h : g.active = some a) (hn : next? a g.position = none) :
    g.advanceNotes = g.haltNotes := by
  simp only [advanceNotes, h, hn]

theorem advance_of_next {v p : Int} (h : g.active = some a)
    (hn : next? a g.position = some (v, p)) :
    g.advance =
      (place p { g with active := some { a with velocity := v, ticks := a.ticks + 1 } },
        crossesStep g.position p) := by
  simp only [advance, h, hn]

/-- A step is preceded by the direction of the velocity just reached. -/
theorem advanceNotes_of_next {v p : Int} (h : g.active = some a)
    (hn : next? a g.position = some (v, p)) :
    g.advanceNotes = .advanced v p ::
      if crossesStep g.position p then
        [.called (if 0 ≤ v then .positive else .negative), .called .step, .called .unstep]
      else [] := by
  simp [advanceNotes, h, hn, advance_of_next h hn, place, direction]

/-- What an action says it has done. -/
def notes (d : TickAction) (g : StepGenerator) : List AxisNote :=
  match d with
  | .cancel => [.cancelled]
  | .settle => []
  | .load => g.loadNotes
  | .zero => .rebased .switch :: g.atSwitch.finishNotes .stoppedByCondition
  | .advance => g.advanceNotes
  | .finish reason => g.finishNotes reason

/-- The generator after actions one behind the other. -/
def performAll : List TickAction → StepGenerator → StepGenerator
  | [], g => g
  | d :: ds, g => performAll ds (g.perform d)

/-- What actions one behind the other note. -/
def notesAll : List TickAction → StepGenerator → List AxisNote
  | [], _ => []
  | d :: ds, g => g.notes d ++ notesAll ds (g.perform d)

theorem performAll_append (ds es : List TickAction) (g : StepGenerator) :
    performAll (ds ++ es) g = performAll es (performAll ds g) := by
  induction ds generalizing g with
  | nil => rfl
  | cons d ds ih => exact ih (g.perform d)

theorem notesAll_append (ds es : List TickAction) (g : StepGenerator) :
    notesAll (ds ++ es) g = notesAll ds g ++ notesAll es (performAll ds g) := by
  induction ds generalizing g with
  | nil => rfl
  | cons d ds ih => simp only [List.cons_append, notesAll, performAll, ih, List.append_assoc]

/-! ## The actions of a tick -/

/-- Retires the active move and takes up the next one, if there is one. -/
def changeOverActions (g : StepGenerator) : List TickAction :=
  let reason := if g.isHoming then .timeout else .completeWithoutCondition
  let retired := g.finish reason
  .finish reason ::
    if retired.hasMoves then .load :: if retired.load.hasTicks then [.advance] else [] else []

/-- The actions of a tick that neither cancels nor finds the generator halted. -/
def actActions (limit : Bool) (g : StepGenerator) : List TickAction :=
  if g.active.isNone then
    if g.hasMoves then [.load] else if g.phase = .moveComplete then [.settle] else []
  else if g.isHoming && limit then [.zero]
  else if g.hasTicks then [.advance]
  else g.changeOverActions

/-- The actions of a tick. -/
def actions (limit : Bool) (g : StepGenerator) : List TickAction :=
  if g.status.cancelRequested then [.cancel]
  else if g.phase = .halted then []
  else g.actActions limit

/-- The generator once the switch has been sampled. -/
def sample (limit : Bool) (g : StepGenerator) : StepGenerator :=
  g.mapStatus fun s => { s with limitSwitch := limit }

/-- The generator once the encoder has been read, if there is one. -/
def readEncoder (encoder : Option Int32) (g : StepGenerator) : StepGenerator :=
  g.mapStatus fun s => { s with encoder := encoder.getD s.encoder }

/-- What a tick says it has done. -/
def tickNotes (limit : Bool) (g : StepGenerator) : List AxisNote :=
  notesAll ((g.sample limit).actions limit) (g.sample limit)

end StepGenerator

namespace AxisNote

/-- The call in a note. -/
@[simp] def call? : AxisNote → Option PinCall
  | called c => some c
  | _ => none

/-- The acknowledgement in a note. -/
@[simp] def ack? : AxisNote → Option MoveAck
  | acked a => some a
  | _ => none

/-- The loaded move in a note. -/
@[simp] def load? : AxisNote → Option Move
  | loaded m => some m
  | _ => none

/-- The velocity in a note. -/
@[simp] def velocity? : AxisNote → Option Int
  | advanced v _ => some v
  | _ => none

end AxisNote

/-- The calls on the lines, in their order. -/
def calls (h : List AxisNote) : List PinCall := h.filterMap AxisNote.call?

/-- The acknowledgements that were offered, in their order. -/
def acks (h : List AxisNote) : List MoveAck := h.filterMap AxisNote.ack?

/-- The moves that were loaded, in their order. -/
def loads (h : List AxisNote) : List Move := h.filterMap AxisNote.load?

/-- The velocities with which the position was advanced, in their order. -/
def velocities (h : List AxisNote) : List Int := h.filterMap AxisNote.velocity?

namespace StepGenerator

open FixedPoint

variable {g : StepGenerator}

/-! ## What the notes of an action say -/

section

variable {α : Type} {f : AxisNote → Option α}

theorem filterMap_finishNotes (hf : ∀ a, f (.acked a) = none) (reason : AckReason)
    (g : StepGenerator) : (g.finishNotes reason).filterMap f = [] := by
  unfold finishNotes
  cases g.active with
  | none => rfl
  | some a => simp [hf]

theorem filterMap_haltNotes (hf : ∀ a, f (.acked a) = none) (g : StepGenerator) :
    g.haltNotes.filterMap f = [] := by
  unfold haltNotes
  cases g.active with
  | none => rfl
  | some a => simp [hf]

end

@[simp] theorem calls_nil : calls [] = [] := rfl

@[simp] theorem calls_cons (n : AxisNote) (h : List AxisNote) :
    calls (n :: h) = n.call?.toList ++ calls h := by
  cases n <;> rfl

@[simp] theorem calls_append (h k : List AxisNote) : calls (h ++ k) = calls h ++ calls k :=
  List.filterMap_append

@[simp] theorem calls_finishNotes (reason : AckReason) (g : StepGenerator) :
    calls (g.finishNotes reason) = [] :=
  filterMap_finishNotes (fun _ => rfl) reason g

@[simp] theorem calls_haltNotes (g : StepGenerator) : calls g.haltNotes = [] :=
  filterMap_haltNotes (fun _ => rfl) g

@[simp] theorem calls_loadNotes (g : StepGenerator) : calls g.loadNotes = [] := by
  unfold loadNotes
  cases g.moves.pop? with
  | none => rfl
  | some p =>
      simp only [calls_cons, calls_append]
      split <;> split <;> simp

@[simp] theorem acks_nil : acks [] = [] := rfl

@[simp] theorem acks_cons (n : AxisNote) (h : List AxisNote) :
    acks (n :: h) = n.ack?.toList ++ acks h := by
  cases n <;> rfl

@[simp] theorem acks_append (h k : List AxisNote) : acks (h ++ k) = acks h ++ acks k :=
  List.filterMap_append

@[simp] theorem loads_nil : loads [] = [] := rfl

@[simp] theorem loads_cons (n : AxisNote) (h : List AxisNote) :
    loads (n :: h) = n.load?.toList ++ loads h := by
  cases n <;> rfl

@[simp] theorem loads_append (h k : List AxisNote) : loads (h ++ k) = loads h ++ loads k :=
  List.filterMap_append

@[simp] theorem loads_finishNotes (reason : AckReason) (g : StepGenerator) :
    loads (g.finishNotes reason) = [] :=
  filterMap_finishNotes (fun _ => rfl) reason g

@[simp] theorem loads_haltNotes (g : StepGenerator) : loads g.haltNotes = [] :=
  filterMap_haltNotes (fun _ => rfl) g

@[simp] theorem loads_advanceNotes (g : StepGenerator) : loads g.advanceNotes = [] := by
  cases ha : g.active with
  | none => simp [advanceNotes_of_none ha]
  | some a =>
      cases hn : next? a g.position with
      | none => simp [advanceNotes_of_stuck ha hn]
      | some p =>
          rw [advanceNotes_of_next (v := p.1) (p := p.2) ha hn]
          split <;> simp

@[simp] theorem loads_loadNotes (g : StepGenerator) :
    loads g.loadNotes = (g.moves.pop?.map Prod.fst).toList := by
  cases hq : g.moves.pop? with
  | none => simp [loadNotes_of_none hq]
  | some p =>
      obtain ⟨m, moves⟩ := p
      rw [loadNotes_of_some hq]
      split <;> split <;> simp

/-- An advance calls on the lines exactly when the parity of the whole steps changes. -/
@[simp] theorem calls_advanceNotes (g : StepGenerator) :
    calls g.advanceNotes =
      if g.advance.2 then [g.advance.1.direction, .step, .unstep] else [] := by
  unfold advanceNotes
  cases h : g.active with
  | none => simp [advance, h, calls]
  | some a =>
      cases hn : next? a g.position with
      | none => simp [advance, h, hn]
      | some p =>
          by_cases hc : crossesStep g.position p.2 <;>
            simp [advance, h, hn, hc]

/-- The calls that follow a tick with a step, in which the direction comes first. -/
def pulse (r : StepGenerator × Bool) : List PinCall :=
  if r.2 then [r.1.direction, .step, .unstep] else []

theorem advance_eq (g : StepGenerator) :
    (g.advance.1, pulse g.advance) = (performAll [.advance] g, calls (notesAll [.advance] g)) := by
  simp [performAll, notesAll, perform, notes, pulse]

theorem changeOver_eq (g : StepGenerator) :
    (g.changeOver.1, pulse g.changeOver) =
      (performAll g.changeOverActions g, calls (notesAll g.changeOverActions g)) := by
  unfold changeOver changeOverActions
  generalize (if g.isHoming then AckReason.timeout else .completeWithoutCondition) = reason
  by_cases hm : (g.finish reason).hasMoves
  · by_cases ht : (g.finish reason).load.hasTicks <;>
      simp [hm, ht, performAll, notesAll, perform, notes, pulse]
  · simp [hm, performAll, notesAll, perform, notes, pulse]

theorem act_eq (limit : Bool) (g : StepGenerator) :
    ((g.act limit).1, pulse (g.act limit)) =
      (performAll (g.actActions limit) g, calls (notesAll (g.actActions limit) g)) := by
  unfold act actActions
  by_cases ha : g.active.isNone
  · by_cases hm : g.hasMoves
    · simp [ha, hm, performAll, notesAll, perform, notes, pulse]
    · by_cases hp : g.phase = .moveComplete <;>
        simp [ha, hm, hp, performAll, notesAll, perform, notes, pulse]
  · by_cases hz : g.isHoming && limit
    · simp [ha, hz, performAll, notesAll, perform, notes, pulse]
    · by_cases ht : g.hasTicks
      · simpa only [ha, hz, ht, Bool.false_eq_true, if_false, if_true] using advance_eq g
      · simpa only [ha, hz, ht, Bool.false_eq_true, if_false, if_true] using changeOver_eq g

/-- The generator once the switch has been sampled and a request to cancel has been taken back. -/
def begun (limit : Bool) (g : StepGenerator) : StepGenerator :=
  { g.sample limit with status := (g.sample limit).status.takeCancel.2 }

theorem begun_eq_sample (limit : Bool) (h : g.status.cancelRequested = false) :
    g.begun limit = g.sample limit := by
  simp only [begun, sample, mapStatus, AxisStatus.takeCancel]
  rw [← h]

theorem interrupt_eq_begun (limit : Bool) (encoder : Option Int32) (g : StepGenerator) :
    g.interrupt limit encoder =
      if g.status.cancelRequested then ((g.begun limit).cancel, [])
      else if g.phase = .halted then (g.begun limit, [])
      else (((g.begun limit).act limit).1.readEncoder encoder,
        pulse ((g.begun limit).act limit)) := rfl

/-- A tick performs its actions on the sampled generator and then reads the encoder, unless it
cancels or the axis is halted; the calls it makes are the ones that it notes. -/
theorem interrupt_eq (limit : Bool) (encoder : Option Int32) (g : StepGenerator) :
    g.interrupt limit encoder =
      (let h := performAll ((g.sample limit).actions limit) (g.sample limit)
        if g.readsEncoder then h.readEncoder encoder else h, calls (g.tickNotes limit)) := by
  have hs : (g.sample limit).status.cancelRequested = g.status.cancelRequested := rfl
  have hp : (g.sample limit).phase = g.phase := rfl
  rw [interrupt_eq_begun, tickNotes, readsEncoder, actions, hs, hp]
  cases hc : g.status.cancelRequested with
  | true => simp [performAll, notesAll, perform, notes, begun]
  | false =>
      rw [begun_eq_sample limit hc]
      by_cases hh : g.phase = .halted
      · simp [hh, performAll, notesAll]
      · have h := act_eq limit (g.sample limit)
        simp only [Prod.mk.injEq] at h
        simp [hh, h.1, h.2]

theorem interrupt_snd (limit : Bool) (encoder : Option Int32) (g : StepGenerator) :
    (g.interrupt limit encoder).2 = calls (g.tickNotes limit) := by
  rw [interrupt_eq]

/-! ## When an action is due -/

/-- The states in which a tick does an action. -/
def Due (limit : Bool) (g : StepGenerator) : TickAction → Prop
  | .cancel => g.status.cancelRequested = true
  | .settle => g.active = none ∧ g.phase = .moveComplete
  | .load => g.active = none ∧ g.phase ≠ .halted ∧ g.hasMoves = true
  | .zero => g.isHoming = true ∧ limit = true
  | .advance => g.hasTicks = true
  | .finish _ => g.active.isSome = true ∧ g.hasTicks = false

/-- Every action is due when its turn comes. -/
def AllDue (limit : Bool) : List TickAction → StepGenerator → Prop
  | [], _ => True
  | d :: ds, g => g.Due limit d ∧ AllDue limit ds (g.perform d)

theorem phase_finish {a : RunningMove} (ha : g.active = some a) (reason : AckReason) :
    (g.finish reason).phase = .moveComplete := by
  rw [finish_eq_of_active ha]
  exact phase_offer _ _

theorem allDue_changeOverActions (ha : g.active.isSome = true) (ht : g.hasTicks = false) :
    AllDue limit g.changeOverActions g := by
  obtain ⟨a, hg⟩ := Option.isSome_iff_exists.mp ha
  unfold changeOverActions
  generalize (if g.isHoming then AckReason.timeout else .completeWithoutCondition) = reason
  refine ⟨⟨ha, ht⟩, ?_⟩
  split
  · next hm =>
      have hload : (g.finish reason).Due limit .load :=
        ⟨active_finish reason g, by simp [phase_finish hg], hm⟩
      refine ⟨hload, ?_⟩
      split
      · next ht => exact ⟨ht, trivial⟩
      · trivial
  · trivial

/-- A tick does nothing that is not due. -/
theorem allDue_actions (limit : Bool) (g : StepGenerator) : AllDue limit (g.actions limit) g := by
  unfold actions actActions
  split
  · next hc => exact ⟨hc, trivial⟩
  split
  · trivial
  next hh =>
  split
  · next ha =>
      have hnone := Option.isNone_iff_eq_none.mp ha
      split
      · next hm => exact ⟨⟨hnone, hh, hm⟩, trivial⟩
      · split
        · next hp => exact ⟨⟨hnone, hp⟩, trivial⟩
        · trivial
  next ha =>
  split
  · next hz => exact ⟨Bool.and_eq_true_iff.mp hz, trivial⟩
  split
  · next ht => exact ⟨ht, trivial⟩
  next ht =>
  have hsome : g.active.isSome = true := by simpa [Option.isSome_iff_ne_none] using ha
  exact allDue_changeOverActions hsome (by simpa using ht)

/-! ## Carrying a fact through a tick -/

section Fold

variable {T : Type} (note : T → AxisNote → T) (I : StepGenerator → T → Prop) (ok : AxisNote → Prop)
  {limit : Bool}
  (hp : ∀ d g t, g.Due limit d → (∀ n ∈ g.notes d, ok n) → I g t →
    I (g.perform d) ((g.notes d).foldl note t))

include hp

theorem performAll_fold (ds : List TickAction) (g : StepGenerator) (t : T)
    (hd : AllDue limit ds g) (hok : ∀ n ∈ notesAll ds g, ok n) (h : I g t) :
    I (performAll ds g) ((notesAll ds g).foldl note t) := by
  induction ds generalizing g t with
  | nil => exact h
  | cons d ds ih =>
      simp only [notesAll, List.mem_append] at hok
      rw [notesAll, List.foldl_append]
      exact ih (g.perform d) _ hd.2 (fun n hn => hok n (.inr hn))
        (hp d g t hd.1 (fun n hn => hok n (.inl hn)) h)

/-- What every action that is due keeps between the generator and an account of the notes, a tick
keeps. -/
theorem interrupt_fold (hs : ∀ g t limit, I g t → I (sample limit g) t)
    (he : ∀ g t encoder, I g t → I (readEncoder encoder g) t) (encoder : Option Int32)
    (g : StepGenerator) (t : T) (hok : ∀ n ∈ g.tickNotes limit, ok n) (h : I g t) :
    I (g.interrupt limit encoder).1 ((g.tickNotes limit).foldl note t) := by
  have hd := performAll_fold note I ok hp _ (g.sample limit) t
    (allDue_actions limit (g.sample limit)) hok (hs g t limit h)
  rw [interrupt_eq, tickNotes]
  by_cases hr : g.readsEncoder
  · simpa only [hr, if_true] using he _ _ encoder hd
  · simpa only [hr, Bool.false_eq_true, if_false] using hd

end Fold

/-! ## Where acknowledgements go -/

end StepGenerator

/-- What a tick leaves for the reader of acknowledgements: a queue, and whether one was lost. -/
structure AckTray where
  queue : Queue MoveAck
  lost : Bool
deriving DecidableEq, Repr

/-- The tray after an acknowledgement was offered to it. -/
def AckTray.receive (t : AckTray) (a : MoveAck) : AckTray :=
  match t.queue.push? a with
  | some queue => { t with queue }
  | none => { t with lost := true }

namespace StepGenerator

variable {g : StepGenerator}

/-- The part of the generator that acknowledgements go to. -/
def tray (g : StepGenerator) : AckTray := ⟨g.acks, g.status.has .ackDropped⟩

theorem tray_offer (a : MoveAck) (g : StepGenerator) : (g.offer a).tray = g.tray.receive a := by
  unfold offer AckTray.receive tray
  cases g.acks.push? a <;> simp [mapStatus]

theorem tray_finish (reason : AckReason) (g : StepGenerator) :
    (g.finish reason).tray = (acks (g.finishNotes reason)).foldl AckTray.receive g.tray := by
  cases ha : g.active with
  | none => simp [finish_eq_of_none ha, finishNotes, ha]
  | some a =>
      rw [finish_eq_of_active ha, tray_offer]
      simp [finishNotes, ha, retiring, tray]

theorem tray_halting (g : StepGenerator) : g.halting.tray = g.tray := by
  simp [tray, halting]

theorem tray_halt (g : StepGenerator) :
    g.halt.tray = (acks g.haltNotes).foldl AckTray.receive g.tray := by
  cases ha : g.active with
  | none => simp [halt_eq_of_none ha, haltNotes, ha, tray_halting]
  | some a =>
      rw [halt_eq_of_active ha, tray_offer, tray_halting]
      simp [haltNotes, ha]

theorem tray_mount (m : Move) (moves : Queue Move) (g : StepGenerator) :
    (g.mount m moves).tray = g.tray := by
  unfold mount
  dsimp only
  split <;> rfl

theorem tray_load (g : StepGenerator) :
    g.load.tray = (acks g.loadNotes).foldl AckTray.receive g.tray := by
  cases hq : g.moves.pop? with
  | none => simp [load_eq_of_none hq, loadNotes_of_none hq]
  | some p =>
      obtain ⟨m, moves⟩ := p
      have hm := tray_mount m moves g
      have hh := tray_halt (g.mount m moves)
      have hr : acks (if m.homes && !g.status.has .stepperOk then [.rebased .top] else []) =
          [] := by
        split <;> rfl
      rw [load_eq_of_some hq, loadNotes_of_some hq, acks_cons, acks_append, hr]
      cases m.targetFrom (g.mount m moves).position with
      | some target => exact hm
      | none => exact hh.trans (congrArg (List.foldl AckTray.receive · _) hm)

theorem tray_advance (g : StepGenerator) :
    g.advance.1.tray = (acks g.advanceNotes).foldl AckTray.receive g.tray := by
  cases ha : g.active with
  | none => simp [advance_of_none ha, advanceNotes_of_none ha]
  | some a =>
      cases hn : next? a g.position with
      | none => simpa [advance_of_stuck ha hn, advanceNotes_of_stuck ha hn] using tray_halt g
      | some p =>
          rw [advance_of_next (v := p.1) (p := p.2) ha hn,
            advanceNotes_of_next (v := p.1) (p := p.2) ha hn]
          split <;> rfl

theorem tray_atSwitch (g : StepGenerator) : g.atSwitch.tray = g.tray := by
  simp [tray, status_has_atSwitch]
  rfl

theorem tray_perform (d : TickAction) (g : StepGenerator) :
    (g.perform d).tray = (acks (g.notes d)).foldl AckTray.receive g.tray := by
  cases d with
  | cancel => simp [perform, notes, cancel, tray]
  | settle => rfl
  | load => exact tray_load g
  | zero =>
      have hz := tray_finish .stoppedByCondition g.atSwitch
      rwa [tray_atSwitch] at hz
  | advance => exact tray_advance g
  | finish reason => exact tray_finish reason g

/-- Every acknowledgement that a tick notes was offered to the reader, and nothing else was. -/
theorem tray_interrupt (limit : Bool) (encoder : Option Int32) (g : StepGenerator) :
    (g.interrupt limit encoder).1.tray =
      (acks (g.tickNotes limit)).foldl AckTray.receive g.tray := by
  rw [acks, List.foldl_filterMap]
  apply interrupt_fold _ (fun g t => g.tray = t) fun _ => True
  · intro d g t _ _ h
    rw [tray_perform, acks, List.foldl_filterMap, h]
  · intro g t limit h
    exact h
  · intro g t encoder h
    exact h
  · intro n _
    trivial
  · rfl

/-! ## Where moves come from -/

theorem moves_finish (reason : AckReason) (g : StepGenerator) :
    (g.finish reason).moves = g.moves := by
  cases ha : g.active with
  | none => rw [finish_eq_of_none ha]
  | some a =>
      rw [finish_eq_of_active ha]
      exact moves_offer _ _

theorem moves_halt (g : StepGenerator) : g.halt.moves = g.moves := by
  cases ha : g.active with
  | none => rw [halt_eq_of_none ha]; rfl
  | some a =>
      rw [halt_eq_of_active ha]
      exact moves_offer _ _

theorem moves_mount (m : Move) (moves : Queue Move) (g : StepGenerator) :
    (g.mount m moves).moves = moves := by
  unfold mount
  dsimp only
  split <;> rfl

theorem moves_load {m : Move} {moves : Queue Move} (h : g.moves.pop? = some (m, moves)) :
    g.load.moves = moves := by
  rw [load_eq_of_some h]
  split
  · exact moves_mount m moves g
  · exact (moves_halt _).trans (moves_mount m moves g)

theorem moves_advance (g : StepGenerator) : g.advance.1.moves = g.moves := by
  cases ha : g.active with
  | none => rw [advance_of_none ha]
  | some a =>
      cases hn : next? a g.position with
      | none => rw [advance_of_stuck ha hn]; exact moves_halt g
      | some p => rw [advance_of_next (v := p.1) (p := p.2) ha hn]; rfl

/-- Only a cancel drops moves: what is loaded comes from the front of the queue. -/
theorem loads_perform {d : TickAction} (hd : d ≠ .cancel) (g : StepGenerator) :
    loads (g.notes d) ++ (g.perform d).moves.items = g.moves.items := by
  cases d with
  | cancel => exact absurd rfl hd
  | settle => rfl
  | load =>
      simp only [notes, perform, loads_loadNotes]
      cases hq : g.moves.pop? with
      | none => rw [load_eq_of_none hq]; rfl
      | some p =>
          obtain ⟨m, moves⟩ := p
          rw [moves_load hq, (Queue.pop?_eq_some_iff.mp hq).1]
          rfl
  | zero =>
      simp only [notes, perform, loads_cons, loads_finishNotes]
      exact congrArg Queue.items (moves_finish .stoppedByCondition g.atSwitch)
  | advance =>
      simp only [notes, perform, loads_advanceNotes, moves_advance]
      rfl
  | finish reason =>
      simp only [notes, perform, loads_finishNotes, moves_finish]
      rfl

theorem cancel_mem_actions_iff {limit : Bool} :
    .cancel ∈ g.actions limit ↔ g.status.cancelRequested = true := by
  unfold actions actActions changeOverActions
  grind

theorem loads_performAll {ds : List TickAction} (hds : .cancel ∉ ds) (g : StepGenerator) :
    loads (notesAll ds g) ++ (performAll ds g).moves.items = g.moves.items := by
  induction ds generalizing g with
  | nil => rfl
  | cons d ds ih =>
      rw [List.mem_cons, not_or] at hds
      rw [notesAll, performAll, loads_append, List.append_assoc, ih hds.2,
        loads_perform (Ne.symm hds.1)]

/-- Without a request to cancel the queue gives up only what is loaded. -/
theorem loads_interrupt_eq (hc : g.status.cancelRequested = false) (limit : Bool)
    (encoder : Option Int32) :
    loads (g.tickNotes limit) ++ (g.interrupt limit encoder).1.moves.items = g.moves.items := by
  have hs : (g.sample limit).status.cancelRequested = false := hc
  have hkeeps : .cancel ∉ (g.sample limit).actions limit := by
    rw [cancel_mem_actions_iff, hs]
    exact Bool.false_ne_true
  have hall := loads_performAll hkeeps (g.sample limit)
  rw [interrupt_eq, tickNotes]
  dsimp only
  split <;> exact hall

/-- A tick that was asked to cancel notes nothing else. -/
theorem tickNotes_of_cancelRequested (limit : Bool) (hc : g.status.cancelRequested = true) :
    g.tickNotes limit = [.cancelled] := by
  have hs : (g.sample limit).status.cancelRequested = true := hc
  simp [tickNotes, actions, hs, notesAll, notes]

theorem moves_interrupt_of_cancelRequested (limit : Bool) (encoder : Option Int32)
    (hc : g.status.cancelRequested = true) : (g.interrupt limit encoder).1.moves.items = [] := by
  rw [interrupt_eq_begun, hc]
  rfl

/-- The moves that a tick loads were waiting in this order, before the ones that still wait. -/
theorem loads_interrupt (limit : Bool) (encoder : Option Int32) (g : StepGenerator) :
    (loads (g.tickNotes limit) ++ (g.interrupt limit encoder).1.moves.items).Sublist
      g.moves.items := by
  cases hc : g.status.cancelRequested with
  | true =>
      rw [tickNotes_of_cancelRequested limit hc,
        moves_interrupt_of_cancelRequested limit encoder hc]
      exact List.nil_sublist _
  | false => simp only [loads_interrupt_eq hc limit encoder, List.Sublist.refl]

end StepGenerator

/-! ## What the actions leave of the status -/

/-- A part of the status that neither the flags nor the position belong to. -/
structure AxisStatus.Beside {α : Type} (f : AxisStatus → α) : Prop where
  flags (s : AxisStatus) (flags : AxisFlags) : f { s with flags } = f s
  position (s : AxisStatus) (position : UInt32) : f { s with position } = f s

namespace StepGenerator

section Beside

variable {α : Type} {f : AxisStatus → α} (hf : AxisStatus.Beside f)

include hf

theorem status_offer (a : MoveAck) (g : StepGenerator) : f (g.offer a).status = f g.status := by
  unfold offer
  split
  · rfl
  · exact hf.flags _ _

theorem status_halt (g : StepGenerator) : f g.halt.status = f g.status := by
  have hhalting : f g.halting.status = f g.status := (hf.flags _ _).trans (hf.flags _ _)
  cases ha : g.active with
  | none => rw [halt_eq_of_none ha, hhalting]
  | some a => rw [halt_eq_of_active ha, status_offer hf, hhalting]

theorem status_finish (reason : AckReason) (g : StepGenerator) :
    f (g.finish reason).status = f g.status := by
  cases ha : g.active with
  | none => rw [finish_eq_of_none ha]
  | some a =>
      rw [finish_eq_of_active ha, status_offer hf]
      rfl

theorem status_mount (m : Move) (moves : Queue Move) (g : StepGenerator) :
    f (g.mount m moves).status = f g.status := by
  unfold mount
  dsimp only
  split
  · exact hf.position _ _
  · rfl

theorem status_load (g : StepGenerator) : f g.load.status = f g.status := by
  cases hq : g.moves.pop? with
  | none => rw [load_eq_of_none hq]
  | some p =>
      rw [load_eq_of_some hq]
      split
      · exact status_mount hf p.1 p.2 g
      · rw [status_halt hf, status_mount hf]

theorem status_advance (g : StepGenerator) : f g.advance.1.status = f g.status := by
  cases ha : g.active with
  | none => rw [advance_of_none ha]
  | some a =>
      cases hn : next? a g.position with
      | none => rw [advance_of_stuck ha hn, status_halt hf]
      | some p =>
          rw [advance_of_next (v := p.1) (p := p.2) ha hn]
          exact hf.position _ _

/-- Only a cancel touches what stands beside the flags and the position. -/
theorem status_perform {d : TickAction} (hd : d ≠ .cancel) (g : StepGenerator) :
    f (g.perform d).status = f g.status := by
  cases d with
  | cancel => exact absurd rfl hd
  | settle => rfl
  | load => exact status_load hf g
  | zero =>
      have hswitch : f g.atSwitch.status = f g.status :=
        (hf.flags _ _).trans (hf.position _ _)
      exact (status_finish hf .stoppedByCondition g.atSwitch).trans hswitch
  | advance => exact status_advance hf g
  | finish reason => exact status_finish hf reason g

end Beside

end StepGenerator

end AxisNode
