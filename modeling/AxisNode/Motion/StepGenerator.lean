import AxisNode.Motion.Move
import AxisNode.Motion.Status
import AxisNode.Queue

/-!
# The step generator

The generator runs once per timer tick. On a tick it may load a queued move, advance the position by
the velocity of the move it is running, or retire that move, and it pulses the step line whenever
the number of whole steps changes between even and odd. So a tick makes at most one pulse, and none
if it moves on by an even number of steps. The generator never logs: it leaves acknowledgements on a
queue and raises flags.

## Implementation notes

What the generator shares with the foreground is a `MoveLink`; the phase, the active move and the
position are its own. A tick answers with the calls on the step and direction lines in their order.
-/

namespace AxisNode

/-- What the foreground and the interrupt share. -/
structure MoveLink where
  moves : Queue Move
  acks : Queue MoveAck
  status : AxisStatus := {}
deriving DecidableEq, Repr

/-- A call on the step and direction lines. -/
inductive PinCall where
  | step
  | unstep
  | positive
  | negative
deriving DecidableEq, Repr

/-- Where the generator stands between two moves or in one. -/
inductive Phase where
  | idle
  | stepping
  /-- A move has ended and no other has been loaded since. -/
  | moveComplete
  /-- The position would have left its range; only a cancel leads out. -/
  | halted
deriving DecidableEq, Repr

/-- The name under which a phase is shown. -/
def Phase.name : Phase → String
  | idle => "Idle"
  | stepping => "Stepping"
  | moveComplete => "MoveComplete"
  | halted => "Halted"

/-- A loaded move: how fast it runs now, the ticks it has had and where it will end. -/
structure RunningMove where
  move : Move
  velocity : Int
  ticks : Nat := 0
  target : Int := 0
deriving DecidableEq, Repr

/-- The generator with its end of the link. The position counts in the fixed point of the moves. -/
structure StepGenerator extends MoveLink where
  phase : Phase := .idle
  active : Option RunningMove := none
  position : Int := 0
deriving DecidableEq, Repr

namespace StepGenerator

open FixedPoint

/-- The whole steps of a position as the status shows them. -/
def shownSteps (position : Int) : UInt32 :=
  let steps := floorSteps position
  if 0 ≤ steps ∧ steps < 4294967296 then UInt32.ofNat steps.toNat else 0xffffffff

/-- Whether the numbers of whole steps at two positions differ in parity, as they do if they differ
by one. -/
def crossesStep (before after : Int) : Bool := floorSteps before % 2 != floorSteps after % 2

/-- A generator over a link, at position zero with the step line lowered. -/
def start (link : MoveLink) : StepGenerator × List PinCall :=
  ({ link with status := { link.status with position := 0 } }, [.unstep])

/-- Changes nothing but the status. -/
def mapStatus (f : AxisStatus → AxisStatus) (g : StepGenerator) : StepGenerator :=
  { g with status := f g.status }

/-- Moves the position and what the status shows of it. -/
def place (position : Int) (g : StepGenerator) : StepGenerator :=
  { g with position, status := { g.status with position := shownSteps position } }

/-- Overwrites the position with the nearest one in range. -/
def setPosition (position : Int) (g : StepGenerator) : StepGenerator :=
  g.place (max 0 (min position topPosition))

/-- Whether a move is waiting. -/
def hasMoves (g : StepGenerator) : Bool := !g.moves.isEmpty

/-- Whether the active move has ticks left. -/
def hasTicks (g : StepGenerator) : Bool := g.active.any fun a => a.ticks < a.move.duration.toNat

/-- Whether the active move ends at the limit switch. -/
def isHoming (g : StepGenerator) : Bool := g.active.any fun a => a.move.homes

theorem hasTicks_iff {g : StepGenerator} :
    g.hasTicks = true ↔ ∃ a, g.active = some a ∧ a.ticks < a.move.duration.toNat := by
  simp [hasTicks, Option.any_eq_true]

theorem isHoming_iff {g : StepGenerator} :
    g.isHoming = true ↔ ∃ a, g.active = some a ∧ a.move.homes = true := by
  simp [isHoming, Option.any_eq_true]

/-- Acknowledges a move as the status now stands. If the queue has no room the acknowledgement is
lost and a flag says so. -/
def acknowledge (m : Move) (reason : AckReason) (g : StepGenerator) : StepGenerator :=
  let ack : MoveAck :=
    { group := m.group
      seq := m.seq
      position := g.status.position
      encoder := g.status.encoder
      flags := ⟨g.status.flags.bits⟩
      reason }
  match g.acks.push? ack with
  | some acks => { g with acks }
  | none => g.mapStatus (·.raise .ackDropped)

/-- Retires the active move, if there is one. -/
def finish (reason : AckReason) (g : StepGenerator) : StepGenerator :=
  match g.active with
  | none => g
  | some a => acknowledge a.move reason { g with active := none, phase := .moveComplete }

/-- Stops stepping at the last valid position. -/
def halt (g : StepGenerator) : StepGenerator :=
  let halted :=
    { g with
      phase := .halted
      active := none
      status := (g.status.lower .stepperOk).raise .overflow }
  match g.active with
  | none => halted
  | some a => halted.acknowledge a.move .positionError

/-- Drops the active move and every waiting one. -/
def cancel (g : StepGenerator) : StepGenerator :=
  { g with
    active := none
    moves := g.moves.clear
    status := g.status.lower .overflow
    phase := .idle }

/-- Loads the oldest waiting move. A homing move that starts from an unknown position starts at the
top of the range, so that the whole way to the switch can be counted. -/
def load (g : StepGenerator) : StepGenerator :=
  match g.moves.pop? with
  | none => g
  | some (m, moves) =>
      let g := { g with moves }
      let g := if m.homes && !g.status.has .stepperOk then g.setPosition topPosition else g
      let loaded : RunningMove := { move := m, velocity := m.velocity }
      match m.targetFrom g.position with
      | some target => { g with active := some { loaded with target }, phase := .stepping }
      | none => halt { g with active := some loaded }

/-- The velocity and position after one more tick, if the velocity can be stored and the position
stays in range. -/
def next? (a : RunningMove) (position : Int) : Option (Int × Int) := do
  let velocity ← fit? (a.velocity + a.move.acceleration)
  let position := position + velocity
  if 0 ≤ position ∧ position ≤ topPosition then some (velocity, position) else none

/-- Advances the active move by one tick and tells whether the parity of the whole steps has
changed. -/
def advance (g : StepGenerator) : StepGenerator × Bool :=
  match g.active with
  | none => (g, false)
  | some a =>
      match next? a g.position with
      | none => (g.halt, false)
      | some (velocity, position) =>
          (place position { g with active := some { a with velocity, ticks := a.ticks + 1 } },
            crossesStep g.position position)

/-- Ends a homing move at the pressed limit switch, which is where the position is zero. -/
def stopAtSwitch (g : StepGenerator) : StepGenerator :=
  finish .stoppedByCondition ((g.place 0).mapStatus (·.raise .stepperOk))

/-- Retires the active move, whose ticks are spent, and starts a waiting one in the same tick. -/
def changeOver (g : StepGenerator) : StepGenerator × Bool :=
  let g := g.finish (if g.isHoming then .timeout else .completeWithoutCondition)
  if g.hasMoves then
    let g := g.load
    if g.hasTicks then g.advance else (g, false)
  else (g, false)

/-- Decides what this tick does and whether it emits a step. A move loaded into an idle generator
waits for the next tick. -/
def act (limit : Bool) (g : StepGenerator) : StepGenerator × Bool :=
  if g.active.isNone then
    if g.hasMoves then (g.load, false)
    else if g.phase = .moveComplete then ({ g with phase := .idle }, false)
    else (g, false)
  else if g.isHoming && limit then (g.stopAtSwitch, false)
  else if g.hasTicks then g.advance
  else g.changeOver

/-- The direction line for the move that is running. -/
def direction (g : StepGenerator) : PinCall :=
  if g.active.all fun a => 0 ≤ a.velocity then .positive else .negative

/-- Whether a tick reads the encoder: not when it cancels, and not while the axis is halted. -/
def readsEncoder (g : StepGenerator) : Bool := !g.status.cancelRequested && g.phase != .halted

/-- One timer tick, with the level of the limit switch and what the encoder shows. -/
def interrupt (limit : Bool) (encoder : Option Int32) (g : StepGenerator) :
    StepGenerator × List PinCall :=
  let g := g.mapStatus fun s => { s with limitSwitch := limit }
  let (cancelled, status) := g.status.takeCancel
  let g := { g with status }
  if cancelled then (g.cancel, [])
  else if g.phase = .halted then (g, [])
  else
    let (g, stepped) := g.act limit
    let calls := if stepped then [g.direction, .step, .unstep] else []
    (g.mapStatus fun s => { s with encoder := encoder.getD s.encoder }, calls)

end StepGenerator

end AxisNode
