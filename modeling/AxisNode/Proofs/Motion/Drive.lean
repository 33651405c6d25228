import AxisNode.Motion.AxisController
import AxisNode.Proofs.Motion.Run

/-!
# A controller and its generator

The foreground calls the controller, and the interrupt runs the generator; they meet in the link.
Each call comes to the generator as at most one event, so a run of the two is a run of the
generator, and what holds of all its runs holds here.
-/

namespace AxisNode

/-- A controller and the generator that it feeds. -/
structure Drive where
  controller : AxisController
  generator : StepGenerator
deriving DecidableEq, Repr

/-- Something that happens to a controller or its generator. -/
inductive DriveEvent where
  /-- A staged move is to be queued. -/
  | queue (m : StagedMove)
  | stop
  | setConstraints (c : MotionConstraints)
  | enable
  | disable
  | takeAck
  | clearDropped
  | tick (limit : Bool) (encoder : Option Int32)
deriving DecidableEq, Repr

namespace DriveEvent

/-- Whether time passes with the event. -/
def isTick : DriveEvent → Bool
  | tick _ _ => true
  | _ => false

/-- What an event comes to for the generator. -/
def axisEvents (c : AxisController) : DriveEvent → List AxisEvent
  | queue m => (c.convert? m).toList.map .enqueue
  | stop => [.requestCancel]
  | setConstraints _ | enable => []
  | disable => [.disable]
  | takeAck => [.takeAck]
  | clearDropped => [.clearDropped]
  | tick limit encoder => [.tick limit encoder]

variable {e : DriveEvent} {c : AxisController}

/-- Only a stop asks the generator to cancel. -/
theorem requestCancel_mem_axisEvents : .requestCancel ∈ e.axisEvents c ↔ e = .stop := by
  cases e <;> simp [axisEvents]

theorem any_isTick_axisEvents : (e.axisEvents c).any AxisEvent.isTick = e.isTick := by
  cases e <;> simp [axisEvents, isTick, AxisEvent.isTick]

end DriveEvent

/-- A move is accepted just if it can be converted and the queue has room for it. -/
theorem AxisController.accepted_queueMove_iff {c : AxisController} {link : MoveLink}
    {m : StagedMove} :
    (c.queueMove link m).accepted = true ↔
      ∃ move, c.convert? m = some move ∧ (link.moves.push? move).isSome = true := by
  cases hm : c.convert? m with
  | none => simp [queueMove, hm]
  | some move => cases hp : link.moves.push? move <;> simp [queueMove, hm, push, hp]

theorem AxisController.link_queueMove (c : AxisController) (link : MoveLink) (m : StagedMove) :
    (c.queueMove link m).link =
      match c.convert? m with
      | some move => (link.moves.push? move).elim link fun moves => { link with moves }
      | none => link := by
  cases hm : c.convert? m with
  | none => simp [queueMove, hm]
  | some move => cases hp : link.moves.push? move <;> simp [queueMove, hm, push, hp]

/-- Queueing a move comes to the generator as the move in steps, if there is one. -/
theorem AxisController.run_queueMove (c : AxisController) (g : StepGenerator) (m : StagedMove) :
    { g with toMoveLink := (c.queueMove g.toMoveLink m).link } =
      g.run ((c.convert? m).toList.map .enqueue) := by
  rw [link_queueMove]
  cases c.convert? m with
  | none => rfl
  | some move =>
      simp only [Option.toList_some, List.map_singleton, StepGenerator.run, StepGenerator.step,
        StepGenerator.react]
      cases g.moves.push? move <;> rfl

/-- A controller of an axis on which a turn of the motor is 200 steps and two millimetres. -/
def AxisController.tenMicrometresPerStep : AxisController where
  scale := ⟨214748364800, 214748368, 21474836480⟩
  constraints := {}

namespace Drive

variable {d : Drive} {e : DriveEvent}

/-- A controller with a fresh generator. -/
def start (c : AxisController) (depth ackDepth : Nat) : Drive where
  controller := c
  generator := (StepGenerator.start { moves := .empty depth, acks := .empty ackDepth }).1

/-- The end of the link that the controller sees. -/
def link (d : Drive) : MoveLink := d.generator.toMoveLink

/-- One call of the controller or one tick of the generator. -/
def step (e : DriveEvent) (d : Drive) : Drive :=
  match e with
  | .queue m =>
      let r := d.controller.queueMove d.link m
      ⟨r.controller, { d.generator with toMoveLink := r.link }⟩
  | .stop => { d with
      generator := { d.generator with toMoveLink := (AxisController.stop d.link).1 } }
  | .setConstraints constraints => { d with controller := { d.controller with constraints } }
  | .enable => { d with controller := d.controller.enable.1 }
  | .disable =>
      let (controller, link, _) := d.controller.disable d.link
      ⟨controller, { d.generator with toMoveLink := link }⟩
  | .takeAck => { d with generator := d.generator.react .takeAck }
  | .clearDropped => { d with generator := d.generator.react .clearDropped }
  | .tick limit encoder => { d with generator := (d.generator.interrupt limit encoder).1 }

/-- The two after a list of events. -/
def run (d : Drive) : List DriveEvent → Drive
  | [] => d
  | e :: es => run (d.step e) es

/-- What a run comes to for the generator. -/
def axisEvents (d : Drive) : List DriveEvent → List AxisEvent
  | [] => []
  | e :: es => e.axisEvents d.controller ++ axisEvents (d.step e) es

theorem run_append (d : Drive) (es fs : List DriveEvent) :
    d.run (es ++ fs) = (d.run es).run fs := by
  induction es generalizing d with
  | nil => rfl
  | cons e es ih => exact ih (d.step e)

theorem axisEvents_append (d : Drive) (es fs : List DriveEvent) :
    d.axisEvents (es ++ fs) = d.axisEvents es ++ (d.run es).axisEvents fs := by
  induction es generalizing d with
  | nil => rfl
  | cons e es ih => simp only [List.cons_append, axisEvents, run, ih, List.append_assoc]

theorem generator_step (e : DriveEvent) (d : Drive) :
    (d.step e).generator = d.generator.run (e.axisEvents d.controller) := by
  cases e with
  | queue m => exact d.controller.run_queueMove d.generator m
  | _ => rfl

/-- A run of the drive is a run of its generator. -/
theorem generator_run (d : Drive) (es : List DriveEvent) :
    (d.run es).generator = d.generator.run (d.axisEvents es) := by
  induction es generalizing d with
  | nil => rfl
  | cons e es ih => rw [run, ih, generator_step, axisEvents, StepGenerator.run_append]

theorem requestCancel_notMem_axisEvents {es : List DriveEvent} (h : .stop ∉ es) (d : Drive) :
    .requestCancel ∉ d.axisEvents es := by
  induction es generalizing d with
  | nil => exact List.not_mem_nil
  | cons e es ih =>
      rw [List.mem_cons, not_or] at h
      rw [axisEvents, List.mem_append, not_or]
      exact ⟨fun hmem => h.1 (DriveEvent.requestCancel_mem_axisEvents.mp hmem).symm, ih h.2 _⟩

theorem any_isTick_axisEvents (d : Drive) (es : List DriveEvent) :
    (d.axisEvents es).any AxisEvent.isTick = es.any DriveEvent.isTick := by
  induction es generalizing d with
  | nil => rfl
  | cons e es ih =>
      rw [axisEvents, List.any_append, ih, DriveEvent.any_isTick_axisEvents, List.any_cons]

end Drive

end AxisNode
