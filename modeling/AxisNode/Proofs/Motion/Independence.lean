import AxisNode.Proofs.Motion.Run

/-!
# Motion does not wait for its reader

A move that ends leaves an acknowledgement, and if the queue has no room a flag. Both share the link
with what steers the axis: the flag lies in one byte with the flag that a homing move is loaded by.
Still the acknowledgements only leave the generator. However deep their queue is, whenever they are
taken and whenever the flag is lowered, the ticks make the same calls and the axis goes the same
way.

## Implementation notes

Two generators are compared up to what is kept for the reader of acknowledgements. Offering an
acknowledgement never leaves this relation, so the acknowledgements themselves, which carry the
flags as they stand, are not compared.
-/

namespace AxisNode

/-- Whether an event is about the motion and not about acknowledgements. -/
def AxisEvent.steers : AxisEvent → Bool
  | takeAck => false
  | clearDropped => false
  | _ => true

/-! ## The flag of lost acknowledgements -/

namespace AxisFlags

theorem lower_raise_self (f : AxisFlags) (x : AxisFlag) : (f.raise x).lower x = f.lower x := by
  refine congrArg AxisFlags.mk (BitVec.eq_of_getLsbD_eq fun i hi => ?_)
  simp only [raise, union, BitVec.getLsbD_and, BitVec.getLsbD_or, BitVec.getLsbD_not]
  cases (ofFlag x).bits.getLsbD i <;> simp

/-- Two different flags do not share a bit. -/
theorem lower_raise_comm (f : AxisFlags) {x y : AxisFlag} (h : x ≠ y) :
    (f.raise y).lower x = (f.lower x).raise y := by
  have hxy : (ofFlag y).bits &&& ~~~(ofFlag x).bits = (ofFlag y).bits := by
    cases x <;> cases y <;> first | exact absurd rfl h | decide
  refine congrArg AxisFlags.mk (BitVec.eq_of_getLsbD_eq fun i hi => ?_)
  have hbit := congrArg (·.getLsbD i) hxy
  simp only [raise, union, lower, difference, BitVec.getLsbD_and, BitVec.getLsbD_or] at hbit ⊢
  rw [Bool.and_or_distrib_right, hbit]

theorem lower_lower_self (f : AxisFlags) (x : AxisFlag) : (f.lower x).lower x = f.lower x :=
  congrArg AxisFlags.mk (by rw [lower, difference, BitVec.and_assoc, BitVec.and_self])

theorem lower_lower_comm (f : AxisFlags) (x y : AxisFlag) :
    (f.lower y).lower x = (f.lower x).lower y := by
  refine congrArg AxisFlags.mk (BitVec.eq_of_getLsbD_eq fun i hi => ?_)
  simp only [lower, difference, BitVec.getLsbD_and]
  exact Bool.and_right_comm _ _ _

end AxisFlags

namespace AxisStatus

/-- The status without the flag of lost acknowledgements. -/
def motion (s : AxisStatus) : AxisStatus := s.lower .ackDropped

variable {s t : AxisStatus}

theorem motion_raise_ackDropped (s : AxisStatus) : (s.raise .ackDropped).motion = s.motion :=
  congrArg (fun flags => { s with flags }) (AxisFlags.lower_raise_self s.flags .ackDropped)

theorem motion_lower_ackDropped (s : AxisStatus) : (s.lower .ackDropped).motion = s.motion :=
  congrArg (fun flags => { s with flags }) (AxisFlags.lower_lower_self s.flags .ackDropped)

theorem motion_raise {x : AxisFlag} (hx : .ackDropped ≠ x) (s : AxisStatus) :
    (s.raise x).motion = s.motion.raise x :=
  congrArg (fun flags => { s with flags }) (AxisFlags.lower_raise_comm s.flags hx)

theorem motion_lower (s : AxisStatus) (x : AxisFlag) : (s.lower x).motion = s.motion.lower x :=
  congrArg (fun flags => { s with flags }) (AxisFlags.lower_lower_comm s.flags .ackDropped x)

theorem has_eq_of_motion {x : AxisFlag} (hx : x ≠ .ackDropped) (h : s.motion = t.motion) :
    s.has x = t.has x := by
  have hhas := congrArg (·.has x) h
  simpa [motion, hx] using hhas

theorem cancelRequested_eq_of_motion (h : s.motion = t.motion) :
    s.cancelRequested = t.cancelRequested := by
  have hc := congrArg AxisStatus.cancelRequested h
  exact hc

end AxisStatus

namespace StepGenerator

variable {g h k : StepGenerator}

/-- The generators differ at most in what they keep for the reader of acknowledgements. -/
structure SameMotion (g h : StepGenerator) : Prop where
  moves : g.moves = h.moves
  phase : g.phase = h.phase
  active : g.active = h.active
  position : g.position = h.position
  status : g.status.motion = h.status.motion

namespace SameMotion

theorem refl (g : StepGenerator) : g.SameMotion g := ⟨rfl, rfl, rfl, rfl, rfl⟩

theorem symm (hs : g.SameMotion h) : h.SameMotion g :=
  ⟨hs.moves.symm, hs.phase.symm, hs.active.symm, hs.position.symm, hs.status.symm⟩

theorem trans (hs : g.SameMotion h) (ht : h.SameMotion k) : g.SameMotion k :=
  ⟨hs.moves.trans ht.moves, hs.phase.trans ht.phase, hs.active.trans ht.active,
    hs.position.trans ht.position, hs.status.trans ht.status⟩

theorem has (hs : g.SameMotion h) {x : AxisFlag} (hx : x ≠ .ackDropped) :
    g.status.has x = h.status.has x :=
  AxisStatus.has_eq_of_motion hx hs.status

theorem hasMoves (hs : g.SameMotion h) : g.hasMoves = h.hasMoves := by
  simp only [StepGenerator.hasMoves, hs.moves]

theorem hasTicks (hs : g.SameMotion h) : g.hasTicks = h.hasTicks := by
  simp only [StepGenerator.hasTicks, hs.active]

theorem isHoming (hs : g.SameMotion h) : g.isHoming = h.isHoming := by
  simp only [StepGenerator.isHoming, hs.active]

theorem mapStatus (hs : g.SameMotion h) {f : AxisStatus → AxisStatus}
    (hf : ∀ s t : AxisStatus, s.motion = t.motion → (f s).motion = (f t).motion) :
    (g.mapStatus f).SameMotion (h.mapStatus f) :=
  ⟨hs.moves, hs.phase, hs.active, hs.position, hf _ _ hs.status⟩

/-! ### Ending a move -/

/-- Whether an acknowledgement finds room or is lost, the motion does not notice. -/
theorem offer (a : MoveAck) (g : StepGenerator) : (g.offer a).SameMotion g := by
  refine ⟨moves_offer a g, phase_offer a g, active_offer a g, position_offer a g, ?_⟩
  unfold StepGenerator.offer
  cases g.acks.push? a with
  | some acks => rfl
  | none => exact AxisStatus.motion_raise_ackDropped g.status

theorem halt (hs : g.SameMotion h) : g.halt.SameMotion h.halt := by
  have hhalting : g.halting.SameMotion h.halting := by
    refine ⟨hs.moves, rfl, rfl, hs.position, ?_⟩
    simp only [halting, AxisStatus.motion_raise (show AxisFlag.ackDropped ≠ .overflow by decide),
      AxisStatus.motion_lower, hs.status]
  cases ha : g.active with
  | none => rwa [halt_eq_of_none ha, halt_eq_of_none (hs.active ▸ ha)]
  | some a =>
      rw [halt_eq_of_active ha, halt_eq_of_active (hs.active ▸ ha)]
      exact ((offer _ _).trans hhalting).trans (offer _ _).symm

theorem finish (hs : g.SameMotion h) (reason : AckReason) :
    (g.finish reason).SameMotion (h.finish reason) := by
  have hretiring : g.retiring.SameMotion h.retiring :=
    ⟨hs.moves, rfl, rfl, hs.position, hs.status⟩
  cases ha : g.active with
  | none => rwa [finish_eq_of_none ha, finish_eq_of_none (hs.active ▸ ha)]
  | some a =>
      rw [finish_eq_of_active ha, finish_eq_of_active (hs.active ▸ ha)]
      exact ((offer _ _).trans hretiring).trans (offer _ _).symm

/-! ### The actions of a tick -/

theorem place (hs : g.SameMotion h) (position : Int) :
    (g.place position).SameMotion (h.place position) :=
  ⟨hs.moves, hs.phase, hs.active, rfl,
    congrArg (fun s : AxisStatus => { s with position := shownSteps position }) hs.status⟩

theorem stopAtSwitch (hs : g.SameMotion h) : g.stopAtSwitch.SameMotion h.stopAtSwitch := by
  refine SameMotion.finish ((hs.place 0).mapStatus fun s t hst => ?_) .stoppedByCondition
  have hne : AxisFlag.ackDropped ≠ .stepperOk := by decide
  rw [AxisStatus.motion_raise hne, AxisStatus.motion_raise hne, hst]

/-- A homing move is loaded by the flag of a trusted position alone, whatever lies beside it. -/
theorem mount (hs : g.SameMotion h) (m : Move) (moves : Queue Move) :
    (g.mount m moves).SameMotion (h.mount m moves) := by
  have htaken : { g with moves }.SameMotion { h with moves } :=
    ⟨rfl, hs.phase, hs.active, hs.position, hs.status⟩
  have hok := hs.has (show AxisFlag.stepperOk ≠ .ackDropped by decide)
  simp only [StepGenerator.mount, hok]
  split
  · have hp := htaken.place (max 0 (min FixedPoint.topPosition FixedPoint.topPosition))
    exact ⟨rfl, hp.phase, rfl, hp.position, hp.status⟩
  · exact ⟨rfl, htaken.phase, rfl, htaken.position, htaken.status⟩

theorem load (hs : g.SameMotion h) : g.load.SameMotion h.load := by
  cases hq : g.moves.pop? with
  | none => rwa [load_eq_of_none hq, load_eq_of_none (hs.moves ▸ hq)]
  | some p =>
      obtain ⟨m, moves⟩ := p
      have hm := hs.mount m moves
      rw [load_eq_of_some hq, load_eq_of_some (hs.moves ▸ hq), ← hm.position]
      cases m.targetFrom (g.mount m moves).position with
      | some target => exact ⟨hm.moves, rfl, rfl, hm.position, hm.status⟩
      | none => exact hm.halt

theorem advance (hs : g.SameMotion h) :
    g.advance.1.SameMotion h.advance.1 ∧ g.advance.2 = h.advance.2 := by
  cases ha : g.active with
  | none =>
      rw [advance_of_none ha, advance_of_none (hs.active ▸ ha)]
      exact ⟨hs, rfl⟩
  | some a =>
      have ha' : h.active = some a := hs.active ▸ ha
      cases hn : next? a g.position with
      | none =>
          rw [advance_of_stuck ha hn, advance_of_stuck ha' (hs.position ▸ hn)]
          exact ⟨hs.halt, rfl⟩
      | some p =>
          obtain ⟨v, p⟩ := p
          rw [advance_of_next ha hn, advance_of_next ha' (hs.position ▸ hn), hs.position]
          have hp := hs.place p
          exact ⟨⟨hp.moves, hp.phase, rfl, hp.position, hp.status⟩, rfl⟩

theorem changeOver (hs : g.SameMotion h) :
    g.changeOver.1.SameMotion h.changeOver.1 ∧ g.changeOver.2 = h.changeOver.2 := by
  unfold StepGenerator.changeOver
  rw [hs.isHoming]
  generalize (if h.isHoming then AckReason.timeout else .completeWithoutCondition) = reason
  have hf := hs.finish reason
  dsimp only
  rw [hf.hasMoves, hf.load.hasTicks]
  split
  · split
    · exact hf.load.advance
    · exact ⟨hf.load, rfl⟩
  · exact ⟨hf, rfl⟩

theorem act (hs : g.SameMotion h) (limit : Bool) :
    (g.act limit).1.SameMotion (h.act limit).1 ∧ (g.act limit).2 = (h.act limit).2 := by
  unfold StepGenerator.act
  rw [hs.active, hs.hasMoves, hs.phase, hs.isHoming, hs.hasTicks]
  split
  · split
    · exact ⟨hs.load, rfl⟩
    · split
      · exact ⟨⟨hs.moves, rfl, rfl, hs.position, hs.status⟩, rfl⟩
      · exact ⟨hs, rfl⟩
  · split
    · exact ⟨hs.stopAtSwitch, rfl⟩
    · split
      · exact hs.advance
      · exact hs.changeOver

theorem begun (hs : g.SameMotion h) (limit : Bool) : (g.begun limit).SameMotion (h.begun limit) :=
  ⟨hs.moves, hs.phase, hs.active, hs.position,
    congrArg (fun s : AxisStatus => { s with limitSwitch := limit, cancelRequested := false })
      hs.status⟩

theorem readEncoder (hs : g.SameMotion h) (encoder : Option Int32) :
    (g.readEncoder encoder).SameMotion (h.readEncoder encoder) := by
  refine hs.mapStatus (f := fun s => { s with encoder := encoder.getD s.encoder }) ?_
  intro s t hst
  exact congrArg (fun s : AxisStatus => { s with encoder := encoder.getD s.encoder }) hst

/-- A tick moves both axes alike and makes the same calls. -/
theorem interrupt (hs : g.SameMotion h) (limit : Bool) (encoder : Option Int32) :
    (g.interrupt limit encoder).1.SameMotion (h.interrupt limit encoder).1 ∧
      (g.interrupt limit encoder).2 = (h.interrupt limit encoder).2 := by
  have hb := hs.begun limit
  rw [interrupt_eq_begun, interrupt_eq_begun,
    AxisStatus.cancelRequested_eq_of_motion hs.status, hs.phase]
  split
  · refine ⟨⟨congrArg Queue.clear hb.moves, rfl, rfl, hb.position, ?_⟩, rfl⟩
    simp only [cancel, AxisStatus.motion_lower, hb.status]
  · split
    · exact ⟨hb, rfl⟩
    · obtain ⟨ha, hstep⟩ := hb.act limit
      exact ⟨ha.readEncoder encoder, by simp only [pulse, hstep, direction, ha.active]⟩

/-! ### The foreground -/

/-- What the reader of acknowledgements does is not noticed. -/
theorem react_of_not_steers {e : AxisEvent} (he : e.steers = false) (g : StepGenerator) :
    (g.react e).SameMotion g := by
  cases e with
  | takeAck =>
      simp only [StepGenerator.react]
      split <;> exact ⟨rfl, rfl, rfl, rfl, rfl⟩
  | clearDropped =>
      exact ⟨rfl, rfl, rfl, rfl, AxisStatus.motion_lower_ackDropped g.status⟩
  | _ => cases he

theorem react (hs : g.SameMotion h) {e : AxisEvent} (he : e.steers = true) :
    (g.react e).SameMotion (h.react e) := by
  cases e with
  | tick limit encoder => exact hs
  | enqueue m =>
      simp only [StepGenerator.react, hs.moves]
      cases h.moves.push? m with
      | none => exact hs
      | some moves => exact ⟨rfl, hs.phase, hs.active, hs.position, hs.status⟩
  | requestCancel =>
      exact hs.mapStatus fun s t hst => congrArg AxisStatus.requestCancel hst
  | disable =>
      refine hs.mapStatus (f := (·.lower .stepperOk)) ?_
      intro s t hst
      rw [AxisStatus.motion_lower, AxisStatus.motion_lower, hst]
  | takeAck => cases he
  | clearDropped => cases he

end SameMotion

end StepGenerator

/-! ## Two runs -/

/-- What is seen of the motion after a tick: the calls it made and how the axis stands. -/
structure MotionView where
  calls : List PinCall
  phase : Phase
  position : Int
  target : Option Int
  velocity : Option Int
  /-- Without the flag of lost acknowledgements. -/
  status : AxisStatus
deriving DecidableEq, Repr

namespace StepGenerator

variable {g h : StepGenerator}

/-- What is seen of a generator after an interrupt that made these calls. -/
def view (calls : List PinCall) (g : StepGenerator) : MotionView where
  calls
  phase := g.phase
  position := g.position
  target := g.active.map (·.target)
  velocity := g.active.map (·.velocity)
  status := g.status.motion

/-- The view after a tick; other events show nothing. -/
def viewed (e : AxisEvent) (g : StepGenerator) : List MotionView :=
  match e with
  | .tick limit encoder => [(g.interrupt limit encoder).1.view (g.interrupt limit encoder).2]
  | _ => []

theorem SameMotion.view (hs : g.SameMotion h) (calls : List PinCall) :
    g.view calls = h.view calls := by
  simp only [StepGenerator.view, hs.phase, hs.position, hs.active, hs.status]

theorem SameMotion.step (hs : g.SameMotion h) {e : AxisEvent} (he : e.steers = true) :
    (g.step e).SameMotion (h.step e) ∧ viewed e g = viewed e h := by
  cases e with
  | tick limit encoder =>
      obtain ⟨hi, hcalls⟩ := hs.interrupt limit encoder
      refine ⟨hi, ?_⟩
      simp only [viewed, hcalls, hi.view]
  | takeAck => cases he
  | clearDropped => cases he
  | _ => exact ⟨hs.react he, rfl⟩

theorem SameMotion.step_of_not_steers (hs : g.SameMotion h) {e : AxisEvent}
    (he : e.steers = false) : (g.step e).SameMotion h ∧ viewed e g = [] := by
  cases e with
  | takeAck => exact ⟨(react_of_not_steers he g).trans hs, rfl⟩
  | clearDropped => exact ⟨(react_of_not_steers he g).trans hs, rfl⟩
  | _ => cases he

/-- A run moves the axis as it does without its events about acknowledgements. -/
theorem SameMotion.run_filter (hs : g.SameMotion h) (es : List AxisEvent) :
    (g.run es).SameMotion (h.run (es.filter AxisEvent.steers)) ∧
      g.collect viewed es = h.collect viewed (es.filter AxisEvent.steers) := by
  induction es generalizing g h with
  | nil => exact ⟨hs, rfl⟩
  | cons e es ih =>
      cases he : e.steers with
      | true =>
          obtain ⟨hstep, hview⟩ := hs.step he
          obtain ⟨hrun, hviews⟩ := ih hstep
          rw [List.filter_cons_of_pos he]
          exact ⟨hrun, by rw [collect, collect, hview, hviews]⟩
      | false =>
          obtain ⟨hstep, hview⟩ := hs.step_of_not_steers he
          obtain ⟨hrun, hviews⟩ := ih hstep
          rw [List.filter_cons_of_neg (by simp [he])]
          exact ⟨hrun, by rw [collect, hview, hviews, List.nil_append]⟩

/-- Two generators start with the same moves and the same status and are given the same events but
for those about acknowledgements, whose queues may differ in depth and in what they hold. Then after
every tick both have made the same calls and show the same phase, position, target, velocity and
status but for the flag of lost acknowledgements, and in the end the same moves wait. -/
theorem motion_ignores_acknowledgements (moves : Queue Move) (status : AxisStatus)
    (acks acks' : Queue MoveAck) (es fs : List AxisEvent)
    (hsteers : es.filter AxisEvent.steers = fs.filter AxisEvent.steers) :
    let g := (start { moves, acks, status }).1
    let h := (start { moves, acks := acks', status }).1
    g.collect viewed es = h.collect viewed fs ∧ (g.run es).SameMotion (h.run fs) := by
  intro g h
  have hs : g.SameMotion h := ⟨rfl, rfl, rfl, rfl, rfl⟩
  obtain ⟨hrun, hviews⟩ := hs.run_filter es
  obtain ⟨hrun', hviews'⟩ := (SameMotion.refl h).run_filter fs
  rw [hsteers] at hrun hviews
  exact ⟨hviews.trans hviews'.symm, hrun.trans hrun'.symm⟩

/-- A move of one tick is retired, and a homing move behind it reaches the switch. -/
def moveAndHome : List AxisEvent :=
  [.enqueue ⟨0, 0, 1, 2147483648, 0, ⟨0⟩⟩, .enqueue ⟨0, 1, 9, -2147483648, 0, ⟨1⟩⟩,
    .tick false none, .tick false none]

/-- Without room for an acknowledgement both are lost, and with room both are taken. -/
theorem motion_ignores_acknowledgements_of_noRoom :
    let g := (start { moves := .empty 2, acks := .empty 0 }).1
    let h := (start { moves := .empty 2, acks := .empty 2 }).1
    let es := moveAndHome ++ [.tick false (some 3), .clearDropped, .tick true none]
    let fs := moveAndHome ++ [.tick false (some 3), .takeAck, .tick true none, .takeAck]
    es.filter AxisEvent.steers = fs.filter AxisEvent.steers ∧
      g.collect viewed es = h.collect viewed fs ∧
      (g.collect viewed es).map (·.position) =
        [0, 2147483648, FixedPoint.topPosition - 2147483648, 0] ∧
      (g.run es).status.has .ackDropped = true ∧ (h.run fs).status.has .ackDropped = false := by
  intro g h es fs
  have hsteers : es.filter AxisEvent.steers = fs.filter AxisEvent.steers := by decide
  obtain ⟨hviews, -⟩ := motion_ignores_acknowledgements (.empty 2) {} (.empty 0) (.empty 2) es fs
    hsteers
  refine ⟨hsteers, hviews, ?_, ?_, ?_⟩
  all_goals decide +kernel

end StepGenerator

end AxisNode
