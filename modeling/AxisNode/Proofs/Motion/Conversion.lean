import AxisNode.Proofs.Motion.Drive
import Mathlib.Algebra.Order.Ring.Int

/-!
# Staged moves in steps

The controller limits a staged move in the units of the wire and then scales it, rounding down. The
product of a scale and a fraction can be stored unless each of them is the lowest number of its
width, so only this pair drops a move as out of range. Every other move is queued if there is room.
-/

namespace AxisNode

open FixedPoint

namespace FixedPoint

/-- A scale and a fraction, each as low as its width allows. -/
def BothLowest (scale fraction : Int) : Prop :=
  scale = -9223372036854775808 ∧ fraction = -2147483648

instance (scale fraction : Int) : Decidable (BothLowest scale fraction) :=
  inferInstanceAs (Decidable (_ ∧ _))

theorem fits_scaled_iff {scale fraction : Int} (hs : Fits scale) (hl : -2147483648 ≤ fraction)
    (hu : fraction < 2147483648) :
    Fits (scale * fraction / stepUnit) ↔ ¬BothLowest scale fraction := by
  have hhigh := Int.le_sub_one_of_lt hs.2
  obtain hf | hf := Int.le_total 0 fraction
  · have hleast := mul_le_mul_of_nonneg_right hs.1 hf
    have hmost := mul_le_mul_of_nonneg_right hhigh hf
    simp only [Fits, BothLowest, stepUnit]
    omega
  · have hleast := mul_le_mul_of_nonpos_right hhigh hf
    -- with the lowest fraction the product is as large as the scale is low
    by_cases hlowest : fraction = -2147483648
    · subst hlowest
      obtain ⟨hfrom, hto⟩ := hs
      simp only [Fits, BothLowest, stepUnit, and_true]
      omega
    · have hmost := mul_le_mul_of_nonpos_right hs.1 hf
      simp only [Fits, BothLowest, stepUnit]
      omega

theorem scale?_eq {scale : Int} (hs : Fits scale) (fraction : Int32) :
    scale? scale fraction =
      if BothLowest scale fraction.toInt then none
      else some (scale * fraction.toInt / stepUnit) := by
  have hfits := fits_scaled_iff hs fraction.le_toInt fraction.toInt_lt
  by_cases h : BothLowest scale fraction.toInt <;> simp [scale?, h, hfits]

/-- Scaling keeps the order if the scale is not negative. -/
theorem scaled_mono {scale a b : Int} (hs : 0 ≤ scale) (h : a ≤ b) :
    scale * a / stepUnit ≤ scale * b / stepUnit :=
  Int.ediv_le_ediv (by decide) (mul_le_mul_of_nonneg_left h hs)

end FixedPoint

namespace MotionConstraints

/-- A value within a limit to both sides, if the limit is positive. -/
def limitTo (limit value : Int) : Int :=
  if 0 < limit then max (-limit) (min limit value) else value

theorem limitTo_zero (limit : Int) : limitTo limit 0 = 0 := by
  unfold limitTo
  split <;> omega

theorem toInt_bounded (value limit : Int32) :
    (bounded value limit).toInt = limitTo limit.toInt value.toInt := by
  have hlow := limit.le_toInt
  have hhigh := limit.toInt_lt
  simp only [bounded, limitTo, Int32.le_iff_toInt_le, Int32.lt_iff_toInt_lt, Int32.toInt_zero]
  by_cases hpos : 0 < limit.toInt
  · have hneg : (-limit).toInt = -limit.toInt := by
      rw [Int32.toInt_neg]
      exact Int.bmod_eq_of_le (by omega) (by omega)
    rw [if_neg (Int.not_le.mpr hpos), if_pos hpos, hneg]
    split
    · rw [hneg]
      omega
    · split <;> omega
  · rw [if_pos (Int.not_lt.mp hpos), if_neg hpos]

end MotionConstraints

namespace StagedMove

/-- The velocity that is asked for. -/
def velocity : StagedMove → Int32
  | linear m => m.velocity
  | home m => m.velocity

/-- The acceleration that is asked for; a homing move has none. -/
def acceleration : StagedMove → Int32
  | linear m => m.acceleration
  | home _ => 0

/-- What ends the move early; for a homing move it is the switch. -/
def stop : StagedMove → StopCondition
  | linear m => ⟨m.stop⟩
  | home _ => .limitSwitch

end StagedMove

namespace AxisController

open MotionConstraints

variable {c : AxisController} {link : MoveLink} {m : StagedMove} {move : Move}

/-- The velocity that is asked for, within the limit. -/
def limitedVelocity (c : AxisController) (m : StagedMove) : Int :=
  limitTo c.constraints.maxVelocity.toInt m.velocity.toInt

/-- The acceleration that is asked for, within the limit. -/
def limitedAcceleration (c : AxisController) (m : StagedMove) : Int :=
  limitTo c.constraints.maxAcceleration.toInt m.acceleration.toInt

/-- A number of the move cannot be stored in steps. A homing move does not accelerate, so this comes
from its velocity. -/
def Overflows (c : AxisController) (m : StagedMove) : Prop :=
  BothLowest c.scale.stepsPerMillimetre (c.limitedVelocity m) ∨
    BothLowest c.scale.stepsPerMicrometre (c.limitedAcceleration m)

instance (c : AxisController) (m : StagedMove) : Decidable (c.Overflows m) :=
  inferInstanceAs (Decidable (_ ∨ _))

/-- The move in steps, rounded down. -/
def inSteps (c : AxisController) (m : StagedMove) : Move where
  group := m.group
  seq := m.seq
  duration := m.duration
  velocity := c.scale.stepsPerMillimetre * c.limitedVelocity m / stepUnit
  acceleration := c.scale.stepsPerMicrometre * c.limitedAcceleration m / stepUnit
  stop := m.stop

/-- The velocity of a move is that of the staged one, limited first and then scaled. -/
theorem scale?_of_convert? (hm : c.convert? m = some move) :
    scale? c.scale.stepsPerMillimetre (c.constraints.boundVelocity m.velocity) =
      some move.velocity := by
  cases m with
  | linear m =>
      simp only [convert?, bind, Option.bind_eq_some_iff, pure, Option.some.injEq] at hm
      obtain ⟨velocity, hv, acceleration, -, rfl⟩ := hm
      exact hv
  | home m =>
      simp only [convert?, bind, Option.bind_eq_some_iff, pure, Option.some.injEq] at hm
      obtain ⟨velocity, hv, rfl⟩ := hm
      exact hv

theorem acceleration_of_convert?_home {h : HomeMove}
    (hm : c.convert? (.home h) = some move) : move.acceleration = 0 := by
  simp only [convert?, bind, Option.bind_eq_some_iff, pure, Option.some.injEq] at hm
  obtain ⟨velocity, -, rfl⟩ := hm
  rfl

theorem limitedAcceleration_home (c : AxisController) (h : HomeMove) :
    c.limitedAcceleration (.home h) = 0 :=
  limitTo_zero c.constraints.maxAcceleration.toInt

theorem overflows_home_iff {h : HomeMove} :
    c.Overflows (.home h) ↔
      BothLowest c.scale.stepsPerMillimetre (c.limitedVelocity (.home h)) := by
  rw [Overflows, limitedAcceleration_home]
  refine or_iff_left ?_
  rintro ⟨-, hzero⟩
  omega

theorem inSteps_home_acceleration (c : AxisController) (h : HomeMove) :
    (c.inSteps (.home h)).acceleration = 0 := by
  rw [inSteps, limitedAcceleration_home, Int.mul_zero, Int.zero_ediv]

theorem scale?_velocity (hmm : Fits c.scale.stepsPerMillimetre) (m : StagedMove) :
    scale? c.scale.stepsPerMillimetre (c.constraints.boundVelocity m.velocity) =
      if BothLowest c.scale.stepsPerMillimetre (c.limitedVelocity m) then none
      else some (c.inSteps m).velocity := by
  rw [scale?_eq hmm, MotionConstraints.boundVelocity, toInt_bounded]
  rfl

theorem scale?_acceleration (hum : Fits c.scale.stepsPerMicrometre) (m : StagedMove) :
    scale? c.scale.stepsPerMicrometre (c.constraints.boundAcceleration m.acceleration) =
      if BothLowest c.scale.stepsPerMicrometre (c.limitedAcceleration m) then none
      else some (c.inSteps m).acceleration := by
  rw [scale?_eq hum, MotionConstraints.boundAcceleration, toInt_bounded]
  rfl

/-- A move that does not overflow becomes the move in steps. -/
theorem convert?_eq (hmm : Fits c.scale.stepsPerMillimetre)
    (hum : Fits c.scale.stepsPerMicrometre) (m : StagedMove) :
    c.convert? m = if c.Overflows m then none else some (c.inSteps m) := by
  have hv := scale?_velocity hmm m
  have ha := scale?_acceleration hum m
  cases m with
  | linear m =>
      simp only [StagedMove.velocity, StagedMove.acceleration] at hv ha
      simp only [convert?, hv, ha, Overflows]
      by_cases h1 : BothLowest c.scale.stepsPerMillimetre (c.limitedVelocity (.linear m))
      · simp [h1]
      · by_cases h2 : BothLowest c.scale.stepsPerMicrometre (c.limitedAcceleration (.linear m))
        · simp [h1, h2]
        · simp only [h1, h2, or_self, if_false]
          rfl
  | home m =>
      simp only [StagedMove.velocity] at hv
      simp only [convert?, hv, overflows_home_iff]
      split
      · rfl
      · rw [← inSteps_home_acceleration c m]
        rfl

/-! ## Queueing -/

/-- A move in steps has been offered to the queue: the motor is on, and the queue has taken the move
if it had room. -/
structure Offered (c : AxisController) (link : MoveLink) (move : Move) (s : MotionStep) :
    Prop where
  enabled : s.controller = { c with enabled := true }
  motor : s.events.filterMap Event.motor? = if c.enabled then [] else [true]
  room : link.moves.items.length < link.moves.capacity →
    s.accepted = true ∧ s.link.moves.items = link.moves.items ++ [move] ∧
      s.link.moves.capacity = link.moves.capacity ∧ s.link = { link with moves := s.link.moves }
  full : link.moves.capacity ≤ link.moves.items.length → s.accepted = false ∧ s.link = link

/-- A push switches the motor on and tells what becomes of the move. -/
theorem push_eq (c : AxisController) (link : MoveLink) (move : Move) :
    c.push link move =
      { controller := { c with enabled := true }
        link := (link.moves.push? move).elim link fun moves => { link with moves }
        accepted := (link.moves.push? move).isSome
        events := (if c.enabled then [] else [.motor true]) ++
          [.log (.queueMove move.group move.seq move.duration move.stop)] ++
          if (link.moves.push? move).isSome then []
          else [.log (.moveQueueFull move.group move.seq)] } := by
  obtain ⟨scale, constraints, enabled⟩ := c
  cases enabled <;> cases hq : link.moves.push? move <;> simp [push, enable, hq]

theorem offered_push (c : AxisController) (link : MoveLink) (move : Move) :
    c.Offered link move (c.push link move) where
  enabled := by rw [push_eq]
  motor := by
    rw [push_eq]
    cases c.enabled <;> cases link.moves.push? move <;> simp [Event.motor?]
  room h := by
    obtain ⟨moves, hq⟩ := Queue.exists_push? move h
    obtain ⟨-, hitems, hcapacity⟩ := Queue.push?_eq_some_iff.mp hq
    rw [push_eq, hq]
    exact ⟨rfl, hitems, hcapacity, rfl⟩
  full h := by
    rw [push_eq, Queue.push?_eq_none_iff.mpr h]
    exact ⟨rfl, rfl⟩

theorem outOfRange_notMem_push (c : AxisController) (link : MoveLink) (move : Move)
    (m : StagedMove) : .log (outOfRange m) ∉ (c.push link move).events := by
  rw [push_eq]
  cases m <;> cases c.enabled <;> cases link.moves.push? move <;> simp [outOfRange]

theorem scale_queueMove (c : AxisController) (link : MoveLink) (m : StagedMove) :
    (c.queueMove link m).controller.scale = c.scale := by
  unfold queueMove
  split
  · rw [push_eq]
  · rfl

theorem queueMove_of_overflows (hmm : Fits c.scale.stepsPerMillimetre)
    (hum : Fits c.scale.stepsPerMicrometre) (h : c.Overflows m) :
    c.queueMove link m = ⟨c, link, false, [.log (outOfRange m)]⟩ := by
  rw [queueMove, convert?_eq hmm hum, if_pos h]

theorem queueMove_of_not_overflows (hmm : Fits c.scale.stepsPerMillimetre)
    (hum : Fits c.scale.stepsPerMicrometre) (h : ¬c.Overflows m) :
    c.queueMove link m = c.push link (c.inSteps m) := by
  rw [queueMove, convert?_eq hmm hum, if_neg h]

/-- Only a move that has been taken makes the queue longer, and it is the one in steps. -/
theorem eq_inSteps_of_items (hmm : Fits c.scale.stepsPerMillimetre)
    (hum : Fits c.scale.stepsPerMicrometre)
    (h : (c.queueMove link m).link.moves.items = link.moves.items ++ [move]) :
    move = c.inSteps m := by
  have hself : ¬link.moves.items = link.moves.items ++ [move] := by simp
  by_cases ho : c.Overflows m
  · rw [queueMove_of_overflows hmm hum ho] at h
    exact absurd h hself
  · rw [queueMove_of_not_overflows hmm hum ho] at h
    have hoffer := offered_push c link (c.inSteps m)
    obtain hroom | hfull := Nat.lt_or_ge link.moves.items.length link.moves.capacity
    · rw [(hoffer.room hroom).2.1] at h
      simpa using h.symm
    · rw [(hoffer.full hfull).2] at h
      exact absurd h hself

/-- A staged move is limited, scaled and rounded down. It is dropped as out of range just if a scale
and the number it scales are the lowest there are, and then nothing changes; otherwise the motor is
on afterwards, and the move is queued if there is room. Under a scale that is not negative a larger
limited velocity never becomes a smaller one in steps. -/
theorem staged_moves_are_limited_and_scaled (c : AxisController) (link : MoveLink) (m : StagedMove)
    (hmm : Fits c.scale.stepsPerMillimetre) (hum : Fits c.scale.stepsPerMicrometre) :
    (.log (outOfRange m) ∈ (c.queueMove link m).events ↔ c.Overflows m) ∧
      (c.Overflows m → c.queueMove link m = ⟨c, link, false, [.log (outOfRange m)]⟩) ∧
      (¬c.Overflows m → c.Offered link (c.inSteps m) (c.queueMove link m)) ∧
      (∀ h, m = .home h → (c.inSteps m).acceleration = 0 ∧
        (c.Overflows m ↔ BothLowest c.scale.stepsPerMillimetre (c.limitedVelocity m))) ∧
      (0 ≤ c.scale.stepsPerMillimetre →
        ∀ (d : AxisController) (link' : MoveLink) (m' : StagedMove) (x y : Move),
          d.scale = c.scale →
          (c.queueMove link m).link.moves.items = link.moves.items ++ [x] →
          (d.queueMove link' m').link.moves.items = link'.moves.items ++ [y] →
          c.limitedVelocity m ≤ d.limitedVelocity m' → x.velocity ≤ y.velocity) := by
  refine ⟨⟨fun hlog => ?_, fun ho => ?_⟩, queueMove_of_overflows hmm hum, fun ho => ?_, ?_, ?_⟩
  · by_contra ho
    rw [queueMove_of_not_overflows hmm hum ho] at hlog
    exact outOfRange_notMem_push c link (c.inSteps m) m hlog
  · rw [queueMove_of_overflows hmm hum ho]
    exact List.mem_singleton_self _
  · rw [queueMove_of_not_overflows hmm hum ho]
    exact offered_push c link (c.inSteps m)
  · rintro h rfl
    exact ⟨inSteps_home_acceleration c h, overflows_home_iff⟩
  · intro hs d link' m' x y hscale hx hy hle
    rw [eq_inSteps_of_items hmm hum hx,
      eq_inSteps_of_items (hscale ▸ hmm) (hscale ▸ hum) hy, inSteps, inSteps, hscale]
    exact scaled_mono hs hle

/-- With the lowest scale, a limit is what keeps the lowest velocity in reach. -/
theorem staged_moves_are_limited_and_scaled_of_lowestScale :
    let c : AxisController :=
      { scale := ⟨-9223372036854775808, 0, 0⟩, constraints := { maxVelocity := 2147483647 } }
    let link : MoveLink := { moves := .empty 1, acks := .empty 1 }
    let m := StagedMove.home ⟨2, 3, 50, -2147483648⟩
    Fits c.scale.stepsPerMillimetre ∧ Fits c.scale.stepsPerMicrometre ∧
      (c.queueMove link m).accepted = true ∧
      (c.queueMove link m).link.moves.items =
        [⟨2, 3, 50, 9223372032559808512, 0, .limitSwitch⟩] ∧
      { c with constraints := {} }.Overflows m := by
  intro c link m
  have hmm : Fits c.scale.stepsPerMillimetre := by decide
  have hum : Fits c.scale.stepsPerMicrometre := by decide
  have hsteps : c.inSteps m = ⟨2, 3, 50, 9223372032559808512, 0, .limitSwitch⟩ := by decide
  obtain ⟨-, -, hoffer, -⟩ := staged_moves_are_limited_and_scaled c link m hmm hum
  obtain ⟨haccepted, hitems, -⟩ := (hoffer (by decide)).room (by decide)
  exact ⟨hmm, hum, haccepted, hsteps ▸ hitems, by decide⟩

end AxisController

end AxisNode
