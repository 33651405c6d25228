import AxisNode.Proofs.Motion.Cancel
import AxisNode.Proofs.Motion.Conversion
import AxisNode.Proofs.Motion.Switch
import Mathlib.Data.Rat.Floor

/-!
# How far the velocity limit reaches

The controller limits the velocity of a move in the units of the wire and then turns it into steps,
so a queued move starts within the limit. From there on each tick adds the acceleration, and nothing
limits the sum: a move stays within the limit as long as its own parabola does.
-/

namespace AxisNode

open FixedPoint

namespace AxisController

variable {c : AxisController} {m : StagedMove} {move : Move}

/-- The velocity in steps that the constraints admit, rounded up. -/
def velocityLimit (c : AxisController) : Int :=
  ⌈(c.scale.stepsPerMillimetre * c.constraints.maxVelocity.toInt : ℚ) / stepUnit⌉

theorem velocityLimit_eq (c : AxisController) :
    c.velocityLimit =
      -(-(c.scale.stepsPerMillimetre * c.constraints.maxVelocity.toInt) / stepUnit) := by
  have hceil := Rat.ceil_intCast_div_natCast
    (c.scale.stepsPerMillimetre * c.constraints.maxVelocity.toInt) 2147483648
  push_cast at hceil
  exact hceil

/-- Rounding down after the limit has been applied does not go beyond the limit. -/
theorem abs_scaled_le {v : Int} (hs : 0 ≤ c.scale.stepsPerMillimetre)
    (hl : -c.constraints.maxVelocity.toInt ≤ v) (hu : v ≤ c.constraints.maxVelocity.toInt) :
    |c.scale.stepsPerMillimetre * v / stepUnit| ≤ c.velocityLimit := by
  have hlow := mul_le_mul_of_nonneg_left hl hs
  have hhigh := mul_le_mul_of_nonneg_left hu hs
  rw [mul_neg] at hlow
  rw [velocityLimit_eq, abs_le]
  simp only [stepUnit]
  omega

/-- A move that is converted under a limit starts within it. -/
theorem abs_velocity_le_of_convert? (hm : c.convert? m = some move)
    (hmax : 0 < c.constraints.maxVelocity) (hs : 0 ≤ c.scale.stepsPerMillimetre) :
    |move.velocity| ≤ c.velocityLimit := by
  have hpos : 0 < c.constraints.maxVelocity.toInt := Int32.lt_iff_toInt_lt.mp hmax
  have hb : (c.constraints.boundVelocity m.velocity).toInt = _ :=
    MotionConstraints.toInt_bounded m.velocity c.constraints.maxVelocity
  rw [MotionConstraints.limitTo, if_pos hpos] at hb
  obtain ⟨-, hv⟩ := fit?_eq_some_iff.mp (scale?_of_convert? hm)
  rw [← hv]
  exact abs_scaled_le hs (by omega) (by omega)

end AxisController

namespace Move

theorem velocityAt_of_acceleration_eq_zero {m : Move} (h : m.acceleration = 0) (k : Nat) :
    m.velocityAt k = m.velocity := by
  rw [velocityAt, h, Int.zero_mul, Int.add_zero]

/-- Between two velocities within a limit lie only such velocities. -/
theorem abs_velocityAt_le {m : Move} {limit : Int} {k d : Nat} (h0 : |m.velocity| ≤ limit)
    (hd : |m.velocityAt d| ≤ limit) (hk : k ≤ d) : |m.velocityAt k| ≤ limit := by
  have hkd : (k : Int) ≤ d := Int.ofNat_le.mpr hk
  rw [abs_le] at h0 hd ⊢
  unfold velocityAt at hd ⊢
  obtain ha | ha := Int.le_total 0 m.acceleration
  · have hmono := mul_le_mul_of_nonneg_left hkd ha
    have hpos := mul_nonneg ha (Int.natCast_nonneg k)
    omega
  · have hmono := mul_le_mul_of_nonpos_left hkd ha
    have hneg := mul_nonpos_of_nonpos_of_nonneg ha (Int.natCast_nonneg k)
    omega

end Move

namespace StepGenerator

variable {g : StepGenerator}

/-- The active move has come to its velocity by one acceleration on each of its ticks. -/
def OnCourse (g : StepGenerator) : Prop :=
  ∀ a, g.active = some a → a.velocity = a.move.velocityAt a.ticks

theorem OnCourse.of_active {h : StepGenerator} (hg : g.OnCourse) (ha : h.active = g.active) :
    h.OnCourse := by
  intro a hh
  exact hg a (ha ▸ hh)

theorem onCourse_of_vacant (h : g.active = none) : g.OnCourse := by
  intro a ha
  rw [h] at ha
  cases ha

theorem OnCourse.load (hg : g.OnCourse) : g.load.OnCourse := by
  cases hq : g.moves.pop? with
  | none => rwa [load_eq_of_none hq]
  | some p =>
      obtain ⟨m, moves⟩ := p
      intro a ha
      rw [active_load hq] at ha
      obtain ⟨target, -, rfl⟩ := Option.map_eq_some_iff.mp ha
      exact (Move.velocityAt_zero m).symm

theorem OnCourse.advance (hg : g.OnCourse) : g.advance.1.OnCourse := by
  cases ha : g.active with
  | none => rwa [advance_of_none ha]
  | some a =>
      cases hn : next? a g.position with
      | none =>
          rw [advance_of_stuck ha hn]
          exact onCourse_of_vacant (active_halt g)
      | some p =>
          obtain ⟨v, p⟩ := p
          obtain ⟨-, hv, -⟩ := next?_eq_some_iff.mp hn
          intro b hb
          rw [advance_of_next ha hn] at hb
          obtain rfl := Option.some.inj hb
          rw [Move.velocityAt_succ, ← hg a ha]
          exact hv

theorem OnCourse.perform (hg : g.OnCourse) (d : TickAction) : (g.perform d).OnCourse := by
  cases d with
  | cancel => exact onCourse_of_vacant rfl
  | settle => exact hg.of_active rfl
  | load => exact hg.load
  | zero => exact onCourse_of_vacant (active_finish .stoppedByCondition g.atSwitch)
  | advance => exact hg.advance
  | finish reason => exact onCourse_of_vacant (active_finish reason g)

/-- In every state of a run the active move runs at the velocity its ticks have brought it to. -/
theorem OnCourse.run (hg : g.OnCourse) (es : List AxisEvent) : (g.run es).OnCourse := by
  apply run_invariant
  · intro limit d g _ hg
    exact hg.perform d
  · intro g limit hg
    exact hg.of_active rfl
  · intro g encoder hg
    exact hg.of_active rfl
  · intro e g hg
    exact hg.of_active (active_react e g)
  · exact hg

end StepGenerator

namespace Drive

open StepGenerator

theorem onCourse_start (c : AxisController) (depth ackDepth : Nat) (es : List DriveEvent) :
    ((start c depth ackDepth).run es).generator.OnCourse := by
  rw [generator_run]
  exact (onCourse_of_vacant rfl).run _

theorem coherent_start (c : AxisController) (depth ackDepth : Nat) (es : List DriveEvent) :
    ((start c depth ackDepth).run es).generator.Coherent := by
  rw [generator_run]
  exact (Coherent.start _ _).run _

/-- A move that is accepted keeps its place among the moves that the queue has taken. -/
theorem queued_of_accepted (s : Drive) (before after : List DriveEvent) {m : StagedMove}
    (haccepted : ((s.run before).controller.queueMove (s.run before).link m).accepted = true) :
    ∃ move, (s.run before).controller.convert? m = some move ∧
      (s.ledger (before ++ .queue m :: after)).queued[(s.ledger before).queued.length]? =
        some move := by
  obtain ⟨move, hmove, hroom⟩ := AxisController.accepted_queueMove_iff.mp haccepted
  refine ⟨move, hmove, ?_⟩
  have hevents : (s.run before).axisEvents (.queue m :: after) =
      .enqueue move :: ((s.run before).step (.queue m)).axisEvents after := by
    rw [axisEvents, DriveEvent.axisEvents, hmove]
    rfl
  have htaken : taken (.enqueue move) (s.run before).generator = [move] := if_pos hroom
  rw [ledger_append, ledgerFrom, queued_account, hevents, collect, htaken,
    List.getElem?_append_right (Nat.le_refl _), Nat.sub_self]
  rfl

/-- A move that is accepted while a limit is set starts within it, and on each of its ticks its
velocity is the one it started with and one acceleration for each tick so far. So it stays within
the limit if it does not accelerate, as no homing move does, or if it ends within it. -/
theorem limit_holds_until_acceleration_exceeds_it (c : AxisController) (depth ackDepth : Nat)
    (before after : List DriveEvent) (m : StagedMove) :
    let s := start c depth ackDepth
    let d := s.run before
    let es := before ++ .queue m :: after
    let limit := d.controller.velocityLimit
    (d.controller.queueMove d.link m).accepted = true →
    0 < d.controller.constraints.maxVelocity → 0 ≤ d.controller.scale.stepsPerMillimetre →
    ∃ move, d.controller.convert? m = some move ∧ |move.velocity| ≤ limit ∧
      (∀ h, m = .home h → move.acceleration = 0) ∧
      ∀ a, (s.run es).generator.active = some a →
        (s.ledger es).whereabouts[(s.ledger before).queued.length]? = some (.active a.move) →
        a.move = move ∧ a.ticks ≤ move.duration.toNat ∧
          a.velocity = move.velocityAt a.ticks ∧
          (move.acceleration = 0 ∨ |move.velocityAt move.duration.toNat| ≤ limit →
            |a.velocity| ≤ limit) := by
  intro s d es limit haccepted hmax hscale
  obtain ⟨move, hmove, hqueued⟩ := queued_of_accepted s before after haccepted
  have hfirst := AxisController.abs_velocity_le_of_convert? hmove hmax hscale
  have hhome : ∀ h, m = .home h → move.acceleration = 0 := by
    rintro h rfl
    exact AxisController.acceleration_of_convert?_home hmove
  refine ⟨move, hmove, hfirst, hhome, fun a ha hplace => ?_⟩
  have hbooks : (s.run es).generator.Books (s.ledger es) := books_start c depth ackDepth es
  have hmoves := congrArg (·[(s.ledger before).queued.length]?) hbooks.moves
  simp only [← Ledger.map_move_whereabouts, List.getElem?_map, hplace] at hmoves
  obtain rfl : a.move = move := Option.some.inj (hmoves.symm.trans hqueued)
  have hticks : a.ticks ≤ a.move.duration.toNat :=
    (coherent_start c depth ackDepth es).ticks_le a ha
  have hvelocity := onCourse_start c depth ackDepth es a ha
  refine ⟨rfl, hticks, hvelocity, ?_⟩
  rw [hvelocity]
  rintro (hsteady | hlast)
  · rwa [Move.velocityAt_of_acceleration_eq_zero hsteady]
  · exact Move.abs_velocityAt_le hfirst hlast hticks

/-- A move that asks for too much is limited, and then it brakes and turns round. -/
theorem limit_holds_until_acceleration_exceeds_it_of_braking :
    let s := start .tenMicrometresPerStep 3 3
    let before : List DriveEvent := [.setConstraints { maxVelocity := 1 }]
    let m := StagedMove.linear ⟨0, 0, 4, -350, 2, 0⟩
    let after : List DriveEvent := List.replicate 4 (.tick false none)
    let d := s.run before
    (d.controller.queueMove d.link m).accepted = true ∧ 0 < d.controller.constraints.maxVelocity ∧
      0 ≤ d.controller.scale.stepsPerMillimetre ∧ d.controller.velocityLimit = 100 ∧
      ∃ a, (s.run (before ++ .queue m :: after)).generator.active = some a ∧ a.ticks = 3 ∧
        a.velocity = -8 ∧ |a.velocity| ≤ d.controller.velocityLimit := by
  intro s before m after d
  have haccepted : (d.controller.queueMove d.link m).accepted = true := by decide +kernel
  have hlimit : d.controller.velocityLimit = 100 := by
    rw [AxisController.velocityLimit_eq]
    decide +kernel
  let a : RunningMove := ⟨⟨0, 0, 4, 100, -36, ⟨0⟩⟩, -8, 3, 40⟩
  obtain ⟨move, -, -, -, hmove⟩ := limit_holds_until_acceleration_exceeds_it
    .tenMicrometresPerStep 3 3 before after m haccepted (by decide) (by decide)
  obtain ⟨rfl, -, -, hwithin⟩ := hmove a (by decide +kernel) (by decide +kernel)
  have hlast : |a.move.velocityAt a.move.duration.toNat| ≤ d.controller.velocityLimit := by
    rw [hlimit]
    decide
  exact ⟨haccepted, by decide, by decide, hlimit, a, by decide +kernel, rfl, rfl,
    hwithin (.inr hlast)⟩

/-- A move that starts at the limit and accelerates is beyond it on its first tick. -/
theorem accelerating_move_leaves_limit :
    let s := start .tenMicrometresPerStep 3 3
    let before : List DriveEvent := [.setConstraints { maxVelocity := 1 }]
    let m := StagedMove.linear ⟨0, 0, 4, 1000, 1, 0⟩
    let d := s.run before
    (d.controller.queueMove d.link m).accepted = true ∧ 0 < d.controller.constraints.maxVelocity ∧
      0 ≤ d.controller.scale.stepsPerMillimetre ∧
      (s.run (before ++ [.queue m, .tick false none, .tick false none])).generator.active =
        some ⟨⟨0, 0, 4, 100, 100, ⟨0⟩⟩, 200, 1, 1400⟩ ∧
      d.controller.velocityLimit < 200 := by
  intro s before m d
  refine ⟨by decide +kernel, by decide, by decide, by decide +kernel, ?_⟩
  rw [AxisController.velocityLimit_eq]
  decide +kernel

end Drive

end AxisNode
