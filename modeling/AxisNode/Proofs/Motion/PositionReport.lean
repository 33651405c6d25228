import AxisNode.Proofs.Motion.Conversion
import AxisNode.Proofs.Motion.Switch

/-!
# How far the reported position can be trusted

The controller reports the position in whole micrometres and keeps thirty-two bits of them. As long
as the micrometres fit, the report is exact and grows with the steps. With more than one micrometre
to a step they do not fit at the top of the range, where homing from an unknown position starts, and
the report falls back on the way there.
-/

namespace AxisNode

open FixedPoint

namespace AxisController

variable {c : AxisController}

/-- The whole micrometres of a number of steps. -/
def micrometres (c : AxisController) (steps : Nat) : Int :=
  c.scale.micrometresPerStep * steps / stepUnit

/-- The report is what thirty-two bits keep of the micrometres. -/
theorem toNat_motorPosition (c : AxisController) (s : AxisStatus) :
    ((c.motorPosition s).toNat : Int) = c.micrometres s.position.toNat % 4294967296 := by
  have hnonneg := Int.emod_nonneg (c.micrometres s.position.toNat) (b := 4294967296) (by decide)
  have hlt := Int.emod_lt_of_pos (c.micrometres s.position.toNat) (b := 4294967296) (by decide)
  have hsize : (c.micrometres s.position.toNat % 4294967296).toNat < UInt32.size := by
    simp only [UInt32.size]
    omega
  calc ((c.motorPosition s).toNat : Int)
      = ((c.micrometres s.position.toNat % 4294967296).toNat : Int) :=
        congrArg Nat.cast (UInt32.toNat_ofNat_of_lt' hsize)
    _ = c.micrometres s.position.toNat % 4294967296 := Int.toNat_of_nonneg hnonneg

theorem micrometres_nonneg (hu : 0 ≤ c.scale.micrometresPerStep) (steps : Nat) :
    0 ≤ c.micrometres steps :=
  Int.ediv_nonneg (mul_nonneg hu (Int.natCast_nonneg steps)) (by decide)

theorem micrometres_mono (hu : 0 ≤ c.scale.micrometresPerStep) {a b : Nat} (h : a ≤ b) :
    c.micrometres a ≤ c.micrometres b :=
  scaled_mono hu (Int.ofNat_le.mpr h)

theorem motorPosition_exact_iff (hu : 0 ≤ c.scale.micrometresPerStep) (s : AxisStatus) :
    ((c.motorPosition s).toNat : Int) = c.micrometres s.position.toNat ↔
      c.micrometres s.position.toNat < 4294967296 := by
  have hnonneg := micrometres_nonneg hu s.position.toNat
  rw [toNat_motorPosition]
  omega

/-- As long as the micrometres fit, more steps are not reported as fewer micrometres. -/
theorem motorPosition_mono (hu : 0 ≤ c.scale.micrometresPerStep) {s t : AxisStatus}
    (h : s.position ≤ t.position) (ht : c.micrometres t.position.toNat < 4294967296) :
    c.motorPosition s ≤ c.motorPosition t := by
  have hle := micrometres_mono hu (UInt32.le_iff_toNat_le.mp h)
  have hs := (motorPosition_exact_iff hu s).mpr (Int.lt_of_le_of_lt hle ht)
  have ht := (motorPosition_exact_iff hu t).mpr ht
  rw [UInt32.le_iff_toNat_le]
  omega

/-- The micrometres of every count fit just if a step is at most one micrometre. -/
theorem micrometres_top_lt_iff :
    c.micrometres 4294967295 < 4294967296 ↔ c.scale.micrometresPerStep ≤ stepUnit := by
  simp only [micrometres, stepUnit]
  omega

theorem micrometres_lt (hu : 0 ≤ c.scale.micrometresPerStep)
    (h : c.scale.micrometresPerStep ≤ stepUnit) (steps : UInt32) :
    c.micrometres steps.toNat < 4294967296 :=
  Int.lt_of_le_of_lt (micrometres_mono hu (Nat.le_sub_one_of_lt steps.toNat_lt_size))
    (micrometres_top_lt_iff.mpr h)

/-- Beyond one micrometre to a step there is a count with a smaller report than an earlier one. -/
theorem exists_falls_behind (h : stepUnit < c.scale.micrometresPerStep)
    (hf : Fits c.scale.micrometresPerStep) :
    ∃ a b : Nat, a ≤ b ∧ b < 4294967296 ∧
      c.micrometres b % 4294967296 < c.micrometres a % 4294967296 := by
  obtain ⟨-, hlt⟩ := hf
  simp only [micrometres, stepUnit] at h ⊢
  generalize c.scale.micrometresPerStep = u at h hlt
  by_cases hsmall : u ≤ 9223372034707292160
  · -- the last count whose micrometres fit, and the next one
    have hpos : 0 < u := by omega
    have hfits := Int.mul_ediv_self_le (x := 9223372036854775807) (Int.ne_of_gt hpos)
    have hnext := Int.lt_mul_ediv_self_add (x := 9223372036854775807) hpos
    have hcount : 0 ≤ 9223372036854775807 / u := Int.ediv_nonneg (by decide) (Int.le_of_lt hpos)
    obtain ⟨a, ha⟩ := Int.eq_ofNat_of_zero_le hcount
    rw [ha] at hfits hnext
    have hrange : a < 4294967295 := by
      by_contra hge
      have hprod := mul_le_mul_of_nonneg_left (Int.ofNat_le.mpr (Nat.le_of_not_lt hge))
        (Int.le_of_lt hpos)
      omega
    refine ⟨a, a + 1, Nat.le_succ a, by omega, ?_⟩
    rw [Nat.cast_add, Int.mul_add]
    omega
  · -- a step is so long that the first report is already the largest
    have hone : u / 2147483648 = 4294967295 := by omega
    have hmany : u * 2147483649 / 2147483648 = u + 4294967295 := by omega
    refine ⟨1, 2147483649, by decide, by decide, ?_⟩
    rw [Nat.cast_one, Int.mul_one, Nat.cast_ofNat, hone, hmany]
    omega

/-- The report grows with the steps just if a step is at most one micrometre. -/
theorem motorPosition_mono_iff (hu : 0 ≤ c.scale.micrometresPerStep)
    (hf : Fits c.scale.micrometresPerStep) :
    (∀ s t : AxisStatus, s.position ≤ t.position → c.motorPosition s ≤ c.motorPosition t) ↔
      c.scale.micrometresPerStep ≤ stepUnit := by
  constructor
  · intro hmono
    by_contra hlong
    obtain ⟨a, b, hab, hb, hback⟩ := exists_falls_behind (Int.not_le.mp hlong) hf
    have ha : (UInt32.ofNat a).toNat = a :=
      UInt32.toNat_ofNat_of_lt' (Nat.lt_of_le_of_lt hab hb)
    have hb : (UInt32.ofNat b).toNat = b := UInt32.toNat_ofNat_of_lt' hb
    have hle := hmono { position := UInt32.ofNat a } { position := UInt32.ofNat b }
      (UInt32.le_iff_toNat_le.mpr (by rwa [ha, hb]))
    rw [UInt32.le_iff_toNat_le, ← Int.ofNat_le, toNat_motorPosition, toNat_motorPosition, ha,
      hb] at hle
    exact Int.not_le.mpr hback hle
  · intro hshort s t hst
    exact motorPosition_mono hu hst (micrometres_lt hu hshort t.position)

end AxisController

namespace StepGenerator

variable {g : StepGenerator} {m : Move}

theorem status_position_halt (g : StepGenerator) :
    g.halt.status.position = g.status.position := by
  cases ha : g.active with
  | none =>
      rw [halt_eq_of_none ha]
      rfl
  | some a =>
      rw [halt_eq_of_active ha]
      exact status_position_offer _ _

/-- Homing from an unknown position starts at the largest count. -/
theorem status_position_load_of_homes {moves : Queue Move} (hq : g.moves.pop? = some (m, moves))
    (hh : m.homes = true) (hs : g.status.has .stepperOk = false) :
    g.load.status.position = 4294967295 := by
  have hmount : (g.mount m moves).status.position = 4294967295 := by
    have htop : shownSteps (max 0 topPosition) = 4294967295 := by decide
    simp [mount, hh, hs, setPosition, place, htop]
  rw [load_eq_of_some hq]
  split
  · exact hmount
  · exact (status_position_halt _).trans hmount

end StepGenerator

namespace Drive

theorem scale_step (e : DriveEvent) (d : Drive) :
    (d.step e).controller.scale = d.controller.scale := by
  cases e with
  | queue m => exact AxisController.scale_queueMove d.controller d.link m
  | _ => rfl

theorem scale_run (d : Drive) (es : List DriveEvent) :
    (d.run es).controller.scale = d.controller.scale := by
  induction es generalizing d with
  | nil => rfl
  | cons e es ih => exact (ih (d.step e)).trans (scale_step e d)

/-- The report is the micrometres of the whole steps of the generator's position. -/
def ReportsTruly (d : Drive) : Prop :=
  ((d.controller.motorPosition d.link.status).toNat : Int) =
    d.controller.scale.micrometresPerStep * floorSteps d.generator.position / stepUnit

theorem reportsTruly_iff {d : Drive} (hu : 0 ≤ d.controller.scale.micrometresPerStep)
    (hp : d.generator.Placed) :
    d.ReportsTruly ↔ d.controller.micrometres d.generator.status.position.toNat < 4294967296 := by
  rw [ReportsTruly, ← hp.toNat_status_position]
  exact AxisController.motorPosition_exact_iff hu d.link.status

theorem placed_run (c : AxisController) (depth ackDepth : Nat) (es : List DriveEvent) :
    ((start c depth ackDepth).run es).generator.Placed := by
  rw [generator_run]
  exact (StepGenerator.placed_start _).run _

/-- Homing from the start, of which the axis does not know where it is. -/
def homingFromStart : List DriveEvent := [.queue (.home ⟨0, 0, 0, 0⟩), .tick false none]

theorem status_position_homingFromStart (c : AxisController) :
    ((start c 1 0).run homingFromStart).generator.status.position = 4294967295 := by
  have hzero : (c.constraints.boundVelocity 0).toInt = 0 :=
    (MotionConstraints.toInt_bounded 0 _).trans (MotionConstraints.limitTo_zero _)
  have hconvert : c.convert? (.home ⟨0, 0, 0, 0⟩) = some ⟨0, 0, 0, 0, 0, .limitSwitch⟩ := by
    simp [AxisController.convert?, scale?, hzero, fit?, Fits]
  have hevents : (start c 1 0).axisEvents homingFromStart =
      [.enqueue ⟨0, 0, 0, 0, 0, .limitSwitch⟩, .tick false none] := by
    simp [homingFromStart, axisEvents, DriveEvent.axisEvents, start, hconvert]
  have hload : ((StepGenerator.start { moves := .empty 1, acks := .empty 0 }).1.run
      [.enqueue ⟨0, 0, 0, 0, 0, .limitSwitch⟩, .tick false none]).status.position = 4294967295 := by
    decide +kernel
  have hstart : (start c 1 0).generator =
      (StepGenerator.start { moves := .empty 1, acks := .empty 0 }).1 := rfl
  rw [generator_run, hevents, hstart]
  exact hload

/-- The report is exact as long as the micrometres fit thirty-two bits, and up to there it grows
with the steps. It does so for every count, and in every state that controller and generator can
reach, just if a step is at most one micrometre; otherwise it is wrong where homing from an unknown
position starts. -/
theorem position_report_is_exact_while_it_fits (c : AxisController)
    (hu : 0 ≤ c.scale.micrometresPerStep) (hf : Fits c.scale.micrometresPerStep) :
    (∀ s : AxisStatus,
      ((c.motorPosition s).toNat : Int) = c.micrometres s.position.toNat % 4294967296 ∧
        (((c.motorPosition s).toNat : Int) = c.micrometres s.position.toNat ↔
          c.micrometres s.position.toNat < 4294967296)) ∧
      (∀ s t : AxisStatus, s.position ≤ t.position →
        c.micrometres t.position.toNat < 4294967296 → c.motorPosition s ≤ c.motorPosition t) ∧
      ((∀ s t : AxisStatus, s.position ≤ t.position → c.motorPosition s ≤ c.motorPosition t) ↔
        c.scale.micrometresPerStep ≤ stepUnit) ∧
      ((∀ depth ackDepth es, ((start c depth ackDepth).run es).ReportsTruly) ↔
        c.scale.micrometresPerStep ≤ stepUnit) ∧
      ∀ (g : StepGenerator) (m : Move) (moves : Queue Move),
        g.moves.pop? = some (m, moves) → m.homes = true → g.status.has .stepperOk = false →
        (((c.motorPosition g.load.status).toNat : Int) =
            c.micrometres g.load.status.position.toNat ↔
          c.scale.micrometresPerStep ≤ stepUnit) := by
  refine ⟨fun s => ⟨c.toNat_motorPosition s, AxisController.motorPosition_exact_iff hu s⟩,
    fun s t => AxisController.motorPosition_mono hu, AxisController.motorPosition_mono_iff hu hf,
    ⟨fun htrue => ?_, fun hshort depth ackDepth es => ?_⟩, fun g m moves hq hh hs => ?_⟩
  · have hhoming := htrue 1 0 homingFromStart
    have hscale := scale_run (start c 1 0) homingFromStart
    rw [reportsTruly_iff (by rwa [hscale]) (placed_run c 1 0 homingFromStart),
      status_position_homingFromStart] at hhoming
    exact hscale ▸ AxisController.micrometres_top_lt_iff.mp hhoming
  · have hscale := scale_run (start c depth ackDepth) es
    rw [reportsTruly_iff (by rwa [hscale]) (placed_run c depth ackDepth es)]
    exact AxisController.micrometres_lt (by rwa [hscale]) (by rwa [hscale]) _
  · rw [AxisController.motorPosition_exact_iff hu,
      StepGenerator.status_position_load_of_homes hq hh hs]
    exact AxisController.micrometres_top_lt_iff

/-- The report is exact for the last count that fits, and yet it is not exact throughout. -/
theorem position_report_is_exact_while_it_fits_of_tenMicrometresPerStep :
    let c := AxisController.tenMicrometresPerStep
    0 ≤ c.scale.micrometresPerStep ∧ Fits c.scale.micrometresPerStep ∧
      ((c.motorPosition { position := 429496729 }).toNat : Int) = c.micrometres 429496729 ∧
      c.micrometres 429496729 = 4294967290 ∧
      ¬∀ depth ackDepth es, ((start c depth ackDepth).run es).ReportsTruly := by
  intro c
  have hu : 0 ≤ c.scale.micrometresPerStep := by decide
  have hf : Fits c.scale.micrometresPerStep := by decide
  obtain ⟨hexact, -, -, hruns, -⟩ := position_report_is_exact_while_it_fits c hu hf
  refine ⟨hu, hf, (hexact { position := 429496729 }).2.mpr (by decide), by decide, ?_⟩
  rw [hruns]
  decide

/-- One step further the report falls back, and where homing starts it is far off. -/
theorem position_report_falls_back :
    let c := AxisController.tenMicrometresPerStep
    0 ≤ c.scale.micrometresPerStep ∧
      c.motorPosition { position := 429496729 } = 4294967290 ∧
      c.motorPosition { position := 429496730 } = 4 ∧
      let d := (start c 1 0).run homingFromStart
      d.generator.position = topPosition ∧
        d.controller.motorPosition d.link.status = 4294967286 ∧
        c.micrometres 4294967295 = 42949672950 := by
  decide +kernel

end Drive

end AxisNode
