import AxisNode.Proofs.Motion.Trajectory
import Mathlib.Algebra.Order.Ring.Abs

/-!
# The target of a move

A target is computed in 128 bits from numbers of 64 and 32. The largest number on the way is an
acceleration times two neighbouring numbers of ticks. It stays `2 ^ 95` short of what 128 bits can
hold, and it is even, so that halving it is exact for either sign. What comes out is the end of the
parabola, if that can be stored.

## Implementation notes

That no number on the way overflows is said by a second computation, which goes through the same
numbers in the same order and has no result if one of them leaves 128 bits.
-/

namespace AxisNode

open FixedPoint

theorem FixedPoint.abs_le_of_fits {n : Int} (h : Fits n) : |n| ≤ 2 ^ 63 := by
  obtain ⟨hlow, hhigh⟩ := h
  exact abs_le.mpr ⟨hlow, hhigh.le⟩

namespace Wide

/-- Whether a number can be held in 128 bits. -/
def Fits (n : Int) : Prop := -2 ^ 127 ≤ n ∧ n < 2 ^ 127

instance (n : Int) : Decidable (Fits n) := inferInstanceAs (Decidable (_ ∧ _))

/-- A number on the way, if 128 bits can hold it. -/
def keep? (n : Int) : Option Int := if Fits n then some n else none

theorem keep?_of_abs_lt {n : Int} (h : |n| < 2 ^ 127) : keep? n = some n := by
  obtain ⟨hlow, hhigh⟩ := abs_lt.mp h
  exact if_pos ⟨hlow.le, hhigh⟩

end Wide

namespace Move

/-- The target of a move, if no number on the way leaves 128 bits. -/
def wideTarget? (m : Move) (start : Int) : Option (Option Int) := do
  let ticks ← Wide.keep? m.duration.toNat
  let straight ← Wide.keep? (m.velocity * ticks)
  let slope ← Wide.keep? (m.acceleration * ticks)
  let next ← Wide.keep? (ticks + 1)
  let twice ← Wide.keep? (slope * next)
  let bend ← Wide.keep? (twice.tdiv 2)
  let travel ← Wide.keep? (straight + bend)
  let target ← Wide.keep? (start + travel)
  return fit? target

section Bounds

variable {n : Int} (m : Move)

theorem ticks_le : (m.duration.toNat : Int) ≤ 2 ^ 32 - 1 := by
  have hlt := m.duration.toNat_lt
  omega

theorem abs_mul_ticks_le (h : |n| ≤ 2 ^ 63) :
    |n * m.duration.toNat| ≤ 2 ^ 63 * (2 ^ 32 - 1) := by
  rw [abs_mul, Nat.abs_cast]
  exact mul_le_mul h m.ticks_le (Int.natCast_nonneg _) (by norm_num)

/-- The largest number on the way. -/
theorem abs_twice_bend_le (h : |m.acceleration| ≤ 2 ^ 63) :
    |m.acceleration * m.duration.toNat * (m.duration.toNat + 1)| ≤ 2 ^ 127 - 2 ^ 95 := by
  have hslope := m.abs_mul_ticks_le h
  have hnext : ((m.duration.toNat : Int) + 1) ≤ 2 ^ 32 := by
    have hticks := m.ticks_le
    omega
  have hpos : (0 : Int) ≤ m.duration.toNat + 1 := by omega
  calc |m.acceleration * m.duration.toNat * (m.duration.toNat + 1)|
      = |m.acceleration * m.duration.toNat| * (m.duration.toNat + 1) := by
        rw [abs_mul, abs_of_nonneg hpos]
    _ ≤ 2 ^ 63 * (2 ^ 32 - 1) * 2 ^ 32 := mul_le_mul hslope hnext hpos (by norm_num)
    _ = 2 ^ 127 - 2 ^ 95 := by norm_num

/-- The halving is exact. -/
theorem tdiv_two_mul_two :
    (m.acceleration * m.duration.toNat * (m.duration.toNat + 1)).tdiv 2 * 2 =
      m.acceleration * m.duration.toNat * (m.duration.toNat + 1) :=
  Int.tdiv_mul_cancel (m.two_dvd_acceleration _)

theorem abs_bend_le (h : |m.acceleration| ≤ 2 ^ 63) :
    |(m.acceleration * m.duration.toNat * (m.duration.toNat + 1)).tdiv 2| ≤ 2 ^ 126 - 2 ^ 94 := by
  have htwice := m.abs_twice_bend_le h
  rw [← m.tdiv_two_mul_two, abs_mul, abs_two] at htwice
  omega

theorem abs_travel_le (hv : |m.velocity| ≤ 2 ^ 63) (ha : |m.acceleration| ≤ 2 ^ 63) :
    |m.travel| ≤ 2 ^ 63 * (2 ^ 32 - 1) + (2 ^ 126 - 2 ^ 94) :=
  (abs_add_le _ _).trans (add_le_add (m.abs_mul_ticks_le hv) (m.abs_bend_le ha))

end Bounds

/-- Every number on the way is kept. -/
theorem wideTarget?_eq (m : Move) {start : Int} (hv : |m.velocity| ≤ 2 ^ 63)
    (ha : |m.acceleration| ≤ 2 ^ 63) (hs : |start| ≤ 2 ^ 63) :
    m.wideTarget? start = some (m.targetFrom start) := by
  have hnumber := m.ticks_le
  have hticks : |(m.duration.toNat : Int)| < 2 ^ 127 := by
    rw [Nat.abs_cast]
    omega
  have hnext : |(m.duration.toNat : Int) + 1| < 2 ^ 127 := by
    rw [abs_of_nonneg (by omega)]
    omega
  have hstraight := (m.abs_mul_ticks_le hv).trans_lt (show _ < 2 ^ 127 by omega)
  have hslope := (m.abs_mul_ticks_le ha).trans_lt (show _ < 2 ^ 127 by omega)
  have htwice := (m.abs_twice_bend_le ha).trans_lt (show _ < 2 ^ 127 by omega)
  have hbend := (m.abs_bend_le ha).trans_lt (show _ < 2 ^ 127 by omega)
  have htravel := (m.abs_travel_le hv ha).trans_lt (show _ < 2 ^ 127 by omega)
  have htarget : |start + m.travel| < 2 ^ 127 := by
    have hsum := (abs_add_le start m.travel).trans (add_le_add hs (m.abs_travel_le hv ha))
    omega
  rw [wideTarget?, Wide.keep?_of_abs_lt hticks, Option.bind_eq_bind, Option.bind_some,
    Wide.keep?_of_abs_lt hstraight, Option.bind_some, Wide.keep?_of_abs_lt hslope,
    Option.bind_some, Wide.keep?_of_abs_lt hnext, Option.bind_some, Wide.keep?_of_abs_lt htwice,
    Option.bind_some, Wide.keep?_of_abs_lt hbend, Option.bind_some, ← travel,
    Wide.keep?_of_abs_lt htravel, Option.bind_some, Wide.keep?_of_abs_lt htarget]
  rfl

/-- For any move and any start that can be stored: no number on the way to the target leaves 128
bits, the halving is exact, and the target is the end of the parabola if that can be stored and is
refused otherwise. -/
theorem target_is_exact_or_refused (m : Move) {start : Int} (hv : Fits m.velocity)
    (ha : Fits m.acceleration) (hs : Fits start) :
    let ticks : Int := m.duration.toNat
    let twice := m.acceleration * ticks * (ticks + 1)
    let target := start + m.velocity * ticks + twice / 2
    m.wideTarget? start = some (m.targetFrom start) ∧ twice.tdiv 2 * 2 = twice ∧
      2 * target = 2 * (start + m.velocity * ticks) + twice ∧
      m.targetFrom start = if Fits target then some target else none := by
  intro ticks twice target
  have heven : twice / 2 * 2 = twice := Int.ediv_mul_cancel (m.two_dvd_acceleration _)
  refine ⟨?_, m.tdiv_two_mul_two, ?_, m.targetFrom_eq start⟩
  · exact m.wideTarget?_eq (abs_le_of_fits hv) (abs_le_of_fits ha) (abs_le_of_fits hs)
  · omega

/-- The largest numbers there are, whose target is refused, and odd ones that brake the move. -/
theorem target_is_exact_or_refused_of_extremes :
    let fast : Move := ⟨0, 0, 4294967295, -9223372036854775808, -9223372036854775808, ⟨0⟩⟩
    let braking : Move := ⟨0, 0, 5, 7, -3, ⟨0⟩⟩
    (Fits fast.velocity ∧ Fits fast.acceleration ∧ Fits (-9223372036854775808) ∧
        fast.wideTarget? (-9223372036854775808) = some none) ∧
      Fits braking.velocity ∧ Fits braking.acceleration ∧ Fits 100 ∧
        braking.wideTarget? 100 = some (some 90) := by
  intro fast braking
  have hlowest : Fits (-9223372036854775808) := by decide
  have hv : Fits braking.velocity := by decide
  have ha : Fits braking.acceleration := by decide
  have hs : Fits 100 := by decide
  obtain ⟨hfast, -, -, hrefused⟩ := target_is_exact_or_refused fast hlowest hlowest hlowest
  obtain ⟨hbraking, -, -, hexact⟩ := target_is_exact_or_refused braking hv ha hs
  refine ⟨⟨hlowest, hlowest, hlowest, ?_⟩, hv, ha, hs, ?_⟩
  · rw [hfast, hrefused, if_neg (by decide +kernel)]
  · rw [hbraking, hexact, if_pos (by decide +kernel)]
    decide +kernel

end Move

end AxisNode
