/-!
# Fixed-point numbers of the motion path

A position counts steps in parts of `2 ^ -31` and is stored in 64 bits; velocities and accelerations
per tick share that scale. A fraction on the wire is a signed 32-bit count of the same parts. Sums
and products are taken over the integers and then tested against the stored range, so nothing wraps.
-/

namespace AxisNode.FixedPoint

/-- The number of fractional bits. -/
def fractionBits : Nat := 31

/-- One whole step. -/
def stepUnit : Int := 2147483648

/-- Whether a number can be stored in 64 bits. -/
def Fits (n : Int) : Prop := -9223372036854775808 ≤ n ∧ n < 9223372036854775808

instance (n : Int) : Decidable (Fits n) := inferInstanceAs (Decidable (_ ∧ _))

/-- A number if it can be stored. -/
def fit? (n : Int) : Option Int := if Fits n then some n else none

@[simp] theorem fit?_eq_some_iff {n m : Int} : fit? n = some m ↔ Fits n ∧ n = m := by
  simp [fit?]

@[simp] theorem fit?_eq_none_iff {n : Int} : fit? n = none ↔ ¬Fits n := by
  simp [fit?]

/-- A scale times a fraction, rounded toward negative infinity; `none` if it cannot be stored. -/
def scale? (scale : Int) (fraction : Int32) : Option Int := fit? (scale * fraction.toInt / stepUnit)

/-- The whole steps of a position, rounded toward negative infinity. -/
def floorSteps (position : Int) : Int := position / stepUnit

/-- The highest position: every whole step a 32-bit count can name, and a full fraction. -/
def topPosition : Int := 4294967295 * stepUnit + (stepUnit - 1)

/-- A half with the sign of `x`. -/
def signedHalf (x : Float32) : Float32 :=
  Float32.ofBits (0x3f000000 ||| (x.toBits &&& 0x80000000))

/-- Converts a real to fixed point with `bits` fractional bits, a half going away from zero. The
result saturates at the ends of the stored range, and a number that is not comparable gives zero. -/
def ofReal (x : Float32) (bits : Nat) : Int :=
  let scaled := x * (UInt64.ofNat (1 <<< bits)).toFloat32
  (scaled + signedHalf scaled).toInt64.toInt

end AxisNode.FixedPoint
