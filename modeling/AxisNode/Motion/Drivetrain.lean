import AxisNode.Motion.FixedPoint

/-!
# Drivetrain

How turns of the motor become travel of the axis, and the three scales the controller works with.
Reals are single precision, and each product is taken from left to right.
-/

namespace AxisNode

/-- How one turn becomes travel, in millimetres. -/
inductive Transmission where
  | leadScrew (pitch : Float32)
  | belt (pulleyDiameter : Float32)

namespace Transmission

/-- The single-precision number nearest to the ratio of circumference and diameter. -/
def circleRatio : Float32 := Float32.ofBits 0x40490fdb

/-- How far the axis travels in one turn, in millimetres. -/
def travelPerTurn : Transmission → Float32
  | leadScrew pitch => pitch
  | belt diameter => circleRatio * diameter

end Transmission

/-- A motor and how it moves the axis. -/
structure Drivetrain where
  transmission : Transmission
  stepsPerTurn : Float32
  microstep : Float32
  /-- Turns of the motor for one turn of the output. -/
  gearRatio : Float32

namespace Drivetrain

/-- Steps of the motor for a millimetre of travel. -/
def stepsPerMillimetre (d : Drivetrain) : Float32 :=
  d.stepsPerTurn * d.microstep * d.gearRatio / d.transmission.travelPerTurn

/-- Steps of the motor for a micrometre of travel. -/
def stepsPerMicrometre (d : Drivetrain) : Float32 := d.stepsPerMillimetre / 1000

/-- Travel in micrometres for one step of the motor. -/
def micrometresPerStep (d : Drivetrain) : Float32 := 1000 / d.stepsPerMillimetre

end Drivetrain

/-- The scales of an axis in fixed point. -/
structure AxisScale where
  stepsPerMillimetre : Int
  stepsPerMicrometre : Int
  micrometresPerStep : Int
deriving DecidableEq, Repr

/-- The three scales, each rounded on its own. -/
def Drivetrain.scale (d : Drivetrain) : AxisScale where
  stepsPerMillimetre := FixedPoint.ofReal d.stepsPerMillimetre FixedPoint.fractionBits
  stepsPerMicrometre := FixedPoint.ofReal d.stepsPerMicrometre FixedPoint.fractionBits
  micrometresPerStep := FixedPoint.ofReal d.micrometresPerStep FixedPoint.fractionBits

end AxisNode
