/-!
# Motion constraints

Limits on the velocity and acceleration of queued moves, in the units of the wire. A maximum that
is not positive means no limit; the minima are kept and reported but never applied.
-/

namespace AxisNode

/-- The limits as they were last set; zeros limit nothing. -/
structure MotionConstraints where
  minVelocity : Int32 := 0
  maxVelocity : Int32 := 0
  minAcceleration : Int32 := 0
  maxAcceleration : Int32 := 0
deriving DecidableEq, Repr

namespace MotionConstraints

/-- Limits `value` to the magnitude `limit`, if that is positive. -/
def bounded (value limit : Int32) : Int32 :=
  if limit ≤ 0 then value
  else if value < -limit then -limit
  else if limit < value then limit
  else value

/-- Limits a velocity. -/
def boundVelocity (c : MotionConstraints) (v : Int32) : Int32 := bounded v c.maxVelocity

/-- Limits an acceleration. -/
def boundAcceleration (c : MotionConstraints) (a : Int32) : Int32 :=
  bounded a c.maxAcceleration

end MotionConstraints

end AxisNode
