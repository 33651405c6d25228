/-!
# Motor currents

The chip knows currents as steps of 0 to 31. A current in amperes is converted with the sense
resistor and the full-scale voltage of the board; one that is off the scale is the largest step.
-/

namespace AxisNode

/-- The fields of the current register. -/
structure MotorCurrents where
  hold : UInt8 := 0
  run : UInt8 := 0
  /-- How slowly the chip goes from the run to the hold current. -/
  delay : UInt8 := 0
deriving DecidableEq, Repr

namespace MotorCurrents

/-- The register word; bits that do not fit their field are lost. -/
def word (c : MotorCurrents) : UInt32 :=
  let hold : UInt32 := c.hold.toUInt32 &&& 0x1f
  let run : UInt32 := c.run.toUInt32 &&& 0x1f
  let delay : UInt32 := c.delay.toUInt32 &&& 0xf
  hold ||| run <<< 8 ||| delay <<< 16

/-- Reads the fields of the register, of five, five and four bits. -/
def ofWord (w : UInt32) : MotorCurrents where
  hold := (w &&& 0x1f).toUInt8
  run := ((w >>> 8) &&& 0x1f).toUInt8
  delay := ((w >>> 16) &&& 0xf).toUInt8

end MotorCurrents

/-- The resistor, in ohms, and the voltage by which the chip senses currents. -/
structure CurrentSense where
  resistor : Float32 := Float32.ofBits 0x3dcccccd
  fullScale : Float32 := Float32.ofBits 0x3ea66666

namespace CurrentSense

/-- The square root of two times thirty-two, for the peak of a phase on a scale of 32. -/
def peak : Float32 := Float32.ofBits 0x3fb504f3 * 32

/-- The resistance inside the chip, in ohms. -/
def innerResistor : Float32 := Float32.ofBits 0x3ca3d70a

/-- Steps per ampere with sixteen fractional bits. -/
def scale (s : CurrentSense) : UInt64 :=
  (peak * (s.resistor + innerResistor) / s.fullScale * 65536).toUInt64

end CurrentSense

/-- The step for a current in amperes with sixteen fractional bits. The comparison comes before the
product, which then fits its 64 bits. -/
def currentStep (scale : UInt64) (current : UInt32) : UInt8 :=
  if scale = 0 then 31
  else if 0x2000000000 / scale ≤ current.toUInt64 then 31
  else
    let value := ((scale * current.toUInt64) >>> 32).toUInt32
    (if value = 0 then 0 else value - 1).toUInt8

end AxisNode
