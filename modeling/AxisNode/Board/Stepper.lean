import AxisNode.Board.Encoder
import AxisNode.Motion.StepGenerator

/-!
# Lines of the stepper

The lines that a board drives: step and direction, the enable line of the motor and the select line
of the driver chip, both of which are active when low. A line that was never driven has no level.
-/

namespace AxisNode

/-- A line that is active when low. -/
structure ActiveLowLine where
  /-- The level, which is high at first. -/
  level : Bool := true
deriving DecidableEq, Repr

namespace ActiveLowLine

/-- Pulls the line low. -/
def activate (_ : ActiveLowLine) : ActiveLowLine := ⟨false⟩

/-- Lets the line go high again. -/
def release (_ : ActiveLowLine) : ActiveLowLine := ⟨true⟩

end ActiveLowLine

/-- The lines between the board and a stepper with its switch and, if it has one, its encoder. What
was never driven has no level yet. -/
structure StepperLines where
  step : Option Bool := none
  direction : Option Bool := none
  /-- The level of the switch input. -/
  limit : Bool := false
  encoder : Option Encoder := none
deriving DecidableEq, Repr

namespace StepperLines

/-- Carries out one call of the generator on its line. -/
def drive (s : StepperLines) : PinCall → StepperLines
  | .step => { s with step := some true }
  | .unstep => { s with step := some false }
  | .positive => { s with direction := some true }
  | .negative => { s with direction := some false }

/-- The pressed switch pulls its line low. -/
def limitPressed (s : StepperLines) : Bool := !s.limit

/-- Reads the encoder, if the axis has one. -/
def readEncoder (s : StepperLines) : Option Int32 × StepperLines :=
  let encoder := s.encoder.map Encoder.read
  (encoder.map (·.position), { s with encoder })

/-- A timer tick of a generator on these lines. Only a tick that uses the encoder reads it. -/
def interrupt (s : StepperLines) (g : StepGenerator) : StepperLines × StepGenerator :=
  let (reading, s) := if g.readsEncoder then s.readEncoder else (none, s)
  let (g, calls) := g.interrupt s.limitPressed reading
  (calls.foldl drive s, g)

end StepperLines

end AxisNode
