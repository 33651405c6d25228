import AxisNode.Chip.Driver
import AxisNode.Node.Outbox

/-!
# Requests to the driver chip

A request with an address that names no register is logged and never reaches the chip. A read is
always answered; one that failed is answered with zero.
-/

namespace AxisNode

/-- The driver chip and the way out for what is read from it. -/
structure ChipTask (τ : Type) where
  driver : ChipDriver τ
  outbox : Outbox
  host : NodeAddress

namespace ChipTask

variable {τ : Type} [RegisterLink τ]

/-- Writes a register; a failure shows only in the log. -/
def write (address : UInt8) (data : UInt32) (t : ChipTask τ) : ChipTask τ × List Event :=
  match t.driver.write address data with
  | (.ok (), driver) => ({ t with driver }, [.log (.writeRegister address data)])
  | (.error (.invalidRegister _), driver) =>
      ({ t with driver },
        [.log (.writeRegister address data), .log (.writeInvalidRegister address)])
  | (.error .link, driver) =>
      ({ t with driver },
        [.log (.writeRegister address data), .log (.writeRegisterFailed address)])

/-- Reads a register, with zero for one that cannot be read. -/
def fetch (address : UInt8) (driver : ChipDriver τ) : UInt32 × ChipDriver τ × List Event :=
  match driver.read address with
  | (.ok data, driver) => (data, driver, [])
  | (.error (.invalidRegister _), driver) =>
      (0, driver, [.log (.readInvalidRegister address)])
  | (.error .link, driver) => (0, driver, [.log (.readRegisterFailed address)])

/-- Reads a register and always answers, with zero if that failed. -/
def read (address : UInt8) (t : ChipTask τ) : ChipTask τ × List Event :=
  let (data, driver, events) := fetch address t.driver
  let posted := t.outbox.post t.host (.register address data)
  ({ t with driver, outbox := posted.outbox }, events ++ posted.events)

/-- Sets the currents; a failure shows only in the log. -/
def setCurrents (hold run : UInt32) (t : ChipTask τ) : ChipTask τ × List Event :=
  match t.driver.setCurrents hold run with
  | (.ok (), driver) => ({ t with driver }, [.log (.writeCurrent hold run)])
  | (.error _, driver) =>
      ({ t with driver }, [.log (.writeCurrent hold run), .log .writeCurrentFailed])

/-- Handles one request. -/
def handle (r : ChipRequest) (t : ChipTask τ) : ChipTask τ × List Event :=
  match r with
  | .write address data => t.write address data
  | .read address => t.read address
  | .setCurrents hold run => t.setCurrents hold run

end ChipTask

end AxisNode
