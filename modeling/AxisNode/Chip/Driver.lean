import AxisNode.Chip.Current
import AxisNode.Chip.Register

/-!
# The driver chip

The chip is reached through a link that may fail on any access. The driver refuses an address that
names no register before it touches the link, and it remembers the currents last written so that one
of them can be changed alone.
-/

namespace AxisNode

/-- A link to the registers of a chip. An access may fail, and may change the link either way. -/
class RegisterLink (τ : Type) where
  write : UInt8 → UInt32 → τ → Bool × τ
  read : UInt8 → τ → Option UInt32 × τ

/-- Why an access to a register failed. -/
inductive ChipError where
  | invalidRegister (address : UInt8)
  | link
deriving DecidableEq, Repr

/-- The chip behind its link, how it senses currents, and the currents as they were last set. -/
structure ChipDriver (τ : Type) where
  link : τ
  sense : CurrentSense := {}
  currents : MotorCurrents := {}

namespace ChipDriver

variable {τ : Type} [RegisterLink τ]

/-- Writes a register. The currents are remembered once they have reached the chip. -/
def write (d : ChipDriver τ) (address : UInt8) (data : UInt32) :
    Except ChipError Unit × ChipDriver τ :=
  if Register.valid address then
    match RegisterLink.write address data d.link with
    | (false, link) => (.error .link, { d with link })
    | (true, link) =>
        let d := { d with link }
        if address = Register.currents then
          (.ok (), { d with currents := MotorCurrents.ofWord data })
        else (.ok (), d)
  else (.error (.invalidRegister address), d)

/-- Reads a register. An address without a register is refused before the link is used. -/
def read (d : ChipDriver τ) (address : UInt8) : Except ChipError UInt32 × ChipDriver τ :=
  if Register.valid address then
    match RegisterLink.read address d.link with
    | (none, link) => (.error .link, { d with link })
    | (some data, link) => (.ok data, { d with link })
  else (.error (.invalidRegister address), d)

omit [RegisterLink τ] in
/-- The step of a current on this board. -/
def step (d : ChipDriver τ) (current : UInt32) : UInt8 := currentStep d.sense.scale current

/-- Sends the remembered currents to the chip. -/
def writeCurrents (d : ChipDriver τ) : Except ChipError Unit × ChipDriver τ :=
  d.write Register.currents d.currents.word

/-- Sets the hold and run currents; zero keeps the present one. -/
def setCurrents (d : ChipDriver τ) (hold run : UInt32) : Except ChipError Unit × ChipDriver τ :=
  let c := d.currents
  let c := if hold = 0 then c else { c with hold := d.step hold }
  let c := if run = 0 then c else { c with run := d.step run }
  d.write Register.currents c.word

end ChipDriver

/-- One access to a register file. -/
inductive RegisterAccess where
  | write (address : UInt8) (data : UInt32)
  | read (address : UInt8)
deriving DecidableEq, Repr

/-- The registers of a chip behind a link that can be cut. Every access is noted, also one that
fails; one that fails has no other effect. -/
structure RegisterFile where
  words : UInt8 → UInt32 := fun _ => 0
  connected : Bool := true
  accesses : List RegisterAccess := []

instance : RegisterLink RegisterFile where
  write address data f :=
    let f := { f with accesses := f.accesses ++ [RegisterAccess.write address data] }
    if f.connected then
      (true, { f with words := fun a => if a = address then data else f.words a })
    else (false, f)
  read address f :=
    let f := { f with accesses := f.accesses ++ [RegisterAccess.read address] }
    (if f.connected then some (f.words address) else none, f)

end AxisNode
