/-!
# Pins of the board

How each pin is set up: what it does, which peripheral it belongs to, whether it is pulled up and
how fast it switches.
-/

namespace AxisNode

/-- Who drives a pin. -/
inductive PinMode where
  | input
  | output
  /-- Driven by a peripheral, named by its number. -/
  | peripheral (number : Nat)
deriving DecidableEq, Repr

/-- How a pin is set up. -/
structure PinSetup where
  mode : PinMode
  pulledUp : Bool := false
  fast : Bool := false
deriving DecidableEq, Repr

/-- The fields of the registers that set a pin up: mode, peripheral, pull and speed. -/
def PinSetup.codes (s : PinSetup) : List Nat :=
  let mode :=
    match s.mode with
    | .input => [0, 0]
    | .output => [1, 0]
    | .peripheral number => [2, number]
  mode ++ [s.pulledUp.toNat, if s.fast then 3 else 0]

/-- A pin with its bank, its number in the bank and its setup. -/
structure BoardPin where
  bank : Char
  number : Nat
  setup : PinSetup
deriving DecidableEq, Repr

namespace BoardPin

/-- The lines of the bus to the driver chip. -/
def chipPins : List BoardPin :=
  [⟨'E', 12, { mode := .peripheral 5 }⟩, ⟨'E', 13, { mode := .peripheral 5 }⟩,
    ⟨'E', 14, { mode := .peripheral 5 }⟩, ⟨'E', 4, { mode := .output }⟩]

/-- Step, direction and enable, and the limit switch, which pulls its line to ground. -/
def stepperPins : List BoardPin :=
  [⟨'D', 12, { mode := .output }⟩, ⟨'D', 13, { mode := .output }⟩,
    ⟨'A', 3, { mode := .output }⟩, ⟨'A', 2, { mode := .input, pulledUp := true }⟩]

/-- The two phases of the encoder, which a counter of the microcontroller takes in. -/
def encoderPins : List BoardPin :=
  [⟨'A', 6, { mode := .peripheral 2 }⟩, ⟨'A', 7, { mode := .peripheral 2 }⟩]

/-- The pins to the bus, for sending and for receiving. -/
def canPins : List BoardPin :=
  [⟨'A', 12, { mode := .peripheral 9, fast := true }⟩,
    ⟨'A', 11, { mode := .peripheral 9, fast := true }⟩]

/-- All pins that the board sets up, in this order. -/
def all : List BoardPin := chipPins ++ stepperPins ++ encoderPins ++ canPins

/-- The bank and the number together. -/
def name (p : BoardPin) : String := s!"{p.bank}{p.number}"

end BoardPin

end AxisNode
