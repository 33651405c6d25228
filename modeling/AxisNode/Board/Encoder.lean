/-!
# The encoder

The hardware counts in sixteen bits. Each reading is folded into a count of 32 bits by the shortest
way round from the reading before it.
-/

namespace AxisNode

/-- A quadrature counter of sixteen bits and the position that is kept up to date from its
readings. -/
structure Encoder where
  /-- What the hardware counter shows now. -/
  counter : UInt16 := 0
  /-- What it showed at the last reading. -/
  last : UInt16 := 0
  position : Int32 := 0
deriving DecidableEq, Repr

namespace Encoder

/-- How far the counter has gone since the last reading. -/
def movement (e : Encoder) : Int16 := (e.counter - e.last).toInt16

/-- Reads the counter and folds it into the position. -/
def read (e : Encoder) : Encoder :=
  { e with last := e.counter, position := e.position + e.movement.toInt32 }

/-- Starts over at zero. -/
def reset (_ : Encoder) : Encoder := {}

/-- Lets the counter go by a number of counts, round its sixteen bits. -/
def turn (e : Encoder) (counts : Int) : Encoder :=
  { e with counter := e.counter + UInt16.ofInt counts }

end Encoder

end AxisNode
