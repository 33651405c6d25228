/-!
# The step timer

The timer divides its clock and raises an update flag at the tick rate. While the flag is up the
interrupt is asked for, so the handler lowers it first.
-/

namespace AxisNode

/-- The timer whose interrupt is the tick. -/
structure TickTimer where
  reload : UInt32
  prescaler : UInt32 := 0
  running : Bool := true
  interrupts : Bool := true
  pending : Bool := false
deriving DecidableEq, Repr

namespace TickTimer

/-- The clock counts from one tick to the next, less the one that reloads; no rate counts as one
tick per second. -/
def reloadFor (clock rate : UInt32) : UInt32 :=
  let counts := clock / (if rate = 0 then 1 else rate)
  if counts = 0 then 0 else counts - 1

/-- A running timer that ticks `rate` times per second. -/
def start (clock rate : UInt32) : TickTimer := { reload := reloadFor clock rate }

/-- The hardware reached the end of a count. -/
def update (t : TickTimer) : TickTimer := { t with pending := true }

/-- Acknowledges a tick, so that the interrupt is not taken again. -/
def clearInterrupt (t : TickTimer) : TickTimer := { t with pending := false }

/-- Stops counting and raises no more interrupts. -/
def stop (t : TickTimer) : TickTimer := { t with running := false, interrupts := false }

end TickTimer

end AxisNode
