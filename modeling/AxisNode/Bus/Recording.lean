import AxisNode.Bus.Filter

/-!
# A bus that keeps a record

The recording bus keeps the filters it takes and the frames it sends, each in their order. While it
has a fault it sends nothing and takes no filter beyond the first few.
-/

namespace AxisNode

/-- A frame as it was sent. -/
structure SentFrame where
  id : FrameId
  data : List UInt8
  length : LengthCode
deriving DecidableEq, Repr

/-- A bus that keeps what it was asked for and can be made to fail. -/
structure RecordingBus where
  /-- What a call that fails is answered with. -/
  fault : Option BusError := none
  /-- How many filters are taken in spite of the fault. -/
  patience : Nat := 0
  filters : List Filter := []
  sent : List SentFrame := []
deriving DecidableEq, Repr

namespace RecordingBus

/-- Keeps a filter, unless a fault is set and its patience is used up. -/
def addFilter (f : Filter) (b : RecordingBus) : Except BusError Unit × RecordingBus :=
  match b.fault with
  | some e =>
      if b.patience ≤ b.filters.length then (.error e, b)
      else (.ok (), { b with filters := b.filters ++ [f] })
  | none => (.ok (), { b with filters := b.filters ++ [f] })

/-- Keeps a frame, unless a fault is set. -/
def send (id : FrameId) (payload : List UInt8) (length : LengthCode) (b : RecordingBus) :
    Except BusError Unit × RecordingBus :=
  match b.fault with
  | some e => (.error e, b)
  | none => (.ok (), { b with sent := b.sent ++ [⟨id, payload, length⟩] })

end RecordingBus

instance : FrameBus RecordingBus where
  addFilter := RecordingBus.addFilter
  send := RecordingBus.send

end AxisNode
