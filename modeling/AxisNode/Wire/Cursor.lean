import AxisNode.Bus.Kind
import AxisNode.Wire.Field

/-!
# Cursors over bytes

A reader takes bytes from the front of a payload and a writer puts them into a buffer of fixed size.
Either moves by the whole of what was asked for or not at all.
-/

namespace AxisNode

/-- A payload and how far it has been read. -/
structure WireReader where
  bytes : List UInt8
  position : Nat := 0
deriving DecidableEq, Repr

namespace WireReader

/-- The bytes not yet taken. -/
def remaining (r : WireReader) : Nat := r.bytes.length - r.position

/-- The next `n` bytes. -/
def take (r : WireReader) (n : Nat) : Except BusError (List UInt8 × WireReader) :=
  if r.position + n ≤ r.bytes.length then
    .ok ((r.bytes.drop r.position).take n, { r with position := r.position + n })
  else .error .payloadTooShort

/-- Reads a value of a type, unless the rest of the payload is too short for it. -/
def read (r : WireReader) (t : WireType) : Except BusError (WireValue × WireReader) :=
  (r.take t.width).map fun (bytes, r) => (t.decode bytes, r)

/-- Reads fields one after another. -/
def readAll (r : WireReader) : List WireType → Except BusError (List WireValue × WireReader)
  | [] => .ok ([], r)
  | t :: types =>
      match r.read t with
      | .error e => .error e
      | .ok (v, r) => (r.readAll types).map fun (values, r) => (v :: values, r)

end WireReader

/-- A buffer and how far it has been written. -/
structure WireWriter where
  buffer : List UInt8
  position : Nat := 0
deriving DecidableEq, Repr

namespace WireWriter

/-- Writes bytes at the cursor, if the buffer holds them. -/
def put (w : WireWriter) (bytes : List UInt8) : Except BusError WireWriter :=
  let stop := w.position + bytes.length
  if stop ≤ w.buffer.length then
    .ok { buffer := w.buffer.take w.position ++ bytes ++ w.buffer.drop stop, position := stop }
  else .error .bufferTooSmall

/-- Writes a value in the bytes of its type. -/
def write (w : WireWriter) (v : WireValue) : Except BusError WireWriter := w.put v.encode

/-- Writes fields one after another up to the first that does not fit. The fields before it stay
written, and the error tells that it was refused. -/
def writeAll (w : WireWriter) : List WireValue → WireWriter × Option BusError
  | [] => (w, none)
  | v :: values =>
      match w.write v with
      | .ok w => w.writeAll values
      | .error e => (w, some e)

end WireWriter

end AxisNode
