import AxisNode.Bus.Filter

/-!
# The CAN controller

The controller starts in configuration mode, in which filters are installed and nothing is sent, and
is then started for good: from there on it sends and receives and its filters are fixed. Frames have
29-bit identifiers and at most 64 bytes, sent at one bit rate.
-/

namespace AxisNode

/-- Whether filters are still being installed or frames already go out and come in. -/
inductive ControllerMode where
  | configuration
  | running
deriving DecidableEq, Repr

/-- The nominal bit timing, in time quanta. -/
structure BitTiming where
  prescaler : UInt16 := 1
  segment1 : UInt8 := 1
  segment2 : UInt8 := 1
  jumpWidth : UInt8 := 1
deriving DecidableEq, Repr

/-- The timing register. Every field is kept less one: seven bits of the jump width, nine of the
prescaler, eight of the first segment and seven of the second. One bit is never set, the one between
the two segments. -/
def BitTiming.register (t : BitTiming) : UInt32 :=
  let jump : UInt32 := (t.jumpWidth - 1).toUInt32 &&& 0x7f
  let prescaler : UInt32 := (t.prescaler - 1).toUInt32 &&& 0x1ff
  let segment1 : UInt32 := (t.segment1 - 1).toUInt32
  let segment2 : UInt32 := (t.segment2 - 1).toUInt32 &&& 0x7f
  jump <<< 25 ||| prescaler <<< 16 ||| segment1 <<< 8 ||| segment2

/-- An extended filter element of the message memory. -/
inductive FilterElement where
  | unused
  | used (kind : FilterKind) (action : FilterAction) (first second : BitVec 29)
deriving DecidableEq, Repr

/-- The element for a filter. Words keep 29 bits, and a range is stored with its end first. -/
def FilterElement.ofFilter (f : Filter) : FilterElement :=
  let first := f.first.toBitVec.setWidth 29
  let second := f.second.toBitVec.setWidth 29
  match f.kind with
  | .range => .used .range f.action second first
  | kind => .used kind f.action first second

/-- The numbers that an element is made of: action, type and the two words. An unused element is of
a type of its own. -/
def FilterElement.codes : FilterElement → List Nat
  | unused => [0, 3, 0, 0]
  | used kind action first second =>
      [action.code.toNat, kind.code.toNat, first.toNat, second.toNat]

/-- A frame handed to the hardware for transmission. -/
structure TransmitRequest where
  mailbox : Nat
  id : FrameId
  /-- Whether the identifier has 29 bits. -/
  extended : Bool
  /-- Whether the frame is of the newer format, which carries more than eight bytes. -/
  flexible : Bool
  /-- Whether the data is sent at a bit rate of its own. -/
  rateSwitch : Bool
  length : LengthCode
  data : List UInt8
deriving DecidableEq, Repr

/-- Whether the frame goes out marked as remote. No caller asks for the mark: the driver of the
peripheral sets it on each frame without data. -/
def TransmitRequest.remote (t : TransmitRequest) : Bool := t.length.size == 0

/-- A frame as it waits in the receive queue of the hardware. -/
structure WaitingFrame where
  /-- The identifier, of 11 bits if the frame is a standard one. -/
  id : UInt32
  standard : Bool := false
  /-- Whether the frame is of the older format, which carries at most eight bytes. -/
  classic : Bool := false
  length : LengthCode
  data : List UInt8
  /-- Whether an earlier frame was lost. -/
  overrun : Bool := false
deriving DecidableEq, Repr

/-- The number of bytes that the length code of a waiting frame stands for in its format. -/
def WaitingFrame.size (w : WaitingFrame) : Nat :=
  if w.classic then min 8 w.length.size else w.length.size

/-- A received frame. -/
structure Frame where
  id : FrameId
  data : List UInt8
deriving DecidableEq, Repr

/-- What the driver and the hardware keep: the filters so far and what was handed over for
sending. -/
structure CanController where
  timing : BitTiming := {}
  mode : ControllerMode := .configuration
  nextSlot : Nat := 0
  filters : List FilterElement := List.replicate 8 .unused
  /-- The mailbox that the hardware offers next. -/
  mailbox : Nat := 0
  requests : List TransmitRequest := []
deriving DecidableEq, Repr

namespace CanController

/-- What happens to frames that no filter matches, and to remote frames: everything is rejected
until starting puts the defaults back. -/
def globalFilter (c : CanController) : UInt32 :=
  match c.mode with
  | .configuration => 63
  | .running => 0

/-- The mode register: the newer format is on, a second bit rate is off, and the two lowest bits are
set during configuration. -/
def controlRegister (c : CanController) : UInt32 :=
  match c.mode with
  | .configuration => 4355
  | .running => 4352

/-- Leaves the configuration mode, with the filters as they are. -/
def start (c : CanController) : CanController := { c with mode := .running }

/-- Writes the next filter element. -/
def addFilter (f : Filter) (c : CanController) : Except BusError CanController :=
  match c.mode with
  | .running => .error .unsupportedFilter
  | .configuration =>
      if c.nextSlot < c.filters.length then
        .ok { c with
          filters := c.filters.set c.nextSlot (.ofFilter f)
          nextSlot := c.nextSlot + 1 }
      else .error .unsupportedFilter

/-- Lets every frame through by the first element; the elements after it are written again next. -/
def acceptAll (c : CanController) : CanController :=
  { c with filters := c.filters.set 0 (.used .mask .toFifo0 0 0), nextSlot := 1 }

/-- Bytes padded with zeros to a length. -/
def pad (data : List UInt8) (length : Nat) : List UInt8 :=
  data ++ List.replicate (length - data.length) 0

/-- Requests the transmission of a frame, padded to the next length that a code can state. -/
def send (id : FrameId) (payload : List UInt8) (length : LengthCode) (c : CanController) :
    Except BusError CanController :=
  match c.mode with
  | .configuration => .error .bus
  | .running =>
      let needed := max length.size payload.length
      if LengthCode.maxPayload < needed then .error .payloadTooLong
      else
        let length := LengthCode.ofSize needed
        let request : TransmitRequest :=
          { mailbox := c.mailbox, id, extended := true, flexible := true, rateSwitch := false,
            length, data := pad payload length.size }
        .ok { c with requests := c.requests ++ [request] }

/-- Takes the waiting frame, if there is one; standard frames are dropped. -/
def receive : Option WaitingFrame → Option Frame × List Event
  | none => (none, [])
  | some w =>
      let events := if w.overrun then [.log .receiveOverrun] else []
      if w.standard then (none, events)
      else
        (some { id := .ofRaw w.id, data := (pad w.data w.size).take w.size }, events)

end CanController

instance : FrameBus CanController where
  addFilter f c :=
    match c.addFilter f with
    | .ok c => (.ok (), c)
    | .error e => (.error e, c)
  send id payload length c :=
    match c.send id payload length with
    | .ok c => (.ok (), c)
    | .error e => (.error e, c)

end AxisNode
