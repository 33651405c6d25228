import AxisNode.Bus.Identifier
import AxisNode.Bus.Length
import AxisNode.Event

/-!
# Acceptance filters and the bus

A bus peripheral drops the frames that no filter lets through. A node installs one filter for each
address it answers to and a last one that rejects everything else.
-/

namespace AxisNode

/-- What becomes of a frame that a filter matches. -/
inductive FilterAction where
  | disabled
  | toFifo0
  | toFifo1
  | reject
  | toFifo0HighPriority
  | toFifo1HighPriority
deriving DecidableEq, Repr

namespace FilterAction

/-- The code of an action in the message memory. -/
def code : FilterAction → UInt8
  | disabled => 0
  | toFifo0 => 1
  | toFifo1 => 2
  | reject => 3
  | toFifo0HighPriority => 5
  | toFifo1HighPriority => 6

/-- The action of a code; an unassigned code disables the filter. -/
def ofCode (c : UInt8) : FilterAction :=
  ([toFifo0, toFifo1, reject, toFifo0HighPriority, toFifo1HighPriority].find?
    fun a => a.code == c).getD disabled

/-- The name under which an action is shown. -/
def name : FilterAction → String
  | disabled => "Disabled"
  | toFifo0 => "ToFifo0"
  | toFifo1 => "ToFifo1"
  | reject => "Reject"
  | toFifo0HighPriority => "ToFifo0HighPriority"
  | toFifo1HighPriority => "ToFifo1HighPriority"

end FilterAction

/-- How the two words of a filter are compared with an identifier. -/
inductive FilterKind where
  /-- From the first word to the second. -/
  | range
  /-- One word or the other. -/
  | exact
  /-- The first word on the bits of the second. -/
  | mask
deriving DecidableEq, Repr

namespace FilterKind

/-- The code of a kind in the message memory. -/
def code : FilterKind → UInt8
  | range => 0
  | exact => 1
  | mask => 2

/-- The kind of a code; an unassigned code is read as a range. -/
def ofCode (c : UInt8) : FilterKind := ([exact, mask].find? fun k => k.code == c).getD range

/-- The name under which a kind is shown. -/
def name : FilterKind → String
  | range => "Range"
  | exact => "Exact"
  | mask => "Mask"

end FilterKind

/-- What happens to identifiers that match two words in the way that the kind says. -/
structure Filter where
  kind : FilterKind
  action : FilterAction
  first : UInt32
  second : UInt32
deriving DecidableEq, Repr

namespace Filter

/-- Selects the node field of an identifier. -/
def nodeMask : UInt32 := FrameId.raw ⟨0, 0xff, 0⟩

/-- Lets the frames for one address through. -/
def forAddress (n : NodeAddress) : Filter :=
  ⟨.mask, .toFifo0, (FrameId.pack n.code 0 0).raw, nodeMask⟩

/-- Rejects every identifier, as a mask without bits matches all of them. -/
def rejectAll : Filter := ⟨.mask, .reject, 0, 0⟩

/-- The filters of a node, in the order in which they are installed. -/
def forNode (n : NodeAddress) : List Filter :=
  forAddress n :: forAddress .broadcast :: n.groupAlias.toList.map forAddress ++ [rejectAll]

end Filter

/-- A bus peripheral. A call may fail, and may change the peripheral either way. -/
class FrameBus (β : Type) where
  addFilter : Filter → β → Except BusError Unit × β
  send : FrameId → List UInt8 → LengthCode → β → Except BusError Unit × β

namespace FrameBus

variable {β : Type} [FrameBus β]

/-- Installs filters one after another up to the first that is refused. -/
def addFilters : List Filter → β → Except BusError Unit × β
  | [], bus => (.ok (), bus)
  | f :: filters, bus =>
      match addFilter f bus with
      | (.ok (), bus) => addFilters filters bus
      | (.error e, bus) => (.error e, bus)

/-- Installs the filters of a node. -/
def installNodeFilters (n : NodeAddress) (bus : β) : Except BusError Unit × β × List Event :=
  let (result, bus) := addFilters (Filter.forNode n) bus
  (result, bus, [.log (.installingFilters n)])

end FrameBus

end AxisNode
