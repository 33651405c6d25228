import AxisNode.Bus.Filter
import AxisNode.Message.Family
import AxisNode.Queue

/-!
# The outbox

Tasks never touch the bus. They address their replies and put them into the outbox, and one task
sends them in order, one at a time.
-/

namespace AxisNode

/-- An addressed reply. -/
structure Outgoing where
  id : FrameId
  reply : Reply
deriving DecidableEq, Repr

/-- The queue of what is to be sent. -/
abbrev Outbox := Queue Outgoing

/-- The outbox after a reply was offered to it. -/
structure Posted where
  outbox : Outbox
  accepted : Bool
  events : List Event
deriving DecidableEq, Repr

/-- The outbox and the bus after one turn of sending. -/
structure Sent (β : Type) where
  outbox : Outbox
  bus : β
  /-- Whether a reply was taken out. -/
  taken : Bool
  events : List Event

namespace Outgoing

/-- A reply is sent to its destination as network management. -/
def make (destination : NodeAddress) (r : Reply) : Outgoing where
  id := .make destination r.kind .networkManagement
  reply := r

/-- The payload of the frame. -/
def payload (o : Outgoing) : List UInt8 := o.reply.toMessage.bytes

/-- Hands a reply to the bus as the frame of its record. -/
def send {β : Type} [FrameBus β] (o : Outgoing) (bus : β) : Except BusError Unit × β :=
  FrameBus.send o.id o.payload (.ofSize o.payload.length) bus

end Outgoing

namespace Outbox

/-- Addresses a reply and queues it; a reply that finds no room is dropped. -/
def post (outbox : Outbox) (destination : NodeAddress) (r : Reply) : Posted :=
  match outbox.push? (.make destination r) with
  | some outbox => ⟨outbox, true, []⟩
  | none => ⟨outbox, false, [.log (.outboxFull r.kind)]⟩

/-- A post is accepted just if there is room, and then stands behind what waits. -/
theorem post_spec (o : Outbox) (destination : NodeAddress) (r : Reply) :
    if o.items.length < o.capacity then
      (o.post destination r).accepted = true ∧
        (o.post destination r).outbox.items = o.items ++ [.make destination r]
    else (o.post destination r).accepted = false ∧ (o.post destination r).outbox = o := by
  unfold post
  cases hq : o.push? (.make destination r) with
  | none =>
      rw [if_neg (Nat.not_lt.mpr (Queue.push?_eq_none_iff.mp hq))]
      exact ⟨rfl, rfl⟩
  | some q =>
      obtain ⟨hroom, hitems, -⟩ := Queue.push?_eq_some_iff.mp hq
      rw [if_pos hroom]
      exact ⟨rfl, hitems⟩

/-- Sends the oldest reply. It is gone even if the bus refuses it. -/
def sendNext {β : Type} [FrameBus β] (outbox : Outbox) (bus : β) : Sent β :=
  match outbox.pop? with
  | none => ⟨outbox, bus, false, []⟩
  | some (o, outbox) =>
      match o.send bus with
      | (.ok (), bus) => ⟨outbox, bus, true, []⟩
      | (.error e, bus) => ⟨outbox, bus, true, [.log (.sendFailed o.reply.kind e)]⟩

end Outbox

end AxisNode
