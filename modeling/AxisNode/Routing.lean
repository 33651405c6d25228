import AxisNode.Bus.Identifier
import AxisNode.Event
import AxisNode.Message.Family
import AxisNode.Queue

/-!
# Routing of received frames

A route is a tree. A gate lets through the identifiers it admits, a fan-out offers a frame to both
of its sides, and a leaf takes the kinds of one family. Delivering a frame changes a state that all
leaves share, and a leaf that cannot use a frame does not keep it from the leaves after it.
-/

namespace AxisNode

/-- An end point of a route: the kinds it takes and what it does with a payload. -/
structure Leaf (σ : Type) where
  members : List MessageKind
  receive : MessageKind → List UInt8 → σ → σ × List Event

namespace Leaf

variable {σ α β : Type}

/-- Hands every payload that can be read as a member of the family to `handle`. -/
def reading (F : Family α) (handle : MessageKind → α → σ → σ × List Event) : Leaf σ where
  members := F.members
  receive kind payload s :=
    match F.parse? kind payload with
    | some a => handle kind a s
    | none => (s, [.log (.unparsed kind payload.length)])

/-- Handles a message at once, on the receiving side. -/
def handling (F : Family α) (handle : α → σ → σ × List Event) : Leaf σ :=
  reading F fun _ a s => handle a s

/-- Puts a message on a queue of the state. -/
def queueing (F : Family α) (wrap : α → β) (get : σ → Queue β) (set : Queue β → σ → σ) : Leaf σ :=
  reading F fun kind a s =>
    match (get s).push? (wrap a) with
    | some q => (set q s, [])
    | none => (s, [.log (.taskQueueFull kind)])

end Leaf

/-- A tree of handlers. A gate lets only some identifiers through to what is behind it. -/
inductive Route (σ : Type) where
  | nothing
  | leaf (l : Leaf σ)
  | both (left right : Route σ)
  | gate (admits : FrameId → Bool) (inner : Route σ)

namespace Route

variable {σ : Type}

/-- A fan-out to any number of routes, from left to right. -/
def all (routes : List (Route σ)) : Route σ := routes.foldr both nothing

/-- Admits the frames for one node. -/
def forNode (n : NodeAddress) (inner : Route σ) : Route σ :=
  gate (fun id => n.accepts id.node) inner

/-- Whether some leaf takes a kind. Gates do not count: they look at the whole identifier. -/
def accepts : Route σ → MessageKind → Bool
  | nothing, _ => false
  | leaf l, k => k ∈ l.members
  | both left right, k => left.accepts k || right.accepts k
  | gate _ inner, k => inner.accepts k

/-- Offers a frame to a route. -/
def deliver : Route σ → FrameId → List UInt8 → σ → σ × List Event
  | nothing, _, _, s => (s, [])
  | leaf l, id, payload, s =>
      match id.kind? with
      | some k => l.receive k payload s
      | none => (s, [])
  | both left right, id, payload, s =>
      match id.kind? with
      | some k =>
          let (s, first) := if left.accepts k then left.deliver id payload s else (s, [])
          let (s, second) := if right.accepts k then right.deliver id payload s else (s, [])
          (s, first ++ second)
      | none => (s, [])
  | gate admits inner, id, payload, s =>
      if admits id then
        match id.kind? with
        | some k =>
            if inner.accepts k then inner.deliver id payload s else (s, [.log (.noTarget k)])
        | none => (s, [.log (.unknownMessage id.messageCode)])
      else (s, [])

end Route

end AxisNode
