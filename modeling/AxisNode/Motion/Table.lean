import AxisNode.Motion.Move

/-!
# Move groups

A table holds a fixed number of groups and each group a fixed number of slots. A move goes to the
slot named by its own group and sequence numbers, and a group runs in slot order whatever the order
in which it was staged.
-/

namespace AxisNode

/-- The moves of a group, each in the slot of its sequence number. -/
structure MoveGroup where
  slots : List (Option StagedMove)
deriving DecidableEq, Repr

namespace MoveGroup

/-- A group of `n` empty slots. -/
def empty (n : Nat) : MoveGroup := ⟨List.replicate n none⟩

/-- How many slots there are, empty or not. -/
def capacity (g : MoveGroup) : Nat := g.slots.length

/-- Puts a move into the slot of its sequence number; `none` if there is no such slot. -/
def insert? (g : MoveGroup) (m : StagedMove) : Option MoveGroup :=
  if m.seq.toNat < g.slots.length then some ⟨g.slots.set m.seq.toNat (some m)⟩ else none

/-- The move in a slot, if there is such a slot and it is not empty. -/
def get? (g : MoveGroup) (seq : Nat) : Option StagedMove := g.slots[seq]?.join

/-- Empties every slot. -/
def clear (g : MoveGroup) : MoveGroup := empty g.capacity

/-- The staged moves in the order in which they run. -/
def moves (g : MoveGroup) : List StagedMove := g.slots.reduceOption

/-- How many slots hold a move. -/
def size (g : MoveGroup) : Nat := g.moves.length

/-- Whether no slot holds a move. -/
def isEmpty (g : MoveGroup) : Bool := g.slots.all Option.isNone

/-- A sum of ticks that stays at the largest count instead of wrapping. -/
def addTicks (a b : UInt32) : UInt32 :=
  if a.toNat + b.toNat < UInt32.size then a + b else 0xffffffff

/-- The ticks of all staged moves together. -/
def duration (g : MoveGroup) : UInt32 := (g.moves.map StagedMove.duration).foldl addTicks 0

end MoveGroup

/-- All groups of an axis, each under its number. -/
structure MoveTable where
  groups : List MoveGroup
deriving DecidableEq, Repr

namespace MoveTable

/-- A table of `g` groups with `n` slots each. -/
def empty (g n : Nat) : MoveTable := ⟨List.replicate g (.empty n)⟩

/-- The group of a number, if there is one. -/
def group? (t : MoveTable) (id : UInt8) : Option MoveGroup := t.groups[id.toNat]?

/-- Replaces a group; without a group of that number the table stays as it is. -/
def setGroup (t : MoveTable) (id : UInt8) (g : MoveGroup) : MoveTable :=
  ⟨t.groups.set id.toNat g⟩

/-- Stages a move in the slot it names; `none` if the group or the slot does not exist. -/
def stage? (t : MoveTable) (m : StagedMove) : Option MoveTable := do
  let g ← t.group? m.group
  let g ← g.insert? m
  return t.setGroup m.group g

/-- Empties every group. -/
def clear (t : MoveTable) : MoveTable := ⟨t.groups.map MoveGroup.clear⟩

end MoveTable

end AxisNode
