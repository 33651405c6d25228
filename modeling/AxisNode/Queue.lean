/-!
# Bounded queues

A queue hands its items out in the order in which it took them and refuses an item when it is full;
a refused item leaves the queue as it was. The view of a queue is the list of its items, oldest
first.
-/

namespace AxisNode

/-- Items in the order in which they came, as many as there is room for. -/
structure Queue (α : Type) where
  capacity : Nat
  items : List α := []
  length_le : items.length ≤ capacity := by simp
deriving DecidableEq, Repr

namespace Queue

variable {α : Type}

/-- A queue with nothing in it. -/
def empty (capacity : Nat) : Queue α := { capacity }

/-- Appends an item; `none` if the queue is full. -/
def push? (q : Queue α) (a : α) : Option (Queue α) :=
  if h : q.items.length < q.capacity then
    some { q with items := q.items ++ [a], length_le := by rw [List.length_append]; exact h }
  else none

/-- The oldest item and the queue without it. -/
def pop? (q : Queue α) : Option (α × Queue α) :=
  match h : q.items with
  | [] => none
  | a :: rest =>
      some (a, { q with
        items := rest
        length_le := by have := q.length_le; simp [h] at this; omega })

/-- Polls for an item a number of times. A queue that nothing writes to meanwhile answers every
poll alike, so only the absence of polls makes a difference. -/
def popWithin? (polls : Nat) (q : Queue α) : Option (α × Queue α) :=
  if polls = 0 then none else q.pop?

/-- Drops all items and keeps the room. -/
def clear (q : Queue α) : Queue α := { q with items := [], length_le := by simp }

/-- How many items wait. -/
def size (q : Queue α) : Nat := q.items.length

/-- Whether nothing waits. -/
def isEmpty (q : Queue α) : Bool := q.items.isEmpty

@[simp] theorem items_empty (n : Nat) : (empty n : Queue α).items = [] := rfl

@[simp] theorem capacity_empty (n : Nat) : (empty n : Queue α).capacity = n := rfl

@[simp] theorem items_clear (q : Queue α) : q.clear.items = [] := rfl

@[simp] theorem capacity_clear (q : Queue α) : q.clear.capacity = q.capacity := rfl

theorem push?_eq_some_iff {q r : Queue α} {a : α} :
    q.push? a = some r ↔
      q.items.length < q.capacity ∧ r.items = q.items ++ [a] ∧ r.capacity = q.capacity := by
  obtain ⟨c, l, hl⟩ := q
  obtain ⟨c', l', hl'⟩ := r
  simp only [push?]
  split
  · simp only [Option.some.injEq, Queue.mk.injEq]; grind
  · grind

theorem push?_eq_none_iff {q : Queue α} {a : α} :
    q.push? a = none ↔ q.capacity ≤ q.items.length := by
  simp [push?]

theorem exists_push? {q : Queue α} (a : α) (h : q.items.length < q.capacity) :
    ∃ r, q.push? a = some r :=
  ⟨_, dif_pos h⟩

theorem pop?_eq_some_iff {q r : Queue α} {a : α} :
    q.pop? = some (a, r) ↔ q.items = a :: r.items ∧ r.capacity = q.capacity := by
  obtain ⟨c, l, hl⟩ := q
  obtain ⟨c', l', hl'⟩ := r
  cases l with
  | nil => simp [pop?]
  | cons b l => simp only [pop?, Option.some.injEq, Prod.mk.injEq, Queue.mk.injEq]; grind

theorem exists_pop?_of_head? {q : Queue α} {a : α} (h : q.items.head? = some a) :
    ∃ r, q.pop? = some (a, r) := by
  obtain ⟨c, l, hl⟩ := q
  obtain ⟨rest, rfl⟩ := List.head?_eq_some_iff.mp h
  exact ⟨_, rfl⟩

theorem exists_pop?_of_cons {q : Queue α} {a : α} {rest : List α} (h : q.items = a :: rest) :
    ∃ r, q.pop? = some (a, r) ∧ r.items = rest := by
  obtain ⟨r, hr⟩ := exists_pop?_of_head? (q := q) (a := a) (by rw [h, List.head?_cons])
  have hi := (pop?_eq_some_iff.mp hr).1
  rw [h, List.cons.injEq] at hi
  exact ⟨r, hr, hi.2.symm⟩

theorem length_pop? {q r : Queue α} {a : α} (h : q.pop? = some (a, r)) :
    r.items.length = q.items.length - 1 := by
  rw [(pop?_eq_some_iff.mp h).1, List.length_cons, Nat.add_sub_cancel]

theorem pop?_eq_none_iff {q : Queue α} : q.pop? = none ↔ q.items = [] := by
  obtain ⟨c, l, hl⟩ := q
  cases l <;> simp [pop?]

end Queue

/-- The writing end of a queue that can be shut; a shut inlet refuses every item. -/
structure Inlet (α : Type) where
  queue : Queue α
  isOpen : Bool := true
deriving DecidableEq, Repr

namespace Inlet

variable {α : Type}

/-- Puts an item at the end, if the way is open and there is room. -/
def push? (i : Inlet α) (a : α) : Option (Inlet α) :=
  if i.isOpen then (i.queue.push? a).map fun q => { i with queue := q } else none

/-- Drops all items, also when the way is shut. -/
def clear (i : Inlet α) : Inlet α := { i with queue := i.queue.clear }

end Inlet

end AxisNode
