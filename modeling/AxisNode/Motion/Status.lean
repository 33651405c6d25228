/-!
# Status of the axis

What the interrupt and the foreground tell each other about the axis: how far the position can be
trusted, where the axis is, and whether the move in progress is to be abandoned.
-/

namespace AxisNode

/-- A flag that the node itself raises or lowers. -/
inductive AxisFlag where
  /-- The step count agrees with the axis. -/
  | stepperOk
  | encoderOk
  /-- The position left its range and the axis is halted. -/
  | overflow
  /-- An acknowledgement found its queue full. -/
  | ackDropped
deriving DecidableEq, Repr

/-- The bit that stands for a flag. -/
def AxisFlag.index : AxisFlag → Nat
  | stepperOk => 0
  | encoderOk => 1
  | overflow => 2
  | ackDropped => 3

/-- A set of flags; the upper four bits have no meaning here but are kept. -/
structure AxisFlags where
  bits : BitVec 8 := 0
deriving DecidableEq, Repr

namespace AxisFlags

/-- One flag alone. -/
def ofFlag (x : AxisFlag) : AxisFlags := ⟨BitVec.twoPow 8 x.index⟩

/-- Whether every flag of the second set is up in the first. -/
def contains (f g : AxisFlags) : Bool := f.bits &&& g.bits == g.bits

/-- The flags that are up in either set. -/
def union (f g : AxisFlags) : AxisFlags := ⟨f.bits ||| g.bits⟩

/-- The flags that are up in the first set and not in the second. -/
def difference (f g : AxisFlags) : AxisFlags := ⟨f.bits &&& ~~~g.bits⟩

/-- Whether a flag is up. -/
def has (f : AxisFlags) (x : AxisFlag) : Bool := f.bits.getLsbD x.index

/-- Sets a flag and leaves the others. -/
def raise (f : AxisFlags) (x : AxisFlag) : AxisFlags := f.union (ofFlag x)

/-- Takes a flag down and leaves the others. -/
def lower (f : AxisFlags) (x : AxisFlag) : AxisFlags := f.difference (ofFlag x)

@[simp] theorem has_union (f g : AxisFlags) (x : AxisFlag) :
    (f.union g).has x = (f.has x || g.has x) := by
  simp [has, union]

@[simp] theorem has_difference (f g : AxisFlags) (x : AxisFlag) :
    (f.difference g).has x = (f.has x && !g.has x) := by
  cases x <;> simp [has, difference, AxisFlag.index]

theorem has_empty (x : AxisFlag) : ({} : AxisFlags).has x = false := by
  cases x <;> decide

theorem has_ofFlag (x y : AxisFlag) : (ofFlag y).has x = decide (x = y) := by
  cases x <;> cases y <;> decide

@[simp] theorem has_raise (f : AxisFlags) (x y : AxisFlag) :
    (f.raise y).has x = (f.has x || decide (x = y)) := by
  simp [raise, has_ofFlag]

@[simp] theorem has_lower (f : AxisFlags) (x y : AxisFlag) :
    (f.lower y).has x = (f.has x && !decide (x = y)) := by
  simp [lower, has_ofFlag]

theorem contains_ofFlag (f : AxisFlags) (x : AxisFlag) :
    f.contains (ofFlag x) = f.has x := by
  obtain ⟨b⟩ := f
  cases x <;> revert b <;> decide

end AxisFlags

/-- What the interrupt shows of the axis, and what the foreground asks of the interrupt. -/
structure AxisStatus where
  flags : AxisFlags := {}
  /-- In whole steps. -/
  position : UInt32 := 0
  encoder : Int32 := 0
  /-- The limit switch as last sampled. -/
  limitSwitch : Bool := false
  cancelRequested : Bool := false
deriving DecidableEq, Repr

namespace AxisStatus

/-- Whether a flag of the status is up. -/
def has (s : AxisStatus) (x : AxisFlag) : Bool := s.flags.has x

/-- Sets a flag of the status. -/
def raise (s : AxisStatus) (x : AxisFlag) : AxisStatus :=
  { s with flags := s.flags.raise x }

/-- Takes a flag of the status down. -/
def lower (s : AxisStatus) (x : AxisFlag) : AxisStatus :=
  { s with flags := s.flags.lower x }

/-- Asks the interrupt to drop its move and its queue on the next tick. -/
def requestCancel (s : AxisStatus) : AxisStatus := { s with cancelRequested := true }

/-- Takes a pending request back, telling whether there was one. -/
def takeCancel (s : AxisStatus) : Bool × AxisStatus :=
  (s.cancelRequested, { s with cancelRequested := false })

@[simp] theorem has_takeCancel (s : AxisStatus) (x : AxisFlag) :
    s.takeCancel.2.has x = s.has x := rfl

@[simp] theorem has_raise (s : AxisStatus) (x y : AxisFlag) :
    (s.raise y).has x = (s.has x || decide (x = y)) :=
  AxisFlags.has_raise s.flags x y

@[simp] theorem has_lower (s : AxisStatus) (x y : AxisFlag) :
    (s.lower y).has x = (s.has x && !decide (x = y)) :=
  AxisFlags.has_lower s.flags x y

end AxisStatus

end AxisNode
