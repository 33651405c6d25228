/-!
# Data length codes

A frame states its length by a four-bit code. Up to eight the code is the number of bytes; beyond
that only seven larger sizes exist, and a shorter payload is padded up to the next one.
-/

namespace AxisNode

/-- The code by which a frame states the length of its data. -/
structure LengthCode where
  code : Fin 16
deriving DecidableEq, Repr

namespace LengthCode

/-- The largest payload of one frame. -/
def maxPayload : Nat := 64

/-- The lengths that can be stated; beyond eight bytes they are coarser. -/
def sizes : Vector Nat 16 := #v[0, 1, 2, 3, 4, 5, 6, 7, 8, 12, 16, 20, 24, 32, 48, 64]

/-- The number of bytes a code stands for. -/
def size (c : LengthCode) : Nat := sizes[c.code]

/-- Keeps the low four bits of a raw code. -/
def ofRaw (raw : UInt8) : LengthCode := ⟨⟨raw.toNat % 16, Nat.mod_lt _ (by decide)⟩⟩

/-- All codes, from the shortest length to the longest. -/
def all : List LengthCode := (List.finRange 16).map mk

/-- The smallest code whose size holds `n` bytes, and the largest code if none does. -/
def ofSize (n : Nat) : LengthCode := (all.find? fun c => n ≤ c.size).getD ⟨15⟩

/-- The size for a raw code; a code outside the table stands for the largest payload. -/
def sizeOfRaw (raw : UInt8) : Nat :=
  if raw.toNat < 16 then (ofRaw raw).size else maxPayload

theorem size_le_maxPayload (c : LengthCode) : c.size ≤ maxPayload := by
  obtain ⟨c⟩ := c
  revert c
  decide

end LengthCode

end AxisNode
