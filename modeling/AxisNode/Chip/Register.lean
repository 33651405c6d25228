import AxisNode.Wire.Field

/-!
# Registers of the driver chip

The chip is reached by datagrams of five bytes: an address, whose top bit asks for a write, and a
word of data. Only some addresses name a register.
-/

namespace AxisNode.Register

/-- The register with the hold and run currents. -/
def currents : UInt8 := 0x10

/-- Whether an address names a register of the chip. -/
def valid (address : UInt8) : Bool :=
  address ∈ [0x00, 0x01, 0x04, 0x2d, 0x33] ||
    (0x10 ≤ address && address ≤ 0x15) || (0x60 ≤ address && address ≤ 0x73)

/-- The bit of an address that asks for a write. -/
def writeBit : UInt8 := 0x80

/-- The datagram of one access. -/
def datagram (address : UInt8) (data : UInt32) (write : Bool) : List UInt8 :=
  (if write then address ||| writeBit else address &&& ~~~writeBit) :: (WireValue.u32 data).encode

/-- The status byte and the data of a received datagram. -/
def readDatagram? : List UInt8 → Option (UInt8 × UInt32)
  | [status, a, b, c, d] => some (status, UInt32.ofNat (Wire.ofBytes [a, b, c, d]))
  | _ => none

theorem readDatagram?_datagram (address : UInt8) (data : UInt32) (write : Bool) :
    readDatagram? (datagram address data write) =
      some (if write then address ||| writeBit else address &&& ~~~writeBit, data) := by
  have h : Wire.ofBytes (WireValue.u32 data).encode = data.toNat := by
    rw [WireValue.encode, Wire.ofBytes_toBytes]
    exact Nat.mod_eq_of_lt data.toNat_lt
  simp only [WireValue.encode, Wire.toBytes, List.nil_append, List.cons_append] at h
  simp only [datagram, WireValue.encode, Wire.toBytes, List.nil_append, List.cons_append,
    readDatagram?, h, UInt32.ofNat_toNat]

end AxisNode.Register
