/-!
# Fields of a record

A field is an integer of fixed width, written with its most significant byte first.
`WireType.decode_encode` says that reading a written field gives its value back.
-/

namespace AxisNode

/-- The number that a string of bytes denotes. -/
def Wire.ofBytes (bytes : List UInt8) : Nat := bytes.foldl (fun n b => n * 256 + b.toNat) 0

/-- The low `width` bytes of a number. -/
def Wire.toBytes : (width : Nat) → Nat → List UInt8
  | 0, _ => []
  | width + 1, n => Wire.toBytes width (n / 256) ++ [UInt8.ofNat n]

namespace Wire

/-- How many numbers fit in `width` bytes. -/
def range : (width : Nat) → Nat
  | 0 => 1
  | width + 1 => 256 * range width

@[simp] theorem length_toBytes (width n : Nat) : (toBytes width n).length = width := by
  induction width generalizing n with
  | zero => rfl
  | succ width ih => simp [toBytes, ih]

theorem ofBytes_append_singleton (bytes : List UInt8) (b : UInt8) :
    ofBytes (bytes ++ [b]) = ofBytes bytes * 256 + b.toNat := by
  simp [ofBytes]

@[simp] theorem ofBytes_toBytes (width n : Nat) : ofBytes (toBytes width n) = n % range width := by
  induction width generalizing n with
  | zero => simp [toBytes, ofBytes, range, Nat.mod_one]
  | succ width ih =>
      rw [toBytes, ofBytes_append_singleton, ih, range, Nat.mod_mul]
      simp only [UInt8.toNat_ofNat']
      omega

end Wire

/-- The types of numbers in a record. -/
inductive WireType where
  | u8
  | u16
  | u32
  | i32
  | u64
deriving DecidableEq, Repr

/-- The short name of a type. -/
def WireType.name : WireType → String
  | u8 => "u8"
  | u16 => "u16"
  | u32 => "u32"
  | i32 => "i32"
  | u64 => "u64"

/-- All types, from the narrowest to the widest. -/
def WireType.all : List WireType := [u8, u16, u32, i32, u64]

/-- The number of bytes of a field. -/
def WireType.width : WireType → Nat
  | u8 => 1
  | u16 => 2
  | u32 => 4
  | i32 => 4
  | u64 => 8

/-- A number of one of the types. -/
inductive WireValue where
  | u8 (n : UInt8)
  | u16 (n : UInt16)
  | u32 (n : UInt32)
  | i32 (n : Int32)
  | u64 (n : UInt64)
deriving DecidableEq, Repr

namespace WireValue

/-- The type of a value. -/
def type : WireValue → WireType
  | u8 _ => .u8
  | u16 _ => .u16
  | u32 _ => .u32
  | i32 _ => .i32
  | u64 _ => .u64

/-- The bytes of a value, the most significant first. -/
def encode : WireValue → List UInt8
  | u8 n => Wire.toBytes 1 n.toNat
  | u16 n => Wire.toBytes 2 n.toNat
  | u32 n => Wire.toBytes 4 n.toNat
  | i32 n => Wire.toBytes 4 n.toUInt32.toNat
  | u64 n => Wire.toBytes 8 n.toNat

@[simp] theorem length_encode (v : WireValue) : v.encode.length = v.type.width := by
  cases v <;> simp [encode, type, WireType.width]

end WireValue

namespace WireType

/-- Reads a field from exactly its bytes. -/
def decode (t : WireType) (bytes : List UInt8) : WireValue :=
  let n := Wire.ofBytes bytes
  match t with
  | u8 => .u8 (UInt8.ofNat n)
  | u16 => .u16 (UInt16.ofNat n)
  | u32 => .u32 (UInt32.ofNat n)
  | i32 => .i32 (UInt32.ofNat n).toInt32
  | u64 => .u64 (UInt64.ofNat n)

@[simp] theorem type_decode (t : WireType) (bytes : List UInt8) : (t.decode bytes).type = t := by
  cases t <;> rfl

@[simp] theorem decode_encode (v : WireValue) : v.type.decode v.encode = v := by
  cases v with
  | u8 n =>
      have := n.toNat_lt
      simp [decode, WireValue.encode, WireValue.type, Wire.range]
  | u16 n =>
      have := n.toNat_lt
      simp [decode, WireValue.encode, WireValue.type, Wire.range]
  | u32 n =>
      have := n.toNat_lt
      simp [decode, WireValue.encode, WireValue.type, Wire.range]
  | i32 n =>
      have := n.toUInt32.toNat_lt
      simp [decode, WireValue.encode, WireValue.type, Wire.range]
  | u64 n =>
      have := n.toNat_lt
      simp [decode, WireValue.encode, WireValue.type, Wire.range]

end WireType

end AxisNode
