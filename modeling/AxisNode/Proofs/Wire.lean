import AxisNode.Wire.Cursor
import Mathlib.Data.List.Induction

/-!
# Exactly the bytes of a record

A field and its bytes determine each other, so the bytes that a row of fields was read from are
written again when the fields are. A reader serves the fields just if as many bytes are left as
their types are wide, and looks at no byte behind those. A writer with too little room stops inside
its buffer and has written whole fields from the front.
-/

namespace AxisNode

namespace Wire

theorem ofBytes_lt_range (bytes : List UInt8) : ofBytes bytes < range bytes.length := by
  induction bytes using List.reverseRecOn with
  | nil => exact Nat.one_pos
  | append_singleton bytes b ih =>
      have hb := b.toNat_lt
      rw [ofBytes_append_singleton, List.length_append, List.length_singleton, range]
      omega

/-- A string of bytes is the only one of its length that denotes its number. -/
@[simp] theorem toBytes_ofBytes (bytes : List UInt8) :
    toBytes bytes.length (ofBytes bytes) = bytes := by
  induction bytes using List.reverseRecOn with
  | nil => rfl
  | append_singleton bytes b ih =>
      have hb := b.toNat_lt
      have hhigh : (ofBytes bytes * 256 + b.toNat) / 256 = ofBytes bytes := by omega
      have hlow : UInt8.ofNat (ofBytes bytes * 256 + b.toNat) = b := by
        apply UInt8.toNat_inj.mp
        rw [UInt8.toNat_ofNat']
        omega
      rw [List.length_append, List.length_singleton, toBytes, ofBytes_append_singleton, hhigh, ih,
        hlow]

end Wire

/-- A field is written as the bytes that it was read from. -/
theorem WireType.encode_decode {t : WireType} {bytes : List UInt8} (h : bytes.length = t.width) :
    (t.decode bytes).encode = bytes := by
  have hlt := Wire.ofBytes_lt_range bytes
  have hback := Wire.toBytes_ofBytes bytes
  rw [h] at hlt hback
  cases t <;> simp only [width, Wire.range, Nat.reduceMul] at hlt hback <;>
    simpa [decode, WireValue.encode, Nat.mod_eq_of_lt hlt] using hback

/-- How many bytes the fields of the given types take. -/
def WireType.widths : List WireType → Nat
  | [] => 0
  | t :: types => t.width + widths types

/-- The fields of the given types that a string of bytes begins with. -/
def WireType.decodeAll : List WireType → List UInt8 → List WireValue
  | [], _ => []
  | t :: types, bytes => t.decode (bytes.take t.width) :: decodeAll types (bytes.drop t.width)

namespace WireType

@[simp] theorem widths_nil : widths [] = 0 := rfl

@[simp] theorem widths_cons (t : WireType) (types : List WireType) :
    widths (t :: types) = t.width + widths types := rfl

theorem length_flatMap_encode (values : List WireValue) :
    (values.flatMap WireValue.encode).length = widths (values.map WireValue.type) := by
  induction values with
  | nil => rfl
  | cons v values ih =>
      rw [List.flatMap_cons, List.length_append, ih, WireValue.length_encode, List.map_cons,
        widths_cons]

/-- The fields at the front of a string of bytes are written as that front. -/
theorem flatMap_encode_decodeAll {types : List WireType} {bytes : List UInt8}
    (h : widths types ≤ bytes.length) :
    (decodeAll types bytes).flatMap WireValue.encode = bytes.take (widths types) := by
  induction types generalizing bytes with
  | nil => simp [decodeAll]
  | cons t types ih =>
      rw [widths_cons] at h
      have hfirst : (bytes.take t.width).length = t.width := by
        rw [List.length_take]
        omega
      have hothers : widths types ≤ (bytes.drop t.width).length := by
        rw [List.length_drop]
        omega
      rw [decodeAll, List.flatMap_cons, encode_decode hfirst, ih hothers, widths_cons,
        List.take_add]

end WireType

open WireType

namespace WireReader

theorem take_of_fits {r : WireReader} {n : Nat} (h : r.position + n ≤ r.bytes.length) :
    r.take n = .ok ((r.bytes.drop r.position).take n, { r with position := r.position + n }) :=
  if_pos h

theorem take_of_not_fits {r : WireReader} {n : Nat} (h : ¬r.position + n ≤ r.bytes.length) :
    r.take n = .error .payloadTooShort := if_neg h

/-- A reader with `front` behind it. What it finds are the fields that `rest` begins with, and it
fails just if `rest` is too short for them. -/
theorem readAll_eq (front rest : List UInt8) (types : List WireType) :
    WireReader.readAll ⟨front ++ rest, front.length⟩ types =
      if widths types ≤ rest.length then
        .ok (decodeAll types rest, ⟨front ++ rest, front.length + widths types⟩)
      else .error .payloadTooShort := by
  induction types generalizing front rest with
  | nil => simp [readAll, decodeAll]
  | cons t types ih =>
      by_cases hfirst : t.width ≤ rest.length
      · have hread : WireReader.read ⟨front ++ rest, front.length⟩ t =
            .ok (t.decode (rest.take t.width), ⟨front ++ rest, front.length + t.width⟩) := by
          rw [read, take_of_fits (by simpa using hfirst), List.drop_left]
          rfl
        have hlength : (front ++ rest.take t.width).length = front.length + t.width := by
          rw [List.length_append, List.length_take, Nat.min_eq_left hfirst]
        have hothers := ih (front ++ rest.take t.width) (rest.drop t.width)
        rw [List.append_assoc, List.take_append_drop, hlength, List.length_drop] at hothers
        rw [readAll, hread]
        dsimp only
        rw [hothers, widths_cons]
        by_cases hall : t.width + widths types ≤ rest.length
        · rw [if_pos (by omega), if_pos hall, Nat.add_assoc]
          rfl
        · rw [if_neg (by omega), if_neg hall]
          rfl
      · have hread : WireReader.read ⟨front ++ rest, front.length⟩ t = .error .payloadTooShort := by
          rw [read, take_of_not_fits (by simpa using hfirst)]
          rfl
        rw [readAll, hread, if_neg (by rw [widths_cons]; omega)]

end WireReader

namespace WireWriter

/-- A writer with `front` behind it and room for more bytes. -/
theorem put_of_fits (front back : List UInt8) {bytes : List UInt8}
    (h : bytes.length ≤ back.length) :
    WireWriter.put ⟨front ++ back, front.length⟩ bytes =
      .ok ⟨(front ++ bytes) ++ back.drop bytes.length, (front ++ bytes).length⟩ := by
  unfold put
  dsimp only
  rw [if_pos (by simpa using h), List.take_left, List.drop_append, List.length_append]
  simp

theorem put_of_not_fits (front back : List UInt8) {bytes : List UInt8}
    (h : ¬bytes.length ≤ back.length) :
    WireWriter.put ⟨front ++ back, front.length⟩ bytes = .error .bufferTooSmall := by
  unfold put
  dsimp only
  rw [if_neg (by simpa using h)]

theorem write_of_fits (front back : List UInt8) {v : WireValue}
    (h : v.encode.length ≤ back.length) :
    WireWriter.write ⟨front ++ back, front.length⟩ v =
      .ok ⟨(front ++ v.encode) ++ back.drop v.encode.length, (front ++ v.encode).length⟩ :=
  put_of_fits front back h

theorem write_of_not_fits (front back : List UInt8) {v : WireValue}
    (h : ¬v.encode.length ≤ back.length) :
    WireWriter.write ⟨front ++ back, front.length⟩ v = .error .bufferTooSmall :=
  put_of_not_fits front back h

/-- With room for all fields they stand one after another, and what is behind them is untouched. -/
theorem writeAll_of_fits (front back : List UInt8) {values : List WireValue}
    (h : (values.flatMap WireValue.encode).length ≤ back.length) :
    WireWriter.writeAll ⟨front ++ back, front.length⟩ values =
      (⟨front ++ (values.flatMap WireValue.encode ++
          back.drop (values.flatMap WireValue.encode).length),
        front.length + (values.flatMap WireValue.encode).length⟩, none) := by
  induction values generalizing front back with
  | nil => simp [writeAll]
  | cons v values ih =>
      rw [List.flatMap_cons, List.length_append] at h
      have hothers := ih (front ++ v.encode) (back.drop v.encode.length)
        (by rw [List.length_drop]; omega)
      rw [writeAll, write_of_fits front back (by omega)]
      dsimp only
      rw [hothers]
      simp [List.drop_drop, Nat.add_assoc]

/-- Without room for all fields the first that does not fit is refused. Those before it are written,
and nothing behind them is touched. -/
theorem writeAll_of_not_fits (front back : List UInt8) {values : List WireValue}
    (h : ¬(values.flatMap WireValue.encode).length ≤ back.length) :
    ∃ n ≤ back.length,
      WireWriter.writeAll ⟨front ++ back, front.length⟩ values =
        (⟨front ++ ((values.flatMap WireValue.encode).take n ++ back.drop n), front.length + n⟩,
          some .bufferTooSmall) := by
  induction values generalizing front back with
  | nil => exact absurd (Nat.zero_le _) h
  | cons v values ih =>
      by_cases hfirst : v.encode.length ≤ back.length
      · have hothers : ¬(values.flatMap WireValue.encode).length ≤
            (back.drop v.encode.length).length := by
          rw [List.flatMap_cons, List.length_append] at h
          rw [List.length_drop]
          omega
        obtain ⟨n, hn, hwrite⟩ := ih (front ++ v.encode) (back.drop v.encode.length) hothers
        rw [List.length_drop] at hn
        refine ⟨v.encode.length + n, by omega, ?_⟩
        rw [writeAll, write_of_fits front back hfirst]
        dsimp only
        rw [hwrite, List.flatMap_cons, List.take_length_add_append]
        simp [List.drop_drop, Nat.add_assoc]
      · refine ⟨0, Nat.zero_le _, ?_⟩
        rw [writeAll, write_of_not_fits front back hfirst]
        simp

end WireWriter

end AxisNode
