import AxisNode.Proofs.Wire

/-!
# Cursors in mixed use

Fields and raw bytes are read and written in any order, and some of them do not fit. One that does
not fit leaves the cursor where it is, so that a smaller one behind it may still fit. Hence the
items that were read are the slices of the payload from its front, and the items that were written
stand one after another in front of what the buffer held; what was refused between them leaves no
trace.
-/

namespace AxisNode

/-! ## Requests and items -/

/-- What is asked of a reader at once. -/
inductive WireRequest where
  | bytes (count : Nat)
  | field (type : WireType)
deriving DecidableEq, Repr

/-- What is read or written at once. -/
inductive WireItem where
  | bytes (content : List UInt8)
  | field (value : WireValue)
deriving DecidableEq, Repr

/-- The number that the bytes of a field stand for. The most significant byte comes first, and a
signed field counts from the middle of its range. -/
def WireType.number (t : WireType) (slice : List UInt8) : Int :=
  match t with
  | .i32 => (Wire.ofBytes slice : Int).bmod 4294967296
  | _ => Wire.ofBytes slice

/-- The number that a value stands for. -/
def WireValue.number : WireValue → Int
  | u8 n => n.toNat
  | u16 n => n.toNat
  | u32 n => n.toNat
  | i32 n => n.toInt
  | u64 n => n.toNat

theorem WireType.number_decode {t : WireType} {slice : List UInt8} (h : slice.length = t.width) :
    (t.decode slice).number = t.number slice := by
  have hlt := Wire.ofBytes_lt_range slice
  rw [h] at hlt
  cases t with
  | u8 => exact congrArg Int.ofNat ((UInt8.toNat_ofNat' ..).trans (Nat.mod_eq_of_lt hlt))
  | u16 => exact congrArg Int.ofNat ((UInt16.toNat_ofNat' ..).trans (Nat.mod_eq_of_lt hlt))
  | u32 => exact congrArg Int.ofNat ((UInt32.toNat_ofNat' ..).trans (Nat.mod_eq_of_lt hlt))
  | i32 => exact BitVec.toInt_ofNat' ..
  | u64 => exact congrArg Int.ofNat ((UInt64.toNat_ofNat' ..).trans (Nat.mod_eq_of_lt hlt))

namespace WireRequest

/-- How many bytes a request asks for. -/
def width : WireRequest → Nat
  | bytes count => count
  | field type => type.width

/-- The item that a slice is read as. -/
def decode : WireRequest → List UInt8 → WireItem
  | bytes _, slice => .bytes slice
  | field type, slice => .field (type.decode slice)

/-- What a slice means as an answer to a request. -/
inductive Means : WireRequest → List UInt8 → WireItem → Prop
  | bytes (slice : List UInt8) : Means (.bytes slice.length) slice (.bytes slice)
  | field {v : WireValue} {slice : List UInt8} (h : v.number = v.type.number slice) :
      Means (.field v.type) slice (.field v)

theorem means_decode {q : WireRequest} {slice : List UInt8} (h : slice.length = q.width) :
    q.Means slice (q.decode slice) := by
  cases q with
  | bytes count =>
      subst h
      exact .bytes slice
  | field type =>
      have hnumber : (type.decode slice).number = (type.decode slice).type.number slice := by
        rw [WireType.type_decode, WireType.number_decode h]
      have hfield := Means.field hnumber
      rwa [WireType.type_decode] at hfield

end WireRequest

namespace WireItem

/-- The bytes of an item. -/
def encode : WireItem → List UInt8
  | bytes content => content
  | field value => value.encode

/-- The request by which an item is read back. -/
def request : WireItem → WireRequest
  | bytes content => .bytes content.length
  | field value => .field value.type

@[simp] theorem width_request (x : WireItem) : x.request.width = x.encode.length := by
  cases x with
  | bytes content => rfl
  | field value => exact value.length_encode.symm

theorem decode_encode (x : WireItem) : x.request.decode x.encode = x := by
  cases x with
  | bytes content => rfl
  | field value => exact congrArg WireItem.field (WireType.decode_encode value)

theorem encode_decode {q : WireRequest} {slice : List UInt8} (h : slice.length = q.width) :
    (q.decode slice).encode = slice := by
  cases q with
  | bytes count => rfl
  | field type => exact WireType.encode_decode h

end WireItem

/-- The bytes of items one after another. -/
def encodeAll (items : List WireItem) : List UInt8 := items.flatMap WireItem.encode

theorem encodeAll_append (items items' : List WireItem) :
    encodeAll (items ++ items') = encodeAll items ++ encodeAll items' := List.flatMap_append

theorem encodeAll_singleton (x : WireItem) : encodeAll [x] = x.encode := List.flatMap_singleton ..

/-! ## Reading -/

namespace WireReader

/-- Answers a request. A read that fails leaves the reader as it was. -/
def serve (r : WireReader) : WireRequest → Except BusError WireItem × WireReader
  | .bytes count =>
      match r.take count with
      | .ok (content, r) => (.ok (.bytes content), r)
      | .error e => (.error e, r)
  | .field type =>
      match r.read type with
      | .ok (value, r) => (.ok (.field value), r)
      | .error e => (.error e, r)

/-- The reader after requests, whether they were met or not. -/
def after (r : WireReader) : List WireRequest → WireReader
  | [] => r
  | q :: qs => (r.serve q).2.after qs

/-- What was read by those requests that were met. -/
def items (r : WireReader) : List WireRequest → List WireItem
  | [] => []
  | q :: qs => (r.serve q).1.toOption.toList ++ (r.serve q).2.items qs

variable {r : WireReader} {q : WireRequest}

theorem serve_of_fits (h : r.position + q.width ≤ r.bytes.length) :
    r.serve q = (.ok (q.decode ((r.bytes.drop r.position).take q.width)),
      { r with position := r.position + q.width }) := by
  cases q with
  | bytes count =>
      rw [serve, take_of_fits (n := count) h]
      rfl
  | field type =>
      rw [serve, read, take_of_fits (n := type.width) h]
      rfl

theorem serve_of_not_fits (h : ¬r.position + q.width ≤ r.bytes.length) :
    r.serve q = (.error .payloadTooShort, r) := by
  cases q with
  | bytes count => rw [serve, take_of_not_fits (n := count) h]
  | field type =>
      rw [serve, read, take_of_not_fits (n := type.width) h]
      rfl

/-- The reader has read items from the front of a payload and stands behind them. -/
structure HasRead (r : WireReader) (payload : List UInt8) (items : List WireItem) : Prop where
  bytes : r.bytes = payload
  within : r.position ≤ payload.length
  slices : encodeAll items = payload.take r.position

variable {payload : List UInt8} {items : List WireItem}

theorem hasRead_start (payload : List UInt8) : HasRead ⟨payload, 0⟩ payload [] :=
  ⟨rfl, Nat.zero_le _, rfl⟩

theorem HasRead.remaining (h : r.HasRead payload items) :
    r.remaining + r.position = payload.length := by
  rw [WireReader.remaining, h.bytes, Nat.sub_add_cancel h.within]

theorem HasRead.position (h : r.HasRead payload items) : r.position = (encodeAll items).length := by
  rw [h.slices, List.length_take_of_le h.within]

theorem HasRead.fits_iff (h : r.HasRead payload items) (q : WireRequest) :
    r.position + q.width ≤ r.bytes.length ↔ q.width ≤ r.remaining := by
  have hremaining := h.remaining
  rw [h.bytes]
  omega

/-- The slice that a request is met from. -/
theorem HasRead.length_slice (h : r.HasRead payload items) (hq : q.width ≤ r.remaining) :
    ((payload.drop r.position).take q.width).length = q.width := by
  have hremaining := h.remaining
  rw [List.length_take, List.length_drop]
  omega

theorem HasRead.serve (h : r.HasRead payload items) (q : WireRequest) :
    (r.serve q).2.HasRead payload (items ++ (r.serve q).1.toOption.toList) := by
  by_cases hq : q.width ≤ r.remaining
  · have hwithin : r.position + q.width ≤ payload.length := by
      have hremaining := h.remaining
      omega
    rw [serve_of_fits ((h.fits_iff q).mpr hq)]
    refine ⟨h.bytes, hwithin, ?_⟩
    change encodeAll (items ++ [q.decode ((r.bytes.drop r.position).take q.width)]) =
      payload.take (r.position + q.width)
    rw [h.bytes, encodeAll_append, encodeAll_singleton,
      WireItem.encode_decode (h.length_slice hq), h.slices, ← List.take_add]
  · rw [serve_of_not_fits fun hfits => hq ((h.fits_iff q).mp hfits)]
    change r.HasRead payload (items ++ [])
    rwa [List.append_nil]

theorem HasRead.after (h : r.HasRead payload items) (qs : List WireRequest) :
    (r.after qs).HasRead payload (items ++ r.items qs) := by
  induction qs generalizing items r with
  | nil => rwa [WireReader.items, List.append_nil]
  | cons q qs ih =>
      rw [WireReader.items, ← List.append_assoc]
      exact ih (h.serve q)

/-- Items are read back by requests of their kinds, whatever stands behind them. -/
theorem items_requests (front rest : List UInt8) (items : List WireItem) :
    WireReader.items ⟨front ++ (encodeAll items ++ rest), front.length⟩
      (items.map WireItem.request) = items := by
  induction items generalizing front with
  | nil => rfl
  | cons x items ih =>
      have hsplit : encodeAll (x :: items) ++ rest = x.encode ++ (encodeAll items ++ rest) := by
        rw [encodeAll, List.flatMap_cons, List.append_assoc]
        rfl
      have hserve : WireReader.serve ⟨front ++ (x.encode ++ (encodeAll items ++ rest)),
          front.length⟩ x.request = (.ok x, ⟨front ++ x.encode ++ (encodeAll items ++ rest),
          (front ++ x.encode).length⟩) := by
        rw [serve_of_fits (by simp), WireItem.width_request, List.drop_left, List.take_left,
          WireItem.decode_encode, List.length_append, List.append_assoc]
      rw [hsplit, List.map_cons, WireReader.items, hserve]
      exact congrArg (x :: ·) (ih (front ++ x.encode))

end WireReader

/-! ## Writing -/

namespace WireWriter

/-- Writes an item. -/
def offer (w : WireWriter) : WireItem → Except BusError WireWriter
  | .bytes content => w.put content
  | .field value => w.write value

/-- Writes an item. A write that is refused leaves the writer as it was. -/
def accept (w : WireWriter) (x : WireItem) : Option BusError × WireWriter :=
  match w.offer x with
  | .ok w => (none, w)
  | .error e => (some e, w)

/-- The writer after items were offered to it, whether it accepted them or not. -/
def after (w : WireWriter) : List WireItem → WireWriter
  | [] => w
  | x :: xs => (w.accept x).2.after xs

/-- The items that were accepted. -/
def accepted (w : WireWriter) : List WireItem → List WireItem
  | [] => []
  | x :: xs =>
      if (w.accept x).1.isNone then x :: (w.accept x).2.accepted xs
      else (w.accept x).2.accepted xs

theorem offer_eq (w : WireWriter) (x : WireItem) : w.offer x = w.put x.encode := by
  cases x <;> rfl

/-- The writer that has put items in front of what a buffer held. -/
def holding (buffer : List UInt8) (items : List WireItem) : WireWriter :=
  ⟨encodeAll items ++ buffer.drop (encodeAll items).length, (encodeAll items).length⟩

variable {buffer : List UInt8} {items : List WireItem} {x : WireItem}

theorem accept_of_fits (h : (encodeAll (items ++ [x])).length ≤ buffer.length) :
    (holding buffer items).accept x = (none, holding buffer (items ++ [x])) := by
  rw [encodeAll_append, encodeAll_singleton, List.length_append] at h
  have hroom : x.encode.length ≤ (buffer.drop (encodeAll items).length).length := by
    rw [List.length_drop]
    omega
  rw [accept, offer_eq, holding, put_of_fits _ _ hroom, holding, encodeAll_append,
    encodeAll_singleton, List.drop_drop, List.length_append]

theorem accept_of_not_fits (hitems : (encodeAll items).length ≤ buffer.length)
    (h : ¬(encodeAll (items ++ [x])).length ≤ buffer.length) :
    (holding buffer items).accept x = (some .bufferTooSmall, holding buffer items) := by
  rw [encodeAll_append, encodeAll_singleton, List.length_append] at h
  have hroom : ¬x.encode.length ≤ (buffer.drop (encodeAll items).length).length := by
    rw [List.length_drop]
    omega
  rw [accept, offer_eq, holding, put_of_not_fits _ _ hroom]

/-- The items that a writer holds fit, and it holds those it has accepted. -/
theorem after_holding (h : (encodeAll items).length ≤ buffer.length) (offered : List WireItem) :
    (holding buffer items).after offered =
        holding buffer (items ++ (holding buffer items).accepted offered) ∧
      (encodeAll (items ++ (holding buffer items).accepted offered)).length ≤ buffer.length := by
  induction offered generalizing items with
  | nil =>
      rw [after, accepted, List.append_nil]
      exact ⟨rfl, h⟩
  | cons x offered ih =>
      by_cases hfits : (encodeAll (items ++ [x])).length ≤ buffer.length
      · have hnext := ih hfits
        rw [List.append_assoc, List.singleton_append] at hnext
        rw [after, accepted, accept_of_fits hfits]
        exact hnext
      · rw [after, accepted, accept_of_not_fits h hfits]
        exact ih h

end WireWriter

/-! ## Any history -/

/-- After any requests to a fresh reader its cursor is within the payload, what it has read are the
slices of the payload up to there, and the next request is met from the slice behind them if that is
long enough; otherwise it moves nothing. After any items offered to a fresh writer those that it
accepted stand in front of what the buffer held, the next one is added to them if there is room and
changes nothing otherwise, and all of them are read back by requests of the same kinds. -/
theorem cursors_keep_their_place :
    (∀ (payload : List UInt8) (asked : List WireRequest) (next : WireRequest),
      let r := WireReader.after ⟨payload, 0⟩ asked
      let slice := (payload.drop r.position).take next.width
      r.position ≤ payload.length ∧ r.remaining + r.position = payload.length ∧
        encodeAll (WireReader.items ⟨payload, 0⟩ asked) = payload.take r.position ∧
        (next.width ≤ r.remaining → ∃ item, next.Means slice item ∧
          r.serve next = (.ok item, ⟨payload, r.position + next.width⟩)) ∧
        (r.remaining < next.width → r.serve next = (.error .payloadTooShort, r))) ∧
    ∀ (buffer : List UInt8) (offered : List WireItem) (next : WireItem),
      let w := WireWriter.after ⟨buffer, 0⟩ offered
      let items := WireWriter.accepted ⟨buffer, 0⟩ offered
      w.buffer = encodeAll items ++ buffer.drop w.position ∧
        w.position = (encodeAll items).length ∧ w.position ≤ buffer.length ∧
        (w.position + next.encode.length ≤ buffer.length →
          w.accept next = (none, .holding buffer (items ++ [next]))) ∧
        (buffer.length < w.position + next.encode.length →
          w.accept next = (some .bufferTooSmall, w)) ∧
        ∀ rest,
          let r : WireReader := ⟨w.buffer.take w.position ++ rest, 0⟩
          r.items (items.map WireItem.request) = items ∧
            (r.after (items.map WireItem.request)).position = w.position := by
  refine ⟨?_, ?_⟩
  · intro payload asked next r slice
    have hread : r.HasRead payload (WireReader.items ⟨payload, 0⟩ asked) :=
      (WireReader.hasRead_start payload).after asked
    refine ⟨hread.within, hread.remaining, hread.slices, ?_, ?_⟩
    · intro hnext
      refine ⟨next.decode slice, WireRequest.means_decode (hread.length_slice hnext), ?_⟩
      rw [WireReader.serve_of_fits ((hread.fits_iff next).mpr hnext), hread.bytes]
    · intro hnext
      exact WireReader.serve_of_not_fits fun hfits =>
        Nat.not_le.mpr hnext ((hread.fits_iff next).mp hfits)
  · intro buffer offered next w items
    obtain ⟨hholding, hroom⟩ :=
      WireWriter.after_holding (show (encodeAll []).length ≤ buffer.length from Nat.zero_le _)
        offered
    have hw : w = .holding buffer items := hholding
    have hlength : (encodeAll (items ++ [next])).length = w.position + next.encode.length := by
      rw [encodeAll_append, encodeAll_singleton, List.length_append, hw]
      rfl
    rw [hw] at hlength ⊢
    refine ⟨rfl, rfl, hroom, ?_, ?_, ?_⟩
    · intro hnext
      exact WireWriter.accept_of_fits (by omega)
    · intro hnext
      exact WireWriter.accept_of_not_fits hroom (by omega)
    · intro rest r
      have hr : r = ⟨encodeAll items ++ rest, 0⟩ :=
        congrArg (fun front => WireReader.mk (front ++ rest) 0) List.take_left
      have hitems : r.items (items.map WireItem.request) = items := by
        rw [hr]
        exact WireReader.items_requests [] rest items
      have hread := (WireReader.hasRead_start (encodeAll items ++ rest)).after
        (items.map WireItem.request)
      rw [← hr, List.nil_append, hitems] at hread
      exact ⟨hitems, hread.position⟩

/-- Fields that are too wide are asked for and offered between others that fit. -/
theorem cursors_keep_their_place_of_mixed :
    let payload : List UInt8 := [0x12, 0x34, 0x56, 0x78, 0xff, 0xff, 0xff, 0xfe, 9]
    let asked : List WireRequest := [.field .u32, .field .u64, .field .i32, .bytes 2]
    let r := WireReader.after ⟨payload, 0⟩ asked
    let offered : List WireItem := [.field (.u32 0xdeadbeef), .field (.u16 0x1234), .bytes [0x7f]]
    let w := WireWriter.after ⟨[1, 2, 3, 4, 5], 0⟩ offered
    (WireReader.items ⟨payload, 0⟩ asked = [.field (.u32 0x12345678), .field (.i32 (-2))] ∧
        WireRequest.width (.field .u8) ≤ r.remaining ∧
        (∃ item, WireRequest.Means (.field .u8) [9] item ∧
          r.serve (.field .u8) = (.ok item, ⟨payload, 9⟩)) ∧
        r.remaining < WireRequest.width (.field .u16) ∧
        r.serve (.field .u16) = (.error .payloadTooShort, r)) ∧
      w.buffer = [0xde, 0xad, 0xbe, 0xef, 0x7f] ∧ w.position = 5 ∧
        w.accept (.field (.u8 8)) = (some .bufferTooSmall, w) ∧
        WireReader.items ⟨w.buffer ++ [6], 0⟩ [.field .u32, .bytes 1] =
          [.field (.u32 0xdeadbeef), .bytes [0x7f]] := by
  intro payload asked r offered w
  obtain ⟨hreading, hwriting⟩ := cursors_keep_their_place
  obtain ⟨-, -, -, hmet, -⟩ := hreading payload asked (.field .u8)
  obtain ⟨-, -, -, -, hshort⟩ := hreading payload asked (.field .u16)
  obtain ⟨-, -, -, -, hfull, hback⟩ := hwriting [1, 2, 3, 4, 5] offered (.field (.u8 8))
  have hfits : WireRequest.width (.field .u8) ≤ r.remaining := by decide
  have htooWide : r.remaining < WireRequest.width (.field .u16) := by decide
  refine ⟨⟨by decide, hfits, hmet hfits, htooWide, hshort htooWide⟩, by decide, by decide,
    hfull (by decide), (hback [6]).1⟩

end AxisNode
