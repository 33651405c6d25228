import AxisNode.Proofs.Message
import AxisNode.Proofs.Wire

/-!
# Messages and their bytes

A payload is read as a message of a kind just if it begins with the bytes that the message is
written as, so what is read is written again as the bytes it came from, and nothing behind them
plays a part. A family inherits this from two facts about its members: its values are the messages
of its kinds, and each of its kinds has a record.
-/

namespace AxisNode

namespace MessageKind

theorem foldl_width (fields : List (String × WireType)) (n : Nat) :
    fields.foldl (fun n f => n + f.2.width) n = n + WireType.widths (fields.map Prod.snd) := by
  induction fields generalizing n with
  | nil => rfl
  | cons f fields ih =>
      rw [List.foldl_cons, ih, List.map_cons, WireType.widths_cons, Nat.add_assoc]

theorem size?_of_record? {k : MessageKind} {fields : List (String × WireType)}
    (h : k.record? = some fields) : k.size? = some (WireType.widths (fields.map Prod.snd)) := by
  rw [size?, h, Option.map_some, foldl_width, Nat.zero_add]

end MessageKind

namespace Message

variable {k : MessageKind} {payload : List UInt8} {m : Message}

/-- A message is as long as the record of its kind. -/
theorem size?_kind (m : Message) : m.kind.size? = some m.bytes.length := by
  obtain ⟨fields, hrecord, htypes⟩ := m.record?_kind
  rw [MessageKind.size?_of_record? hrecord, htypes, bytes, WireType.length_flatMap_encode]

/-- Fields of the types of a kind's record make a message of that kind. -/
theorem ofValues?_decodeAll {fields : List (String × WireType)} (h : k.record? = some fields)
    (payload : List UInt8) :
    ∃ m, ofValues? k (WireType.decodeAll (fields.map Prod.snd) payload) = some m ∧ m.kind = k ∧
      m.values = WireType.decodeAll (fields.map Prod.snd) payload := by
  cases k <;> cases h <;> exact ⟨_, rfl, rfl, rfl⟩

theorem parse_of_record? {fields : List (String × WireType)} (h : k.record? = some fields)
    (hroom : WireType.widths (fields.map Prod.snd) ≤ payload.length) :
    ∃ m, parse k payload = .ok m ∧ m.kind = k ∧
      m.bytes = payload.take (WireType.widths (fields.map Prod.snd)) := by
  obtain ⟨m, hm, hkind, hvalues⟩ := ofValues?_decodeAll h payload
  have hread := WireReader.readAll_eq [] payload (fields.map Prod.snd)
  rw [List.nil_append, List.length_nil, if_pos hroom] at hread
  refine ⟨m, ?_, hkind, ?_⟩
  · unfold parse
    rw [h]
    dsimp only
    rw [hread]
    dsimp only
    rw [hm]
  · rw [bytes, hvalues, WireType.flatMap_encode_decodeAll hroom]

theorem parse_of_short {fields : List (String × WireType)} (h : k.record? = some fields)
    (hshort : ¬WireType.widths (fields.map Prod.snd) ≤ payload.length) :
    parse k payload = .error .payloadTooShort := by
  have hread := WireReader.readAll_eq [] payload (fields.map Prod.snd)
  rw [List.nil_append, List.length_nil, if_neg hshort] at hread
  unfold parse
  rw [h]
  dsimp only
  rw [hread]

/-- A payload is read as the message whose bytes it begins with. -/
theorem parse_eq_ok_iff : parse k payload = .ok m ↔ m.kind = k ∧ m.bytes <+: payload := by
  constructor
  · intro h
    cases hrecord : k.record? with
    | none => simp [parse, hrecord] at h
    | some fields =>
        by_cases hroom : WireType.widths (fields.map Prod.snd) ≤ payload.length
        · obtain ⟨m', hparse, hkind, hbytes⟩ := parse_of_record? hrecord hroom
          obtain rfl : m' = m := Except.ok.inj (hparse.symm.trans h)
          exact ⟨hkind, hbytes ▸ List.take_prefix _ _⟩
        · rw [parse_of_short hrecord hroom] at h
          cases h
  · rintro ⟨rfl, rest, rfl⟩
    exact parse_bytes m rest

/-- A payload can be read as a kind just if it is as long as the kind's record. -/
theorem exists_parse_iff :
    (∃ m, parse k payload = .ok m) ↔ ∃ n, k.size? = some n ∧ n ≤ payload.length := by
  constructor
  · rintro ⟨m, h⟩
    obtain ⟨rfl, hprefix⟩ := parse_eq_ok_iff.mp h
    exact ⟨_, m.size?_kind, hprefix.length_le⟩
  · rintro ⟨n, hsize, hroom⟩
    cases hrecord : k.record? with
    | none => simp [MessageKind.size?, hrecord] at hsize
    | some fields =>
        obtain rfl := Option.some.inj ((MessageKind.size?_of_record? hrecord).symm.trans hsize)
        obtain ⟨m, hparse, -⟩ := parse_of_record? hrecord hroom
        exact ⟨m, hparse⟩

end Message

namespace Family

variable {α : Type}

/-- The values of the family are the messages of its kinds, each of which has a record. -/
structure Lawful (F : Family α) : Prop where
  ofMessage?_toMessage (a : α) : F.ofMessage? (F.toMessage a) = some a
  toMessage_eq {m : Message} {a : α} : F.ofMessage? m = some a → F.toMessage a = m
  accepts_kind (m : Message) : F.accepts m.kind = (F.ofMessage? m).isSome
  catalogued : ∀ k ∈ F.members, k.size?.isSome = true

/-- The family reads the payloads that hold the record of a member and looks at that record alone.
What it reads is written as the bytes it was read from. -/
structure Exact (F : Family α) : Prop where
  accepts_iff (k : MessageKind) : F.accepts k = true ↔ ∃ a, (F.toMessage a).kind = k
  isSome_parse?_iff (k : MessageKind) (payload : List UInt8) :
    (F.parse? k payload).isSome = true ↔
      F.accepts k = true ∧ ∃ n, k.size? = some n ∧ n ≤ payload.length
  parse?_eq_some_iff (k : MessageKind) (payload : List UInt8) (a : α) :
    F.parse? k payload = some a ↔
      (F.toMessage a).kind = k ∧ (F.toMessage a).bytes <+: payload
  parse?_bytes_append (a : α) (padding : List UInt8) :
    F.parse? (F.toMessage a).kind ((F.toMessage a).bytes ++ padding) = some a
  parse?_take (k : MessageKind) (payload : List UInt8) :
    F.parse? k (payload.take (k.size?.getD 0)) = F.parse? k payload

namespace Lawful

variable {F : Family α} {k : MessageKind} {payload : List UInt8} {a : α}

theorem accepts_toMessage (h : F.Lawful) (a : α) : F.accepts (F.toMessage a).kind = true := by
  rw [h.accepts_kind, h.ofMessage?_toMessage, Option.isSome_some]

theorem exists_of_accepts (h : F.Lawful) {m : Message} (hk : F.accepts m.kind = true) :
    ∃ a, F.toMessage a = m := by
  rw [h.accepts_kind] at hk
  obtain ⟨a, ha⟩ := Option.isSome_iff_exists.mp hk
  exact ⟨a, h.toMessage_eq ha⟩

theorem accepts_iff (h : F.Lawful) : F.accepts k = true ↔ ∃ a, (F.toMessage a).kind = k := by
  constructor
  · intro hk
    obtain ⟨n, hsize⟩ := Option.isSome_iff_exists.mp (h.catalogued k (of_decide_eq_true hk))
    have hroom : n ≤ (List.replicate n (0 : UInt8)).length :=
      Nat.le_of_eq List.length_replicate.symm
    obtain ⟨m, hparse⟩ := Message.exists_parse_iff.mpr ⟨n, hsize, hroom⟩
    obtain ⟨rfl, -⟩ := Message.parse_eq_ok_iff.mp hparse
    obtain ⟨a, ha⟩ := h.exists_of_accepts hk
    exact ⟨a, congrArg Message.kind ha⟩
  · rintro ⟨a, rfl⟩
    exact h.accepts_toMessage a

theorem parse?_eq_some_iff (h : F.Lawful) :
    F.parse? k payload = some a ↔
      (F.toMessage a).kind = k ∧ (F.toMessage a).bytes <+: payload := by
  unfold parse?
  constructor
  · intro hparse
    split at hparse
    · split at hparse
      · next m hm =>
          obtain rfl := h.toMessage_eq hparse
          exact Message.parse_eq_ok_iff.mp hm
      · cases hparse
    · cases hparse
  · rintro ⟨rfl, hprefix⟩
    rw [if_pos (h.accepts_toMessage a), Message.parse_eq_ok_iff.mpr ⟨rfl, hprefix⟩]
    exact h.ofMessage?_toMessage a

theorem isSome_parse?_iff (h : F.Lawful) :
    (F.parse? k payload).isSome = true ↔
      F.accepts k = true ∧ ∃ n, k.size? = some n ∧ n ≤ payload.length := by
  rw [Option.isSome_iff_exists, ← Message.exists_parse_iff]
  constructor
  · rintro ⟨a, ha⟩
    obtain ⟨rfl, hprefix⟩ := h.parse?_eq_some_iff.mp ha
    exact ⟨h.accepts_toMessage a, _, Message.parse_eq_ok_iff.mpr ⟨rfl, hprefix⟩⟩
  · rintro ⟨hk, m, hm⟩
    obtain ⟨rfl, hprefix⟩ := Message.parse_eq_ok_iff.mp hm
    obtain ⟨a, rfl⟩ := h.exists_of_accepts hk
    exact ⟨a, h.parse?_eq_some_iff.mpr ⟨rfl, hprefix⟩⟩

theorem parse?_take (h : F.Lawful) :
    F.parse? k (payload.take (k.size?.getD 0)) = F.parse? k payload := by
  ext a
  rw [h.parse?_eq_some_iff, h.parse?_eq_some_iff]
  refine and_congr_right ?_
  rintro rfl
  rw [Message.size?_kind, Option.getD_some, List.prefix_take_iff]
  exact and_iff_left (Nat.le_refl _)

theorem exact (h : F.Lawful) : F.Exact where
  accepts_iff _ := h.accepts_iff
  isSome_parse?_iff _ _ := h.isSome_parse?_iff
  parse?_eq_some_iff _ _ _ := h.parse?_eq_some_iff
  parse?_bytes_append _ _ := h.parse?_eq_some_iff.mpr ⟨rfl, List.prefix_append _ _⟩
  parse?_take _ _ := h.parse?_take

end Lawful

theorem lawful_system : system.Lawful where
  ofMessage?_toMessage a := by cases a <;> rfl
  toMessage_eq {m} _ h := by cases m <;> cases h <;> rfl
  accepts_kind m := by cases m <;> rfl
  catalogued := by decide

theorem lawful_reply : reply.Lawful where
  ofMessage?_toMessage a := by cases a <;> rfl
  toMessage_eq {m} _ h := by cases m <;> cases h <;> rfl
  accepts_kind m := by cases m <;> rfl
  catalogued := by decide

theorem lawful_motion : motion.Lawful where
  ofMessage?_toMessage a := by cases a <;> rfl
  toMessage_eq {m} _ h := by cases m <;> cases h <;> rfl
  accepts_kind m := by cases m <;> rfl
  catalogued := by decide

theorem lawful_chip : chip.Lawful where
  ofMessage?_toMessage a := by cases a <;> rfl
  toMessage_eq {m} _ h := by cases m <;> cases h <;> rfl
  accepts_kind m := by cases m <;> rfl
  catalogued := by decide

theorem lawful_group : group.Lawful where
  ofMessage?_toMessage a := by rcases a with (_ | _) | _ | _ | _ | _ <;> rfl
  toMessage_eq {m} _ h := by cases m <;> cases h <;> rfl
  accepts_kind m := by cases m <;> rfl
  catalogued := by decide

end Family

/-- A message is as long as the record of its kind, is read back however it is padded, and fills
exactly its own length of a buffer; a buffer that is shorter than that is refused, and only its
front has been written. A payload is read as a kind just if it holds the kind's record, and as the
message that is written that way. Every family of the node reads so, too. -/
theorem messages_and_bytes_agree :
    (∀ (m : Message) (buffer : List UInt8),
      m.kind.size? = some m.bytes.length ∧
      (∀ padding, Message.parse m.kind (m.bytes ++ padding) = .ok m) ∧
      if m.bytes.length ≤ buffer.length then
        m.writeTo ⟨buffer, 0⟩ =
          (⟨m.bytes ++ buffer.drop m.bytes.length, m.bytes.length⟩, none)
      else ∃ n ≤ buffer.length,
        m.writeTo ⟨buffer, 0⟩ = (⟨m.bytes.take n ++ buffer.drop n, n⟩, some .bufferTooSmall)) ∧
    (∀ (k : MessageKind) (payload : List UInt8),
      ((∃ m, Message.parse k payload = .ok m) ↔ ∃ n, k.size? = some n ∧ n ≤ payload.length) ∧
      ∀ m, Message.parse k payload = .ok m ↔ m.kind = k ∧ m.bytes <+: payload) ∧
    Family.system.Exact ∧ Family.reply.Exact ∧ Family.motion.Exact ∧ Family.chip.Exact ∧
    Family.group.Exact := by
  refine ⟨?_, ?_, Family.lawful_system.exact, Family.lawful_reply.exact,
    Family.lawful_motion.exact, Family.lawful_chip.exact, Family.lawful_group.exact⟩
  · intro m buffer
    refine ⟨m.size?_kind, m.parse_bytes, ?_⟩
    split
    · next hroom =>
        have hwrite := WireWriter.writeAll_of_fits [] buffer hroom
        rwa [List.nil_append, List.nil_append, List.length_nil, Nat.zero_add] at hwrite
    · next hroom =>
        obtain ⟨n, hn, hwrite⟩ := WireWriter.writeAll_of_not_fits [] buffer hroom
        rw [List.nil_append, List.nil_append, List.length_nil, Nat.zero_add] at hwrite
        exact ⟨n, hn, hwrite⟩
  · exact fun k payload => ⟨Message.exists_parse_iff, fun m => Message.parse_eq_ok_iff⟩

end AxisNode
