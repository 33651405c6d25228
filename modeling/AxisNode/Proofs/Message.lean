import AxisNode.Message.Family

/-!
# What is written can be read

Fields that were written one after another are read back as they were, whatever stands behind them,
so a message is read back from its own payload even when the frame is padded.
-/

namespace AxisNode

theorem WireReader.read_encode (front rest : List UInt8) (v : WireValue) :
    WireReader.read ⟨front ++ (v.encode ++ rest), front.length⟩ v.type =
      .ok (v, ⟨front ++ (v.encode ++ rest), (front ++ v.encode).length⟩) := by
  have hroom : front.length + v.type.width ≤ (front ++ (v.encode ++ rest)).length := by
    simp only [List.length_append, WireValue.length_encode]
    omega
  have htaken : (v.encode ++ rest).take v.type.width = v.encode := by
    rw [← WireValue.length_encode, List.take_left]
  unfold read take
  dsimp only
  rw [if_pos hroom, List.drop_left, htaken, List.length_append, WireValue.length_encode]
  simp [Except.map]

/-- Reading goes on behind what has been read. -/
theorem WireReader.readAll_encode (front rest : List UInt8) (values : List WireValue) :
    WireReader.readAll ⟨front ++ (values.flatMap WireValue.encode ++ rest), front.length⟩
        (values.map WireValue.type) =
      .ok (values, ⟨front ++ (values.flatMap WireValue.encode ++ rest),
        (front ++ values.flatMap WireValue.encode).length⟩) := by
  induction values generalizing front with
  | nil => simp [readAll]
  | cons v values ih =>
      have hsplit : front ++ ((v :: values).flatMap WireValue.encode ++ rest) =
          front ++ (v.encode ++ (values.flatMap WireValue.encode ++ rest)) := by simp
      have hnext := ih (front ++ v.encode)
      simp only [List.append_assoc] at hnext
      rw [hsplit, List.map_cons, readAll, read_encode]
      dsimp only
      rw [hnext]
      simp [Except.map]

namespace Message

/-- The fields of a message have the types of its record. -/
theorem record?_kind (m : Message) :
    ∃ fields, m.kind.record? = some fields ∧
      fields.map Prod.snd = m.values.map WireValue.type := by
  cases m <;> exact ⟨_, rfl, rfl⟩

/-- A message is read back from its own payload, however that is padded. -/
theorem parse_bytes (m : Message) (padding : List UInt8) :
    parse m.kind (m.bytes ++ padding) = .ok m := by
  obtain ⟨fields, hrecord, htypes⟩ := m.record?_kind
  have hread := WireReader.readAll_encode [] padding m.values
  rw [List.nil_append, List.length_nil] at hread
  unfold parse bytes
  rw [hrecord]
  dsimp only
  rw [htypes, hread]
  dsimp only
  rw [ofValues?_values]

end Message

/-- A request to the move groups is read back as it was. -/
theorem Family.parse?_group (r : GroupRequest) (padding : List UInt8) :
    Family.group.parse? r.toMessage.kind (r.toMessage.bytes ++ padding) = some r := by
  unfold parse?
  rw [Message.parse_bytes]
  cases r with
  | stage m => cases m <;> rfl
  | _ => rfl

end AxisNode
