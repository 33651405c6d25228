import AxisNode.Motion.Table
import Mathlib.Algebra.Ring.Nat

/-!
# Slots of the table

The table is seen slot by slot. Staging a move writes the slot that the move names and no other, so
every move lies in its own slot, and a group runs in the order of sequence numbers. Tables of the
same size with the same moves in their slots are the same.
-/

namespace AxisNode

namespace MoveGroup

theorem toNat_addTicks (a b : UInt32) :
    (addTicks a b).toNat = min (UInt32.size - 1) (a.toNat + b.toNat) := by
  have ha := a.toNat_lt_size
  have hb := b.toNat_lt_size
  unfold addTicks
  split
  · next h =>
      rw [UInt32.toNat_add, Nat.mod_eq_of_lt h]
      omega
  · next h =>
      have hmax : (0xffffffff : UInt32).toNat = UInt32.size - 1 := rfl
      omega

theorem toNat_foldl_addTicks (ticks : List UInt32) (a : UInt32) :
    (ticks.foldl addTicks a).toNat =
      min (UInt32.size - 1) (a.toNat + (ticks.map UInt32.toNat).sum) := by
  induction ticks generalizing a with
  | nil =>
      have ha := a.toNat_lt_size
      rw [List.foldl_nil, List.map_nil, List.sum_nil]
      omega
  | cons b ticks ih =>
      rw [List.foldl_cons, ih, toNat_addTicks, List.map_cons, List.sum_cons]
      omega

/-- The sum of the ticks, cut off at the largest count. -/
theorem toNat_duration (g : MoveGroup) :
    g.duration.toNat = min (UInt32.size - 1) (g.moves.map fun m => m.duration.toNat).sum := by
  have hfold := toNat_foldl_addTicks (g.moves.map StagedMove.duration) 0
  rw [List.map_map, UInt32.toNat_zero, Nat.zero_add] at hfold
  exact hfold

end MoveGroup

namespace MoveTable

variable {t t' : MoveTable} {m : StagedMove}

/-- The move in a slot of a group. -/
def slot? (t : MoveTable) (i j : Nat) : Option StagedMove :=
  t.groups[i]?.bind fun g => g.get? j

theorem get?_empty (n j : Nat) : (MoveGroup.empty n).get? j = none := by
  simp only [MoveGroup.get?, MoveGroup.empty, List.getElem?_replicate]
  split <;> rfl

@[simp] theorem slot?_empty (a b i j : Nat) : (empty a b).slot? i j = none := by
  simp only [slot?, empty, List.getElem?_replicate]
  split
  · exact get?_empty b j
  · rfl

@[simp] theorem slot?_clear (t : MoveTable) (i j : Nat) : t.clear.slot? i j = none := by
  simp only [slot?, clear, List.getElem?_map]
  cases t.groups[i]? with
  | none => rfl
  | some g => exact get?_empty g.capacity j

theorem isEmpty_of_mem_clear {g : MoveGroup} (h : g ∈ t.clear.groups) : g.isEmpty = true := by
  obtain ⟨g, -, rfl⟩ := List.mem_map.mp h
  simp [MoveGroup.isEmpty, MoveGroup.clear, MoveGroup.empty]

/-- Staging fills one slot. -/
theorem slot?_of_stage? (h : t.stage? m = some t') (i j : Nat) :
    t'.slot? i j = if i = m.group.toNat ∧ j = m.seq.toNat then some m else t.slot? i j := by
  simp only [stage?, bind, Option.bind_eq_some_iff, pure, Option.some.injEq] at h
  obtain ⟨g, hg, g', hg', rfl⟩ := h
  simp only [MoveGroup.insert?, Option.ite_none_right_eq_some, Option.some.injEq] at hg'
  obtain ⟨hlt, rfl⟩ := hg'
  obtain ⟨hi, hget⟩ := List.getElem?_eq_some_iff.mp hg
  by_cases hgi : i = m.group.toNat
  · subst hgi
    by_cases hj : j = m.seq.toNat
    · subst hj
      simp [slot?, setGroup, MoveGroup.get?, hi, hlt]
    · have hne : m.seq.toNat ≠ j := fun h => hj h.symm
      simp [slot?, setGroup, MoveGroup.get?, hi, hj, hne, hget]
  · have hne : m.group.toNat ≠ i := fun h => hgi h.symm
    simp [slot?, setGroup, hgi, hne]

theorem moves_eq_filterMap (g : MoveGroup) : g.moves = g.slots.filterMap id := rfl

/-- Every move lies in the slot it names. -/
def Aligned (t : MoveTable) : Prop :=
  ∀ i j m, t.slot? i j = some m → m.group.toNat = i ∧ m.seq.toNat = j

theorem aligned_empty (a b : Nat) : (empty a b).Aligned := by
  intro i j m h
  simp at h

theorem aligned_clear (t : MoveTable) : t.clear.Aligned := by
  intro i j m h
  simp at h

theorem Aligned.stage? (ha : t.Aligned) (h : t.stage? m = some t') : t'.Aligned := by
  intro i j m' hm
  rw [slot?_of_stage? h] at hm
  split at hm
  · next hij => exact Option.some.inj hm ▸ ⟨hij.1.symm, hij.2.symm⟩
  · exact ha i j m' hm

theorem slot?_of_group? {i : UInt8} {g : MoveGroup} (hg : t.group? i = some g) (j : Nat) :
    t.slot? i.toNat j = g.slots[j]?.join := by
  rw [slot?, show t.groups[i.toNat]? = some g from hg]
  rfl

/-- The moves of a group are the moves in its slots. -/
theorem mem_moves_iff {i : UInt8} {g : MoveGroup} (hg : t.group? i = some g) :
    m ∈ g.moves ↔ ∃ j, t.slot? i.toNat j = some m := by
  rw [moves_eq_filterMap, List.mem_filterMap]
  simp only [slot?_of_group? hg, Option.join_eq_some_iff, List.mem_iff_getElem?, id_eq]
  constructor
  · rintro ⟨a, ⟨j, hj⟩, rfl⟩
    exact ⟨j, hj⟩
  · rintro ⟨j, hj⟩
    exact ⟨some m, ⟨j, hj⟩, rfl⟩

/-- A group runs the moves in its slots. -/
theorem moves_eq_slots {i : UInt8} {g : MoveGroup} (hg : t.group? i = some g) :
    g.moves = (List.range g.capacity).filterMap (t.slot? i.toNat) := by
  have hslots : g.slots = (List.range g.capacity).map (t.slot? i.toNat) := by
    apply List.ext_getElem
    · rw [List.length_map, List.length_range]
      rfl
    · intro j hj hj'
      simp [slot?_of_group? hg, hj]
  calc g.moves
      = ((List.range g.capacity).map (t.slot? i.toNat)).filterMap id :=
        congrArg (List.filterMap id) hslots
    _ = (List.range g.capacity).filterMap (t.slot? i.toNat) := List.filterMap_map

/-- Moves that lie in their own slots come in the order of their sequence numbers. -/
theorem Aligned.pairwise_slots (h : t.Aligned) (i n : Nat) :
    ((List.range n).filterMap (t.slot? i)).Pairwise fun a b : StagedMove => a.seq < b.seq := by
  refine List.pairwise_filterMap.mpr (List.pairwise_lt_range.imp ?_)
  intro j k hjk a haj b hbk
  rw [UInt8.lt_iff_toNat_lt, (h _ _ _ haj).2, (h _ _ _ hbk).2]
  exact hjk

/-- An aligned group runs in the order of its sequence numbers. -/
theorem Aligned.pairwise_moves (h : t.Aligned) {i : UInt8} {g : MoveGroup}
    (hg : t.group? i = some g) : g.moves.Pairwise fun a b : StagedMove => a.seq < b.seq := by
  rw [moves_eq_slots hg]
  exact h.pairwise_slots i.toNat g.capacity

/-! ## The size of the table -/

/-- The number of slots of each group. -/
def dims (t : MoveTable) : List Nat := t.groups.map MoveGroup.capacity

/-- Whether the table has a slot at these two numbers. -/
def HasSlot (t : MoveTable) (i j : Nat) : Prop := ∃ n, t.dims[i]? = some n ∧ j < n

@[simp] theorem dims_empty (a b : Nat) : (empty a b).dims = List.replicate a b := by
  simp [dims, empty, MoveGroup.capacity, MoveGroup.empty]

@[simp] theorem dims_clear (t : MoveTable) : t.clear.dims = t.dims := by
  simp [dims, clear, MoveGroup.clear, MoveGroup.capacity, MoveGroup.empty]

theorem dims_of_stage? (h : t.stage? m = some t') : t'.dims = t.dims := by
  simp only [stage?, bind, Option.bind_eq_some_iff, pure, Option.some.injEq] at h
  obtain ⟨g, hg, g', hg', rfl⟩ := h
  simp only [MoveGroup.insert?, Option.ite_none_right_eq_some, Option.some.injEq] at hg'
  obtain ⟨-, rfl⟩ := hg'
  obtain ⟨hi, hget⟩ := List.getElem?_eq_some_iff.mp hg
  have hi' : m.group.toNat < (t.groups.map MoveGroup.capacity).length := by
    rwa [List.length_map]
  have hcap : (MoveGroup.mk (g.slots.set m.seq.toNat (some m))).capacity =
      (t.groups.map MoveGroup.capacity)[m.group.toNat] := by
    rw [List.getElem_map, hget]
    exact List.length_set
  rw [dims, setGroup, List.map_set, hcap]
  exact List.set_getElem_self hi'

theorem hasSlot_iff {i j : Nat} :
    t.HasSlot i j ↔ ∃ g, t.groups[i]? = some g ∧ j < g.slots.length := by
  simp only [HasSlot, dims, List.getElem?_map, Option.map_eq_some_iff]
  constructor
  · rintro ⟨_, ⟨g, hg, rfl⟩, hj⟩
    exact ⟨g, hg, hj⟩
  · rintro ⟨g, hg, hj⟩
    exact ⟨_, ⟨g, hg, rfl⟩, hj⟩

/-- A move is refused just if the table lacks the slot that it names. -/
theorem stage?_eq_none_iff :
    t.stage? m = none ↔ ¬t.HasSlot m.group.toNat m.seq.toNat := by
  simp only [stage?, bind, hasSlot_iff, group?]
  cases t.groups[m.group.toNat]? with
  | none => simp
  | some g => simp [MoveGroup.insert?]

theorem slot?_of_not_hasSlot {i j : Nat} (h : ¬t.HasSlot i j) : t.slot? i j = none := by
  unfold slot?
  cases hg : t.groups[i]? with
  | none => rfl
  | some g =>
      have hj : g.slots.length ≤ j := Nat.not_lt.mp fun hlt => h (hasSlot_iff.mpr ⟨g, hg, hlt⟩)
      simp [MoveGroup.get?, List.getElem?_eq_none hj]

/-- The slots of a table whose groups are equally large. -/
theorem hasSlot_of_dims {a b i j : Nat} (hd : t.dims = List.replicate a b) :
    t.HasSlot i j ↔ i < a ∧ j < b := by
  simp only [HasSlot, hd, List.getElem?_replicate, Option.ite_none_right_eq_some,
    Option.some.injEq]
  constructor
  · rintro ⟨_, ⟨hi, rfl⟩, hj⟩
    exact ⟨hi, hj⟩
  · rintro ⟨hi, hj⟩
    exact ⟨b, ⟨hi, rfl⟩, hj⟩

/-- A table is determined by what lies in its slots. -/
theorem eq_of_slot? (hd : t.dims = t'.dims) (hs : ∀ i j, t.slot? i j = t'.slot? i j) : t = t' := by
  have hgroup : ∀ i : Nat, t.groups[i]? = t'.groups[i]? := by
    intro i
    have hi : t.groups[i]?.map MoveGroup.capacity = t'.groups[i]?.map MoveGroup.capacity := by
      rw [← List.getElem?_map, ← List.getElem?_map]
      exact congrArg (·[i]?) hd
    cases hg : t.groups[i]? with
    | none =>
        rw [hg] at hi
        exact (Option.map_eq_none_iff.mp hi.symm).symm
    | some g =>
        rw [hg] at hi
        obtain ⟨g', hg', hlen⟩ := Option.map_eq_some_iff.mp hi.symm
        have hslots : g.slots = g'.slots := by
          apply List.ext_getElem hlen.symm
          intro j hj hj'
          have hsj := hs i j
          simpa [slot?, hg, hg', MoveGroup.get?, hj, hj'] using hsj
        rw [hg']
        exact congrArg (fun l => some (MoveGroup.mk l)) hslots
  exact congrArg MoveTable.mk (List.ext_getElem? hgroup)

end MoveTable

end AxisNode
