import AxisNode.Proofs.Motion.Table
import AxisNode.Proofs.Node.Staging
import Mathlib.Data.List.Induction
import Mathlib.Data.List.Nodup
import Mathlib.Data.List.Perm.Basic

/-!
# What lies in a slot

Whatever the staging task has been asked, a slot holds the last move that was staged for it since
the groups were last emptied. So the order in which different slots were filled does not matter, and
what is told of a group can be read off its history.
-/

namespace AxisNode

namespace GroupRequest

variable {rs : List GroupRequest} {i j : Nat} {m : StagedMove}

/-- Whether a request empties every group. -/
def clears : GroupRequest → Bool
  | clearAll | stop => true
  | _ => false

/-- The move that a request stages for a slot. -/
def stagedFor? (i j : Nat) : GroupRequest → Option StagedMove
  | stage m => if m.group.toNat = i ∧ m.seq.toNat = j then some m else none
  | _ => none

/-- The last move that was staged for a slot since the groups were last emptied. -/
def lastStaged? (rs : List GroupRequest) (i j : Nat) : Option StagedMove :=
  (rs.reverse.takeWhile fun r => !r.clears).findSome? (stagedFor? i j)

theorem lastStaged?_concat (rs : List GroupRequest) (r : GroupRequest) (i j : Nat) :
    lastStaged? (rs ++ [r]) i j =
      if r.clears then none else (r.stagedFor? i j).or (lastStaged? rs i j) := by
  unfold lastStaged?
  rw [List.reverse_append, List.reverse_singleton, List.singleton_append, List.takeWhile_cons]
  cases r.clears with
  | true => rfl
  | false =>
      simp only [Bool.not_false, if_true, List.findSome?_cons]
      cases r.stagedFor? i j <;> rfl

/-- What is staged for a slot names the slot. -/
theorem ids_of_lastStaged? (h : lastStaged? rs i j = some m) :
    m.group.toNat = i ∧ m.seq.toNat = j := by
  obtain ⟨r, -, hr⟩ := List.exists_of_findSome?_eq_some h
  cases r with
  | stage m' =>
      obtain ⟨hids, hm⟩ := Option.ite_none_right_eq_some.mp hr
      exact Option.some.inj hm ▸ hids
  | _ => cases hr

end GroupRequest

namespace StagingTask

variable {table : MoveTable} {r : GroupRequest} {i j : Nat}

open GroupRequest

/-- The task after a list of requests. -/
def run (t : StagingTask) : List GroupRequest → StagingTask
  | [] => t
  | r :: rs => run (t.handle r).1 rs

theorem host_handle (r : GroupRequest) (t : StagingTask) : (t.handle r).1.host = t.host := by
  cases r with
  | stage m =>
      simp only [handle, stage]
      split <;> rfl
  | report group =>
      simp only [handle, report]
      split <;> rfl
  | clearAll => rfl
  | execute group start cancel =>
      simp only [handle, execute]
      split
      · rfl
      · next g _ =>
          obtain ⟨motion, h⟩ := exists_forwardAll g.moves t
          simp only [h]
  | stop =>
      simp only [handle, stop]
      split
      · rfl
      · split <;> rfl

theorem host_run (t : StagingTask) (rs : List GroupRequest) : (t.run rs).host = t.host := by
  induction rs generalizing t with
  | nil => rfl
  | cons r rs ih => exact (ih (t.handle r).1).trans (host_handle r t)

/-! ## The slots after some requests -/

/-- The table after a list of requests. -/
def tableAfterAll (rs : List GroupRequest) (table : MoveTable) : MoveTable :=
  rs.foldl (fun table r => tableAfter r table) table

theorem table_run (t : StagingTask) (rs : List GroupRequest) :
    (t.run rs).table = tableAfterAll rs t.table := by
  induction rs generalizing t with
  | nil => rfl
  | cons r rs ih =>
      rw [run, ih, table_handle]
      rfl

/-- No request changes the size of the table. -/
theorem dims_tableAfter (r : GroupRequest) (table : MoveTable) :
    (tableAfter r table).dims = table.dims := by
  cases r with
  | stage m =>
      simp only [tableAfter]
      cases hs : table.stage? m with
      | none => rfl
      | some table' => exact MoveTable.dims_of_stage? hs
  | report group => rfl
  | clearAll => exact MoveTable.dims_clear table
  | execute group start cancel => rfl
  | stop => exact MoveTable.dims_clear table

theorem dims_tableAfterAll (rs : List GroupRequest) (table : MoveTable) :
    (tableAfterAll rs table).dims = table.dims := by
  induction rs generalizing table with
  | nil => rfl
  | cons r rs ih => exact (ih (tableAfter r table)).trans (dims_tableAfter r table)

theorem hasSlot_tableAfter : (tableAfter r table).HasSlot i j ↔ table.HasSlot i j := by
  unfold MoveTable.HasSlot
  rw [dims_tableAfter]

/-- A request empties a slot, fills it with the move that it stages for it, or leaves it alone. -/
theorem slot?_tableAfter (h : table.HasSlot i j) (r : GroupRequest) :
    (tableAfter r table).slot? i j =
      if r.clears then none else (r.stagedFor? i j).or (table.slot? i j) := by
  cases r with
  | stage m =>
      simp only [tableAfter, clears, stagedFor?]
      cases hs : table.stage? m with
      | none =>
          have hno : ¬(m.group.toNat = i ∧ m.seq.toNat = j) := by
            rintro ⟨rfl, rfl⟩
            exact MoveTable.stage?_eq_none_iff.mp hs h
          simp [hno]
      | some table' =>
          have hcomm : (i = m.group.toNat ∧ j = m.seq.toNat) ↔
              m.group.toNat = i ∧ m.seq.toNat = j := and_congr eq_comm eq_comm
          rw [Option.getD_some, MoveTable.slot?_of_stage? hs]
          by_cases hids : m.group.toNat = i ∧ m.seq.toNat = j <;> simp [hcomm, hids]
  | report group => rfl
  | clearAll => exact MoveTable.slot?_clear table i j
  | execute group start cancel => rfl
  | stop => exact MoveTable.slot?_clear table i j

/-- A slot that was empty holds the last move that was staged for it. -/
theorem slot?_tableAfterAll (hempty : table.slot? i j = none) (h : table.HasSlot i j)
    (rs : List GroupRequest) : (tableAfterAll rs table).slot? i j = lastStaged? rs i j := by
  induction rs using List.reverseRecOn with
  | nil => exact hempty
  | append_singleton rs r ih =>
      have hslot : (tableAfterAll rs table).HasSlot i j := by
        unfold MoveTable.HasSlot
        rw [dims_tableAfterAll]
        exact h
      have hlast : tableAfterAll (rs ++ [r]) table = tableAfter r (tableAfterAll rs table) :=
        List.foldl_concat _ _ _ _
      rw [hlast, slot?_tableAfter hslot, ih, lastStaged?_concat]

/-- Moves for two different slots can be staged in either order. -/
theorem tableAfter_stage_comm {m m' : StagedMove}
    (h : (m.group, m.seq) ≠ (m'.group, m'.seq)) (table : MoveTable) :
    tableAfter (.stage m') (tableAfter (.stage m) table) =
      tableAfter (.stage m) (tableAfter (.stage m') table) := by
  apply MoveTable.eq_of_slot?
  · simp only [dims_tableAfter]
  · intro i j
    by_cases hslot : table.HasSlot i j
    · simp only [slot?_tableAfter, hasSlot_tableAfter, hslot, clears, stagedFor?]
      have hdiffer : ¬((m.group.toNat = i ∧ m.seq.toNat = j) ∧
          m'.group.toNat = i ∧ m'.seq.toNat = j) := by
        rintro ⟨⟨rfl, rfl⟩, hg, hs⟩
        exact h (Prod.ext (UInt8.toNat_inj.mp hg.symm) (UInt8.toNat_inj.mp hs.symm))
      by_cases hm : m.group.toNat = i ∧ m.seq.toNat = j
      · have hm' : ¬(m'.group.toNat = i ∧ m'.seq.toNat = j) := fun hm' => hdiffer ⟨hm, hm'⟩
        simp [hm, hm']
      · simp [hm]
    · rw [MoveTable.slot?_of_not_hasSlot, MoveTable.slot?_of_not_hasSlot] <;>
        simpa only [hasSlot_tableAfter] using hslot

/-- Moves for different slots fill the table alike in any order. -/
theorem tableAfterAll_stage_perm {ms ms' : List StagedMove} (hperm : ms.Perm ms')
    (hdistinct : (ms.map fun m => (m.group, m.seq)).Nodup) (table : MoveTable) :
    tableAfterAll (ms.map .stage) table = tableAfterAll (ms'.map .stage) table := by
  unfold tableAfterAll
  rw [List.foldl_map, List.foldl_map]
  refine hperm.foldl_eq' (fun m hm m' hm' table => ?_) table
  by_cases hsame : m = m'
  · rw [hsame]
  · exact (tableAfter_stage_comm
      (fun hids => hsame (List.inj_on_of_nodup_map hdistinct hm hm' hids)) table)

/-! ## What a group comes to -/

/-- The moves in the slots of a group, in the order of the slots. -/
def held (table : MoveTable) (slots : Nat) (i : UInt8) : List StagedMove :=
  (List.range slots).filterMap (table.slot? i.toNat)

theorem exists_group? {groups slots : Nat} (hd : table.dims = List.replicate groups slots)
    {i : UInt8} (hi : i.toNat < groups) :
    ∃ g, table.group? i = some g ∧ g.moves = held table slots i := by
  have hget : table.dims[i.toNat]? = some slots := by
    rw [hd, List.getElem?_replicate, if_pos hi]
  rw [MoveTable.dims, List.getElem?_map] at hget
  obtain ⟨g, hg, rfl⟩ := Option.map_eq_some_iff.mp hget
  exact ⟨g, hg, MoveTable.moves_eq_slots hg⟩

theorem group?_eq_none {groups slots : Nat} (hd : table.dims = List.replicate groups slots)
    {i : UInt8} (hi : ¬i.toNat < groups) : table.group? i = none := by
  have hget : table.dims[i.toNat]? = none := by
    rw [hd, List.getElem?_replicate, if_neg hi]
  rw [MoveTable.dims, List.getElem?_map] at hget
  exact Option.map_eq_none_iff.mp hget

/-- Whether or not its way is open, the queue to the axis controller keeps what is in it. -/
theorem items_forwardAll (t : StagingTask) (moves : List StagedMove) :
    (t.forwardAll moves).1.motion.queue.items =
      if t.motion.isOpen
      then (t.motion.queue.items ++ moves.map MotionCommand.move).take t.motion.queue.capacity
      else t.motion.queue.items := by
  split
  · next h => exact (forwardAll_queue h moves).2
  · next h => rw [forwardAll_of_shut (Bool.not_eq_true _ ▸ h)]

theorem handle_execute {t : StagingTask} {g : MoveGroup} {i : UInt8}
    (hg : t.table.group? i = some g) (start cancel : UInt8) :
    t.handle (.execute i start cancel) =
      ((t.forwardAll g.moves).1,
        .log (.executeGroup i g.moves.length) :: (t.forwardAll g.moves).2) := by
  simp only [handle, execute, hg]
  rfl

/-- A report of a group puts one reply into the outbox if there is room. -/
theorem handle_report {t : StagingTask} {g : MoveGroup} {i : UInt8}
    (hg : t.table.group? i = some g) :
    (t.handle (.report i)).1 =
      { t with outbox := (t.outbox.post t.host (.group (describe i g))).outbox } := by
  simp only [handle, StagingTask.report, hg]

theorem handle_report_of_none {t : StagingTask} {i : UInt8} (hg : t.table.group? i = none) :
    (t.handle (.report i)).1 = t := by
  simp only [handle, StagingTask.report, hg]

/-- A move without a slot is dropped. -/
theorem handle_stage_of_not_hasSlot {t : StagingTask} {m : StagedMove}
    (h : ¬t.table.HasSlot m.group.toNat m.seq.toNat) : (t.handle (.stage m)).1 = t := by
  simp only [handle, StagingTask.stage, MoveTable.stage?_eq_none_iff.mpr h]

theorem toNat_describe_moves (i : UInt8) (g : MoveGroup) :
    (describe i g).moves.toNat = min 255 g.moves.length := by
  have hle : min g.size 255 < 256 := by omega
  rw [describe, UInt8.toNat_ofNat_of_lt' hle, Nat.min_comm]
  rfl

end StagingTask

theorem Outbox.items_post (o : Outbox) (destination : NodeAddress) (r : Reply) :
    (o.post destination r).outbox.items =
      if o.items.length < o.capacity then o.items ++ [.make destination r] else o.items := by
  have hspec := o.post_spec destination r
  by_cases hroom : o.items.length < o.capacity
  · rw [if_pos hroom] at hspec ⊢
    exact hspec.2
  · rw [if_neg hroom] at hspec ⊢
    rw [hspec.2]

open GroupRequest StagingTask in
/-- Whatever the staging task has handled, a slot holds the last move that was staged for it since
the groups were last emptied, so that each move lies in the slot that it names, a group runs in the
strict order of sequence numbers, and moves for different slots can be staged in any order. An
execute sends the moves of the group on in this order, behind those that wait, as far as the way is
open and there is room. A move without a slot, an execute and a report leave every slot alone. A
report of a group hands one reply for the host to the outbox, with the number of its moves and the
sum of their ticks, each cut off at the largest that its field can hold; without the group there is
no reply. -/
theorem slots_hold_last_staged (groups slots : Nat) (motion : Inlet MotionCommand)
    (outbox : Outbox) (destination : NodeAddress) (rs : List GroupRequest) :
    let t := StagingTask.run ⟨.empty groups slots, motion, outbox, destination⟩ rs
    (∀ i j, t.table.slot? i j = if i < groups ∧ j < slots then lastStaged? rs i j else none) ∧
    (∀ i j m, t.table.slot? i j = some m → m.group.toNat = i ∧ m.seq.toNat = j) ∧
    (∀ i, (held t.table slots i).Pairwise fun a b => a.seq < b.seq) ∧
    (∀ i start cancel, i.toNat < groups →
      t.handle (.execute i start cancel) =
        ((t.forwardAll (held t.table slots i)).1,
          .log (.executeGroup i (held t.table slots i).length) ::
            (t.forwardAll (held t.table slots i)).2) ∧
      (t.handle (.execute i start cancel)).1.motion.queue.items =
        if t.motion.isOpen
        then (t.motion.queue.items ++ (held t.table slots i).map MotionCommand.move).take
          t.motion.queue.capacity
        else t.motion.queue.items) ∧
    (∀ ms ms' : List StagedMove, ms.Perm ms' → (ms.map fun m => (m.group, m.seq)).Nodup →
      (t.run (ms.map .stage)).table = (t.run (ms'.map .stage)).table) ∧
    (∀ m, ¬(m.group.toNat < groups ∧ m.seq.toNat < slots) → (t.handle (.stage m)).1 = t) ∧
    (∀ i start cancel, (t.handle (.execute i start cancel)).1.table = t.table) ∧
    (∀ i, (t.handle (.report i)).1.table = t.table) ∧
    ∀ i : UInt8,
      if i.toNat < groups then
        ∃ r : GroupReport, r.group = i ∧
          r.moves.toNat = min 255 (held t.table slots i).length ∧
          r.duration.toNat =
            min (UInt32.size - 1) ((held t.table slots i).map fun m => m.duration.toNat).sum ∧
          (t.handle (.report i)).1 =
            { t with outbox := (t.outbox.post destination (.group r)).outbox } ∧
          (t.outbox.post destination (.group r)).outbox.items =
            if t.outbox.items.length < t.outbox.capacity
            then t.outbox.items ++ [.make destination (.group r)] else t.outbox.items
      else (t.handle (.report i)).1 = t := by
  intro t
  have htable : t.table = tableAfterAll rs (.empty groups slots) := table_run _ rs
  have hdims : t.table.dims = List.replicate groups slots := by
    rw [htable, dims_tableAfterAll, MoveTable.dims_empty]
  have hdestination : t.host = destination := host_run _ rs
  have hslots : ∀ i j, t.table.slot? i j =
      if i < groups ∧ j < slots then lastStaged? rs i j else none := by
    intro i j
    split
    · next hij =>
        rw [htable]
        exact slot?_tableAfterAll (MoveTable.slot?_empty groups slots i j)
          ((MoveTable.hasSlot_of_dims (MoveTable.dims_empty groups slots)).mpr hij) rs
    · next hij =>
        exact MoveTable.slot?_of_not_hasSlot fun h => hij ((MoveTable.hasSlot_of_dims hdims).mp h)
  have haligned : t.table.Aligned := by
    intro i j m hm
    rw [hslots] at hm
    exact ids_of_lastStaged? (Option.ite_none_right_eq_some.mp hm).2
  refine ⟨hslots, haligned, fun i => haligned.pairwise_slots i.toNat slots, ?_, ?_, ?_, ?_, ?_, ?_⟩
  · intro i start cancel hi
    obtain ⟨g, hg, hmoves⟩ := exists_group? hdims hi
    have hexecute := handle_execute hg start cancel
    rw [hmoves] at hexecute
    rw [hexecute]
    exact ⟨rfl, items_forwardAll t _⟩
  · intro ms ms' hperm hdistinct
    calc (t.run (ms.map .stage)).table
        = tableAfterAll (ms.map .stage) t.table := table_run t _
      _ = tableAfterAll (ms'.map .stage) t.table := tableAfterAll_stage_perm hperm hdistinct _
      _ = (t.run (ms'.map .stage)).table := (table_run t _).symm
  · intro m hm
    exact handle_stage_of_not_hasSlot fun h => hm ((MoveTable.hasSlot_of_dims hdims).mp h)
  · intro i start cancel
    rw [table_handle]
    rfl
  · intro i
    rw [table_handle]
    rfl
  · intro i
    split
    · next hi =>
        obtain ⟨g, hg, hmoves⟩ := exists_group? hdims hi
        refine ⟨describe i g, rfl, ?_, ?_, ?_, Outbox.items_post _ _ _⟩
        · rw [toNat_describe_moves, hmoves]
        · exact hmoves ▸ g.toNat_duration
        · rw [handle_report hg, hdestination]
    · next hi =>
        exact handle_report_of_none (group?_eq_none hdims hi)

open GroupRequest StagingTask in
/-- Two groups of two slots. The moves before the clear are gone, a move without a slot is dropped,
and the report of the second group shows two moves and the largest count of ticks. -/
theorem slots_hold_last_staged_of_overwrites :
    let first : StagedMove := .linear ⟨1, 0, 4000000000, 0, 0, 0⟩
    let last : StagedMove := .home ⟨1, 1, 600000000, 0⟩
    let stray : StagedMove := .home ⟨1, 2, 5, 0⟩
    let t := StagingTask.run ⟨.empty 2 2, { queue := .empty 10 }, .empty 10, .host⟩
      [.stage (.home ⟨0, 0, 5, 0⟩), .clearAll, .stage (.home ⟨1, 1, 5, 0⟩), .stage last,
        .stage first]
    t.table.slot? 0 0 = none ∧ held t.table 2 1 = [first, last] ∧
      (t.handle (.execute 1 0 0)).1 = (t.forwardAll [first, last]).1 ∧
      (t.handle (.execute 1 0 0)).1.motion.queue.items = [.move first, .move last] ∧
      (t.run [.stage first, .stage last]).table = (t.run [.stage last, .stage first]).table ∧
      (t.handle (.stage stray)).1 = t ∧
      ∃ r : GroupReport, r.moves.toNat = 2 ∧ r.duration.toNat = UInt32.size - 1 ∧
        (t.handle (.report 1)).1.outbox.items = [.make .host (.group r)] := by
  intro first last stray t
  obtain ⟨hslots, -, -, hexecute, hperm, hstray, -, -, hreport⟩ := slots_hold_last_staged 2 2
    { queue := .empty 10 } (.empty 10) .host
    [.stage (.home ⟨0, 0, 5, 0⟩), .clearAll, .stage (.home ⟨1, 1, 5, 0⟩), .stage last,
      .stage first]
  have hheld : held t.table 2 1 = [first, last] := by decide +kernel
  obtain ⟨hexecuted, hqueue⟩ := hexecute 1 0 0 (by decide)
  obtain ⟨r, -, hmoves, hduration, houtbox, hitems⟩ := hreport 1
  rw [show held _ 2 1 = [first, last] from hheld] at hexecuted hqueue hmoves hduration
  refine ⟨(hslots 0 0).trans (by decide +kernel), hheld, ?_, hqueue.trans (by decide +kernel),
    ?_, ?_, r, hmoves, hduration.trans (by decide +kernel), ?_⟩
  · exact congrArg (fun x => x.1) hexecuted
  · exact hperm [first, last] [last, first] (.swap last first []) (by decide +kernel)
  · exact hstray stray (by decide +kernel)
  · exact (congrArg (fun t' => t'.outbox.items) houtbox).trans hitems

end AxisNode
