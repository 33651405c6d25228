import AxisNode.Proofs.Motion.Phase
import AxisNode.Proofs.Node.Reports
import Mathlib.Data.List.Induction
import Mathlib.Data.List.Infix

/-!
# When a halt is told

The report task looks at the overflow flag once in a turn and tells of it when it was down at the
turn before. Between two turns a cancel may lower the flag and another halt may raise it again, and
then the task sees no difference. So a halt that is still there at a turn is told once if the axis
did not stand halted at the turn before the halt, and otherwise not at all; and nothing is told
without a halt.

## Implementation notes

The task is watched with everything around it left open: between its turns anything may happen to
the step generator, and at each turn the other tasks may have left anything in the outbox.
-/

namespace AxisNode

/-- What happens to a node as far as the report task is concerned. -/
inductive Watch where
  | axis (e : AxisEvent)
  /-- A turn of the report task, which finds the outbox like this. -/
  | turn (outbox : Outbox)

/-- Whether the report task has a turn. -/
def Watch.isTurn : Watch → Bool
  | turn _ => true
  | axis _ => false

theorem forall_isTurn_concat {quiet : List Watch} (h : ∀ x ∈ quiet, x.isTurn = false)
    (e : AxisEvent) : ∀ x ∈ quiet ++ [.axis e], x.isTurn = false :=
  List.forall_mem_append.mpr ⟨h, List.forall_mem_singleton.mpr rfl⟩

namespace StepGenerator

/-- The axis halts on an event. -/
def Halts (e : AxisEvent) (g : StepGenerator) : Prop :=
  g.phase ≠ .halted ∧ (g.step e).phase = .halted

instance (e : AxisEvent) (g : StepGenerator) : Decidable (g.Halts e) :=
  inferInstanceAs (Decidable (_ ∧ _))

end StepGenerator

/-! ## One turn -/

namespace ReportTask

theorem fault_notMem (t : ReportTask) : fault .unrecoverable ∉ t.lostDue ++ t.ackDue := by
  rw [List.mem_append, not_or]
  constructor
  · unfold lostDue
    split <;> decide
  · unfold ackDue
    cases t.link.acks.items.head? <;> simp [fault]

/-- The overflow is due just if the flag is up and was down at the turn before. -/
theorem count_due (t : ReportTask) :
    t.due.count (fault .unrecoverable) =
      if t.link.status.has .overflow && !t.overflowReported then 1 else 0 := by
  rw [due, List.append_assoc, List.count_append, List.count_eq_zero.mpr t.fault_notMem, overflowDue]
  split <;> simp

/-- The overflow goes first, so one free place is enough for it. -/
theorem count_take_due {k : Nat} (hk : 0 < k) (t : ReportTask) :
    (t.due.take k).count (fault .unrecoverable) = t.due.count (fault .unrecoverable) := by
  obtain ⟨k, rfl⟩ := Nat.exists_eq_add_one.mpr hk
  have hrest : ∀ i, ((t.lostDue ++ t.ackDue).take i).count (fault .unrecoverable) = 0 := fun i =>
    List.count_eq_zero.mpr fun h => t.fault_notMem (List.mem_of_mem_take h)
  rw [count_due, due, List.append_assoc, overflowDue]
  split
  · rw [List.singleton_append, List.take_succ_cons, List.count_cons_self, hrest]
  · exact hrest _

end ReportTask

/-! ## Turns one after another -/

namespace Node

open ReportTask (fault)

variable {τ : Type} {n : Node τ}

/-- The node after an event of the axis or a turn, for which the outbox may have become another. -/
def watch (x : Watch) (n : Node τ) : Node τ :=
  match x with
  | .axis e => { n with axis := n.axis.step e }
  | .turn outbox => { n with outbox }.runReports.node

/-- The frames that a turn of the report task puts into the outbox. -/
def reports (x : Watch) (n : Node τ) : List Reply :=
  match x with
  | .axis _ => []
  | .turn outbox => ((n.watch x).outbox.items.drop outbox.items.length).map Outgoing.reply

/-- The node after a list of such events. -/
def watchAll (n : Node τ) : List Watch → Node τ
  | [] => n
  | x :: xs => watchAll (n.watch x) xs

/-- The reports of all turns, in order. -/
def reportsAll (n : Node τ) : List Watch → List Reply
  | [] => []
  | x :: xs => n.reports x ++ reportsAll (n.watch x) xs

theorem watchAll_append (n : Node τ) (xs ys : List Watch) :
    n.watchAll (xs ++ ys) = (n.watchAll xs).watchAll ys := by
  induction xs generalizing n with
  | nil => rfl
  | cons x xs ih => exact ih (n.watch x)

theorem watchAll_concat (n : Node τ) (xs : List Watch) (x : Watch) :
    n.watchAll (xs ++ [x]) = (n.watchAll xs).watch x :=
  watchAll_append n xs [x]

/-- The axis was halted at the last turn of the report task. -/
def SeenHalted (xs : List Watch) (n : Node τ) : Prop :=
  ∃ before outbox quiet, xs = before ++ .turn outbox :: quiet ∧
    (∀ x ∈ quiet, x.isTurn = false) ∧ (n.watchAll before).axis.phase = .halted

/-- The axis is halted and stays so. -/
def StaysHalted (xs : List Watch) (n : Node τ) : Prop :=
  ∀ now, now <+: xs → (n.watchAll now).axis.phase = .halted

theorem StaysHalted.phase {xs : List Watch} (h : n.StaysHalted xs) : n.axis.phase = .halted :=
  h [] List.nil_prefix

theorem StaysHalted.cons {x : Watch} {xs : List Watch} (h : n.StaysHalted (x :: xs)) :
    (n.watch x).StaysHalted xs :=
  fun now hnow => h (x :: now) (List.cons_prefix_cons.mpr ⟨rfl, hnow⟩)

theorem StaysHalted.concat {x : Watch} {xs : List Watch} (h : n.StaysHalted xs)
    (hx : (n.watchAll (xs ++ [x])).axis.phase = .halted) : n.StaysHalted (xs ++ [x]) := by
  intro now hnow
  obtain rfl | hnow := List.prefix_concat_iff.mp hnow
  · exact hx
  · exact h now hnow

theorem coherent_watch (hg : n.axis.Coherent) (x : Watch) : (n.watch x).axis.Coherent := by
  cases x with
  | axis e => exact hg.run [e]
  | turn outbox =>
      rw [watch, axis_runReports]
      exact hg.run _

theorem coherent_watchAll (hg : n.axis.Coherent) (xs : List Watch) :
    (n.watchAll xs).axis.Coherent := by
  induction xs generalizing n with
  | nil => exact hg
  | cons x xs ih => exact ih (coherent_watch hg x)

/-- A turn remembers whether it has seen the axis halted, and does not change that. -/
theorem watch_turn (hg : n.axis.Coherent) (outbox : Outbox) :
    ((n.watch (.turn outbox)).overflowReported = true ↔ n.axis.phase = .halted) ∧
      (n.watch (.turn outbox)).axis.phase = n.axis.phase := by
  have hreported : (n.watch (.turn outbox)).overflowReported = n.axis.status.has .overflow :=
    ({ n with outbox }.reportTask.hands_run).2.2.2
  rw [hreported, hg.halted]
  exact ⟨Iff.rfl, rfl⟩

theorem reports_turn (outbox : Outbox) (n : Node τ) :
    n.reports (.turn outbox) = { n with outbox }.reportTask.due.take outbox.room := by
  have hitems : (n.watch (.turn outbox)).outbox.items = outbox.items ++
      ({ n with outbox }.reportTask.due.take outbox.room).map (Outgoing.make n.setup.host) :=
    ({ n with outbox }.reportTask.hands_run).1.queued
  rw [reports, hitems, List.drop_left, List.map_map]
  exact List.map_id _

/-- A turn tells of the overflow just if it is the first to see the axis halted. -/
theorem count_reports_turn (hg : n.axis.Coherent) {outbox : Outbox} (hroom : 0 < outbox.room) :
    (n.reports (.turn outbox)).count (fault .unrecoverable) =
      if n.axis.phase = .halted ∧ n.overflowReported = false then 1 else 0 := by
  rw [reports_turn, ReportTask.count_take_due hroom, ReportTask.count_due]
  have hflag : { n with outbox }.reportTask.link.status.has .overflow =
      n.axis.status.has .overflow := rfl
  have hreported : { n with outbox }.reportTask.overflowReported = n.overflowReported := rfl
  simp only [hflag, hreported, hg.halted, Bool.and_eq_true, Bool.not_eq_true']

theorem untold_of_mem_reports (hg : n.axis.Coherent) {outbox : Outbox}
    (h : fault .unrecoverable ∈ n.reports (.turn outbox)) :
    n.axis.phase = .halted ∧ n.overflowReported = false := by
  rw [reports_turn] at h
  have hpos := List.count_pos_iff.mpr (List.mem_of_mem_take h)
  rw [ReportTask.count_due] at hpos
  split at hpos
  · next hdue =>
      rw [Bool.and_eq_true, Bool.not_eq_true'] at hdue
      exact ⟨hg.halted.mpr hdue.1, hdue.2⟩
  · cases hpos

/-- Over any number of turns at which it stays halted, the axis is told of once, unless that was
done before. -/
theorem count_reportsAll {xs : List Watch} (hg : n.axis.Coherent) (hh : n.StaysHalted xs)
    (hroom : ∀ outbox, .turn outbox ∈ xs → 0 < outbox.room) :
    (n.reportsAll xs).count (fault .unrecoverable) =
      if n.overflowReported = false ∧ xs.any Watch.isTurn = true then 1 else 0 := by
  induction xs generalizing n with
  | nil => simp [reportsAll]
  | cons x xs ih =>
      have hrest := ih (coherent_watch hg x) hh.cons
        fun outbox hx => hroom outbox (List.mem_cons_of_mem _ hx)
      rw [reportsAll, List.count_append, hrest]
      cases x with
      | axis e =>
          have hsame : (n.watch (.axis e)).overflowReported = n.overflowReported := rfl
          rw [hsame]
          simp [reports, Watch.isTurn]
      | turn outbox =>
          have hseen := (watch_turn hg outbox).1.mpr hh.phase
          rw [count_reports_turn hg (hroom outbox (List.mem_cons_self ..)), hseen]
          simp [hh.phase, Watch.isTurn]

/-- An axis that is halted and not yet told of has halted since the last turn. -/
theorem exists_halt_of_untold (hg : n.axis.Coherent) (hn : n.axis.phase ≠ .halted)
    {xs : List Watch} (hh : (n.watchAll xs).axis.phase = .halted)
    (hr : (n.watchAll xs).overflowReported = false) :
    ∃ before e quiet, xs = before ++ .axis e :: quiet ∧ (∀ x ∈ quiet, x.isTurn = false) ∧
      (n.watchAll before).axis.Halts e ∧
      ((n.watchAll before).watch (.axis e)).StaysHalted quiet ∧
      (n.watchAll before).overflowReported = false := by
  -- From the right: a turn at which the axis is halted remembers it, so the last event is none.
  induction xs using List.reverseRecOn with
  | nil => exact absurd hh hn
  | append_singleton xs x ih =>
      rw [watchAll_concat] at hh hr
      cases x with
      | turn outbox =>
          obtain ⟨hseen, hphase⟩ := watch_turn (coherent_watchAll hg xs) outbox
          rw [hphase] at hh
          rw [hseen.mpr hh] at hr
          cases hr
      | axis e =>
          by_cases hbefore : (n.watchAll xs).axis.phase = .halted
          · obtain ⟨before, e', quiet, rfl, hquiet, hhalts, hstays, hreported⟩ := ih hbefore hr
            refine ⟨before, e', quiet ++ [.axis e], List.append_assoc _ _ _,
              forall_isTurn_concat hquiet e, hhalts, ?_, hreported⟩
            apply hstays.concat
            rw [watchAll_append] at hh ⊢
            exact hh
          · refine ⟨xs, e, [], rfl, nofun, ⟨hbefore, hh⟩, ?_, hr⟩
            intro now hnow
            rw [List.prefix_nil.mp hnow]
            exact hh

theorem seenHalted_concat_axis {xs : List Watch} {e : AxisEvent} :
    n.SeenHalted (xs ++ [.axis e]) ↔ n.SeenHalted xs := by
  constructor
  · rintro ⟨before, outbox, quiet, hxs, hquiet, hh⟩
    obtain ⟨-, hturn, -⟩ | ⟨quiet, rfl, rfl⟩ := concat_eq_append_cons_iff.mp hxs
    · cases hturn
    · exact ⟨before, outbox, quiet, rfl, fun x hx => hquiet x (List.mem_append_left _ hx), hh⟩
  · rintro ⟨before, outbox, quiet, rfl, hquiet, hh⟩
    exact ⟨before, outbox, quiet ++ [.axis e], List.append_assoc _ _ _,
      forall_isTurn_concat hquiet e, hh⟩

theorem seenHalted_concat_turn {xs : List Watch} {outbox : Outbox} :
    n.SeenHalted (xs ++ [.turn outbox]) ↔ (n.watchAll xs).axis.phase = .halted := by
  constructor
  · rintro ⟨before, outbox', quiet, hxs, hquiet, hh⟩
    obtain ⟨rfl, -, -⟩ | ⟨quiet, rfl, -⟩ := concat_eq_append_cons_iff.mp hxs
    · exact hh
    · cases hquiet (.turn outbox) (List.mem_append_right _ (List.mem_cons_self ..))
  · intro hh
    exact ⟨xs, outbox, [], rfl, nofun, hh⟩

/-- What the task remembers is whether it has seen the axis halted. -/
theorem overflowReported_iff (hg : n.axis.Coherent) (hn : n.overflowReported = false)
    (xs : List Watch) : (n.watchAll xs).overflowReported = true ↔ n.SeenHalted xs := by
  induction xs using List.reverseRecOn with
  | nil => simp [watchAll, SeenHalted, hn]
  | append_singleton xs x ih =>
      rw [watchAll_concat]
      cases x with
      | axis e =>
          rw [seenHalted_concat_axis, ← ih]
          rfl
      | turn outbox =>
          rw [seenHalted_concat_turn, (watch_turn (coherent_watchAll hg xs) outbox).1]

end Node

open Node in
/-- A halt that is still there at a later turn of the report task is told once, if the axis did not
stand halted at the last turn before the halt, and is not told if it did. What is told was found at
the first turn after such a halt. -/
theorem halt_is_told_unless_last_seen_halted {τ : Type} (setup : NodeSetup)
    (controller : AxisController) (driver : ChipDriver τ) :
    let start := (Node.start setup controller driver).1
    let alarm := ReportTask.fault .unrecoverable
    (∀ before e during,
      let n := start.watchAll before
      let told := (n.watch (.axis e)).reportsAll during
      n.axis.Halts e → (n.watch (.axis e)).StaysHalted during →
      during.any Watch.isTurn = true → (∀ outbox, .turn outbox ∈ during → 0 < outbox.room) →
      (¬ start.SeenHalted before → told.count alarm = 1) ∧
        (start.SeenHalted before → told.count alarm = 0)) ∧
    ∀ xs outbox, alarm ∈ (start.watchAll xs).reports (.turn outbox) →
      ∃ before e quiet, xs = before ++ .axis e :: quiet ∧ (∀ x ∈ quiet, x.isTurn = false) ∧
        (start.watchAll before).axis.Halts e ∧
        ((start.watchAll before).watch (.axis e)).StaysHalted quiet ∧
        ¬ start.SeenHalted before := by
  intro start alarm
  have hg : start.axis.Coherent := StepGenerator.Coherent.start _ _
  have hn : start.axis.phase ≠ .halted := nofun
  constructor
  · intro before e during n told hhalts hstays hturn hroom
    have hgn : n.axis.Coherent := coherent_watchAll hg before
    have hcount : told.count alarm =
        if n.overflowReported = false ∧ during.any Watch.isTurn = true then 1 else 0 :=
      count_reportsAll (coherent_watch hgn (.axis e)) hstays hroom
    have hseen := overflowReported_iff hg rfl before
    constructor
    · intro hunseen
      rw [← hseen, Bool.not_eq_true] at hunseen
      rw [hcount, if_pos ⟨hunseen, hturn⟩]
    · intro hstood
      rw [hcount, if_neg]
      rintro ⟨hunseen, -⟩
      exact absurd (hseen.mpr hstood) (Bool.not_eq_true _ ▸ hunseen)
  · intro xs outbox htold
    obtain ⟨hh, hr⟩ := untold_of_mem_reports (coherent_watchAll hg xs) htold
    obtain ⟨before, e, quiet, hxs, hquiet, hhalts, hstays, hreported⟩ :=
      exists_halt_of_untold hg hn hh hr
    refine ⟨before, e, quiet, hxs, hquiet, hhalts, hstays, ?_⟩
    rw [← overflowReported_iff hg rfl, hreported]
    simp

/-- A move is loaded that leaves its range on the next tick. -/
def leaveRange : List Watch :=
  [.axis (.enqueue ⟨0, 0, 5, -2147483648, 0, ⟨0⟩⟩), .axis (.tick false none)]

/-- A turn of the report task that finds the outbox empty. -/
def look : Watch := .turn (.empty 16)

theorem halt_is_told_unless_last_seen_halted_of_leaveRange :
    let n := (gantry.node.watchAll leaveRange).watch (.axis (.tick false none))
    ¬ gantry.node.SeenHalted leaveRange ∧ n.StaysHalted [look, look] ∧
      (n.reportsAll [look, look]).count (ReportTask.fault .unrecoverable) = 1 := by
  intro n
  have hunseen : ¬ gantry.node.SeenHalted leaveRange := by
    rintro ⟨before, outbox, quiet, hxs, -⟩
    have hturn : .turn outbox ∈ leaveRange := hxs ▸ List.mem_append_right _ (List.mem_cons_self ..)
    simp [leaveRange] at hturn
  have hstays : n.StaysHalted [look, look] := by
    have hall : ∀ now ∈ [look, look].inits, (n.watchAll now).axis.phase = .halted := by
      decide +kernel
    exact fun now hnow => hall now ((List.mem_inits now _).mpr hnow)
  have hroom : ∀ outbox, .turn outbox ∈ [look, look] → 0 < outbox.room := by
    simp [look, Outbox.room]
  exact ⟨hunseen, hstays, ((halt_is_told_unless_last_seen_halted ⟨.gantryX, .host, 0⟩
    .tenMicrometresPerStep ({ link := {} } : ChipDriver RegisterFile)).1 leaveRange
    (.tick false none) [look, look] (by decide +kernel) hstays rfl hroom).1 hunseen⟩

/-- The axis halts, is told of, is cancelled and halts again before the next turn, which finds the
flag up and tells nothing. -/
theorem second_halt_is_not_told :
    let tick := AxisEvent.tick false none
    let cancelled := leaveRange ++ [.axis tick, look, .axis .requestCancel, .axis tick]
    let again := cancelled ++ leaveRange
    (gantry.node.watchAll leaveRange).axis.Halts tick ∧
      (gantry.node.watchAll cancelled).axis.status.has .overflow = false ∧
      (gantry.node.watchAll again).axis.Halts tick ∧
      (gantry.node.watchAll (again ++ [.axis tick])).axis.status.has .overflow = true ∧
      (gantry.node.reportsAll (again ++ [.axis tick, look, look])).count
        (ReportTask.fault .unrecoverable) = 1 := by
  refine ⟨?_, ?_, ?_, ?_, ?_⟩
  all_goals decide +kernel

end AxisNode
