import AxisNode.Proofs.Motion.Ledger
import AxisNode.Proofs.Motion.StepCount
import AxisNode.Proofs.Motion.Switch

/-!
# When the step count is trusted

The flag that vouches for the step count is raised at the limit switch alone. It goes down when the
motor is switched off and when the axis halts, and nothing else touches it.
-/

namespace AxisNode.StepGenerator

open FixedPoint

variable {g : StepGenerator}

/-- A homing move ends at the pressed switch on an event. -/
def ReachesSwitch (e : AxisEvent) (g : StepGenerator) : Prop := .rebased .switch ∈ g.eventNotes e

/-! ## A tick -/

theorem zero_mem_of_mem_notesAll {ds : List TickAction}
    (h : .rebased .switch ∈ notesAll ds g) : .zero ∈ ds := by
  induction ds generalizing g with
  | nil => cases h
  | cons d ds ih =>
      obtain hd | hds := List.mem_append.mp h
      · obtain ⟨rfl, -⟩ | ⟨-, htop, -⟩ := rebased_mem_notes_iff.mp hd
        · exact List.mem_cons_self ..
        · cases htop
      · exact List.mem_cons_of_mem d (ih hds)

/-- A tick reaches the switch just if it sees it pressed with a homing move active. -/
theorem reachesSwitch_tick_iff (hg : g.Coherent) {limit : Bool} {encoder : Option Int32} :
    g.ReachesSwitch (.tick limit encoder) ↔
      limit = true ∧ g.status.cancelRequested = false ∧
        ∃ a, g.active = some a ∧ a.move.homes = true := by
  constructor
  · intro h
    obtain ⟨hc, -, hhoming, hlimit⟩ := zero_mem_actions_iff.mp (zero_mem_of_mem_notesAll h)
    exact ⟨hlimit, hc, isHoming_iff.mp hhoming⟩
  · rintro ⟨rfl, hc, a, ha, hh⟩
    rw [ReachesSwitch, eventNotes, tickNotes_of_homing hg ha hh hc]
    exact List.mem_cons_self ..

theorem phase_halt (g : StepGenerator) : g.halt.phase = .halted := by
  cases ha : g.active with
  | none => rw [halt_eq_of_none ha]; rfl
  | some a =>
      rw [halt_eq_of_active ha]
      exact phase_offer _ _

/-- The flag is as it was unless the axis is halted, and then it is down. -/
structure Vouched (ok : Bool) (g : StepGenerator) : Prop where
  coherent : g.Coherent
  flag : g.status.has .stepperOk = (ok && decide (g.phase ≠ .halted))

namespace Vouched

variable {ok : Bool} {h : StepGenerator}

theorem of_eq (hv : g.Vouched ok) (hc : h.Coherent) (hp : h.phase = .halted ↔ g.phase = .halted)
    (hs : h.status.has .stepperOk = g.status.has .stepperOk) : h.Vouched ok := by
  refine ⟨hc, ?_⟩
  rw [hs, hv.flag]
  simp only [ne_eq, hp]

/-- Unless an action halts the axis it keeps the flag. -/
theorem of_step (hv : g.Vouched ok) (hc : h.Coherent) (hp : g.phase ≠ .halted)
    (hs : h.phase ≠ .halted → h.status.has .stepperOk = g.status.has .stepperOk) :
    h.Vouched ok := by
  by_cases hh : h.phase = .halted
  · exact ⟨hc, by simp [hc.untrusted hh, hh]⟩
  · exact hv.of_eq hc (by simp [hh, hp]) (hs hh)

theorem load (hv : g.Vouched ok) (hp : g.phase ≠ .halted) : g.load.Vouched ok := by
  apply hv.of_step (hv.coherent.load hp) hp
  cases hq : g.moves.pop? with
  | none =>
      rw [load_eq_of_none hq]
      exact fun _ => rfl
  | some x =>
      obtain ⟨m, moves⟩ := x
      rw [load_eq_of_some hq]
      cases m.targetFrom (g.mount m moves).position with
      | some target => exact fun _ => status_has_mount m moves g .stepperOk
      | none => exact fun hh => absurd (phase_halt _) hh

theorem advance (hv : g.Vouched ok) (ht : g.hasTicks = true) : g.advance.1.Vouched ok := by
  obtain ⟨a, ha, -⟩ := hasTicks_iff.mp ht
  have hp : g.phase ≠ .halted := hv.coherent.not_halted_of_isSome (by simp [ha])
  apply hv.of_step (hv.coherent.advance ht) hp
  cases hn : next? a g.position with
  | none =>
      rw [advance_of_stuck ha hn]
      exact fun hh => absurd (phase_halt g) hh
  | some x =>
      rw [advance_of_next (v := x.1) (p := x.2) ha hn]
      exact fun _ => rfl

/-- What a tick does short of a cancel or the switch keeps the flag or halts the axis. -/
theorem perform {d : TickAction} {limit : Bool} (hv : g.Vouched ok) (hd : g.Due limit d)
    (hc : .cancelled ∉ g.notes d) (hz : .rebased .switch ∉ g.notes d) :
    (g.perform d).Vouched ok := by
  have hcoherent := hv.coherent.perform hd
  cases d with
  | cancel => exact absurd (List.mem_cons_self ..) hc
  | zero => exact absurd (List.mem_cons_self ..) hz
  | settle => exact hv.of_step hcoherent (by simp [hd.2]) fun _ => rfl
  | load => exact hv.load hd.2.1
  | advance => exact hv.advance hd
  | finish reason =>
      exact hv.of_step hcoherent (hv.coherent.not_halted_of_isSome hd.1)
        fun _ => (finish_keeps_position reason g).2

theorem interrupt {limit : Bool} (hv : g.Vouched ok) (encoder : Option Int32)
    (hc : g.status.cancelRequested = false) (hz : .rebased .switch ∉ g.tickNotes limit) :
    (g.interrupt limit encoder).1.Vouched ok := by
  apply interrupt_fold (T := Unit) (fun _ _ => ()) (fun g _ => g.Vouched ok)
    (fun n => n ≠ .cancelled ∧ n ≠ .rebased .switch) (t := ())
  · intro d g _ hd hok hv
    exact hv.perform hd (fun hn => (hok _ hn).1 rfl) fun hn => (hok _ hn).2 rfl
  · intro g _ limit hv
    exact ⟨hv.coherent.of_eq rfl rfl rfl fun ht => ht, hv.flag⟩
  · intro g _ encoder hv
    exact ⟨hv.coherent.of_eq rfl rfl rfl fun ht => ht, hv.flag⟩
  · intro n hn
    constructor
    · rintro rfl
      exact cancelled_notMem_tickNotes hc hn
    · rintro rfl
      exact hz hn
  · exact hv

end Vouched

/-! ## One event -/

theorem trusted_tick {limit : Bool} (hg : g.Coherent) (encoder : Option Int32) :
    (g.interrupt limit encoder).1.status.has .stepperOk = true ↔
      g.ReachesSwitch (.tick limit encoder) ∨
        g.status.has .stepperOk = true ∧ (g.interrupt limit encoder).1.phase ≠ .halted := by
  by_cases hz : g.ReachesSwitch (.tick limit encoder)
  · obtain ⟨rfl, hc, a, ha, hh⟩ := (reachesSwitch_tick_iff hg).mp hz
    have htrust : ((g.sample true).atSwitch.finish .stoppedByCondition).status.has .stepperOk =
        true := by
      rw [(finish_keeps_position .stoppedByCondition (g.sample true).atSwitch).2]
      simp [status_has_atSwitch]
    rw [interrupt_of_homing hg ha hh hc]
    exact iff_of_true htrust (.inl hz)
  · rw [or_iff_right hz]
    cases hc : g.status.cancelRequested with
    | true =>
        have hi : (g.interrupt limit encoder).1 = (g.begun limit).cancel := by
          simp [interrupt_eq_begun, hc]
        have hflag : (g.begun limit).cancel.status.has .stepperOk = g.status.has .stepperOk := by
          simp [cancel, begun, sample, mapStatus, AxisStatus.has, AxisStatus.lower,
            AxisStatus.takeCancel]
        rw [hi, hflag]
        simp [cancel]
    | false =>
        have hv : g.Vouched (g.status.has .stepperOk) := by
          refine ⟨hg, ?_⟩
          by_cases hp : g.phase = .halted <;> simp [hp, hg.untrusted]
        rw [(hv.interrupt encoder hc hz).flag, Bool.and_eq_true, decide_eq_true_eq]

/-- Between ticks only switching the motor off touches the flag. -/
theorem foreground_run {es : List AxisEvent} (hes : ∀ e ∈ es, e.isTick = false)
    (hd : .disable ∉ es) :
    (g.run es).status.has .stepperOk = g.status.has .stepperOk ∧ (g.run es).phase = g.phase := by
  induction es generalizing g with
  | nil => exact ⟨rfl, rfl⟩
  | cons e es ih =>
      rw [List.mem_cons, not_or] at hd
      obtain ⟨hflag, hphase⟩ := ih (g := g.step e) (fun x hx => hes x (List.mem_cons_of_mem _ hx))
        hd.2
      rw [step_eq_react (hes e (List.mem_cons_self ..))] at hflag hphase
      rw [run, step_eq_react (hes e (List.mem_cons_self ..)), hflag, hphase, status_has_react]
      simp [Ne.symm hd.1]

/-! ## Where the homing move comes from -/

theorem collect_taken_of_no_enqueue {es : List AxisEvent} (hes : ∀ m, .enqueue m ∉ es) :
    g.collect taken es = [] := by
  induction es generalizing g with
  | nil => rfl
  | cons e es ih =>
      rw [collect, ih fun m hm => hes m (List.mem_cons_of_mem _ hm), List.append_nil]
      cases e with
      | enqueue m => exact absurd (List.mem_cons_self ..) (hes m)
      | _ => rfl

/-- As long as none is queued, every active move was active or waiting at the start. -/
theorem active_mem_of_run (hp : g.Placed) {es : List AxisEvent} (hes : ∀ m, .enqueue m ∉ es) :
    ∀ a ∈ (g.run es).active, a.move ∈ (g.active.map (·.move)).toList ++ g.moves.items := by
  intro a ha
  -- With books opened on what is there, an active move is one of those queued.
  let l : Ledger :=
    { queued := (g.active.map (·.move)).toList ++ g.moves.items
      active := g.active.map (·.move)
      waiting := g.moves.items
      position := g.position }
  have hl : g.Books l := ⟨hp, rfl, rfl, rfl, rfl, rfl, List.forall_mem_nil _⟩
  have hb := hl.run es
  have hqueued := queued_account g l es
  rw [collect_taken_of_no_enqueue hes, List.append_nil, hb.moves] at hqueued
  have hactive : (account Ledger.note Ledger.hear g l es).active = some a.move := by
    rw [hb.active, ha]
    rfl
  have hmem : a.move ∈ l.queued := by
    rw [← hqueued, hactive]
    simp
  exact hmem

end AxisNode.StepGenerator
