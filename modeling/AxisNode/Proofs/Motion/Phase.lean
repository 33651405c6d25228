import AxisNode.Proofs.Motion.Trajectory

/-!
# The phase agrees with the rest

Loading, advancing, retiring, halting and cancelling each write the phase, the active move, the
position and the flags one by one, and a tick may do several of them in a row. Still the phase tells
in every state of a run whether a move is active and whether the position has overflowed, and a
halted axis stays as it is until it is cancelled.

## Implementation notes

Not every action keeps this in every state: it rests on a tick doing an action only when it is due.
-/

namespace AxisNode.StepGenerator

open FixedPoint

variable {g h : StepGenerator}

/-- The phase tells whether a move is active and whether the position has overflowed, and the
active move has had no more ticks than it may take. -/
structure Coherent (g : StepGenerator) : Prop where
  stepping : g.active.isSome = true ↔ g.phase = .stepping
  halted : g.phase = .halted ↔ g.status.has .overflow = true
  untrusted : g.phase = .halted → g.status.has .stepperOk = false
  ticks_le : ∀ a ∈ g.active, a.ticks ≤ a.move.duration.toNat

namespace Coherent

theorem of_eq (hg : g.Coherent) (ha : h.active = g.active) (hp : h.phase = g.phase)
    (ho : h.status.has .overflow = g.status.has .overflow)
    (hs : h.status.has .stepperOk = true → g.status.has .stepperOk = true) : h.Coherent := by
  constructor
  · rw [ha, hp]
    exact hg.stepping
  · rw [hp, ho]
    exact hg.halted
  · intro hh
    have hn := hg.untrusted (hp ▸ hh)
    exact Bool.eq_false_iff.mpr fun ht => Bool.eq_false_iff.mp hn (hs ht)
  · exact ha ▸ hg.ticks_le

/-- Without an active move it is enough that a halt and the flag go together. -/
theorem of_vacant (ha : h.active = none) (hp : h.phase ≠ .stepping)
    (hh : h.phase = .halted ↔ h.status.has .overflow = true)
    (hs : h.phase = .halted → h.status.has .stepperOk = false) : h.Coherent := by
  refine ⟨?_, hh, hs, ?_⟩
  · simp [ha, hp]
  · simp [ha]

theorem offer (hg : g.Coherent) (a : MoveAck) : (g.offer a).Coherent :=
  hg.of_eq (active_offer a g) (phase_offer a g) (status_has_offer a g (by decide))
    fun ht => (status_has_stepperOk_offer a g).symm.trans ht

/-- Halting writes everything that the phase tells of. -/
theorem halt (g : StepGenerator) : g.halt.Coherent := by
  have hh : g.halting.Coherent :=
    of_vacant rfl (by simp [halting]) (by simp [halting]) (by simp [halting])
  cases ha : g.active with
  | none => rwa [halt_eq_of_none ha]
  | some a =>
      rw [halt_eq_of_active ha]
      exact hh.offer _

theorem not_halted_of_isSome (hg : g.Coherent) (ha : g.active.isSome = true) :
    g.phase ≠ .halted := by
  rw [hg.stepping.mp ha]
  decide

theorem overflow_eq_false (hg : g.Coherent) (hp : g.phase ≠ .halted) :
    g.status.has .overflow = false :=
  Bool.eq_false_iff.mpr fun ho => hp (hg.halted.mpr ho)

/-- A move may be retired unless the axis is halted. -/
theorem finish (ha : g.active.isSome = true) (ho : g.status.has .overflow = false)
    (reason : AckReason) : (g.finish reason).Coherent := by
  obtain ⟨a, hg⟩ := Option.isSome_iff_exists.mp ha
  have hr : g.retiring.Coherent :=
    of_vacant rfl (by simp [retiring]) (by simp [retiring, ho]) (by simp [retiring])
  rw [finish_eq_of_active hg]
  exact hr.offer _

theorem load (hg : g.Coherent) (hp : g.phase ≠ .halted) : g.load.Coherent := by
  cases hq : g.moves.pop? with
  | none => rwa [load_eq_of_none hq]
  | some p =>
      obtain ⟨m, moves⟩ := p
      rw [load_eq_of_some hq]
      split
      · have ho := hg.overflow_eq_false hp
        refine ⟨?_, ?_, ?_, ?_⟩
        · simp
        · simp [ho]
        · simp
        · simp
      · exact halt _

theorem advance (hg : g.Coherent) (ht : g.hasTicks = true) : g.advance.1.Coherent := by
  obtain ⟨a, ha, hlt⟩ := hasTicks_iff.mp ht
  cases hn : next? a g.position with
  | none =>
      rw [advance_of_stuck ha hn]
      exact halt g
  | some p =>
      have hstep := hg.stepping.mp (by simp [ha])
      rw [advance_of_next (v := p.1) (p := p.2) ha hn]
      refine ⟨?_, hg.halted, hg.untrusted, ?_⟩
      · simpa [place] using hstep
      · simpa [place] using Nat.succ_le_of_lt hlt

theorem perform {d : TickAction} {limit : Bool} (hg : g.Coherent) (hd : g.Due limit d) :
    (g.perform d).Coherent := by
  cases d with
  | cancel =>
      exact of_vacant rfl (by simp [StepGenerator.perform, cancel])
        (by simp [StepGenerator.perform, cancel]) (by simp [StepGenerator.perform, cancel])
  | settle =>
      obtain ⟨ha, hp⟩ := hd
      have ho := hg.overflow_eq_false (by simp [hp])
      exact of_vacant ha (by simp [StepGenerator.perform])
        (by simp [StepGenerator.perform, ho]) (by simp [StepGenerator.perform])
  | load => exact hg.load hd.2.1
  | zero =>
      obtain ⟨a, hactive, -⟩ := isHoming_iff.mp hd.1
      have ha : g.active.isSome = true := Option.isSome_iff_exists.mpr ⟨a, hactive⟩
      have ho := hg.overflow_eq_false (hg.not_halted_of_isSome ha)
      have hz : g.atSwitch.status.has .overflow = false := by simp [status_has_atSwitch, ho]
      exact finish (g := g.atSwitch) ha hz .stoppedByCondition
  | advance => exact hg.advance hd
  | finish reason =>
      exact finish hd.1 (hg.overflow_eq_false (hg.not_halted_of_isSome hd.1)) reason

theorem react (hg : g.Coherent) (e : AxisEvent) : (g.react e).Coherent := by
  apply hg.of_eq (active_react e g) (phase_react e g)
  · simp [status_has_react]
  · intro ht
    rw [status_has_react, Bool.and_assoc, Bool.and_eq_true] at ht
    exact ht.1

theorem run (hg : g.Coherent) (es : List AxisEvent) : (g.run es).Coherent := by
  apply run_invariant
  · intro limit d g hd hg
    exact hg.perform hd
  · intro g limit hg
    exact hg.of_eq rfl rfl rfl fun ht => ht
  · intro g encoder hg
    exact hg.of_eq rfl rfl rfl fun ht => ht
  · intro e g hg
    exact hg.react e
  · exact hg

theorem start (moves : Queue Move) (acks : Queue MoveAck) :
    (StepGenerator.start { moves, acks }).1.Coherent := by
  have ho : (StepGenerator.start { moves, acks }).1.status.has .overflow = false :=
    AxisFlags.has_empty .overflow
  apply of_vacant rfl
  · simp [StepGenerator.start]
  · rw [ho]
    simp [StepGenerator.start]
  · exact fun _ => AxisFlags.has_empty .stepperOk

/-- A halted axis has no active move. -/
theorem haltedAt (hg : g.Coherent) (hp : g.phase = .halted)
    (hc : g.status.cancelRequested = false) : g.HaltedAt g.position := by
  have ha : g.active.isSome ≠ true := fun ha => hg.not_halted_of_isSome ha hp
  exact ⟨by simpa using ha, rfl, hp, hc⟩

end Coherent

/-! ## The moves that a tick advances -/

/-- The moves that some actions advance, each as it is before. -/
def advancedBy : List TickAction → StepGenerator → List RunningMove
  | [], _ => []
  | d :: ds, g => (if d = .advance then g.active.toList else []) ++ advancedBy ds (g.perform d)

/-- The moves that a tick advances, each as it is before. -/
def ticked (limit : Bool) (g : StepGenerator) : List RunningMove :=
  advancedBy ((g.sample limit).actions limit) (g.sample limit)

theorem ticks_lt_of_advancedBy {limit : Bool} {ds : List TickAction} (hd : AllDue limit ds g) :
    ∀ a ∈ advancedBy ds g, a.ticks < a.move.duration.toNat := by
  induction ds generalizing g with
  | nil =>
      intro a ha
      exact absurd ha List.not_mem_nil
  | cons d ds ih =>
      intro a ha
      rw [advancedBy, List.mem_append] at ha
      obtain ha | ha := ha
      · split at ha
        · next hadv =>
            subst hadv
            obtain ⟨b, hb, hlt⟩ := hasTicks_iff.mp hd.1
            rw [hb, Option.toList_some, List.mem_singleton] at ha
            exact ha ▸ hlt
        · exact absurd ha List.not_mem_nil
      · exact ih hd.2 a ha

/-- A move is advanced only while it has ticks left, so no count of ticks passes its duration. -/
theorem ticks_lt_of_ticked (limit : Bool) (g : StepGenerator) :
    ∀ a ∈ g.ticked limit, a.ticks < a.move.duration.toNat :=
  ticks_lt_of_advancedBy (allDue_actions limit (g.sample limit))

/-! ## A halted axis waits for a cancel -/

/-- The ticks of a halted axis leave both queues alone. -/
theorem HaltedAt.run_ticks {p : Int} (hg : g.HaltedAt p) {es : List AxisEvent}
    (hes : ∀ e ∈ es, e.isTick = true) :
    (g.run es).moves = g.moves ∧ (g.run es).acks = g.acks := by
  induction es generalizing g with
  | nil => exact ⟨rfl, rfl⟩
  | cons e es ih =>
      cases e with
      | tick limit encoder =>
          have hi : g.step (.tick limit encoder) = g.begun limit := by
            rw [step, interrupt_eq_begun, hg.uncancelled, hg.phase]
            rfl
          have hone : AxisEvent.requestCancel ∉ [AxisEvent.tick limit encoder] := by simp
          have hh : (g.step (.tick limit encoder)).HaltedAt p := (hg.run hone).1
          obtain ⟨hm, ha⟩ := ih hh fun x hx => hes x (List.mem_cons_of_mem _ hx)
          rw [hi] at hm ha
          rw [StepGenerator.run, hi]
          exact ⟨hm, ha⟩
      | _ => exact absurd (hes _ (List.mem_cons_self ..)) (by simp [AxisEvent.isTick])

/-- In every state of a run the position is in range and the status shows it, a move is active just
while the axis is stepping, and the axis is halted just while the overflow flag is up, which it is
only with an untrusted step count. No move has more ticks than its duration, and a halted axis that
nobody cancels does nothing. -/
theorem phase_and_position_agree (moves : Queue Move) (acks : Queue MoveAck)
    (es : List AxisEvent) :
    let g := (start { moves, acks }).1.run es
    (0 ≤ g.position ∧ g.position ≤ topPosition ∧
      (g.status.position.toNat : Int) = floorSteps g.position) ∧
    (g.active.isSome = true ↔ g.phase = .stepping) ∧
    (g.phase = .halted ↔ g.status.has .overflow = true) ∧
    (g.phase = .halted → g.status.has .stepperOk = false) ∧
    (∀ a ∈ g.active, a.ticks ≤ a.move.duration.toNat) ∧
    (∀ limit, ∀ a ∈ g.ticked limit, a.ticks < a.move.duration.toNat) ∧
    ∀ fs : List AxisEvent, g.phase = .halted → g.status.cancelRequested = false →
      .requestCancel ∉ fs →
      g.emitted fs = [] ∧ loads (g.history fs) = [] ∧ AxisNode.acks (g.history fs) = [] ∧
        (g.run fs).position = g.position ∧ (g.run fs).phase = .halted ∧
        ((∀ e ∈ fs, e.isTick = true) →
          (g.run fs).moves = g.moves ∧ (g.run fs).acks = g.acks) := by
  intro g
  have hp : g.Placed := (placed_start { moves, acks }).run es
  have hg : g.Coherent := (Coherent.start moves acks).run es
  refine ⟨⟨hp.nonneg, hp.le_top, hp.toNat_status_position⟩, hg.stepping, hg.halted, hg.untrusted,
    hg.ticks_le, fun limit => ticks_lt_of_ticked limit g, ?_⟩
  intro fs hh hc hfs
  have hat : g.HaltedAt g.position := hg.haltedAt hh hc
  obtain ⟨hrun, hquiet⟩ := hat.run hfs
  refine ⟨?_, ?_, ?_, hrun.position, hrun.phase, fun hticks => hat.run_ticks hticks⟩
  · rw [← calls_history, hquiet]
    rfl
  · rw [hquiet]
    rfl
  · rw [hquiet]
    rfl

/-- A move leaves its range on the second tick, with another one waiting behind it. -/
def overrun : List AxisEvent :=
  [.enqueue ⟨0, 0, 5, -2147483648, 1, ⟨0⟩⟩, .enqueue ⟨0, 1, 5, 2147483648, 0, ⟨0⟩⟩,
    .tick false none, .tick false none]

theorem phase_and_position_agree_of_overrun :
    let g := (start { moves := .empty 2, acks := .empty 2 }).1.run overrun
    let fs : List AxisEvent := [.tick true (some 7), .takeAck, .tick false none]
    g.phase = .halted ∧ g.status.has .stepperOk = false ∧ g.moves.items.length = 1 ∧
      g.emitted fs = [] ∧ loads (g.history fs) = [] ∧ (g.run fs).phase = .halted := by
  intro g fs
  obtain ⟨-, -, -, huntrusted, -, -, hwaits⟩ :=
    phase_and_position_agree (.empty 2) (.empty 2) overrun
  have hh : g.phase = .halted := by decide +kernel
  obtain ⟨hemitted, hloads, -, -, hphase, -⟩ := hwaits fs hh (by decide +kernel) (by decide)
  exact ⟨hh, huntrusted hh, by decide +kernel, hemitted, hloads, hphase⟩

end AxisNode.StepGenerator
