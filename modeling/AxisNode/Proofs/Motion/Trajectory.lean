import AxisNode.Proofs.Motion.Outputs
import Mathlib.Data.Nat.Find
import Mathlib.Tactic.Ring

/-!
# The trajectory of a move

A move that does not look for the switch follows a parabola: its velocity and position after `k`
ticks are given in closed form, and the first tick that would leave the stored velocities or the
range of positions ends it. Here the generator is followed from the tick that loads the move,
through any events but a request to cancel.
-/

namespace AxisNode

open FixedPoint

/-! ## The parabola -/

namespace Move

/-- The velocity on the given tick of a move: one acceleration more for each tick. -/
def velocityAt (m : Move) (k : Nat) : Int := m.velocity + m.acceleration * k

/-- The position on the given tick of a move, the sum of its velocities so far. -/
def positionAt (m : Move) (start : Int) (k : Nat) : Int :=
  start + m.velocity * k + m.acceleration * k * (k + 1) / 2

/-- The velocity of a tick can be stored and its position is in range. -/
def Reaches (m : Move) (start : Int) (k : Nat) : Prop :=
  Fits (m.velocityAt k) ∧ 0 ≤ m.positionAt start k ∧ m.positionAt start k ≤ topPosition

instance (m : Move) (start : Int) (k : Nat) : Decidable (m.Reaches start k) :=
  inferInstanceAs (Decidable (_ ∧ _))

@[simp] theorem velocityAt_zero (m : Move) : m.velocityAt 0 = m.velocity := by
  simp [velocityAt]

@[simp] theorem positionAt_zero (m : Move) (start : Int) : m.positionAt start 0 = start := by
  simp [positionAt]

theorem velocityAt_succ (m : Move) (k : Nat) :
    m.velocityAt (k + 1) = m.velocityAt k + m.acceleration := by
  simp only [velocityAt, Nat.cast_add, Nat.cast_one]
  ring

theorem positionAt_succ (m : Move) (start : Int) (k : Nat) :
    m.positionAt start (k + 1) = m.positionAt start k + m.velocityAt (k + 1) := by
  have ht : m.acceleration * (k + 1) * (k + 1 + 1) =
      m.acceleration * k * (k + 1) + 2 * (m.acceleration * (k + 1)) := by ring
  simp only [positionAt, velocityAt, Nat.cast_add, Nat.cast_one]
  rw [ht, Int.add_mul_ediv_left _ _ (by decide)]
  ring

/-- One of two neighbours is even, so halving the acceleration's part is exact. -/
theorem two_dvd_acceleration (m : Move) (k : Nat) :
    (2 : Int) ∣ m.acceleration * k * (k + 1) := by
  have hk : (2 : Int) ∣ k * (k + 1) := by
    obtain ⟨j, rfl | rfl⟩ : ∃ j, k = 2 * j ∨ k = 2 * j + 1 := ⟨k / 2, by omega⟩
    · exact ⟨j * (2 * j + 1), by push_cast; ring⟩
    · exact ⟨(2 * j + 1) * (j + 1), by push_cast; ring⟩
  rw [mul_assoc]
  exact Dvd.dvd.mul_left hk _

theorem targetFrom_eq (m : Move) (start : Int) :
    m.targetFrom start = fit? (m.positionAt start m.duration.toNat) := by
  have ht := Int.tdiv_eq_ediv_of_dvd (m.two_dvd_acceleration m.duration.toNat)
  simp only [targetFrom, travel, positionAt, ht, add_assoc]

end Move

namespace StepGenerator

variable {g : StepGenerator} {m : Move} {s : Int} {k : Nat}

/-- An advance along the parabola reaches its next point or, if that is out of range, nothing. -/
theorem next?_along (t : Int) :
    next? ⟨m, m.velocityAt k, k, t⟩ (m.positionAt s k) =
      if m.Reaches s (k + 1) then some (m.velocityAt (k + 1), m.positionAt s (k + 1))
      else none := by
  have hv := m.velocityAt_succ k
  have hp := m.positionAt_succ s k
  split
  · next hr =>
      obtain ⟨hf, h0, ht⟩ := hr
      exact next?_eq_some_iff.mpr ⟨hf, hv, hp, h0, ht⟩
  · next hr =>
      cases hn : next? ⟨m, m.velocityAt k, k, t⟩ (m.positionAt s k) with
      | none => rfl
      | some q =>
          obtain ⟨hf, hv', hp', h0, ht⟩ := next?_eq_some_iff.mp (show _ = some (q.1, q.2) from hn)
          dsimp only at hv' hp'
          rw [← hv] at hv'
          rw [hv', ← hp] at hp'
          exact absurd ⟨hv' ▸ hf, hp' ▸ h0, hp' ▸ ht⟩ hr

/-! ## States along the way -/

/-- A move loaded at `s` has had `k` ticks, and nothing asks to cancel it. -/
structure Underway (g : StepGenerator) (m : Move) (s : Int) (k : Nat) : Prop where
  active : g.active = some ⟨m, m.velocityAt k, k, m.positionAt s m.duration.toNat⟩
  position : g.position = m.positionAt s k
  phase : g.phase = .stepping
  uncancelled : g.status.cancelRequested = false
  shown : g.status.position = shownSteps g.position

/-- The axis is halted at a position, and nothing asks it to go on. -/
structure HaltedAt (g : StepGenerator) (p : Int) : Prop where
  active : g.active = none
  position : g.position = p
  phase : g.phase = .halted
  uncancelled : g.status.cancelRequested = false

/-- Nothing but the end of one move was acknowledged. -/
def AckedOnce (m : Move) (p : Int) (reason : AckReason) (h : List AxisNote) : Prop :=
  ∃ a, acks h = [a] ∧ a.group = m.group ∧ a.seq = m.seq ∧ a.position = shownSteps p ∧
    a.reason = reason

theorem AckedOnce.of_acks {p : Int} {reason : AckReason} {h h' : List AxisNote}
    (ha : AckedOnce m p reason h) (he : acks h' = acks h) : AckedOnce m p reason h' := by
  obtain ⟨a, hl, hrest⟩ := ha
  exact ⟨a, he.trans hl, hrest⟩

theorem Underway.of_eq {h : StepGenerator} (hu : g.Underway m s k) (ha : h.active = g.active)
    (hp : h.position = g.position) (hph : h.phase = g.phase)
    (hc : h.status.cancelRequested = g.status.cancelRequested)
    (hs : h.status.position = g.status.position) : h.Underway m s k :=
  ⟨ha ▸ hu.active, hp ▸ hu.position, hph ▸ hu.phase, hc ▸ hu.uncancelled, by
    rw [hs, hp]; exact hu.shown⟩

theorem HaltedAt.of_eq {h : StepGenerator} {p : Int} (hg : g.HaltedAt p)
    (ha : h.active = g.active) (hp : h.position = g.position) (hph : h.phase = g.phase)
    (hc : h.status.cancelRequested = g.status.cancelRequested) : h.HaltedAt p :=
  ⟨ha ▸ hg.active, hp ▸ hg.position, hph ▸ hg.phase, hc ▸ hg.uncancelled⟩

theorem Underway.react {e : AxisEvent} (hu : g.Underway m s k) (he : e ≠ .requestCancel) :
    (g.react e).Underway m s k :=
  hu.of_eq (active_react e g) (position_react e g) (phase_react e g)
    (status_cancelRequested_react e g he) (status_position_react e g)

theorem HaltedAt.react {e : AxisEvent} {p : Int} (hg : g.HaltedAt p) (he : e ≠ .requestCancel) :
    (g.react e).HaltedAt p :=
  hg.of_eq (active_react e g) (position_react e g) (phase_react e g)
    (status_cancelRequested_react e g he)

/-- Halting leaves the axis where it is and acknowledges the active move there. -/
theorem haltedAt_halt {a : RunningMove} (ha : g.active = some a)
    (hc : g.status.cancelRequested = false) (hs : g.status.position = shownSteps g.position) :
    g.halt.HaltedAt g.position ∧ AckedOnce a.move g.position .positionError g.haltNotes := by
  have hn : acks g.haltNotes = [g.halting.status.ack a.move .positionError] := by
    simp [haltNotes, ha]
  refine ⟨?_, _, hn, rfl, rfl, hs, rfl⟩
  rw [halt_eq_of_active ha]
  exact ⟨active_offer _ _, position_offer _ _, phase_offer _ _,
    (status_cancelRequested_offer _ _).trans hc⟩

theorem Underway.advance (hu : g.Underway m s k) (hr : m.Reaches s (k + 1)) :
    g.advance.1.Underway m s (k + 1) ∧ acks g.advanceNotes = [] := by
  have hn := next?_along (m := m) (s := s) (k := k) (m.positionAt s m.duration.toNat)
  rw [if_pos hr, ← hu.position] at hn
  rw [advance_of_next hu.active hn, advanceNotes_of_next hu.active hn]
  refine ⟨⟨rfl, rfl, hu.phase, hu.uncancelled, rfl⟩, ?_⟩
  split <;> rfl

theorem Underway.advance_stuck (hu : g.Underway m s k) (hr : ¬m.Reaches s (k + 1)) :
    g.advance.1.HaltedAt (m.positionAt s k) ∧
      AckedOnce m (m.positionAt s k) .positionError g.advanceNotes := by
  have hn := next?_along (m := m) (s := s) (k := k) (m.positionAt s m.duration.toNat)
  rw [if_neg hr, ← hu.position] at hn
  rw [advance_of_stuck hu.active hn, advanceNotes_of_stuck hu.active hn, ← hu.position]
  exact haltedAt_halt hu.active hu.uncancelled hu.shown

/-! ## Ticks along the way -/

theorem Underway.not_isHoming (hu : g.Underway m s k) (hm : m.homes = false) :
    g.isHoming = false := by
  simp [isHoming, hu.active, hm]

theorem Underway.hasTicks (hu : g.Underway m s k) :
    g.hasTicks = decide (k < m.duration.toNat) := by
  simp [StepGenerator.hasTicks, hu.active]

/-- While ticks are left, a tick does nothing but advance the move. -/
theorem Underway.actions (hu : g.Underway m s k) (hm : m.homes = false)
    (hk : k < m.duration.toNat) (limit : Bool) : g.actions limit = [.advance] := by
  simp [StepGenerator.actions, actActions, hu.uncancelled, hu.phase, hu.active,
    hu.not_isHoming hm, hu.hasTicks, hk]

theorem Underway.actions_spent (hu : g.Underway m s k) (hm : m.homes = false)
    (hk : k = m.duration.toNat) (limit : Bool) : g.actions limit = g.changeOverActions := by
  simp [StepGenerator.actions, actActions, hu.uncancelled, hu.phase, hu.active,
    hu.not_isHoming hm, hu.hasTicks, hk]

theorem Underway.readsEncoder (hu : g.Underway m s k) : g.readsEncoder = true := by
  simp [StepGenerator.readsEncoder, hu.uncancelled, hu.phase]

/-- A tick with ticks left is an advance between sampling the switch and reading the encoder. -/
theorem Underway.tick_eq (hu : g.Underway m s k) (hm : m.homes = false)
    (hk : k < m.duration.toNat) (limit : Bool) (encoder : Option Int32) :
    (g.interrupt limit encoder).1 = (g.sample limit).advance.1.readEncoder encoder ∧
      g.tickNotes limit = (g.sample limit).advanceNotes := by
  have hs : (g.sample limit).Underway m s k := hu.of_eq rfl rfl rfl rfl rfl
  have ha := hs.actions hm hk limit
  constructor
  · rw [interrupt_eq, ha, hu.readsEncoder]
    rfl
  · rw [tickNotes, ha]
    exact List.append_nil _

theorem Underway.tick (hu : g.Underway m s k) (hm : m.homes = false)
    (hk : k < m.duration.toNat) (hr : m.Reaches s (k + 1)) (limit : Bool)
    (encoder : Option Int32) :
    (g.interrupt limit encoder).1.Underway m s (k + 1) ∧ acks (g.tickNotes limit) = [] ∧
      loads (g.tickNotes limit) = [] := by
  have hs : (g.sample limit).Underway m s k := hu.of_eq rfl rfl rfl rfl rfl
  obtain ⟨hi, hn⟩ := hu.tick_eq hm hk limit encoder
  obtain ⟨ha, hacks⟩ := hs.advance hr
  rw [hi, hn]
  exact ⟨ha.of_eq rfl rfl rfl rfl rfl, hacks, loads_advanceNotes _⟩

theorem Underway.tick_stuck (hu : g.Underway m s k) (hm : m.homes = false)
    (hk : k < m.duration.toNat) (hr : ¬m.Reaches s (k + 1)) (limit : Bool)
    (encoder : Option Int32) :
    (g.interrupt limit encoder).1.HaltedAt (m.positionAt s k) ∧
      AckedOnce m (m.positionAt s k) .positionError (g.tickNotes limit) ∧
      loads (g.tickNotes limit) = [] := by
  have hs : (g.sample limit).Underway m s k := hu.of_eq rfl rfl rfl rfl rfl
  obtain ⟨hi, hn⟩ := hu.tick_eq hm hk limit encoder
  obtain ⟨ha, hacks⟩ := hs.advance_stuck hr
  rw [hi, hn]
  exact ⟨ha.of_eq rfl rfl rfl rfl, hacks, loads_advanceNotes _⟩

/-- Either the next move was loaded, or nothing was acknowledged and no move is active. -/
def Vacates (h : List AxisNote) (active : Option RunningMove) : Prop :=
  (∃ m rest, h = .loaded m :: rest) ∨ acks h = [] ∧ loads h = [] ∧ active = none

theorem loadNotes_of_hasMoves (h : g.hasMoves = true) :
    ∃ m rest, g.loadNotes = .loaded m :: rest := by
  cases hq : g.moves.pop? with
  | none => simp [hasMoves, Queue.isEmpty, Queue.pop?_eq_none_iff.mp hq] at h
  | some p => exact ⟨p.1, _, loadNotes_of_some hq⟩

theorem active_interrupt (limit : Bool) (encoder : Option Int32) (g : StepGenerator) :
    (g.interrupt limit encoder).1.active =
      (performAll ((g.sample limit).actions limit) (g.sample limit)).active := by
  rw [interrupt_eq]
  dsimp only
  split <;> rfl

/-- Without an active move a tick acknowledges nothing before it loads one. -/
theorem vacates_tick (ha : g.active = none) (limit : Bool) (encoder : Option Int32) :
    Vacates (g.tickNotes limit) (g.interrupt limit encoder).1.active := by
  have hs : (g.sample limit).active = none := ha
  simp only [Vacates, tickNotes, active_interrupt]
  by_cases hc : (g.sample limit).status.cancelRequested
  · exact .inr (by simp [actions, hc, notesAll, notes, performAll, perform, cancel])
  by_cases hh : (g.sample limit).phase = .halted
  · exact .inr (by simp [actions, hc, hh, notesAll, performAll, hs])
  by_cases hm : (g.sample limit).hasMoves
  · obtain ⟨m, rest, hl⟩ := loadNotes_of_hasMoves hm
    exact .inl ⟨m, rest, by simp [actions, actActions, hc, hh, hs, hm, notesAll, notes, hl]⟩
  · refine .inr ?_
    by_cases hp : (g.sample limit).phase = .moveComplete <;>
      simp [actions, actActions, hc, hs, hm, hp, notesAll, notes, performAll, perform]

/-- With its ticks spent the move is acknowledged first, and then the next one may be loaded. -/
theorem Underway.tick_spent (hu : g.Underway m s k) (hm : m.homes = false)
    (hk : k = m.duration.toNat) (limit : Bool) (encoder : Option Int32) :
    ∃ a rest, g.tickNotes limit = .acked a :: rest ∧ a.group = m.group ∧ a.seq = m.seq ∧
      a.position = shownSteps (m.positionAt s k) ∧ a.reason = .completeWithoutCondition ∧
      Vacates rest (g.interrupt limit encoder).1.active := by
  have hs : (g.sample limit).Underway m s k := hu.of_eq rfl rfl rfl rfl rfl
  have ha := hs.actions_spent hm hk limit
  generalize hg : g.sample limit = h at hs ha
  have hn : h.finishNotes .completeWithoutCondition =
      [.acked (h.status.ack m .completeWithoutCondition)] := by
    simp [finishNotes, hs.active]
  have hp : (h.status.ack m .completeWithoutCondition).position =
      shownSteps (m.positionAt s k) := hs.shown.trans (congrArg shownSteps hs.position)
  have hr : (h.finish .completeWithoutCondition).active = none := by
    rw [finish_eq_of_active hs.active]
    exact active_offer _ _
  rw [tickNotes, active_interrupt, hg, ha, changeOverActions, hs.not_isHoming hm]
  simp only [Bool.false_eq_true, if_false, notesAll, notes, hn, performAll, perform,
    List.singleton_append]
  refine ⟨_, _, rfl, rfl, rfl, hp, rfl, ?_⟩
  by_cases hq : (h.finish .completeWithoutCondition).hasMoves
  · obtain ⟨m', rest, hl⟩ := loadNotes_of_hasMoves hq
    exact .inl ⟨m', _, by simp only [hq, if_true, notesAll, notes, hl]; rfl⟩
  · exact .inr (by simp [hq, notesAll, performAll, hr])

/-! ## Runs along the way -/

/-- The notes before the next move is loaded. -/
def beforeLoad (h : List AxisNote) : List AxisNote := h.takeWhile fun n => n.load?.isNone

/-- The notes from the first load to the next one. -/
def ofFirstLoad (h : List AxisNote) : List AxisNote :=
  beforeLoad (h.dropWhile fun n => n.load?.isNone).tail

/-- How many of the events are ticks. -/
def ticks (es : List AxisEvent) : Nat := es.countP AxisEvent.isTick

@[simp] theorem ticks_tick (limit : Bool) (encoder : Option Int32) (es : List AxisEvent) :
    ticks (.tick limit encoder :: es) = ticks es + 1 := List.countP_cons_of_pos rfl

/-- Every tick of a run but the first `n` has one before it that is the `n`th. -/
theorem exists_tick {n : Nat} {es : List AxisEvent} (h : n < ticks es) :
    ∃ fs limit encoder rest, es = fs ++ .tick limit encoder :: rest ∧ ticks fs = n := by
  induction es generalizing n with
  | nil => exact absurd h (Nat.not_lt_zero n)
  | cons e es ih =>
      cases e with
      | tick limit encoder =>
          cases n with
          | zero => exact ⟨[], limit, encoder, es, rfl, rfl⟩
          | succ n =>
              rw [ticks_tick] at h
              obtain ⟨fs, limit', encoder', rest, rfl, hfs⟩ := ih (Nat.lt_of_succ_lt_succ h)
              exact ⟨.tick limit encoder :: fs, limit', encoder', rest, rfl, by
                rw [ticks_tick, hfs]⟩
      | _ =>
          obtain ⟨fs, limit, encoder, rest, rfl, hfs⟩ := ih h
          exact ⟨_ :: fs, limit, encoder, rest, rfl, hfs⟩

theorem isNone_load?_of_loads {h : List AxisNote} (hl : loads h = []) :
    ∀ n ∈ h, n.load?.isNone = true := by
  intro n hn
  exact Option.isNone_iff_eq_none.mpr (List.filterMap_eq_nil_iff.mp hl n hn)

theorem beforeLoad_append {h : List AxisNote} (hl : loads h = []) (k : List AxisNote) :
    beforeLoad (h ++ k) = h ++ beforeLoad k :=
  List.takeWhile_append_of_pos (isNone_load?_of_loads hl)

@[simp] theorem beforeLoad_loaded (m : Move) (h : List AxisNote) :
    beforeLoad (.loaded m :: h) = [] := rfl

theorem ofFirstLoad_append {h : List AxisNote} (hl : loads h = []) (m : Move)
    (k : List AxisNote) : ofFirstLoad (h ++ .loaded m :: k) = beforeLoad k := by
  rw [ofFirstLoad, List.dropWhile_append_of_pos (isNone_load?_of_loads hl)]
  rfl

theorem acks_beforeLoad_append {h : List AxisNote} (hacks : acks h = []) (hl : loads h = [])
    (k : List AxisNote) : acks (beforeLoad (h ++ k)) = acks (beforeLoad k) := by
  rw [beforeLoad_append hl, acks_append, hacks]
  rfl

theorem acks_beforeLoad_vacant (es : List AxisEvent) (ha : g.active = none) :
    acks (beforeLoad (g.history es)) = [] := by
  induction es generalizing g with
  | nil => rfl
  | cons e es ih =>
      cases e with
      | tick limit encoder =>
          obtain ⟨m, rest, hl⟩ | ⟨hacks, hl, hn⟩ := vacates_tick ha limit encoder
          · simp only [history, eventNotes, hl, List.cons_append, beforeLoad_loaded, acks_nil]
          · exact (acks_beforeLoad_append hacks hl _).trans (ih hn)
      | _ => exact ih ((active_react _ g).trans ha)

theorem Vacates.acks_beforeLoad {h : List AxisNote} (hv : Vacates h g.active)
    (es : List AxisEvent) : acks (beforeLoad (h ++ g.history es)) = [] := by
  obtain ⟨m, rest, rfl⟩ | ⟨hacks, hl, ha⟩ := hv
  · rfl
  · rw [beforeLoad_append hl, acks_append, hacks, acks_beforeLoad_vacant es ha]
    rfl

theorem HaltedAt.run {p : Int} (hg : g.HaltedAt p) {es : List AxisEvent}
    (hes : .requestCancel ∉ es) : (g.run es).HaltedAt p ∧ g.history es = [] := by
  induction es generalizing g with
  | nil => exact ⟨hg, rfl⟩
  | cons e es ih =>
      have he : e ≠ .requestCancel := fun h => hes (h ▸ List.mem_cons_self ..)
      have hes' : .requestCancel ∉ es := fun h => hes (List.mem_cons_of_mem _ h)
      cases e with
      | tick limit encoder =>
          have hs : (g.sample limit).HaltedAt p := hg.of_eq rfl rfl rfl rfl
          have ha : (g.sample limit).actions limit = [] := by
            simp [StepGenerator.actions, hs.uncancelled, hs.phase]
          have hi : (g.interrupt limit encoder).1.HaltedAt p := by
            rw [interrupt_eq, ha]
            exact hs.of_eq (by split <;> rfl) (by split <;> rfl) (by split <;> rfl)
              (by split <;> rfl)
          obtain ⟨hr, hh⟩ := ih hi hes'
          exact ⟨hr, by rw [history, eventNotes, tickNotes, ha, step, hh]; rfl⟩
      | _ => exact ih (hg.react he) hes'

/-- As long as its ticks are in range and not spent, a move has them one after another. -/
theorem Underway.run (hu : g.Underway m s k) (hm : m.homes = false) {es : List AxisEvent}
    (hes : .requestCancel ∉ es) (hk : k + ticks es ≤ m.duration.toNat)
    (hr : ∀ j, k < j → j ≤ k + ticks es → m.Reaches s j) :
    (g.run es).Underway m s (k + ticks es) ∧ acks (g.history es) = [] ∧
      loads (g.history es) = [] := by
  induction es generalizing g k with
  | nil => exact ⟨hu, rfl, rfl⟩
  | cons e es ih =>
      have he : e ≠ .requestCancel := fun h => hes (h ▸ List.mem_cons_self ..)
      have hes' : .requestCancel ∉ es := fun h => hes (List.mem_cons_of_mem _ h)
      cases e with
      | tick limit encoder =>
          have ht : k + ticks (.tick limit encoder :: es) = k + 1 + ticks es := by
            rw [ticks_tick]
            omega
          rw [ht] at hk hr ⊢
          obtain ⟨hu', hacks, hl⟩ :=
            hu.tick hm (by omega) (hr (k + 1) (by omega) (by omega)) limit encoder
          obtain ⟨hrun, hacks', hl'⟩ := ih hu' hes' hk fun j hj => hr j (by omega)
          refine ⟨hrun, ?_, ?_⟩
          · rw [history, eventNotes, acks_append, hacks]
            exact hacks'
          · rw [history, eventNotes, loads_append, hl]
            exact hl'
      | _ => exact ih (hu.react he) hes' hk hr

/-- Before a move has ended nothing is acknowledged. -/
theorem Underway.run_quiet (hu : g.Underway m s k) (hm : m.homes = false) {es : List AxisEvent}
    (hes : .requestCancel ∉ es) (hk : k + ticks es ≤ m.duration.toNat)
    (hr : ∀ j, k < j → j ≤ k + ticks es → m.Reaches s j) :
    (g.run es).Underway m s (k + ticks es) ∧ acks (beforeLoad (g.history es)) = [] := by
  obtain ⟨hrun, hacks, hl⟩ := hu.run hm hes hk hr
  have hquiet := acks_beforeLoad_append hacks hl []
  rw [List.append_nil] at hquiet
  exact ⟨hrun, hquiet⟩

/-- A move all of whose ticks are in range is acknowledged once they are spent. -/
theorem Underway.run_completes (hu : g.Underway m s k) (hm : m.homes = false)
    (hk : k ≤ m.duration.toNat) (hr : ∀ j, k < j → j ≤ m.duration.toNat → m.Reaches s j)
    {es : List AxisEvent} (hes : .requestCancel ∉ es) (hd : m.duration.toNat < k + ticks es) :
    AckedOnce m (m.positionAt s m.duration.toNat) .completeWithoutCondition
      (beforeLoad (g.history es)) := by
  have hlast : m.duration.toNat - k < ticks es := by omega
  obtain ⟨fs, limit, encoder, es, rfl, ht⟩ := exists_tick hlast
  have hfs : .requestCancel ∉ fs := fun h => hes (List.mem_append_left _ h)
  obtain ⟨hrun, hacks, hl⟩ := hu.run hm hfs (by omega) fun j hj _ => hr j hj (by omega)
  have hspent : k + ticks fs = m.duration.toNat := by omega
  obtain ⟨a, rest, hn, hgroup, hseq, hpos, hreason, hv⟩ :=
    hrun.tick_spent hm hspent limit encoder
  refine ⟨a, ?_, hgroup, hseq, hspent ▸ hpos, hreason⟩
  rw [history_append, acks_beforeLoad_append hacks hl, history, eventNotes, hn, List.cons_append]
  exact congrArg (a :: ·) (hv.acks_beforeLoad es)

/-- A move is ended by its first tick that is out of range, and the axis stays where it was. -/
theorem Underway.run_fails {j : Nat} (hu : g.Underway m s k) (hm : m.homes = false) (hk : k < j)
    (hj : j ≤ m.duration.toNat) (hr : ∀ i, k < i → i < j → m.Reaches s i)
    (hn : ¬m.Reaches s j) {es : List AxisEvent} (hes : .requestCancel ∉ es)
    (hd : j ≤ k + ticks es) :
    (g.run es).HaltedAt (m.positionAt s (j - 1)) ∧
      AckedOnce m (m.positionAt s (j - 1)) .positionError (beforeLoad (g.history es)) := by
  have hbefore : j - 1 - k < ticks es := by omega
  obtain ⟨fs, limit, encoder, es, rfl, ht⟩ := exists_tick hbefore
  have hfs : .requestCancel ∉ fs := fun h => hes (List.mem_append_left _ h)
  have hes' : .requestCancel ∉ es :=
    fun h => hes (List.mem_append_right _ (List.mem_cons_of_mem _ h))
  obtain ⟨hrun, hacks, hl⟩ := hu.run hm hfs (by omega) fun i hi _ => hr i hi (by omega)
  have hlast : k + ticks fs = j - 1 := by omega
  rw [hlast] at hrun
  have hnext : ¬m.Reaches s (j - 1 + 1) := by rwa [Nat.sub_add_cancel (by omega)]
  obtain ⟨hh, hacked, hl'⟩ := hrun.tick_stuck hm (by omega) hnext limit encoder
  obtain ⟨hhalted, hquiet⟩ := hh.run hes'
  rw [run_append]
  refine ⟨hhalted, hacked.of_acks ?_⟩
  rw [history_append, acks_beforeLoad_append hacks hl, history, eventNotes, beforeLoad_append hl',
    step, hquiet]
  exact congrArg acks (List.append_nil _)

/-! ## The tick that loads a move -/

theorem fits_of_range {p : Int} (h0 : 0 ≤ p) (ht : p ≤ topPosition) : Fits p := by
  simp only [Fits, topPosition, stepUnit] at ht ⊢
  omega

theorem sample_eq_self {limit : Bool} (h : g.status.limitSwitch = limit) : g.sample limit = g := by
  subst h
  rfl

/-- A tick comes to load `m` in state `x`, when it has done `ds` and nothing but that. -/
structure Loading (g : StepGenerator) (limit : Bool) (m : Move) (ds : List TickAction)
    (x : StepGenerator) : Prop where
  before : performAll ds g = x
  actions : g.actActions limit =
    ds ++ .load :: (if g.active.isSome && x.load.hasTicks then [.advance] else [])
  quiet : loads (notesAll ds g) = []
  next : ∃ moves, x.moves.pop? = some (m, moves)
  position : x.position = g.position
  shown : x.status.position = g.status.position
  limitSwitch : x.status.limitSwitch = g.status.limitSwitch
  cancelRequested : x.status.cancelRequested = g.status.cancelRequested

theorem exists_pop?_of_loads (h : m ∈ loads g.loadNotes) :
    ∃ moves, g.moves.pop? = some (m, moves) := by
  simpa using h

/-- Without an active move the oldest one that waits is loaded at once. -/
theorem loading_of_idle {limit : Bool} (ha : g.active = none)
    (hl : m ∈ loads (notesAll (g.actActions limit) g)) : g.Loading limit m [] g := by
  have hm : g.hasMoves = true := by
    by_contra hm
    by_cases hp : g.phase = .moveComplete <;>
      simp [actActions, ha, hm, hp, notesAll, notes] at hl
  have hact : g.actActions limit = [.load] := by simp [actActions, ha, hm]
  rw [hact] at hl
  constructor
  · rfl
  · simp [hact, ha]
  · rfl
  · exact exists_pop?_of_loads (by simpa [notesAll, notes] using hl)
  · rfl
  · rfl
  · rfl
  · rfl

/-- An active move whose ticks are spent is retired first. -/
theorem loading_of_changeOver {a : RunningMove} {limit : Bool} (ha : g.active = some a)
    (hl : m ∈ loads (notesAll (g.actActions limit) g)) :
    ∃ reason, g.Loading limit m [.finish reason] (g.finish reason) := by
  have hz : ¬(g.isHoming && limit) = true := by
    intro hz
    simp [actActions, ha, hz, notesAll, notes] at hl
  have ht : ¬g.hasTicks = true := by
    intro ht
    simp [actActions, ha, hz, ht, notesAll, notes] at hl
  have hact : g.actActions limit = g.changeOverActions := by simp [actActions, ha, hz, ht]
  rw [hact, changeOverActions] at hl
  generalize hreason : (if g.isHoming then AckReason.timeout else .completeWithoutCondition) =
    reason at hl
  have hm : (g.finish reason).hasMoves = true := by
    by_contra hm
    simp [hm, notesAll, notes] at hl
  have hload : m ∈ loads (g.finish reason).loadNotes := by
    by_cases hx : (g.finish reason).load.hasTicks <;>
      simpa [hm, hx, notesAll, notes, perform, performAll] using hl
  have hf : g.finish reason = _ := finish_eq_of_active ha
  refine ⟨reason, rfl, ?_, ?_, exists_pop?_of_loads hload, ?_, ?_, ?_, ?_⟩
  · rw [hact, changeOverActions, hreason]
    simp [hm, ha]
  · simp [notesAll, notes]
  · rw [hf, position_offer]
    rfl
  · rw [hf, status_position_offer]
    rfl
  · rw [hf, status_limitSwitch_offer]
    rfl
  · rw [hf, status_cancelRequested_offer]
    rfl

/-- A tick that loads a move was not asked to cancel, and the axis was not halted. -/
theorem exists_loading {limit : Bool} (hl : m ∈ loads (g.tickNotes limit)) :
    ∃ ds x, (g.sample limit).Loading limit m ds x ∧ g.status.cancelRequested = false ∧
      g.phase ≠ .halted := by
  have hc : g.status.cancelRequested = false := by
    by_contra hc
    have hcs : (g.sample limit).status.cancelRequested = true := Bool.not_eq_false _ ▸ hc
    simp [tickNotes, actions, hcs, notesAll, notes] at hl
  have hcs : (g.sample limit).status.cancelRequested = false := hc
  have hh : g.phase ≠ .halted := by
    intro hh
    have hhs : (g.sample limit).phase = .halted := hh
    simp [tickNotes, actions, hcs, hhs, notesAll] at hl
  have hhs : (g.sample limit).phase ≠ .halted := hh
  have hact : (g.sample limit).actions limit = (g.sample limit).actActions limit := by
    simp [actions, hcs, hhs]
  rw [tickNotes, hact] at hl
  cases ha : (g.sample limit).active with
  | none => exact ⟨[], _, loading_of_idle ha hl, hc, hh⟩
  | some a =>
      obtain ⟨reason, hload⟩ := loading_of_changeOver ha hl
      exact ⟨_, _, hload, hc, hh⟩

theorem mount_eq (hm : m.homes = false) (moves : Queue Move) :
    g.mount m moves = { g with moves, active := some { move := m, velocity := m.velocity } } := by
  simp [mount, hm]

theorem underway_load {moves : Queue Move} (hq : g.moves.pop? = some (m, moves))
    (hm : m.homes = false) (hc : g.status.cancelRequested = false)
    (hs : g.status.position = shownSteps g.position)
    (hf : Fits (m.positionAt g.position m.duration.toNat)) :
    g.load.Underway m g.position 0 ∧ g.loadNotes = [.loaded m] ∧
      g.load.status = g.status := by
  have ht : m.targetFrom (g.mount m moves).position =
      some (m.positionAt g.position m.duration.toNat) := by
    rw [mount_eq hm, Move.targetFrom_eq]
    exact fit?_eq_some_iff.mpr ⟨hf, rfl⟩
  have hn : g.loadNotes = [.loaded m] := by
    simp [loadNotes_of_some hq, hm, ht]
  rw [load_eq_of_some hq, ht, mount_eq hm]
  exact ⟨⟨by simp, by simp, rfl, hc, hs⟩, hn, rfl⟩

theorem haltedAt_load {moves : Queue Move} (hq : g.moves.pop? = some (m, moves))
    (hm : m.homes = false) (hc : g.status.cancelRequested = false)
    (hs : g.status.position = shownSteps g.position)
    (hf : ¬Fits (m.positionAt g.position m.duration.toNat)) :
    g.load.HaltedAt g.position ∧ ∃ rest, g.loadNotes = .loaded m :: rest ∧ loads rest = [] ∧
      AckedOnce m g.position .positionError rest := by
  have ht : m.targetFrom (g.mount m moves).position = none := by
    rw [mount_eq hm, Move.targetFrom_eq]
    exact fit?_eq_none_iff.mpr hf
  rw [load_eq_of_some hq, loadNotes_of_some hq, ht, mount_eq hm]
  obtain ⟨hh, ha⟩ := haltedAt_halt (g := { g with
    moves, active := some { move := m, velocity := m.velocity } }) rfl hc hs
  exact ⟨hh, _, by simp [hm], loads_haltNotes _, ha⟩

/-- The ticks that a move has in the tick that loads it: one if it takes over from another move. -/
def firstTicks (g : StepGenerator) (m : Move) : Nat :=
  if g.active.isSome then min 1 m.duration.toNat else 0

theorem Loading.interrupt {ds : List TickAction} {x : StepGenerator} {limit : Bool}
    (h : (g.sample limit).Loading limit m ds x) (hc : g.status.cancelRequested = false)
    (hh : g.phase ≠ .halted) (encoder : Option Int32) :
    let rest := if g.active.isSome && x.load.hasTicks then [TickAction.advance] else []
    (g.interrupt limit encoder).1 = (performAll rest x.load).readEncoder encoder ∧
      g.tickNotes limit =
        notesAll ds (g.sample limit) ++ (x.loadNotes ++ notesAll rest x.load) := by
  intro rest
  have hcs : (g.sample limit).status.cancelRequested = false := hc
  have hhs : (g.sample limit).phase ≠ .halted := hh
  have hr : g.readsEncoder = true := by simp [readsEncoder, hc, hh]
  have ha : (g.sample limit).actions limit = ds ++ .load :: rest := by
    rw [StepGenerator.actions, hcs, if_neg Bool.false_ne_true, if_neg hhs]
    exact h.actions
  constructor
  · rw [interrupt_eq, ha, performAll_append, h.before, hr]
    rfl
  · rw [tickNotes, ha, notesAll_append, h.before]
    rfl

/-- Once loaded, a move whose end can be stored is at the start of its way. -/
theorem exists_underway {limit : Bool} (hg : g.Placed) (hm : m.homes = false)
    (hl : m ∈ loads (g.tickNotes limit)) (hf : Fits (m.positionAt g.position m.duration.toNat))
    (encoder : Option Int32) {es : List AxisEvent} (hes : .requestCancel ∉ es) :
    ∃ (y : StepGenerator) (fs : List AxisEvent), y.Underway m g.position 0 ∧
      g.run (.tick limit encoder :: es) = y.run fs ∧
      ofFirstLoad (g.history (.tick limit encoder :: es)) = beforeLoad (y.history fs) ∧
      .requestCancel ∉ fs ∧ ticks fs = g.firstTicks m + ticks es := by
  obtain ⟨ds, x, hload, hc, hh⟩ := exists_loading hl
  obtain ⟨moves, hq⟩ := hload.next
  have hp : x.position = g.position := hload.position
  have hshown : x.status.position = shownSteps x.position := by
    rw [hload.shown, hp]
    exact hg.shown
  obtain ⟨hu, hn, hstatus⟩ :=
    underway_load hq hm (hload.cancelRequested.trans hc) hshown (hp ▸ hf)
  obtain ⟨hi, hnotes⟩ := hload.interrupt hc hh encoder
  rw [hp] at hu
  rw [hn] at hnotes
  have hown : ∀ rest, ofFirstLoad (g.tickNotes limit ++ rest) =
      beforeLoad (notesAll (if g.active.isSome && x.load.hasTicks then [.advance] else []) x.load ++
        rest) := by
    intro rest
    rw [hnotes, List.append_assoc]
    exact ofFirstLoad_append hload.quiet m _
  by_cases hgo : (g.active.isSome && x.load.hasTicks) = true
  · -- the loaded generator gets its first tick from this very tick
    rw [if_pos hgo] at hi hown
    obtain ⟨hsome, hticks⟩ := Bool.and_eq_true_iff.mp hgo
    have hd : 0 < m.duration.toNat := by simpa [hu.hasTicks] using hticks
    have hsample : x.load.sample limit = x.load := sample_eq_self (hstatus ▸ hload.limitSwitch)
    obtain ⟨hyi, hyn⟩ := hu.tick_eq hm hd limit encoder
    rw [hsample] at hyi hyn
    have hstep : g.step (.tick limit encoder) = x.load.step (.tick limit encoder) :=
      hi.trans hyi.symm
    refine ⟨x.load, .tick limit encoder :: es, hu, congrArg (·.run es) hstep, ?_, ?_, ?_⟩
    · rw [history, history, hstep, eventNotes, hown, eventNotes, hyn]
      exact congrArg (fun h => beforeLoad (h ++ _)) (List.append_nil _)
    · simpa using hes
    · rw [firstTicks, if_pos hsome, ticks, List.countP_cons_of_pos rfl, ← ticks]
      omega
  · rw [if_neg hgo] at hi hown
    have hfirst : g.firstTicks m = 0 := by
      rw [hu.hasTicks] at hgo
      cases hsome : g.active.isSome with
      | false => simp [firstTicks, hsome]
      | true =>
          simp only [hsome, Bool.true_and, decide_eq_true_eq] at hgo
          simp only [firstTicks, hsome, if_true]
          omega
    refine ⟨x.load.readEncoder encoder, es, hu.of_eq rfl rfl rfl rfl rfl,
      congrArg (·.run es) hi, ?_, hes, by rw [hfirst, Nat.zero_add]⟩
    rw [history, eventNotes, hown, step, hi]
    rfl

/-- A move whose end cannot be stored halts the axis as it is loaded. -/
theorem haltedAt_of_load {limit : Bool} (hg : g.Placed) (hm : m.homes = false)
    (hl : m ∈ loads (g.tickNotes limit)) (hf : ¬Fits (m.positionAt g.position m.duration.toNat))
    (encoder : Option Int32) {es : List AxisEvent} (hes : .requestCancel ∉ es) :
    (g.run (.tick limit encoder :: es)).HaltedAt g.position ∧
      AckedOnce m g.position .positionError
        (ofFirstLoad (g.history (.tick limit encoder :: es))) := by
  obtain ⟨ds, x, hload, hc, hphase⟩ := exists_loading hl
  obtain ⟨moves, hq⟩ := hload.next
  have hp : x.position = g.position := hload.position
  have hshown : x.status.position = shownSteps x.position := by
    rw [hload.shown, hp]
    exact hg.shown
  obtain ⟨hh, rest, hn, hrest, hacked⟩ :=
    haltedAt_load hq hm (hload.cancelRequested.trans hc) hshown (hp ▸ hf)
  obtain ⟨hi, hnotes⟩ := hload.interrupt hc hphase encoder
  have hticks : x.load.hasTicks = false := by simp [hasTicks, hh.active]
  rw [hp] at hh hacked
  rw [hticks, Bool.and_false] at hi hnotes
  have hstep : (g.step (.tick limit encoder)).HaltedAt g.position := by
    rw [step, hi]
    exact hh.of_eq rfl rfl rfl rfl
  obtain ⟨hrun, hquiet⟩ := hstep.run hes
  refine ⟨hrun, hacked.of_acks ?_⟩
  rw [history, eventNotes, hnotes, hn, hquiet, List.append_assoc, List.cons_append,
    List.cons_append, ofFirstLoad_append hload.quiet, List.append_assoc, beforeLoad_append hrest]
  simp [notesAll, beforeLoad]

/-- From any position a move that does not look for the switch follows its parabola tick by tick.
If every tick is in range it is acknowledged as complete at its end; otherwise it is acknowledged as
a position error and the axis halts, at once if the end cannot be stored and else at the last point
before the first tick that is out of range. The acknowledgements in the history are those that were
offered to the queue, and the queue has got those that found room. -/
theorem move_follows_trajectory (limit : Bool) (encoder : Option Int32) (es : List AxisEvent)
    (hg : g.Placed) (hm : m.homes = false) (hl : m ∈ loads (g.tickNotes limit))
    (hes : .requestCancel ∉ es) :
    let s := g.position
    let d := m.duration.toNat
    let k := g.firstTicks m + ticks es
    let loading := .tick limit encoder :: es
    let h := g.run loading
    let own := ofFirstLoad (g.history loading)
    ((∀ j, 1 ≤ j → j ≤ d → m.Reaches s j) →
      (k ≤ d → h.Underway m s k ∧ acks own = []) ∧
      (d < k → AckedOnce m (m.positionAt s d) .completeWithoutCondition own)) ∧
    ((¬∀ j, 1 ≤ j → j ≤ d → m.Reaches s j) →
      (¬Fits (m.positionAt s d) → h.HaltedAt s ∧ AckedOnce m s .positionError own) ∧
      (Fits (m.positionAt s d) →
        ∃ j, 1 ≤ j ∧ j ≤ d ∧ ¬m.Reaches s j ∧ (∀ i, 1 ≤ i → i < j → m.Reaches s i) ∧
          (k < j → h.Underway m s k ∧ acks own = []) ∧
          (j ≤ k → h.HaltedAt (m.positionAt s (j - 1)) ∧
            AckedOnce m (m.positionAt s (j - 1)) .positionError own))) ∧
    g.Shows loading (g.history loading) := by
  intro s d k loading h own
  refine ⟨?_, ?_, g.shows_history loading⟩
  · intro hr
    have hf : Fits (m.positionAt s d) := by
      cases Nat.eq_zero_or_pos d with
      | inl hd =>
          rw [hd, Move.positionAt_zero]
          exact fits_of_range hg.nonneg hg.le_top
      | inr hd => exact fits_of_range (hr d hd (Nat.le_refl d)).2.1 (hr d hd (Nat.le_refl d)).2.2
    obtain ⟨y, fs, hu, hrun, hown, hfs, hticks⟩ := exists_underway hg hm hl hf encoder hes
    have hk : 0 + ticks fs = k := (Nat.zero_add _).trans hticks
    constructor
    · intro hle
      have hq := hu.run_quiet hm hfs (hk.trans_le hle) fun j hj hjk => hr j hj (by omega)
      rw [hk, ← hrun, ← hown] at hq
      exact hq
    · intro hlt
      have hc := hu.run_completes hm (Nat.zero_le d) (fun j hj => hr j hj) hfs (hk ▸ hlt)
      rw [← hown] at hc
      exact hc
  · intro hr
    constructor
    · intro hf
      exact haltedAt_of_load hg hm hl hf encoder hes
    · intro hf
      have hex : ∃ j, 1 ≤ j ∧ j ≤ d ∧ ¬m.Reaches s j := by
        simpa only [not_forall, exists_prop] using hr
      obtain ⟨h1, hd, hn⟩ := Nat.find_spec hex
      have hbefore : ∀ i, 1 ≤ i → i < Nat.find hex → m.Reaches s i := by
        intro i hi hlt
        exact Decidable.of_not_not fun hni => Nat.find_min hex hlt ⟨hi, by omega, hni⟩
      obtain ⟨y, fs, hu, hrun, hown, hfs, hticks⟩ := exists_underway hg hm hl hf encoder hes
      have hk : 0 + ticks fs = k := (Nat.zero_add _).trans hticks
      refine ⟨_, h1, hd, hn, hbefore, ?_, ?_⟩
      · intro hlt
        have hq := hu.run_quiet hm hfs (by omega) fun i hi hik => hbefore i hi (by omega)
        rw [hk, ← hrun, ← hown] at hq
        exact hq
      · intro hle
        have hc := hu.run_fails hm h1 hd hbefore hn hfs (hk ▸ hle)
        rw [← hrun, ← hown] at hc
        exact hc

/-- A move that turns around after three ticks and would end below zero on its sixth. -/
def turning : Move := ⟨0, 0, 6, 3, -1, ⟨0⟩⟩

theorem move_follows_trajectory_of_turning :
    let link : MoveLink := { moves := .empty 1, acks := .empty 1 }
    let g := (start link).1.run [.enqueue turning]
    let es : List AxisEvent := .tick false none :: List.replicate 7 (.tick false none)
    ∃ j, 1 ≤ j ∧ j ≤ 6 ∧ ¬turning.Reaches 0 j ∧ (∀ i, 1 ≤ i → i < j → turning.Reaches 0 i) ∧
      (g.run es).HaltedAt (turning.positionAt 0 (j - 1)) ∧
      AckedOnce turning (turning.positionAt 0 (j - 1)) .positionError
        (ofFirstLoad (g.history es)) := by
  intro link g es
  have h := move_follows_trajectory (g := g) (m := turning) false none
    (List.replicate 7 (.tick false none)) ((placed_start link).run _) (by decide)
    (by decide +kernel) (by decide)
  have hn : ¬∀ j, 1 ≤ j → j ≤ 6 → turning.Reaches 0 j := fun hr =>
    absurd (hr 6 (by decide) (by decide)) (by decide +kernel)
  obtain ⟨j, h1, hd, hj, hbefore, -, hend⟩ := (h.2.1 hn).2 (by decide +kernel)
  exact ⟨j, h1, hd, hj, hbefore, hend (Nat.le_trans hd (by decide +kernel))⟩

end StepGenerator

end AxisNode
