import AxisNode.Proofs.Motion.Outputs

/-!
# The position counts the pulses

An observer of the step and direction lines counts every step up or down by the direction that was
set last, and starts over whenever the position is set anew. As long as no tick advances by more
than one whole step, the observer's count is the distance in whole steps from where the count began,
and while the step count is trusted it is the position that the status shows.
-/

namespace AxisNode

/-- What an observer of the lines knows. -/
structure Tally where
  /-- The direction line as it was set last. -/
  forward : Bool := true
  /-- Why the position was last set anew. -/
  rebase : Rebase := .start
  /-- The steps forward less the steps backward since then. -/
  net : Int := 0
  /-- The same since the switch was last reached, if it ever was. -/
  fromSwitch : Option Int := none
deriving DecidableEq, Repr

namespace Tally

/-- Counts a step in the net number and, if the switch was met, from there. -/
def step (t : Tally) (n : Int) : Tally :=
  { t with net := t.net + n, fromSwitch := t.fromSwitch.map (· + n) }

/-- Enters a note. Steps count in the direction that was last called, and a new base starts the
count again. -/
def note (t : Tally) : AxisNote → Tally
  | .rebased r =>
      { t with
        rebase := r
        net := 0
        fromSwitch := if r = .switch then some 0 else t.fromSwitch }
  | .called .positive => { t with forward := true }
  | .called .negative => { t with forward := false }
  | .called .step => t.step (if t.forward then 1 else -1)
  | _ => t

/-- The count of a whole history, which begins with the start of the generator. -/
def ofHistory (h : List AxisNote) : Tally := h.foldl note {}

end Tally

namespace StepGenerator

open FixedPoint

/-! ## Where the count starts over -/

variable {g : StepGenerator}

theorem rebased_notMem_finishNotes (r : Rebase) (reason : AckReason) (g : StepGenerator) :
    .rebased r ∉ g.finishNotes reason := by
  simp [finishNotes]

theorem rebased_notMem_haltNotes (r : Rebase) (g : StepGenerator) :
    .rebased r ∉ g.haltNotes := by
  simp [haltNotes]

theorem rebased_notMem_advanceNotes (r : Rebase) (g : StepGenerator) :
    .rebased r ∉ g.advanceNotes := by
  cases ha : g.active with
  | none => simp [advanceNotes_of_none ha]
  | some a =>
      cases hn : next? a g.position with
      | none => simp [advanceNotes_of_stuck ha hn, rebased_notMem_haltNotes]
      | some p =>
          rw [advanceNotes_of_next (v := p.1) (p := p.2) ha hn]
          split <;> simp

/-- The position is set anew only at the switch, and when a homing move is loaded while it is
unknown. -/
theorem rebased_mem_notes_iff {d : TickAction} {r : Rebase} :
    .rebased r ∈ g.notes d ↔
      d = .zero ∧ r = .switch ∨
        d = .load ∧ r = .top ∧ g.status.has .stepperOk = false ∧
          ∃ m moves, g.moves.pop? = some (m, moves) ∧ m.homes = true := by
  cases d with
  | cancel => simp [notes]
  | settle => simp [notes]
  | load =>
      cases hq : g.moves.pop? with
      | none => simp [notes, loadNotes_of_none hq]
      | some p =>
          obtain ⟨m, moves⟩ := p
          have hh : .rebased r ∉ (g.mount m moves).haltNotes := rebased_notMem_haltNotes r _
          simp only [notes, loadNotes_of_some hq]
          by_cases hj : m.homes && !g.status.has .stepperOk
          · simp at hj
            by_cases ht : (m.targetFrom (g.mount m moves).position).isNone <;>
              simp [hj, ht, hh]
          · by_cases ht : (m.targetFrom (g.mount m moves).position).isNone <;>
              simp [hj, ht, hh] <;> grind
  | zero => simp [notes, rebased_notMem_finishNotes]
  | advance => simp [notes, rebased_notMem_advanceNotes]
  | finish reason => simp [notes, rebased_notMem_finishNotes]

theorem zero_mem_actions_iff {limit : Bool} :
    .zero ∈ g.actions limit ↔
      g.status.cancelRequested = false ∧ g.phase ≠ .halted ∧ g.isHoming = true ∧
        limit = true := by
  have hact : g.isHoming = true → g.active.isNone = false := by
    cases ha : g.active <;> simp [isHoming, ha]
  unfold actions actActions changeOverActions
  grind

/-! ## A tick keeps the count -/

/-- A step is emitted exactly when the whole steps change, and then they change by one in the
direction of the velocity. -/
theorem floorSteps_add {p v : Int} (hv : -stepUnit ≤ v ∧ v ≤ stepUnit) :
    floorSteps (p + v) - floorSteps p =
      if crossesStep p (p + v) then (if 0 ≤ v then 1 else -1) else 0 := by
  have hcross : crossesStep p (p + v) = true ↔ floorSteps p % 2 ≠ floorSteps (p + v) % 2 := by
    simp [crossesStep]
  by_cases hc : crossesStep p (p + v)
  · have hne := hcross.mp hc
    rw [if_pos hc]
    simp only [floorSteps, stepUnit] at hne hv ⊢
    split <;> omega
  · have heq : floorSteps p % 2 = floorSteps (p + v) % 2 :=
      Decidable.of_not_not fun hne => hc (hcross.mpr hne)
    rw [if_neg hc]
    simp only [floorSteps, stepUnit] at heq hv ⊢
    omega

/-- The position is where the count says, and so is what the status shows while it is trusted. -/
structure Counted (g : StepGenerator) (t : Tally) : Prop where
  count : floorSteps g.position - floorSteps t.rebase.position = t.net
  trusted : g.status.has .stepperOk = true → t.fromSwitch = some (floorSteps g.position)

namespace Counted

variable {g h : StepGenerator} {t : Tally}

theorem of_eq (hc : g.Counted t) (hp : h.position = g.position)
    (hs : h.status.has .stepperOk = true → g.status.has .stepperOk = true) : h.Counted t :=
  ⟨hp ▸ hc.count, fun ht => hp ▸ hc.trusted (hs ht)⟩

theorem finishNotes_foldl (reason : AckReason) (g : StepGenerator) (t : Tally) :
    (g.finishNotes reason).foldl Tally.note t = t := by
  unfold finishNotes
  cases g.active <;> rfl

theorem haltNotes_foldl (g : StepGenerator) (t : Tally) : g.haltNotes.foldl Tally.note t = t := by
  unfold haltNotes
  cases g.active <;> rfl

theorem finish (reason : AckReason) (hc : g.Counted t) :
    (g.finish reason).Counted ((g.finishNotes reason).foldl Tally.note t) := by
  rw [finishNotes_foldl]
  cases ha : g.active with
  | none => rwa [finish_eq_of_none ha]
  | some a =>
      rw [finish_eq_of_active ha]
      exact hc.of_eq (position_offer _ _) (by simp [retiring])

theorem halt (hc : floorSteps g.position - floorSteps t.rebase.position = t.net) :
    g.halt.Counted (g.haltNotes.foldl Tally.note t) := by
  have hh : g.halting.Counted t := ⟨hc, by simp [halting]⟩
  rw [haltNotes_foldl]
  cases ha : g.active with
  | none => rwa [halt_eq_of_none ha]
  | some a =>
      rw [halt_eq_of_active ha]
      exact hh.of_eq (position_offer _ _) (by simp)

/-- Taking up a move keeps the count or starts it over at the top. -/
theorem mount (m : Move) (moves : Queue Move) (hc : g.Counted t) :
    (g.mount m moves).Counted
      ((if m.homes && !g.status.has .stepperOk then [.rebased .top] else []).foldl
        Tally.note t) := by
  unfold StepGenerator.mount
  dsimp only
  split
  · next hj =>
      simp only [Bool.and_eq_true, Bool.not_eq_true'] at hj
      constructor
      · simp [Tally.note, setPosition, place, Rebase.position]
        decide
      · intro ht
        exact absurd (hj.2.symm.trans ht) (by decide)
  · exact hc.of_eq rfl (fun ht => ht)

theorem load (hc : g.Counted t) : g.load.Counted (g.loadNotes.foldl Tally.note t) := by
  cases hq : g.moves.pop? with
  | none => rwa [load_eq_of_none hq, loadNotes_of_none hq]
  | some p =>
      have hm := hc.mount p.1 p.2
      rw [load_eq_of_some hq, loadNotes_of_some hq, List.foldl_cons, List.foldl_append]
      cases ht : p.1.targetFrom (g.mount p.1 p.2).position with
      | some target => exact hm.of_eq rfl (fun h => h)
      | none => exact halt hm.count

/-- A position one step further is counted by one more step in the same direction. -/
theorem place {p n : Int} (forward : Bool) (hc : g.Counted t)
    (hf : floorSteps p - floorSteps g.position = n) (hp : h.position = p)
    (hs : h.status.has .stepperOk = g.status.has .stepperOk) :
    h.Counted ({ t with forward }.step n) := by
  subst hp hf
  constructor
  · have := hc.count
    simp only [Tally.step]
    omega
  · intro ht
    simp only [Tally.step, hc.trusted (hs ▸ ht), Option.map_some, Option.some.injEq]
    omega

/-- The direction is set before the step, so the step is counted the way the position moves. -/
theorem advance (hc : g.Counted t)
    (hv : ∀ v p, .advanced v p ∈ g.advanceNotes → -stepUnit ≤ v ∧ v ≤ stepUnit) :
    g.advance.1.Counted (g.advanceNotes.foldl Tally.note t) := by
  cases ha : g.active with
  | none => rwa [advance_of_none ha, advanceNotes_of_none ha]
  | some a =>
      cases hn : next? a g.position with
      | none =>
          rw [advance_of_stuck ha hn, advanceNotes_of_stuck ha hn]
          exact halt hc.count
      | some p =>
          obtain ⟨v, q⟩ := p
          obtain ⟨-, -, rfl, -, -⟩ := next?_eq_some_iff.mp hn
          rw [advanceNotes_of_next ha hn] at hv ⊢
          have hf := floorSteps_add (p := g.position) (hv v _ (List.mem_cons_self ..))
          rw [advance_of_next ha hn]
          by_cases hx : crossesStep g.position (g.position + v)
          · rw [if_pos hx] at hf ⊢
            by_cases h0 : 0 ≤ v
            · rw [if_pos h0] at hf ⊢
              exact hc.place true hf rfl rfl
            · rw [if_neg h0] at hf ⊢
              exact hc.place false hf rfl rfl
          · rw [if_neg hx] at hf ⊢
            have he : floorSteps (g.position + v) = floorSteps g.position := by omega
            constructor
            · exact he ▸ hc.count
            · intro ht
              exact he ▸ hc.trusted ht

theorem perform (d : TickAction) (hc : g.Counted t)
    (hv : ∀ v p, .advanced v p ∈ g.notes d → -stepUnit ≤ v ∧ v ≤ stepUnit) :
    (g.perform d).Counted ((g.notes d).foldl Tally.note t) := by
  cases d with
  | cancel => exact hc.of_eq rfl (fun ht => by simpa [StepGenerator.perform, cancel] using ht)
  | settle => exact hc.of_eq rfl (fun ht => ht)
  | load => exact hc.load
  | zero =>
      have hz : g.atSwitch.Counted (t.note (.rebased .switch)) :=
        ⟨rfl, fun _ => rfl⟩
      exact hz.finish .stoppedByCondition
  | advance => exact hc.advance hv
  | finish reason => exact hc.finish reason

theorem react (e : AxisEvent) (hc : g.Counted t) : (g.react e).Counted t := by
  cases e with
  | tick limit encoder => exact hc
  | enqueue m =>
      unfold StepGenerator.react
      dsimp only
      split
      · exact hc.of_eq rfl (fun ht => ht)
      · exact hc
  | requestCancel => exact hc.of_eq rfl (fun ht => ht)
  | disable => exact hc.of_eq rfl (fun ht => by simp [StepGenerator.react, mapStatus] at ht)
  | takeAck =>
      unfold StepGenerator.react
      dsimp only
      split
      · exact hc.of_eq rfl (fun ht => ht)
      · exact hc
  | clearDropped =>
      exact hc.of_eq rfl (fun ht => by simpa [StepGenerator.react, mapStatus] using ht)

theorem start (link : MoveLink) (hl : link.status = {}) : (start link).1.Counted {} := by
  have hn : (StepGenerator.start link).1.status.has .stepperOk = false := by
    simp only [StepGenerator.start, hl]
    decide
  exact ⟨rfl, fun ht => absurd (hn.symm.trans ht) (by decide)⟩

theorem run (es : List AxisEvent) (hc : g.Counted t)
    (hv : ∀ v ∈ velocities (g.history es), -stepUnit ≤ v ∧ v ≤ stepUnit) :
    (g.run es).Counted ((g.history es).foldl Tally.note t) := by
  apply run_fold Tally.note Counted fun n =>
    ∀ v, n.velocity? = some v → -stepUnit ≤ v ∧ v ≤ stepUnit
  · intro limit d g t _ hok hc
    apply hc.perform d
    intro v p hn
    exact hok _ hn v rfl
  · intro g t limit hc
    exact hc.of_eq rfl fun ht => ht
  · intro g t encoder hc
    exact hc.of_eq rfl fun ht => ht
  · intro e g t hc
    exact hc.react e
  · intro n hn v h
    exact hv v (List.mem_filterMap.mpr ⟨n, hn, h⟩)
  · exact hc

end Counted

/-! ## The count over a run -/

/-- As long as no tick advances by more than a step, the whole steps moved since the position was
last set anew are the steps that were emitted, and a trusted status shows the steps since the limit
switch was last reached. The calls that are counted are those that the ticks have made. -/
theorem steps_eq_net (link : MoveLink) (hl : link.status = {}) (es : List AxisEvent)
    (hv : ∀ v ∈ velocities ((start link).1.history es), -stepUnit ≤ v ∧ v ≤ stepUnit) :
    let s := (start link).1
    let g := s.run es
    let t := Tally.ofHistory (s.history es)
    floorSteps g.position - floorSteps t.rebase.position = t.net ∧
      (g.status.has .stepperOk = true →
        t.fromSwitch = some (g.status.position.toNat : Int)) ∧
      s.Shows es (s.history es) := by
  intro s g t
  have hc : g.Counted t := (Counted.start link hl).run es hv
  have hp : g.Placed := (placed_start link).run es
  refine ⟨hc.count, fun ht => ?_, s.shows_history es⟩
  rw [hc.trusted ht, hp.toNat_status_position]

/-- A homing move that meets the switch on its second tick, and a move away from it. -/
def homeAndLeave : List AxisEvent :=
  [.enqueue ⟨0, 0, 9, -2147483648, 0, .limitSwitch⟩, .enqueue ⟨0, 1, 2, 0, 2147483648, ⟨0⟩⟩,
    .tick false none, .tick false none, .tick true none, .tick false none, .tick false none]

theorem steps_eq_net_of_homeAndLeave :
    let link : MoveLink := { moves := .empty 2, acks := .empty 2 }
    let s := (start link).1
    let g := s.run homeAndLeave
    let t := Tally.ofHistory (s.history homeAndLeave)
    floorSteps g.position - floorSteps t.rebase.position = t.net ∧
      t.fromSwitch = some (g.status.position.toNat : Int) ∧ g.status.position = 1 ∧
      calls (s.history homeAndLeave) = s.emitted homeAndLeave := by
  intro link
  obtain ⟨hcount, htrusted, hshows⟩ := steps_eq_net link rfl homeAndLeave (by decide +kernel)
  exact ⟨hcount, htrusted (by decide +kernel), by decide +kernel, hshows.calls⟩

end StepGenerator

end AxisNode
