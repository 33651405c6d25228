import AxisNode.Proofs.Motion.Phase

/-!
# The pressed switch

A tick looks at the switch before it looks at the ticks of the active move, so a homing move that is
active while the switch is pressed ends there, at position zero. A move loaded into an idle
generator waits for the next tick and is looked at then. Only a tick that retires a move whose ticks
are spent takes up the next one and advances it at once, without looking at the switch again, and
this is the only way in which a homing move is advanced while the switch is pressed.
-/

namespace AxisNode.StepGenerator

open FixedPoint

variable {g : StepGenerator} {a b : RunningMove} {m : Move}

/-! ## Loading a homing move -/

/-- Where a homing move begins when it is loaded. -/
def homingStart (g : StepGenerator) : Int :=
  if g.status.has .stepperOk then g.position else topPosition

theorem position_mount_of_homes (hm : m.homes = true) (moves : Queue Move) :
    (g.mount m moves).position = g.homingStart := by
  have htop : max 0 (min topPosition topPosition) = topPosition := by decide
  unfold mount homingStart
  cases hs : g.status.has .stepperOk with
  | true => simp [hm, hs]
  | false => simpa [hm, hs, setPosition, place] using htop

/-- A loaded move is active unless its end cannot be stored. -/
theorem active_load {moves : Queue Move} (hq : g.moves.pop? = some (m, moves)) :
    g.load.active = (m.targetFrom (g.mount m moves).position).map fun target =>
      { move := m, velocity := m.velocity, target } := by
  rw [load_eq_of_some hq]
  cases m.targetFrom (g.mount m moves).position with
  | some target => rfl
  | none => exact active_halt _

/-- Retiring a move writes neither the position nor the flag that vouches for it. -/
theorem finish_keeps_position (reason : AckReason) (g : StepGenerator) :
    (g.finish reason).position = g.position ∧
      (g.finish reason).status.has .stepperOk = g.status.has .stepperOk := by
  cases ha : g.active with
  | none =>
      rw [finish_eq_of_none ha]
      exact ⟨rfl, rfl⟩
  | some a =>
      rw [finish_eq_of_active ha]
      exact ⟨position_offer _ _, status_has_stepperOk_offer _ _⟩

theorem homingStart_finish (reason : AckReason) (g : StepGenerator) :
    (g.finish reason).homingStart = g.homingStart := by
  obtain ⟨hp, hs⟩ := finish_keeps_position reason g
  rw [homingStart, hp, hs]
  rfl

/-! ## A homing move behind a spent one -/

/-- A homing move waits behind an active move whose ticks are spent and which does not itself end at
the switch, and it has ticks and an end that can be stored. -/
structure TakesUp (g : StepGenerator) (m : Move) : Prop where
  uncancelled : g.status.cancelRequested = false
  spent : ∃ b, g.active = some b ∧ b.move.homes = false ∧ b.ticks = b.move.duration.toNat
  next : g.moves.items.head? = some m
  homes : m.homes = true
  lasts : 0 < m.duration.toNat
  storable : (m.targetFrom g.homingStart).isSome = true

/-- A homing move that was loaded was the next one, and its end can be stored. -/
theorem next_of_active_load (hn : g.active = none) (ha : g.load.active = some a)
    (hh : a.move.homes = true) :
    g.moves.items.head? = some a.move ∧ (a.move.targetFrom g.homingStart).isSome = true := by
  cases hq : g.moves.pop? with
  | none =>
      rw [load_eq_of_none hq, hn] at ha
      cases ha
  | some p =>
      obtain ⟨m, moves⟩ := p
      rw [active_load hq, Option.map_eq_some_iff] at ha
      obtain ⟨target, ht, rfl⟩ := ha
      rw [position_mount_of_homes hh] at ht
      exact ⟨by rw [(Queue.pop?_eq_some_iff.mp hq).1, List.head?_cons], by simp [ht]⟩

theorem active_load_of_next (hm : g.moves.items.head? = some m) (hh : m.homes = true)
    (ht : (m.targetFrom g.homingStart).isSome = true) :
    ∃ target, g.load.active = some { move := m, velocity := m.velocity, target } := by
  obtain ⟨moves, hq⟩ := Queue.exists_pop?_of_head? hm
  obtain ⟨target, ht⟩ := Option.isSome_iff_exists.mp ht
  exact ⟨target, by rw [active_load hq, position_mount_of_homes hh, ht]; rfl⟩

/-- What a tick advances once it has retired a move. -/
theorem advancedBy_changeOverActions (g : StepGenerator) :
    ∃ reason, advancedBy g.changeOverActions g =
      if (g.finish reason).hasMoves && (g.finish reason).load.hasTicks then
        (g.finish reason).load.active.toList
      else [] := by
  unfold changeOverActions
  generalize (if g.isHoming then AckReason.timeout else .completeWithoutCondition) = reason
  refine ⟨reason, ?_⟩
  by_cases hm : (g.finish reason).hasMoves
  · by_cases ht : (g.finish reason).load.hasTicks <;> simp [hm, ht, advancedBy, perform]
  · simp [hm, advancedBy]

/-- The active move is advanced unless it is to end at the pressed switch. Once its ticks are spent
the one that takes over is advanced instead. -/
theorem of_mem_advancedBy_actActions {limit : Bool} (ha : a ∈ advancedBy (g.actActions limit) g) :
    ∃ b, g.active = some b ∧ (b.move.homes && limit) = false ∧
      (a = b ∨ ∃ reason, g.hasTicks = false ∧ (g.finish reason).load.hasTicks = true ∧
        (g.finish reason).load.active = some a) := by
  cases hb : g.active with
  | none =>
      by_cases hm : g.hasMoves <;> by_cases hp : g.phase = .moveComplete <;>
        simp [actActions, hb, hm, hp, advancedBy] at ha
  | some b =>
      have hz : g.isHoming = b.move.homes := by simp [isHoming, hb]
      cases hl : b.move.homes && limit with
      | true => simp [actActions, hb, hz, hl, advancedBy] at ha
      | false =>
          refine ⟨b, rfl, hl, ?_⟩
          cases ht : g.hasTicks with
          | true =>
              left
              simpa [actActions, hb, hz, hl, ht, advancedBy] using ha
          | false =>
              right
              obtain ⟨reason, hchange⟩ := advancedBy_changeOverActions g
              have hact : g.actActions limit = g.changeOverActions := by
                simp [actActions, hb, hz, hl, ht]
              rw [hact, hchange] at ha
              split at ha
              · next hm =>
                  exact ⟨reason, rfl, (Bool.and_eq_true_iff.mp hm).2, Option.mem_toList.mp ha⟩
              · cases ha

/-- While the switch is pressed, a homing move is advanced only if it is taken up. -/
theorem takesUp_of_mem_ticked (hg : g.Coherent) (ha : a ∈ g.ticked true)
    (hh : a.move.homes = true) : g.TakesUp a.move := by
  have hc : g.status.cancelRequested = false := by
    by_contra hc
    have hcs : (g.sample true).status.cancelRequested = true := Bool.not_eq_false _ ▸ hc
    simp [ticked, actions, hcs, advancedBy] at ha
  have hcs : (g.sample true).status.cancelRequested = false := hc
  have hp : (g.sample true).phase ≠ .halted := by
    intro hp
    simp [ticked, actions, hcs, hp, advancedBy] at ha
  have hact : (g.sample true).actions true = (g.sample true).actActions true := by
    simp [actions, hcs, hp]
  rw [ticked, hact] at ha
  obtain ⟨b, hb, hbh, rfl | ⟨reason, ht, hticks, hactive⟩⟩ := of_mem_advancedBy_actActions ha
  · rw [hh] at hbh
    cases hbh
  have hspent : b.ticks = b.move.duration.toNat := by
    apply Nat.le_antisymm (hg.ticks_le b hb)
    simpa [hasTicks, hb] using ht
  obtain ⟨hnext, hstore⟩ := next_of_active_load (active_finish reason _) hactive hh
  rw [moves_finish] at hnext
  rw [homingStart_finish] at hstore
  obtain ⟨c, hc', hlt⟩ := hasTicks_iff.mp hticks
  obtain rfl : c = a := Option.some.inj (hc'.symm.trans hactive)
  exact ⟨hc, ⟨b, hb, by simpa using hbh, hspent⟩, hnext, hh, by omega, hstore⟩

/-- A homing move that is taken up is advanced whatever the switch. -/
theorem TakesUp.ticked (ht : g.TakesUp m) (hg : g.Coherent) (limit : Bool) :
    ∃ a, g.ticked limit = [a] ∧ a.move = m := by
  obtain ⟨b, hb, hbh, hspent⟩ := ht.spent
  have hs : (g.sample limit).active = some b := hb
  have hc : (g.sample limit).status.cancelRequested = false := ht.uncancelled
  have hp : (g.sample limit).phase ≠ .halted := hg.not_halted_of_isSome (by simp [hb])
  have hact : (g.sample limit).actions limit = (g.sample limit).changeOverActions := by
    simp [actions, actActions, hc, hp, hs, isHoming, hbh, hasTicks, hspent]
  obtain ⟨reason, hchange⟩ := advancedBy_changeOverActions (g.sample limit)
  have hnext : ((g.sample limit).finish reason).moves.items.head? = some m := by
    rw [moves_finish]
    exact ht.next
  have hstore : (m.targetFrom ((g.sample limit).finish reason).homingStart).isSome = true := by
    rw [homingStart_finish]
    exact ht.storable
  obtain ⟨target, hload⟩ := active_load_of_next hnext ht.homes hstore
  refine ⟨{ move := m, velocity := m.velocity, target }, ?_, rfl⟩
  rw [StepGenerator.ticked, hact, hchange, hasMoves_of_head? hnext, hload]
  simp [hasTicks, hload, ht.lasts]

/-! ## A homing move that is seen active -/

/-- At the pressed switch a tick does nothing but end the homing move. -/
theorem actions_of_homing (hg : g.Coherent) (ha : g.active = some a) (hh : a.move.homes = true)
    (hc : g.status.cancelRequested = false) : (g.sample true).actions true = [.zero] := by
  have hs : (g.sample true).active = some a := ha
  have hcs : (g.sample true).status.cancelRequested = false := hc
  have hp : (g.sample true).phase ≠ .halted := hg.not_halted_of_isSome (by simp [ha])
  simp [actions, actActions, hcs, hp, hs, isHoming, hh]

theorem tickNotes_of_homing (hg : g.Coherent) (ha : g.active = some a)
    (hh : a.move.homes = true) (hc : g.status.cancelRequested = false) :
    g.tickNotes true = [.rebased .switch,
      .acked ((g.sample true).atSwitch.status.ack a.move .stoppedByCondition)] := by
  have hs : (g.sample true).atSwitch.active = some a := ha
  simp [tickNotes, actions_of_homing hg ha hh hc, notesAll, notes, finishNotes, hs]

theorem interrupt_of_homing (hg : g.Coherent) (ha : g.active = some a)
    (hh : a.move.homes = true) (hc : g.status.cancelRequested = false)
    (encoder : Option Int32) :
    (g.interrupt true encoder).1 =
      ((g.sample true).atSwitch.finish .stoppedByCondition).readEncoder encoder := by
  have hp : g.phase ≠ .halted := hg.not_halted_of_isSome (by simp [ha])
  have hr : g.readsEncoder = true := by simp [readsEncoder, hc, hp]
  simp only [interrupt_eq, actions_of_homing hg ha hh hc, hr, if_true]
  rfl

/-- A homing move that is active when the switch is pressed is not advanced: the tick makes no call,
puts the axis at zero, trusts the step count and acknowledges the move. A homing move is advanced
all the same just when it is taken up behind one whose ticks are spent. -/
theorem pressed_switch_ends_homing (moves : Queue Move) (acks : Queue MoveAck)
    (es : List AxisEvent) :
    let g := (start { moves, acks }).1.run es
    (∀ a encoder, g.active = some a → a.move.homes = true → g.status.cancelRequested = false →
      let h := (g.interrupt true encoder).1
      g.ticked true = [] ∧ (g.interrupt true encoder).2 = [] ∧
        AckedOnce a.move 0 .stoppedByCondition (g.tickNotes true) ∧
        h.active = none ∧ h.position = 0 ∧ h.status.has .stepperOk = true) ∧
    ∀ m, (∃ a ∈ g.ticked true, a.move = m ∧ m.homes = true) ↔ g.TakesUp m := by
  intro g
  have hg : g.Coherent := (Coherent.start moves acks).run es
  constructor
  · intro a encoder ha hh hc h
    have hnotes := tickNotes_of_homing hg ha hh hc
    have hh' : h = _ := interrupt_of_homing hg ha hh hc encoder
    obtain ⟨hposition, htrust⟩ :=
      finish_keeps_position .stoppedByCondition (g.sample true).atSwitch
    rw [interrupt_snd, hnotes, hh']
    refine ⟨?_, rfl, ⟨_, rfl, rfl, rfl, rfl, rfl⟩, active_finish _ _, hposition, ?_⟩
    · simp [ticked, actions_of_homing hg ha hh hc, advancedBy]
    · apply Eq.trans htrust
      simp [status_has_atSwitch]
  · intro m
    constructor
    · rintro ⟨a, ha, rfl, hh⟩
      exact takesUp_of_mem_ticked hg ha hh
    · intro ht
      obtain ⟨a, ha, rfl⟩ := ht.ticked hg true
      exact ⟨a, by simp [ha], rfl, ht.homes⟩

/-- A homing move of one step backward on each tick. -/
def homeward (seq : UInt8) : Move := ⟨0, seq, 10, -2147483648, 0, .limitSwitch⟩

/-- The axis is homed, and another homing move waits behind a move of one tick that stands still. -/
def homedAgain : List AxisEvent :=
  [.enqueue (homeward 0), .tick true none, .tick true none, .enqueue ⟨0, 1, 1, 0, 0, ⟨0⟩⟩,
    .enqueue (homeward 2), .tick true none, .tick true none]

theorem pressed_switch_ends_homing_of_homedAgain :
    let g := (start { moves := .empty 2, acks := .empty 4 }).1
    (g.run (homedAgain.take 2)).ticked true = [] ∧
      ((g.run (homedAgain.take 2)).interrupt true none).1.position = 0 ∧
      ∃ a ∈ (g.run homedAgain).ticked true, a.move = homeward 2 ∧ (homeward 2).homes = true := by
  obtain ⟨hends, -⟩ := pressed_switch_ends_homing (.empty 2) (.empty 4) (homedAgain.take 2)
  obtain ⟨-, htakes⟩ := pressed_switch_ends_homing (.empty 2) (.empty 4) homedAgain
  obtain ⟨hticked, -, -, -, hposition, -⟩ :=
    hends ⟨homeward 0, -2147483648, 0, topPosition - 10 * stepUnit⟩ none (by decide +kernel)
      (by decide) (by decide +kernel)
  refine ⟨hticked, hposition, (htakes (homeward 2)).mpr ?_⟩
  refine ⟨by decide +kernel, ⟨⟨⟨0, 1, 1, 0, 0, ⟨0⟩⟩, 0, 1, 0⟩, ?_, ?_, ?_⟩, ?_, ?_, ?_, ?_⟩
  all_goals decide +kernel

/-- The homing move that is taken up there leaves the range of positions although the switch is
pressed, and halts the axis. -/
theorem homing_overruns_pressed_switch :
    let g := (start { moves := .empty 2, acks := .empty 4 }).1.run homedAgain
    g.status.cancelRequested = false ∧ (∃ a ∈ g.ticked true, a.move.homes = true) ∧
      (g.interrupt true none).1.phase = .halted ∧
      (g.interrupt true none).1.status.has .stepperOk = false ∧
      (AxisNode.acks (g.tickNotes true)).map (·.reason) =
        [.completeWithoutCondition, .positionError] := by
  refine ⟨?_, ⟨⟨homeward 2, -2147483648, 0, -10 * stepUnit⟩, ?_, ?_⟩, ?_, ?_, ?_⟩
  all_goals decide +kernel

end AxisNode.StepGenerator
