import AxisNode.Proofs.Motion.Trust
import AxisNode.Proofs.Node.Power
import Mathlib.Data.List.Induction

/-!
# Trust without holding torque

Switching the motor off lowers the flag that vouches for the step count, but the moves that were
queued before go on. So with the motor off the flag goes up again if one of them is a homing move
and reaches the limit switch, and there is no other way.
-/

namespace AxisNode

namespace Site

open StepGenerator

variable {τ β : Type} [RegisterLink τ] [FrameBus β] {s : Site τ β} {e : NodeEvent}

/-- Whether the status vouches for the step count. -/
def trusted (s : Site τ β) : Bool := s.node.axis.status.has .stepperOk

/-- A homing move ends at the pressed switch on an event. -/
def ReachesSwitch (s : Site τ β) : NodeEvent → Prop
  | .tick limit _ => .rebased .switch ∈ s.node.axis.tickNotes limit
  | _ => False

/-- The switch is reached in a run and from then on the axis does not halt. -/
def Homed (s : Site τ β) (es : List NodeEvent) : Prop :=
  ∃ first e rest, es = first ++ e :: rest ∧ (s.run first).ReachesSwitch e ∧
    ∀ now, now <+: rest → (((s.run first).step e).run now).node.axis.phase ≠ .halted

/-- The controller handles a request to disable the motor on an event. -/
def Disables (s : Site τ β) (e : NodeEvent) : Prop :=
  e = .turn .motion ∧ s.node.motionCommands.items.head? = some (.request .disable)

/-- In a run the motor is off throughout, and nothing is queued or disabled. -/
structure StaysOff (s : Site τ β) (es : List NodeEvent) : Prop where
  powered : ∀ now, now <+: es → (s.run now).powered = false
  disable : .disable ∉ s.axisEvents es
  enqueue : ∀ m, .enqueue m ∉ s.axisEvents es

/-! ## One event -/

/-- An event that leaves the motor off, other than a request to disable it, found it off, and
nothing is queued. -/
theorem powered_of_step (hoff : (s.step e).powered = false) (hd : ¬ s.Disables e) :
    s.powered = false ∧ .disable ∉ s.node.axisEvents e ∧
      ∀ m, .enqueue m ∉ s.node.axisEvents e := by
  by_cases he : e = .turn .motion
  · subst he
    cases hq : s.node.motionCommands.pop? with
    | none =>
        rw [step_motion_of_none hq] at hoff
        simp [hoff, Node.axisEvents, hq]
    | some x =>
        obtain ⟨c, q⟩ := x
        rw [powered_motion hq] at hoff
        simp only [Node.axisEvents, hq]
        cases c with
        | stop => exact ⟨hoff, by simp [AxisController.axisEvents]⟩
        | move m =>
            obtain ⟨hoff, hnone⟩ := Bool.or_eq_false_iff.mp hoff
            rw [Option.isSome_eq_false_iff, Option.isNone_iff_eq_none] at hnone
            exact ⟨hoff, by simp [AxisController.axisEvents, hnone]⟩
        | request r =>
            cases r with
            | enable => cases hoff
            | disable =>
                refine absurd ⟨rfl, ?_⟩ hd
                rw [(Queue.pop?_eq_some_iff.mp hq).1, List.head?_cons]
            | _ => exact ⟨hoff, by simp [AxisController.axisEvents]⟩
  · rw [powered_step he] at hoff
    refine ⟨hoff, ?_⟩
    cases e with
    | frame id payload => simp [Node.axisEvents]
    | tick limit encoder => simp [Node.axisEvents]
    | turn task =>
        cases task with
        | motion => exact absurd rfl he
        | reports =>
            simp only [Node.axisEvents, Node.reportEvents]
            split <;> simp
        | _ => simp [Node.axisEvents]

theorem coherent_run (hg : s.node.axis.Coherent) (es : List NodeEvent) :
    (s.run es).node.axis.Coherent := by
  rw [axis_run]
  exact hg.run _

/-- Unless the motor is switched off the flag goes up at the switch and otherwise stays up until the
axis halts. -/
theorem trusted_step (hg : s.node.axis.Coherent) (hd : .disable ∉ s.node.axisEvents e) :
    (s.step e).trusted = true ↔
      s.ReachesSwitch e ∨ s.trusted = true ∧ (s.step e).node.axis.phase ≠ .halted := by
  cases he : e.isTick with
  | true =>
      cases e with
      | tick limit encoder => exact StepGenerator.trusted_tick hg encoder
      | _ => cases he
  | false =>
      have hz : ¬ s.ReachesSwitch e := by
        cases e with
        | tick limit encoder => cases he
        | _ => exact not_false
      obtain ⟨hflag, hphase⟩ := foreground_run (g := s.node.axis)
        (Node.isTick_axisEvents he s.node) hd
      rw [or_iff_right hz, trusted, axis_step, hflag, hphase]
      exact ⟨fun ht => ⟨ht, fun hp => by simp [hg.untrusted hp] at ht⟩, And.left⟩

theorem phase_of_reachesSwitch (hg : s.node.axis.Coherent) (hz : s.ReachesSwitch e) :
    (s.step e).node.axis.phase ≠ .halted := by
  have hd : .disable ∉ s.node.axisEvents e := by
    cases e with
    | tick limit encoder => simp [Node.axisEvents]
    | _ => exact hz.elim
  have htrusted := (trusted_step hg hd).mpr (.inl hz)
  have hg' : (s.step e).node.axis.Coherent := coherent_run hg [e]
  intro hp
  rw [trusted, hg'.untrusted hp] at htrusted
  cases htrusted

/-! ## A run -/

theorem homed_concat (hg : s.node.axis.Coherent) (es : List NodeEvent) (e : NodeEvent) :
    s.Homed (es ++ [e]) ↔ (s.run es).ReachesSwitch e ∨
      s.Homed es ∧ (s.run (es ++ [e])).node.axis.phase ≠ .halted := by
  constructor
  · rintro ⟨first, x, rest, hes, hz, hrest⟩
    obtain ⟨rfl, rfl, -⟩ | ⟨rest, rfl, rfl⟩ := concat_eq_append_cons_iff.mp hes
    · exact .inl hz
    · refine .inr ⟨⟨first, x, rest, rfl, hz, fun now hnow => ?_⟩, ?_⟩
      · exact hrest now (hnow.trans (List.prefix_append _ _))
      · have hend := hrest _ (List.prefix_refl _)
        rw [hes, run_append]
        exact hend
  · rintro (hz | ⟨⟨first, x, rest, rfl, hz, hrest⟩, hend⟩)
    · refine ⟨es, e, [], rfl, hz, fun now hnow => ?_⟩
      rw [List.prefix_nil.mp hnow]
      exact phase_of_reachesSwitch (coherent_run hg es) hz
    · refine ⟨first, x, rest ++ [e], by simp, hz, fun now hnow => ?_⟩
      obtain rfl | hnow := List.prefix_concat_iff.mp hnow
      · rw [List.append_assoc, run_append] at hend
        exact hend
      · exact hrest now hnow

/-- Where the flag is down at first and the motor is not switched off, it is up at the end just if
the axis has been homed. -/
theorem trusted_run_iff_homed (hg : s.node.axis.Coherent) (ht : s.trusted = false)
    {es : List NodeEvent} (hd : .disable ∉ s.axisEvents es) :
    (s.run es).trusted = true ↔ s.Homed es := by
  induction es using List.reverseRecOn with
  | nil => simp [run, ht, Homed]
  | append_singleton es e ih =>
      rw [axisEvents_append, List.mem_append, not_or] at hd
      have hd' : .disable ∉ (s.run es).node.axisEvents e := by
        simpa [axisEvents] using hd.2
      rw [homed_concat hg, ← ih hd.1, run_concat, trusted_step (coherent_run hg es) hd']

/-- The homing move that reaches the switch was there before if none is queued. -/
theorem exists_homing_of_homed (hg : s.node.axis.Coherent) (hp : s.node.axis.Placed)
    {es : List NodeEvent} (hes : ∀ m, .enqueue m ∉ s.axisEvents es) (hh : s.Homed es) :
    ∃ m ∈ (s.node.axis.active.map (·.move)).toList ++ s.node.axis.moves.items,
      m.homes = true := by
  obtain ⟨first, e, rest, rfl, hz, -⟩ := hh
  cases e with
  | tick limit encoder =>
      have hreach : (s.run first).node.axis.ReachesSwitch (.tick limit encoder) := hz
      obtain ⟨-, -, a, ha, hhomes⟩ := (reachesSwitch_tick_iff (coherent_run hg first)).mp hreach
      rw [axis_run] at ha
      refine ⟨a.move, active_mem_of_run hp (fun m hm => hes m ?_) a ha, hhomes⟩
      rw [axisEvents_append]
      exact List.mem_append_left _ hm
  | _ => exact hz.elim

theorem StaysOff.nil (hoff : s.powered = false) : s.StaysOff [] := by
  refine ⟨fun now hnow => ?_, List.not_mem_nil, fun _ => List.not_mem_nil⟩
  rw [List.prefix_nil.mp hnow]
  exact hoff

theorem StaysOff.concat {es : List NodeEvent} (hs : s.StaysOff es)
    (hoff : (s.run (es ++ [e])).powered = false) (hd : .disable ∉ (s.run es).node.axisEvents e)
    (he : ∀ m, .enqueue m ∉ (s.run es).node.axisEvents e) : s.StaysOff (es ++ [e]) := by
  have hevents : s.axisEvents (es ++ [e]) = s.axisEvents es ++ (s.run es).node.axisEvents e := by
    rw [axisEvents_append]
    simp [axisEvents]
  refine ⟨fun now hnow => ?_, ?_, fun m => ?_⟩
  · obtain rfl | hnow := List.prefix_concat_iff.mp hnow
    · exact hoff
    · exact hs.powered now hnow
  · rw [hevents, List.mem_append, not_or]
    exact ⟨hs.disable, hd⟩
  · rw [hevents, List.mem_append, not_or]
    exact ⟨hs.enqueue m, he m⟩

/-- With the motor off at the end, there is a last time when it was disabled, or it was never on. -/
theorem exists_staysOff (s : Site τ β) {es : List NodeEvent} (hoff : (s.run es).powered = false) :
    ∃ before after, es = before ++ after ∧
      (before = [] ∨ ∃ first, before = first ++ [.turn .motion] ∧
        (s.run first).Disables (.turn .motion)) ∧
      (s.run before).StaysOff after := by
  -- From the right: the stretch grows with each event, and a request to disable starts a new one.
  induction es using List.reverseRecOn with
  | nil => exact ⟨[], [], rfl, .inl rfl, .nil hoff⟩
  | append_singleton es e ih =>
      have hstep : ((s.run es).step e).powered = false := run_concat s es e ▸ hoff
      by_cases hd : (s.run es).Disables e
      · obtain rfl := hd.1
        exact ⟨es ++ [.turn .motion], [], (List.append_nil _).symm, .inr ⟨es, rfl, hd⟩, .nil hoff⟩
      · obtain ⟨hbefore, hdisable, henqueue⟩ := powered_of_step hstep hd
        obtain ⟨before, after, rfl, hwhen, hs⟩ := ih hbefore
        rw [run_append] at hdisable henqueue
        refine ⟨before, after ++ [e], List.append_assoc _ _ _, hwhen,
          hs.concat ?_ hdisable henqueue⟩
        rw [← run_append, ← List.append_assoc]
        exact hoff

/-- Handling a request to disable the motor lowers the flag. -/
theorem trusted_of_disables (hd : s.Disables e) : (s.step e).trusted = false := by
  obtain ⟨rfl, hhead⟩ := hd
  obtain ⟨q, hq⟩ := Queue.exists_pop?_of_head? hhead
  rw [trusted, axis_step, Node.axisEvents, hq]
  simp [AxisController.axisEvents, StepGenerator.run, StepGenerator.step, status_has_react]

end Site

open Site in
/-- When the motor is off, there is a last time at which the controller was told so, or it was never
on. The flag that vouches for the step count was down then, and it is up now just if since then a
homing move has reached the switch, after which the axis did not halt; and then a homing move was
active or waiting at that time. -/
theorem trusted_while_off_iff_homed {τ β : Type} [RegisterLink τ] [FrameBus β] (setup : NodeSetup)
    (controller : AxisController) (driver : ChipDriver τ) (bus : β) (es : List NodeEvent) :
    let start : Site τ β := ⟨(Node.start setup controller driver).1, bus⟩
    let s := start.run es
    s.powered = false →
    ∃ before after, es = before ++ after ∧
      let off := start.run before
      (before = [] ∨ ∃ first, before = first ++ [.turn .motion] ∧
        (start.run first).Disables (.turn .motion)) ∧
      (∀ now, now <+: after → (off.run now).powered = false) ∧ off.trusted = false ∧
      (s.trusted = true ↔ off.Homed after) ∧
      (off.Homed after →
        ∃ m ∈ (off.node.axis.active.map (·.move)).toList ++ off.node.axis.moves.items,
          m.homes = true) := by
  intro start s hoff
  have hg : start.node.axis.Coherent := StepGenerator.Coherent.start _ _
  have hp : start.node.axis.Placed := StepGenerator.placed_start _
  obtain ⟨before, after, rfl, hwhen, hstays⟩ := exists_staysOff start hoff
  have hgoff : (start.run before).node.axis.Coherent := coherent_run hg before
  have hpoff : (start.run before).node.axis.Placed := by
    rw [axis_run]
    exact hp.run _
  have hdown : (start.run before).trusted = false := by
    obtain rfl | ⟨first, rfl, hd⟩ := hwhen
    · exact AxisFlags.has_empty .stepperOk
    · rw [run_concat]
      exact trusted_of_disables hd
  have hs : s = (start.run before).run after := run_append start before after
  refine ⟨before, after, rfl, hwhen, hstays.powered, hdown, ?_,
    exists_homing_of_homed hgoff hpoff hstays.enqueue⟩
  rw [hs]
  exact trusted_run_iff_homed hgoff hdown hstays.disable

/-- A homing move is queued, and then the motor is switched off. -/
def homeAndDisable : List NodeEvent :=
  [.request (.homeRequest ⟨0, 0, 10, -21474837⟩), .turn .staging, executeFirst, .turn .staging,
    .turn .motion, .request .disableMotorRequest, .turn .motion]

/-- The queued move is loaded and meets the switch. -/
def reachSwitch : List NodeEvent := [.tick false none, .tick true none]

theorem trusted_while_off_iff_homed_of_homeAndDisable :
    let s := gantry.run (homeAndDisable ++ reachSwitch)
    s.powered = false ∧ ∃ before after, homeAndDisable ++ reachSwitch = before ++ after ∧
      (gantry.run before).trusted = false ∧ (gantry.run before).Homed after ∧
      ∃ m ∈ ((gantry.run before).node.axis.active.map (·.move)).toList ++
        (gantry.run before).node.axis.moves.items, m.homes = true := by
  intro s
  have hoff : s.powered = false := by decide +kernel
  have htrusted : s.trusted = true := by decide +kernel
  obtain ⟨before, after, hes, -, -, hdown, hhomed, hmove⟩ :=
    trusted_while_off_iff_homed ⟨.gantryX, .host, 0⟩ .tenMicrometresPerStep
      ({ link := {} } : ChipDriver RegisterFile) ({} : RecordingBus)
      (homeAndDisable ++ reachSwitch) hoff
  exact ⟨hoff, before, after, hes, hdown, hhomed.mp htrusted, hmove (hhomed.mp htrusted)⟩

/-- With the motor off the status vouches for the step count. -/
theorem homed_without_holding_torque :
    let off := gantry.run homeAndDisable
    let s := off.run reachSwitch
    off.powered = false ∧ off.trusted = false ∧ s.powered = false ∧ s.trusted = true ∧
      gantry.motorCalls (homeAndDisable ++ reachSwitch) = [true, false] := by
  refine ⟨?_, ?_, ?_, ?_, ?_⟩
  all_goals decide +kernel

end AxisNode
