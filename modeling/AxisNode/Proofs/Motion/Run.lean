import AxisNode.Proofs.Motion.Tick

/-!
# Runs of the step generator

Between two ticks the foreground may queue a move, ask for a cancel, switch the motor off, take an
acknowledgement or lower the flag of a lost one. A run is any sequence of ticks and such events, and
its history is what its ticks have noted. In every state of a run the position is in range and the
status shows its whole steps.
-/

namespace AxisNode

/-- Something that happens to a generator. -/
inductive AxisEvent where
  | tick (limit : Bool) (encoder : Option Int32)
  /-- A move is offered to the queue, which refuses it when full. -/
  | enqueue (m : Move)
  | requestCancel
  /-- The motor is switched off, and the step count can no longer be trusted. -/
  | disable
  | takeAck
  | clearDropped
deriving DecidableEq, Repr

/-- Whether the interrupt runs with the event. -/
def AxisEvent.isTick : AxisEvent → Bool
  | tick _ _ => true
  | _ => false

namespace StepGenerator

open FixedPoint

/-- What the foreground does to the link. -/
def react (e : AxisEvent) (g : StepGenerator) : StepGenerator :=
  match e with
  | .tick _ _ => g
  | .enqueue m =>
      match g.moves.push? m with
      | some moves => { g with moves }
      | none => g
  | .requestCancel => g.mapStatus AxisStatus.requestCancel
  | .disable => g.mapStatus (·.lower .stepperOk)
  | .takeAck =>
      match g.acks.pop? with
      | some (_, acks) => { g with acks }
      | none => g
  | .clearDropped => g.mapStatus (·.lower .ackDropped)

section React

variable (e : AxisEvent) (g : StepGenerator)

@[simp] theorem active_react : (g.react e).active = g.active := by
  unfold react; split <;> try split
  all_goals rfl

@[simp] theorem phase_react : (g.react e).phase = g.phase := by
  unfold react; split <;> try split
  all_goals rfl

@[simp] theorem position_react : (g.react e).position = g.position := by
  unfold react; split <;> try split
  all_goals rfl

@[simp] theorem status_position_react : (g.react e).status.position = g.status.position := by
  unfold react; split <;> try split
  all_goals rfl

theorem status_cancelRequested_react (he : e ≠ .requestCancel) :
    (g.react e).status.cancelRequested = g.status.cancelRequested := by
  unfold react; split <;> try split
  all_goals first | rfl | exact absurd rfl he

theorem moves_react (he : ∀ m, e ≠ .enqueue m) (g : StepGenerator) :
    (g.react e).moves = g.moves := by
  unfold react; split <;> try split
  all_goals first | rfl | exact absurd rfl (he _)

/-- The foreground lowers two flags and raises none. -/
theorem status_has_react (x : AxisFlag) :
    (g.react e).status.has x = (g.status.has x && !decide (e = .disable ∧ x = .stepperOk) &&
      !decide (e = .clearDropped ∧ x = .ackDropped)) := by
  cases e with
  | tick limit encoder => simp [react]
  | requestCancel => simp [react, mapStatus, AxisStatus.requestCancel, AxisStatus.has]
  | disable => simp [react, mapStatus]
  | clearDropped => simp [react, mapStatus]
  | enqueue m =>
      unfold react
      dsimp only
      split <;> simp
  | takeAck =>
      unfold react
      dsimp only
      split <;> simp

end React

/-- One tick or one event of the foreground. -/
def step (e : AxisEvent) (g : StepGenerator) : StepGenerator :=
  match e with
  | .tick limit encoder => (g.interrupt limit encoder).1
  | e => g.react e

theorem step_eq_react {e : AxisEvent} (he : e.isTick = false) (g : StepGenerator) :
    g.step e = g.react e := by
  cases e with
  | tick limit encoder => cases he
  | _ => rfl

/-- What is noted of an event. -/
def eventNotes (e : AxisEvent) (g : StepGenerator) : List AxisNote :=
  match e with
  | .tick limit _ => g.tickNotes limit
  | _ => []

/-- The generator after a list of events. -/
def run (g : StepGenerator) : List AxisEvent → StepGenerator
  | [] => g
  | e :: es => run (g.step e) es

/-- What the ticks of a run note, in order. -/
def history (g : StepGenerator) : List AxisEvent → List AxisNote
  | [] => []
  | e :: es => g.eventNotes e ++ history (g.step e) es

/-- The calls that the ticks make on the lines. -/
def emitted (g : StepGenerator) : List AxisEvent → List PinCall
  | [] => []
  | .tick limit encoder :: es =>
      (g.interrupt limit encoder).2 ++ emitted (g.interrupt limit encoder).1 es
  | e :: es => emitted (g.react e) es

theorem run_append (g : StepGenerator) (es fs : List AxisEvent) :
    g.run (es ++ fs) = (g.run es).run fs := by
  induction es generalizing g with
  | nil => rfl
  | cons e es ih => exact ih (g.step e)

/-! ## What the events of a run come to -/

/-- What the events of a run come to, one after another, each in the state in which it happens. -/
def collect {α : Type} (f : AxisEvent → StepGenerator → List α) (g : StepGenerator) :
    List AxisEvent → List α
  | [] => []
  | e :: es => f e g ++ collect f (g.step e) es

theorem collect_append {α : Type} (f : AxisEvent → StepGenerator → List α) (g : StepGenerator)
    (es fs : List AxisEvent) :
    g.collect f (es ++ fs) = g.collect f es ++ (g.run es).collect f fs := by
  induction es generalizing g with
  | nil => rfl
  | cons e es ih => simp only [List.cons_append, collect, run, ih, List.append_assoc]

/-- What respects the appending of lists can be applied to each event on its own. -/
theorem apply_collect {α β : Type} {F : List α → List β} {f : AxisEvent → StepGenerator → List α}
    {f' : AxisEvent → StepGenerator → List β} (hnil : F [] = [])
    (happend : ∀ k l, F (k ++ l) = F k ++ F l) (hf : ∀ e g, F (f e g) = f' e g)
    (g : StepGenerator) (es : List AxisEvent) : F (g.collect f es) = g.collect f' es := by
  induction es generalizing g with
  | nil => exact hnil
  | cons e es ih => rw [collect, happend, hf, ih, collect]

theorem collect_of_isTick {α : Type} {f : AxisEvent → StepGenerator → List α}
    (hf : ∀ e g, e.isTick = false → f e g = []) {es : List AxisEvent}
    (hes : ∀ e ∈ es, e.isTick = false) (g : StepGenerator) : g.collect f es = [] := by
  induction es generalizing g with
  | nil => rfl
  | cons e es ih =>
      rw [collect, hf e g (hes e (List.mem_cons_self ..)),
        ih fun x hx => hes x (List.mem_cons_of_mem _ hx)]
      rfl

theorem history_eq_collect (g : StepGenerator) (es : List AxisEvent) :
    g.history es = g.collect eventNotes es := by
  induction es generalizing g with
  | nil => rfl
  | cons e es ih => rw [history, collect, ih]

theorem history_append (g : StepGenerator) (es fs : List AxisEvent) :
    g.history (es ++ fs) = g.history es ++ (g.run es).history fs := by
  simp only [history_eq_collect, collect_append]

theorem eventNotes_of_isTick (e : AxisEvent) (g : StepGenerator) (he : e.isTick = false) :
    eventNotes e g = [] := by
  cases e with
  | tick limit encoder => cases he
  | _ => rfl

/-- Only ticks are noted. -/
theorem history_of_isTick {g : StepGenerator} {es : List AxisEvent}
    (h : ∀ e ∈ es, e.isTick = false) : g.history es = [] := by
  rw [history_eq_collect]
  exact collect_of_isTick eventNotes_of_isTick h g

theorem acks_history (g : StepGenerator) (es : List AxisEvent) :
    acks (g.history es) = g.collect (fun e g => acks (eventNotes e g)) es := by
  rw [history_eq_collect]
  exact apply_collect acks_nil acks_append (fun _ _ => rfl) g es

/-- The calls that are noted are the calls that were made. -/
theorem calls_history (g : StepGenerator) (es : List AxisEvent) :
    calls (g.history es) = g.emitted es := by
  induction es generalizing g with
  | nil => rfl
  | cons e es ih =>
      rw [history, calls_append, ih]
      cases e with
      | tick limit encoder =>
          rw [emitted, interrupt_snd]
          rfl
      | _ => rfl

/-! ## Carrying a fact through a run -/

section Account

variable {T : Type} (note : T → AxisNote → T) (hear : AxisEvent → StepGenerator → T → T)

/-- An account that is kept beside a run: `note` enters what the ticks have noted, and `hear` what
the foreground is about to do. -/
def account (g : StepGenerator) (t : T) : List AxisEvent → T
  | [] => t
  | .tick limit encoder :: es =>
      account (g.interrupt limit encoder).1 ((g.tickNotes limit).foldl note t) es
  | e :: es => account (g.react e) (hear e g t) es

theorem account_append (g : StepGenerator) (t : T) (es fs : List AxisEvent) :
    account note hear g t (es ++ fs) =
      account note hear (g.run es) (account note hear g t es) fs := by
  induction es generalizing g t with
  | nil => rfl
  | cons e es ih => cases e <;> exact ih _ _

/-- What each event adds to a list in an account, a run adds to it. -/
theorem account_collect {α : Type} (list : T → List α) (f : AxisEvent → StepGenerator → List α)
    (hf : ∀ e g t, list (account note hear g t [e]) = list t ++ f e g) (g : StepGenerator) (t : T)
    (es : List AxisEvent) : list (account note hear g t es) = list t ++ g.collect f es := by
  induction es generalizing g t with
  | nil => exact (List.append_nil _).symm
  | cons e es ih =>
      calc list (account note hear g t (e :: es))
          = list (account note hear (g.step e) (account note hear g t [e]) es) := by cases e <;> rfl
        _ = list t ++ f e g ++ (g.step e).collect f es := by rw [ih, hf]
        _ = list t ++ g.collect f (e :: es) := List.append_assoc _ _ _

/-- An account that does not listen to the foreground folds the history. -/
theorem account_eq_foldl_history (g : StepGenerator) (t : T) (es : List AxisEvent) :
    account note (fun _ _ t => t) g t es = (g.history es).foldl note t := by
  induction es generalizing g t with
  | nil => rfl
  | cons e es ih =>
      rw [history, List.foldl_append, ← ih]
      cases e <;> rfl

variable (I : StepGenerator → T → Prop) (ok : AxisNote → Prop)
  (hp : ∀ limit d g t, g.Due limit d → (∀ n ∈ g.notes d, ok n) → I g t →
    I (g.perform d) ((g.notes d).foldl note t))
  (hs : ∀ g t limit, I g t → I (sample limit g) t)
  (he : ∀ g t encoder, I g t → I (readEncoder encoder g) t)

include hp hs he

/-- What every action that is due and every event of the foreground keeps between the generator and
an account, a run keeps. -/
theorem run_account (hr : ∀ e g t, e.isTick = false → I g t → I (g.react e) (hear e g t))
    (es : List AxisEvent) (g : StepGenerator) (t : T) (hok : ∀ n ∈ g.history es, ok n)
    (h : I g t) : I (g.run es) (account note hear g t es) := by
  induction es generalizing g t with
  | nil => exact h
  | cons e es ih =>
      simp only [history, List.mem_append] at hok
      have hrest : ∀ n ∈ (g.step e).history es, ok n := fun n hn => hok n (.inr hn)
      cases e with
      | tick limit encoder =>
          exact ih _ _ hrest (interrupt_fold note I ok (hp limit) hs he encoder g t
            (fun n hn => hok n (.inl hn)) h)
      | enqueue m => exact ih _ _ hrest (hr (.enqueue m) g t rfl h)
      | requestCancel => exact ih _ _ hrest (hr .requestCancel g t rfl h)
      | disable => exact ih _ _ hrest (hr .disable g t rfl h)
      | takeAck => exact ih _ _ hrest (hr .takeAck g t rfl h)
      | clearDropped => exact ih _ _ hrest (hr .clearDropped g t rfl h)

theorem run_fold (hr : ∀ e g t, I g t → I (g.react e) t) (es : List AxisEvent)
    (g : StepGenerator) (t : T) (hok : ∀ n ∈ g.history es, ok n) (h : I g t) :
    I (g.run es) ((g.history es).foldl note t) := by
  rw [← account_eq_foldl_history]
  exact run_account note _ I ok hp hs he (fun e g t _ => hr e g t) es g t hok h

end Account

/-- What neither an action that is due nor an event of the foreground destroys holds after a run. -/
theorem run_invariant {P : StepGenerator → Prop}
    (hp : ∀ limit d g, g.Due limit d → P g → P (g.perform d))
    (hs : ∀ g limit, P g → P (sample limit g)) (he : ∀ g encoder, P g → P (readEncoder encoder g))
    (hr : ∀ e g, P g → P (g.react e)) (es : List AxisEvent) (g : StepGenerator) (h : P g) :
    P (g.run es) :=
  run_fold (T := Unit) (fun _ _ => ()) (fun g _ => P g) (fun _ => True)
    (fun limit d g _ hd _ => hp limit d g hd) (fun g _ => hs g) (fun g _ => he g)
    (fun e g _ => hr e g) es g () (fun _ _ => trivial) h

/-- A request to cancel stays until the next tick. -/
theorem cancelRequested_run {g : StepGenerator} {es : List AxisEvent}
    (h : g.status.cancelRequested = true) (hes : ∀ e ∈ es, e.isTick = false) :
    (g.run es).status.cancelRequested = true := by
  induction es generalizing g with
  | nil => exact h
  | cons e es ih =>
      refine ih ?_ fun x hx => hes x (List.mem_cons_of_mem _ hx)
      cases e with
      | tick limit encoder =>
          have htick := hes _ (List.mem_cons_self ..)
          simp [AxisEvent.isTick] at htick
      | requestCancel => rfl
      | enqueue m => exact (status_cancelRequested_react _ g (by simp)).trans h
      | disable => exact (status_cancelRequested_react _ g (by simp)).trans h
      | takeAck => exact (status_cancelRequested_react _ g (by simp)).trans h
      | clearDropped => exact (status_cancelRequested_react _ g (by simp)).trans h

/-! ## The position stays in range -/

/-- The position is in range and the status shows its whole steps. -/
structure Placed (g : StepGenerator) : Prop where
  nonneg : 0 ≤ g.position
  le_top : g.position ≤ topPosition
  shown : g.status.position = shownSteps g.position

theorem Placed.of_eq {g h : StepGenerator} (hg : g.Placed) (hp : h.position = g.position)
    (hs : h.status.position = g.status.position) : h.Placed :=
  ⟨hp ▸ hg.nonneg, hp ▸ hg.le_top, by rw [hs, hp]; exact hg.shown⟩

theorem toNat_shownSteps {p : Int} (h0 : 0 ≤ p) (ht : p ≤ topPosition) :
    ((shownSteps p).toNat : Int) = floorSteps p := by
  have hr : 0 ≤ floorSteps p ∧ floorSteps p < 4294967296 := by
    simp only [floorSteps, stepUnit, topPosition] at ht ⊢
    omega
  have hn : (floorSteps p).toNat < UInt32.size := by simp only [UInt32.size]; omega
  rw [shownSteps, if_pos hr, UInt32.toNat_ofNat_of_lt' hn]
  omega

/-- The status shows exactly the whole steps of the position. -/
theorem Placed.toNat_status_position {g : StepGenerator} (h : g.Placed) :
    (g.status.position.toNat : Int) = floorSteps g.position := by
  rw [h.shown]
  exact toNat_shownSteps h.nonneg h.le_top

theorem zero_le_top : 0 ≤ topPosition := by decide

theorem placed_setPosition (position : Int) (g : StepGenerator) :
    (g.setPosition position).Placed := by
  have ht := zero_le_top
  refine ⟨?_, ?_, rfl⟩ <;> simp only [setPosition, place] <;> omega

theorem placed_mount {g : StepGenerator} (m : Move) (moves : Queue Move) (h : g.Placed) :
    (g.mount m moves).Placed := by
  unfold mount
  dsimp only
  split
  · exact (placed_setPosition topPosition { g with moves }).of_eq rfl rfl
  · exact h.of_eq rfl rfl

theorem Placed.finish {g : StepGenerator} (reason : AckReason) (h : g.Placed) :
    (g.finish reason).Placed := by
  cases ha : g.active with
  | none => rwa [finish_eq_of_none ha]
  | some a =>
      rw [finish_eq_of_active ha]
      exact h.of_eq (position_offer _ _) (status_position_offer _ _)

theorem Placed.halt {g : StepGenerator} (h : g.Placed) : g.halt.Placed := by
  cases ha : g.active with
  | none => exact halt_eq_of_none ha ▸ h.of_eq rfl rfl
  | some a =>
      rw [halt_eq_of_active ha]
      exact h.of_eq (position_offer _ _) (status_position_offer _ _)

theorem Placed.load {g : StepGenerator} (h : g.Placed) : g.load.Placed := by
  cases hq : g.moves.pop? with
  | none => rwa [load_eq_of_none hq]
  | some p =>
      have hm := placed_mount p.1 p.2 h
      rw [load_eq_of_some hq]
      split
      · exact hm.of_eq rfl rfl
      · exact hm.halt

theorem Placed.advance {g : StepGenerator} (h : g.Placed) : g.advance.1.Placed := by
  cases ha : g.active with
  | none => simpa only [StepGenerator.advance, ha] using h
  | some a =>
      cases hn : next? a g.position with
      | none => simpa only [StepGenerator.advance, ha, hn] using h.halt
      | some p =>
          obtain ⟨-, -, -, h0, ht⟩ := next?_eq_some_iff.mp hn
          simp only [StepGenerator.advance, ha, hn]
          exact ⟨h0, ht, rfl⟩

theorem Placed.perform {g : StepGenerator} (d : TickAction) (h : g.Placed) :
    (g.perform d).Placed := by
  cases d with
  | cancel => exact h.of_eq rfl rfl
  | settle => exact h.of_eq rfl rfl
  | load => exact h.load
  | zero => exact Placed.finish _ ⟨Int.le_refl 0, zero_le_top, rfl⟩
  | advance => exact h.advance
  | finish reason => exact h.finish reason

theorem Placed.react {g : StepGenerator} (e : AxisEvent) (h : g.Placed) : (g.react e).Placed :=
  h.of_eq (position_react e g) (status_position_react e g)

/-- In every state of a run the position is in range and the status shows its whole steps. -/
theorem Placed.run {g : StepGenerator} (es : List AxisEvent) (h : g.Placed) :
    (g.run es).Placed := by
  apply run_invariant
  · intro limit d g _ h
    exact h.perform d
  · intro g limit h
    exact h.of_eq rfl rfl
  · intro g encoder h
    exact h.of_eq rfl rfl
  · intro e g h
    exact h.react e
  · exact h

theorem placed_start (link : MoveLink) : (start link).1.Placed :=
  ⟨Int.le_refl 0, zero_le_top, rfl⟩

end StepGenerator

end AxisNode
