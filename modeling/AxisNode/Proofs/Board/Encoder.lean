import AxisNode.Board.Stepper
import AxisNode.Proofs.Motion.Run
import Mathlib.Algebra.Ring.Int.Defs

/-!
# What the encoder shows

The hardware counts in sixteen bits, and each reading goes the shortest way round from the one
before it. So a reading is true as long as the encoder has gone less than half way round since the
last one. For this it is not enough that the timer ticks in time: a tick that cancels and a tick of
a halted axis do not read. What the encoder does meanwhile is shown late, and whole turns round the
sixteen bits are lost.

## Implementation notes

The travel of the encoder is kept beside a run in true counts, cut into stretches at some of the
ticks: cut at the ticks that read it decides what is shown, cut at every tick it says whether the
timer ticks in time.
-/

namespace AxisNode

/-! ## True counts -/

/-- The counts of which a reading can tell which way they went. -/
def InReach (counts : Int) : Prop := -32768 ≤ counts ∧ counts ≤ 32767

instance (counts : Int) : Decidable (InReach counts) := inferInstanceAs (Decidable (_ ∧ _))

/-- What a reading makes of the counts since the one before it. -/
def shortestWay (counts : Int) : Int := counts.bmod 65536

theorem shortestWay_of_inReach {counts : Int} (h : InReach counts) :
    shortestWay counts = counts := by
  obtain ⟨hlow, hhigh⟩ := h
  exact Int.bmod_eq_of_le hlow (by omega)

theorem map_shortestWay_of_inReach {l : List Int} (h : ∀ counts ∈ l, InReach counts) :
    l.map shortestWay = l := by
  rw [List.map_congr_left fun counts hc => shortestWay_of_inReach (h counts hc), List.map_id']

/-- Positions agree just if the counts differ by whole turns round thirty-two bits. -/
theorem ofInt_eq_ofInt_iff {a b : Int} :
    Int32.ofInt a = Int32.ofInt b ↔ (4294967296 : Int) ∣ b - a := by
  rw [← Int32.toInt_inj, Int32.toInt_ofInt, Int32.toInt_ofInt, eq_comm,
    Int.bmod_eq_bmod_iff_bmod_sub_eq_zero, ← Int.dvd_iff_bmod_eq_zero]
  rfl

/-- How far the encoder went. -/
structure Travel where
  /-- One stretch for each tick at which the travel was cut. -/
  stretches : List Int := []
  /-- The counts since then. -/
  pending : Int := 0
deriving DecidableEq, Repr

/-- All counts so far, in finished stretches and in the last. -/
def Travel.total (t : Travel) : Int := t.stretches.sum + t.pending

/-- Ends the stretch that is under way. -/
def Travel.cut (t : Travel) : Travel := { stretches := t.stretches ++ [t.pending] }

theorem Travel.total_cut (t : Travel) : t.cut.total = t.total := by
  simp [Travel.total, Travel.cut]

/-! ## The encoder on its own -/

namespace Encoder

variable {e : Encoder} {t : Travel}

/-- The encoder has been read at each cut of its travel, and its position went the shortest way in
each stretch. -/
structure Follows (e : Encoder) (t : Travel) : Prop where
  counter : e.counter = UInt16.ofInt t.total
  last : e.last = UInt16.ofInt t.stretches.sum
  position : e.position = Int32.ofInt (t.stretches.map shortestWay).sum

theorem Follows.turn (h : e.Follows t) (counts : Int) :
    (e.turn counts).Follows { t with pending := t.pending + counts } where
  counter := by
    rw [Encoder.turn, h.counter, ← UInt16.ofInt_add, Travel.total, Travel.total, Int.add_assoc]
  last := h.last
  position := h.position

/-- Sixteen bits taken as signed are the shortest way round. -/
theorem toInt_toInt16_ofInt (counts : Int) :
    (UInt16.ofInt counts).toInt16.toInt = shortestWay counts := by
  change (BitVec.ofNat 16 (counts % 2 ^ 16).toNat).toInt = _
  rw [BitVec.toInt_ofNat', Int.toNat_of_nonneg (Int.emod_nonneg counts (by decide))]
  exact Int.emod_bmod counts 65536

theorem Follows.movement (h : e.Follows t) : e.movement.toInt = shortestWay t.pending := by
  rw [Encoder.movement, h.counter, h.last, Travel.total, Int.add_comm, UInt16.ofInt_add,
    UInt16.add_sub_cancel, toInt_toInt16_ofInt]

/-- A reading adds one stretch. -/
theorem Follows.read (h : e.Follows t) : e.read.Follows t.cut where
  counter := by
    rw [t.total_cut]
    exact h.counter
  last := by
    rw [Encoder.read, h.counter]
    simp [Travel.total, Travel.cut]
  position := by
    rw [Encoder.read, h.position, ← Int32.ofInt_int16ToInt, h.movement, ← Int32.ofInt_add]
    simp [Travel.cut]

theorem follows_new : ({} : Encoder).Follows {} := ⟨rfl, rfl, rfl⟩

end Encoder

/-! ## Only a tick that reads changes what is shown -/

namespace StepGenerator

variable {g : StepGenerator}

theorem status_encoder_perform (d : TickAction) (g : StepGenerator) :
    (g.perform d).status.encoder = g.status.encoder := by
  by_cases hd : d = .cancel
  · subst hd
    rfl
  · exact status_perform (f := AxisStatus.encoder) ⟨fun _ _ => rfl, fun _ _ => rfl⟩ hd g

theorem status_encoder_performAll (ds : List TickAction) (g : StepGenerator) :
    (performAll ds g).status.encoder = g.status.encoder := by
  induction ds generalizing g with
  | nil => rfl
  | cons d ds ih => exact (ih (g.perform d)).trans (status_encoder_perform d g)

theorem status_encoder_react (e : AxisEvent) (g : StepGenerator) :
    (g.react e).status.encoder = g.status.encoder := by
  unfold react; split <;> try split
  all_goals rfl

/-- A tick shows what it has read, if it has read anything. -/
theorem status_encoder_interrupt (limit : Bool) (encoder : Option Int32) (g : StepGenerator) :
    (g.interrupt limit encoder).1.status.encoder =
      if g.readsEncoder then encoder.getD g.status.encoder else g.status.encoder := by
  have hall := status_encoder_performAll ((g.sample limit).actions limit) (g.sample limit)
  rw [interrupt_eq]
  cases g.readsEncoder with
  | true => exact congrArg encoder.getD hall
  | false => exact hall

theorem readsEncoder_iff :
    g.readsEncoder = true ↔ g.status.cancelRequested = false ∧ g.phase ≠ .halted := by
  simp [readsEncoder]

end StepGenerator

/-! ## A stepper with an encoder -/

/-- The lines of a stepper and the generator that drives them. -/
structure Stepper where
  lines : StepperLines
  generator : StepGenerator
deriving DecidableEq, Repr

/-- Something that happens to a stepper. -/
inductive StepperEvent where
  | interrupt
  /-- The foreground uses the link; a tick does not come from there and does nothing. -/
  | foreground (e : AxisEvent)
  /-- The switch line changes its level. -/
  | switch (level : Bool)
  /-- The encoder is turned by a number of counts. -/
  | turn (counts : Int)
deriving DecidableEq, Repr

/-- The counts by which an event turns the encoder. -/
def StepperEvent.counts : StepperEvent → Int
  | turn counts => counts
  | _ => 0

/-- The true count that events come to. -/
def counted (es : List StepperEvent) : Int := (es.map StepperEvent.counts).sum

/-- What an event adds to the travel, which an interrupt may cut. -/
def Travel.enter (cuts : Bool) (e : StepperEvent) (t : Travel) : Travel :=
  match e with
  | .turn counts => { t with pending := t.pending + counts }
  | .interrupt => if cuts then t.cut else t
  | _ => t

theorem Travel.total_enter (cuts : Bool) (e : StepperEvent) (t : Travel) :
    (t.enter cuts e).total = t.total + e.counts := by
  cases e with
  | turn counts => exact (Int.add_assoc _ _ _).symm
  | interrupt =>
      cases cuts with
      | true => exact t.total_cut.trans (Int.add_zero _).symm
      | false => exact (Int.add_zero _).symm
  | foreground e => exact (Int.add_zero _).symm
  | switch level => exact (Int.add_zero _).symm

namespace StepperLines

/-- The calls of a tick leave the encoder alone. -/
theorem encoder_foldl_drive (calls : List PinCall) (s : StepperLines) :
    (calls.foldl drive s).encoder = s.encoder := by
  induction calls generalizing s with
  | nil => rfl
  | cons c calls ih =>
      rw [List.foldl_cons, ih]
      cases c <;> rfl

end StepperLines

namespace Stepper

variable {s : Stepper} {t : Travel}

/-- A fresh generator, whatever waits for it, on lines with an encoder at zero. -/
def start (level : Bool) (moves : Queue Move) (acks : Queue MoveAck) : Stepper :=
  let (generator, calls) := StepGenerator.start { moves, acks }
  { lines := calls.foldl .drive { limit := level, encoder := some {} }, generator }

/-- One event at the lines or at the generator behind them. -/
def step (e : StepperEvent) (s : Stepper) : Stepper :=
  match e with
  | .interrupt =>
      let (lines, generator) := s.lines.interrupt s.generator
      { lines, generator }
  | .foreground e => { s with generator := s.generator.react e }
  | .switch level => { s with lines := { s.lines with limit := level } }
  | .turn counts =>
      { s with lines := { s.lines with encoder := s.lines.encoder.map (·.turn counts) } }

/-- The stepper after a list of events. -/
def run (s : Stepper) : List StepperEvent → Stepper
  | [] => s
  | e :: es => run (s.step e) es

/-- Whether the next interrupt reads the encoder. -/
def reads (s : Stepper) : Bool := s.generator.readsEncoder

/-- The travel along a run, cut at the interrupts that find the stepper as given. -/
def travelFrom (cuts : Stepper → Bool) (s : Stepper) (t : Travel) : List StepperEvent → Travel
  | [] => t
  | e :: es => travelFrom cuts (s.step e) (t.enter (cuts s) e) es

/-- The travel along a run from the beginning. -/
def travel (cuts : Stepper → Bool) (s : Stepper) (es : List StepperEvent) : Travel :=
  s.travelFrom cuts {} es

theorem travelFrom_append (cuts : Stepper → Bool) (s : Stepper) (t : Travel)
    (es fs : List StepperEvent) :
    s.travelFrom cuts t (es ++ fs) = (s.run es).travelFrom cuts (s.travelFrom cuts t es) fs := by
  induction es generalizing s t with
  | nil => rfl
  | cons e es ih => exact ih (s.step e) (t.enter (cuts s) e)

/-- However the travel is cut, it comes to the true count. -/
theorem total_travel (cuts : Stepper → Bool) (s : Stepper) (es : List StepperEvent) :
    (s.travel cuts es).total = counted es := by
  have hfrom : ∀ (es : List StepperEvent) (s : Stepper) (t : Travel),
      (s.travelFrom cuts t es).total = t.total + counted es := by
    intro es
    induction es with
    | nil => exact fun _ _ => (Int.add_zero _).symm
    | cons e es ih =>
        intro s t
        rw [travelFrom, ih, Travel.total_enter, Int.add_assoc]
        rfl
  exact (hfrom es s {}).trans (Int.zero_add _)

/-- The encoder follows its travel, and the status shows its last reading. -/
def Follows (s : Stepper) (t : Travel) : Prop :=
  ∃ e, s.lines.encoder = some e ∧ e.Follows t ∧ s.generator.status.encoder = e.position

theorem Follows.interrupt (h : s.Follows t) :
    (s.step .interrupt).Follows (t.enter s.reads .interrupt) := by
  obtain ⟨e, he, hfollows, hshown⟩ := h
  unfold step StepperLines.interrupt Follows Travel.enter reads
  dsimp only
  cases hr : s.generator.readsEncoder with
  | true =>
      refine ⟨e.read, ?_, hfollows.read, ?_⟩
      · rw [StepperLines.encoder_foldl_drive]
        simp [StepperLines.readEncoder, he]
      · rw [StepGenerator.status_encoder_interrupt, if_pos hr]
        simp [StepperLines.readEncoder, he]
  | false =>
      refine ⟨e, ?_, hfollows, ?_⟩
      · rw [StepperLines.encoder_foldl_drive]
        exact he
      · rw [StepGenerator.status_encoder_interrupt, hr]
        exact hshown

theorem Follows.step (h : s.Follows t) (e : StepperEvent) :
    (s.step e).Follows (t.enter s.reads e) := by
  cases e with
  | interrupt => exact h.interrupt
  | foreground e =>
      obtain ⟨encoder, he, hfollows, hshown⟩ := h
      exact ⟨encoder, he, hfollows, (StepGenerator.status_encoder_react e s.generator).trans hshown⟩
  | switch level => exact h
  | turn counts =>
      obtain ⟨encoder, he, hfollows, hshown⟩ := h
      exact ⟨encoder.turn counts, congrArg (Option.map _) he, hfollows.turn counts, hshown⟩

theorem Follows.run (h : s.Follows t) (es : List StepperEvent) :
    (s.run es).Follows (s.travelFrom reads t es) := by
  induction es generalizing s t with
  | nil => exact h
  | cons e es ih => exact ih (h.step e)

theorem follows_start (level : Bool) (moves : Queue Move) (acks : Queue MoveAck) :
    (start level moves acks).Follows {} :=
  ⟨{}, StepperLines.encoder_foldl_drive _ _, Encoder.follows_new, rfl⟩

/-- In every state of a run the status shows the shortest ways between the readings so far. -/
theorem status_encoder_run (level : Bool) (moves : Queue Move) (acks : Queue MoveAck)
    (es : List StepperEvent) :
    ((start level moves acks).run es).generator.status.encoder =
      Int32.ofInt
        (((start level moves acks).travel reads es).stretches.map shortestWay).sum := by
  obtain ⟨e, -, hfollows, hshown⟩ := (follows_start level moves acks).run es
  exact hshown.trans hfollows.position

theorem counted_concat_interrupt (es : List StepperEvent) :
    counted (es ++ [.interrupt]) = counted es := by
  simp [counted, StepperEvent.counts]

/-- An interrupt that reads leaves nothing unread. -/
theorem pending_travel_concat_interrupt {cuts : Stepper → Bool} {es : List StepperEvent}
    (h : cuts (s.run es) = true) : (s.travel cuts (es ++ [.interrupt])).pending = 0 := by
  rw [travel, travelFrom_append, travelFrom, travelFrom, h]
  rfl

/-- If the encoder stays in reach from one interrupt that reads to the next, then an interrupt that
reads shows the true count, and any other shows the one of the last reading. -/
theorem encoder_is_true_when_read (level : Bool) (moves : Queue Move) (acks : Queue MoveAck)
    (es : List StepperEvent) :
    let s := start level moves acks
    let before := s.run es
    let after := s.run (es ++ [.interrupt])
    let t := s.travel reads (es ++ [.interrupt])
    (∀ counts ∈ t.stretches, InReach counts) →
      (before.generator.status.cancelRequested = false → before.generator.phase ≠ .halted →
        after.generator.status.encoder = Int32.ofInt (counted es)) ∧
      after.generator.status.encoder = Int32.ofInt (counted es - t.pending) ∧
      (after.generator.status.encoder = Int32.ofInt (counted es) ↔
        (4294967296 : Int) ∣ t.pending) := by
  intro s before after t hreach
  have htotal : t.stretches.sum + t.pending = counted es := by
    rw [← counted_concat_interrupt es]
    exact total_travel reads s (es ++ [.interrupt])
  have hshown : after.generator.status.encoder = Int32.ofInt (counted es - t.pending) := by
    have hrun := status_encoder_run level moves acks (es ++ [.interrupt])
    rw [map_shortestWay_of_inReach hreach] at hrun
    rw [← htotal, Int.add_sub_cancel]
    exact hrun
  refine ⟨fun hcancel hphase => ?_, hshown, ?_⟩
  · have hpending : t.pending = 0 :=
      pending_travel_concat_interrupt (StepGenerator.readsEncoder_iff.mpr ⟨hcancel, hphase⟩)
    rw [hshown, hpending, Int.sub_zero]
  · rw [hshown, ofInt_eq_ofInt_iff, Int.sub_sub_self]

/-- The encoder goes round its sixteen bits while the axis halts, stays halted and is cancelled. -/
theorem encoder_is_true_when_read_of_cancelled :
    let es : List StepperEvent :=
      [.turn 30000, .interrupt, .foreground (.enqueue ⟨0, 0, 1, -2147483648, 0, ⟨0⟩⟩), .interrupt,
        .turn 30000, .interrupt, .turn 30000, .interrupt, .foreground .requestCancel, .interrupt]
    let before := (start true (.empty 3) (.empty 3)).run es
    (∀ counts ∈ ((start true (.empty 3) (.empty 3)).travel reads (es ++ [.interrupt])).stretches,
        InReach counts) ∧
      before.generator.status.cancelRequested = false ∧ before.generator.phase ≠ .halted ∧
      before.generator.status.encoder = 60000 ∧
      ((start true (.empty 3) (.empty 3)).run (es ++ [.interrupt])).generator.status.encoder =
        90000 := by
  intro es before
  have hreach : ∀ counts ∈
      ((start true (.empty 3) (.empty 3)).travel reads (es ++ [.interrupt])).stretches,
      InReach counts := by
    decide +kernel
  obtain ⟨htrue, -, -⟩ := encoder_is_true_when_read true (.empty 3) (.empty 3) es hreach
  have hcancel : before.generator.status.cancelRequested = false := by decide +kernel
  have hphase : before.generator.phase ≠ .halted := by decide +kernel
  refine ⟨hreach, hcancel, hphase, by decide +kernel, ?_⟩
  rw [htrue hcancel hphase]
  decide +kernel

/-- The timer ticks in time throughout, but while the axis is halted the encoder goes once round its
sixteen bits. The status does not show it, not even after the cancel. -/
theorem halted_axis_loses_turn :
    let s := start true (.empty 3) (.empty 3)
    let halted : List StepperEvent :=
      [.foreground (.enqueue ⟨0, 0, 1, -2147483648, 0, ⟨0⟩⟩), .interrupt, .interrupt,
        .turn 32767, .interrupt, .turn 32767, .interrupt, .turn 2, .interrupt]
    let es := halted ++ [.foreground .requestCancel, .interrupt, .interrupt]
    (∀ counts ∈ (s.travel (fun _ => true) es).stretches, InReach counts) ∧
      (s.run halted).generator.phase = .halted ∧ Int32.ofInt (counted halted) = 65536 ∧
      (s.run halted).generator.status.encoder = 0 ∧
      (s.run es).generator.phase = .idle ∧ Int32.ofInt (counted es) = 65536 ∧
      (s.run es).generator.status.encoder = 0 := by
  decide +kernel

end Stepper

end AxisNode
