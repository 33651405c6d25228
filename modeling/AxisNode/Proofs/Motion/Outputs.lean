import AxisNode.Proofs.Motion.Run

/-!
# What leaves the generator

The history of a run is a list of notes, and a note is not yet an output. Here the notes are
compared with what can be seen from outside: the calls on the lines, the moves that are gone from
the one queue and the acknowledgements that are new in the other. The calls and the loads in a
history are just these calls and these moves. Of the acknowledgements in it those that found room
are the new ones in the queue, and for each of the others a flag was raised.
-/

namespace AxisNode

/-! ## What the reader is told -/

namespace AckTray

/-- Acknowledgements that are offered one after another, each with whether it found room. -/
def offers : AckTray → List MoveAck → List (MoveAck × Bool)
  | _, [] => []
  | t, a :: as => (a, (t.queue.push? a).isSome) :: offers (t.receive a) as

theorem map_fst_offers (t : AckTray) (as : List MoveAck) : (t.offers as).map Prod.fst = as := by
  induction as generalizing t with
  | nil => rfl
  | cons a as ih => rw [offers, List.map_cons, ih]

/-- The queue takes just what finds room. -/
theorem items_foldl_receive (t : AckTray) (as : List MoveAck) :
    (as.foldl receive t).queue.items =
      t.queue.items ++ ((t.offers as).filter Prod.snd).map Prod.fst := by
  induction as generalizing t with
  | nil => simp [offers]
  | cons a as ih =>
      rw [List.foldl_cons, ih, offers]
      cases hp : t.queue.push? a with
      | none => simp [receive, hp]
      | some q => simp [receive, hp, (Queue.push?_eq_some_iff.mp hp).2.1]

/-- Just an acknowledgement that finds no room is lost. -/
theorem lost_foldl_receive (t : AckTray) (as : List MoveAck) :
    (as.foldl receive t).lost = (t.lost || (t.offers as).any fun o => !o.2) := by
  induction as generalizing t with
  | nil => simp [offers]
  | cons a as ih =>
      rw [List.foldl_cons, ih, offers]
      cases hp : t.queue.push? a with
      | none => simp [receive, hp]
      | some q => simp [receive, hp]

end AckTray

namespace StepGenerator

/-- The acknowledgements that are offered on an event, each with whether it found room. -/
def attempted (e : AxisEvent) (g : StepGenerator) : List (MoveAck × Bool) :=
  g.tray.offers (acks (eventNotes e g))

/-- The acknowledgement that the reader takes on an event, if any. -/
def delivered (e : AxisEvent) (g : StepGenerator) : List MoveAck :=
  match e with
  | .takeAck => (g.acks.pop?.map Prod.fst).toList
  | _ => []

theorem map_fst_attempted (g : StepGenerator) (es : List AxisEvent) :
    (g.collect attempted es).map Prod.fst = acks (g.history es) := by
  rw [acks_history]
  exact apply_collect rfl (fun _ _ => List.map_append) (fun _ _ => AckTray.map_fst_offers _ _) g es

theorem attempted_of_isTick (e : AxisEvent) (g : StepGenerator) (he : e.isTick = false) :
    attempted e g = [] := by
  cases e with
  | tick limit encoder => cases he
  | _ => rfl

theorem delivered_react (e : AxisEvent) (g : StepGenerator) :
    delivered e g ++ (g.react e).acks.items = g.acks.items := by
  cases e with
  | takeAck =>
      unfold delivered react
      cases hp : g.acks.pop? with
      | none => rfl
      | some p => exact (Queue.pop?_eq_some_iff.mp hp).1.symm
  | enqueue m =>
      unfold delivered react
      dsimp only
      cases g.moves.push? m <;> rfl
  | _ => rfl

theorem delivered_step (e : AxisEvent) (g : StepGenerator) :
    delivered e g ++ (g.step e).acks.items =
      g.acks.items ++ ((attempted e g).filter Prod.snd).map Prod.fst := by
  cases he : e.isTick with
  | false =>
      rw [step_eq_react he, attempted_of_isTick e g he, delivered_react]
      exact (List.append_nil _).symm
  | true =>
      cases e with
      | tick limit encoder =>
          have ht := congrArg (·.queue.items) (tray_interrupt limit encoder g)
          rw [AckTray.items_foldl_receive] at ht
          exact ht
      | _ => cases he

/-- What the reader takes and what waits for it are the acknowledgements that found room. -/
theorem delivered_run (g : StepGenerator) (es : List AxisEvent) :
    g.collect delivered es ++ (g.run es).acks.items =
      g.acks.items ++ ((g.collect attempted es).filter Prod.snd).map Prod.fst := by
  induction es generalizing g with
  | nil => simp [collect, run]
  | cons e es ih =>
      rw [collect, collect, List.append_assoc, run, ih, ← List.append_assoc, delivered_step]
      simp

/-- The flag of a lost acknowledgement is up after an event just if one was lost on it, or if it was
up before and was not lowered. -/
theorem lost_step (e : AxisEvent) (g : StepGenerator) :
    (g.step e).status.has .ackDropped =
      (((attempted e g).any fun o => !o.2) ||
        (g.status.has .ackDropped && e != .clearDropped)) := by
  cases he : e.isTick with
  | false =>
      rw [step_eq_react he, attempted_of_isTick e g he, status_has_react]
      cases e <;> simp
  | true =>
      cases e with
      | tick limit encoder =>
          have ht := congrArg AckTray.lost (tray_interrupt limit encoder g)
          rw [AckTray.lost_foldl_receive, Bool.or_comm] at ht
          exact ht.trans (congrArg _ (Bool.and_true _).symm)
      | _ => cases he

/-- An acknowledgement that finds no room leaves the flag raised. -/
theorem flagged_of_lost {e : AxisEvent} {g : StepGenerator} {o : MoveAck × Bool}
    (ho : o ∈ attempted e g) (hlost : o.2 = false) : (g.step e).status.has .ackDropped = true := by
  have hany : ((attempted e g).any fun o => !o.2) = true :=
    List.any_eq_true.mpr ⟨o, ho, by rw [hlost]; rfl⟩
  rw [lost_step, hany, Bool.true_or]

/-! ## What is seen of a tick -/

/-- The calls that an event makes on the lines. -/
def called (e : AxisEvent) (g : StepGenerator) : List PinCall :=
  match e with
  | .tick limit encoder => (g.interrupt limit encoder).2
  | _ => []

/-- The acknowledgements that an event adds to the queue. -/
def enqueued (e : AxisEvent) (g : StepGenerator) : List MoveAck :=
  match e with
  | .tick limit encoder => (g.interrupt limit encoder).1.acks.items.drop g.acks.items.length
  | _ => []

/-- The moves that an event takes from the front of the queue for the generator to run. A tick that
cancels takes none: it drops them all. -/
def dequeued (e : AxisEvent) (g : StepGenerator) : List Move :=
  match e with
  | .tick limit encoder =>
      let left := (g.interrupt limit encoder).1.moves.items
      if g.status.cancelRequested then []
      else g.moves.items.take (g.moves.items.length - left.length)
  | _ => []

/-- The calls that are noted are made, and no others. -/
theorem calls_eventNotes (e : AxisEvent) (g : StepGenerator) :
    calls (eventNotes e g) = called e g := by
  cases e with
  | tick limit encoder => exact (interrupt_snd limit encoder g).symm
  | _ => rfl

/-- What found room is what the queue has more than before. -/
theorem enqueued_eq (e : AxisEvent) (g : StepGenerator) :
    ((attempted e g).filter Prod.snd).map Prod.fst = enqueued e g := by
  cases e with
  | tick limit encoder =>
      have hstep := delivered_step (.tick limit encoder) g
      exact (List.drop_left' rfl).symm.trans (congrArg (List.drop g.acks.items.length) hstep.symm)
  | _ => rfl

/-- The moves that are loaded are what the queue has no more, in its order. -/
theorem loads_eventNotes (e : AxisEvent) (g : StepGenerator) :
    loads (eventNotes e g) = dequeued e g := by
  cases e with
  | tick limit encoder =>
      unfold eventNotes dequeued
      dsimp only
      cases hc : g.status.cancelRequested with
      | true =>
          rw [tickNotes_of_cancelRequested limit hc]
          rfl
      | false =>
          rw [← loads_interrupt_eq hc limit encoder, List.length_append, Nat.add_sub_cancel]
          exact (List.take_left' rfl).symm
  | _ => rfl

/-! ## What is seen of a run -/

/-- Notes that show what a run has done outside the generator, and nothing else. -/
structure Shows (g : StepGenerator) (es : List AxisEvent) (h : List AxisNote) : Prop where
  /-- The calls in them are those that the ticks have made on the lines. -/
  calls : calls h = g.emitted es
  /-- The loads in them are the moves that the ticks have taken from the queue. -/
  loads : loads h = g.collect dequeued es
  /-- The acknowledgements in them were offered to the queue, -/
  acks : acks h = (g.collect attempted es).map Prod.fst
  /-- and it has got those that found room. -/
  enqueued : ((g.collect attempted es).filter Prod.snd).map Prod.fst = g.collect enqueued es
  /-- For each of the others the flag of a lost one was raised. -/
  flagged : ∀ before e after, es = before ++ e :: after →
    (∃ o ∈ attempted e (g.run before), o.2 = false) →
    ((g.run before).step e).status.has .ackDropped = true

/-- The history of a run shows what the run has done. -/
theorem shows_history (g : StepGenerator) (es : List AxisEvent) : g.Shows es (g.history es) where
  calls := calls_history g es
  loads := by
    rw [history_eq_collect]
    exact apply_collect loads_nil loads_append loads_eventNotes g es
  acks := (map_fst_attempted g es).symm
  enqueued := by
    apply apply_collect (F := fun k => (k.filter Prod.snd).map Prod.fst)
    · rfl
    · intro k l
      rw [List.filter_append, List.map_append]
    · exact enqueued_eq
  flagged := by
    rintro before e after - ⟨o, ho, hlost⟩
    exact flagged_of_lost ho hlost

end StepGenerator

end AxisNode
