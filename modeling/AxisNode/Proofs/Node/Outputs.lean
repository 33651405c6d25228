import AxisNode.Proofs.Motion.Outputs
import AxisNode.Proofs.Node.Run

/-!
# What leaves the node

A tick of the node is a tick of its step generator, and no other event makes the generator step,
load or acknowledge. So what the ticks of a node show outside is what the generator shows in the run
that it does there, and the notes of that run show just this.
-/

namespace AxisNode

open StepGenerator

namespace Node

variable {τ α β : Type}

/-- What a tick of the step generator comes to, for the node. -/
def onTick (f : AxisEvent → StepGenerator → List α) (e : NodeEvent) (n : Node τ) : List α :=
  match e with
  | .tick limit encoder => f (.tick limit encoder) n.axis
  | _ => []

theorem onTick_of_isTick (f : AxisEvent → StepGenerator → List α) {e : NodeEvent}
    (he : e.isTick = false) (n : Node τ) : n.onTick f e = [] := by
  cases e with
  | tick limit encoder => cases he
  | _ => rfl

theorem apply_onTick {F : List α → List β} {f : AxisEvent → StepGenerator → List α}
    {f' : AxisEvent → StepGenerator → List β} (hnil : F [] = []) (hf : ∀ e g, F (f e g) = f' e g)
    (e : NodeEvent) (n : Node τ) : F (n.onTick f e) = n.onTick f' e := by
  cases e with
  | tick limit encoder => exact hf _ _
  | _ => exact hnil

/-- To the generator's history an event adds what the node's tick notes, if it is one. -/
theorem history_axisEvents (e : NodeEvent) (n : Node τ) :
    n.axis.history (n.axisEvents e) = n.onTick eventNotes e := by
  cases he : e.isTick with
  | false => rw [history_of_isTick (isTick_axisEvents he n), onTick_of_isTick eventNotes he]
  | true =>
      cases e with
      | tick limit encoder => exact List.append_nil _
      | _ => cases he

end Node

namespace Site

variable {τ β : Type} [RegisterLink τ] [FrameBus β] {α γ : Type}

/-- What the events of a run come to, one after another, each in the node to which it happens. -/
def collect (f : NodeEvent → Node τ → List α) (s : Site τ β) : List NodeEvent → List α
  | [] => []
  | e :: es => f e s.node ++ collect f (s.step e) es

/-- What respects the appending of lists can be applied to each event on its own. -/
theorem apply_collect {F : List α → List γ} {f : NodeEvent → Node τ → List α}
    {f' : NodeEvent → Node τ → List γ} (hnil : F [] = [])
    (happend : ∀ k l, F (k ++ l) = F k ++ F l) (hf : ∀ e n, F (f e n) = f' e n)
    (s : Site τ β) (es : List NodeEvent) : F (s.collect f es) = s.collect f' es := by
  induction es generalizing s with
  | nil => exact hnil
  | cons e es ih => rw [collect, happend, hf, ih, collect]

theorem history_axisEvents (s : Site τ β) (es : List NodeEvent) :
    s.node.axis.history (s.axisEvents es) = s.collect (Node.onTick eventNotes) es := by
  induction es generalizing s with
  | nil => rfl
  | cons e es ih =>
      rw [axisEvents, history_append, Node.history_axisEvents, ← axis_step, ih, collect]

/-- Notes that show what the ticks of a node have done outside its step generator, and nothing
else. -/
structure Shows (s : Site τ β) (es : List NodeEvent) (h : List AxisNote) : Prop where
  /-- The calls in them are those that the ticks have made on the lines. -/
  calls : calls h = s.collect (Node.onTick called) es
  /-- The loads in them are the moves that the ticks have taken from the queue. -/
  loads : loads h = s.collect (Node.onTick dequeued) es
  /-- The acknowledgements in them were offered to the queue, -/
  acks : acks h = (s.collect (Node.onTick attempted) es).map Prod.fst
  /-- and it has got those that found room. -/
  enqueued : ((s.collect (Node.onTick attempted) es).filter Prod.snd).map Prod.fst =
    s.collect (Node.onTick enqueued) es
  /-- For each of the others the flag of a lost one was raised. -/
  flagged : ∀ before e after, es = before ++ e :: after →
    (∃ o ∈ (s.run before).node.onTick attempted e, o.2 = false) →
    ((s.run before).step e).node.axis.status.has .ackDropped = true

/-- The history of its step generator shows what a node has done. -/
theorem shows_history (s : Site τ β) (es : List NodeEvent) :
    s.Shows es (s.node.axis.history (s.axisEvents es)) := by
  rw [history_axisEvents]
  constructor
  · exact apply_collect calls_nil calls_append (Node.apply_onTick calls_nil calls_eventNotes) s es
  · exact apply_collect loads_nil loads_append (Node.apply_onTick loads_nil loads_eventNotes) s es
  · have hacks : ∀ e g, acks (eventNotes e g) = (attempted e g).map Prod.fst :=
      fun e g => (AckTray.map_fst_offers _ _).symm
    rw [apply_collect acks_nil acks_append (Node.apply_onTick acks_nil hacks)]
    exact (apply_collect rfl (fun _ _ => List.map_append)
      (Node.apply_onTick rfl fun _ _ => rfl) s es).symm
  · apply apply_collect (F := fun k => (k.filter Prod.snd).map Prod.fst)
    · rfl
    · intro k l
      rw [List.filter_append, List.map_append]
    · exact Node.apply_onTick (F := fun k => (k.filter Prod.snd).map Prod.fst) rfl enqueued_eq
  · rintro before e after - ⟨o, ho, hlost⟩
    cases e with
    | tick limit encoder =>
        rw [axis_step]
        exact flagged_of_lost (e := .tick limit encoder) (g := (s.run before).node.axis) ho hlost
    | _ => exact absurd ho List.not_mem_nil

end Site

end AxisNode
