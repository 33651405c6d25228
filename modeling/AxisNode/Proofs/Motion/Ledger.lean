import AxisNode.Proofs.Motion.Outputs

/-!
# Every move is accounted for

A move that the queue has taken waits there until it is loaded, is then active, and ends either
with one acknowledgement or with a cancel. A ledger is kept beside a run: it enters each move that
the queue takes, and for each move that has ended how it ended and where the axis stood. The moves
of the ledger are always those that were queued, in their order, and the acknowledgements in it are
those that were offered to the reader.

## Implementation notes

The ledger follows the notes of the ticks alone, so that it agrees with the generator is a result
and not the way it is defined.
-/

namespace AxisNode

/-- How a move has ended. -/
inductive Ending where
  /-- It was acknowledged when the axis stood at this position. -/
  | retired (m : Move) (a : MoveAck) (position : Int)
  /-- A cancel dropped it. -/
  | discarded (m : Move)
deriving DecidableEq, Repr

namespace Ending

/-- The move that has ended. -/
def move : Ending → Move
  | retired m _ _ => m
  | discarded m => m

/-- The acknowledgement of the end; a discarded move has none. -/
def ack? : Ending → Option MoveAck
  | retired _ a _ => some a
  | discarded _ => none

/-- The acknowledgement of a retired move names that move and the whole steps of the position. -/
def Truthful : Ending → Prop
  | retired m a position =>
      a.group = m.group ∧ a.seq = m.seq ∧ (a.position.toNat : Int) = FixedPoint.floorSteps position
  | discarded _ => True

end Ending

/-- What has become of the moves that were queued, oldest first. -/
structure Ledger where
  queued : List Move := []
  offered : List MoveAck := []
  ended : List Ending := []
  active : Option Move := none
  waiting : List Move := []
  position : Int := 0
deriving DecidableEq, Repr

namespace Ledger

/-- Enters a note. An acknowledgement ends the active move, and a cancel ends all there are. -/
def note (l : Ledger) : AxisNote → Ledger
  | .cancelled =>
      { l with
        ended := l.ended ++ (l.active.toList ++ l.waiting).map .discarded
        active := none
        waiting := [] }
  | .loaded m => { l with active := some m, waiting := l.waiting.tail }
  | .rebased r => { l with position := r.position }
  | .advanced _ position => { l with position }
  | .called _ => l
  | .acked a =>
      { l with
        offered := l.offered ++ [a]
        ended := l.ended ++ l.active.toList.map fun m => .retired m a l.position
        active := none }

/-- Enters a move that the queue is about to take. -/
def hear (e : AxisEvent) (g : StepGenerator) (l : Ledger) : Ledger :=
  match e with
  | .enqueue m =>
      if (g.moves.push? m).isSome then
        { l with queued := l.queued ++ [m], waiting := l.waiting ++ [m] }
      else l
  | _ => l

end Ledger

namespace StepGenerator

open FixedPoint

/-- The ledger of a run. -/
def ledger (g : StepGenerator) (es : List AxisEvent) : Ledger :=
  account Ledger.note Ledger.hear g {} es

/-- The move that the queue takes on an event, if any. -/
def taken (e : AxisEvent) (g : StepGenerator) : List Move :=
  match e with
  | .enqueue m => if (g.moves.push? m).isSome then [m] else []
  | _ => []

variable {g h : StepGenerator} {l : Ledger}

/-- The ledger agrees with the generator: every move that was queued has ended, is active or waits,
in this order, and every acknowledgement that was offered has retired one of them. -/
structure Books (g : StepGenerator) (l : Ledger) : Prop where
  placed : g.Placed
  active : l.active = g.active.map (·.move)
  waiting : l.waiting = g.moves.items
  position : l.position = g.position
  moves : l.queued = l.ended.map Ending.move ++ l.active.toList ++ l.waiting
  acks : l.ended.filterMap Ending.ack? = l.offered
  truthful : ∀ x ∈ l.ended, x.Truthful

namespace Books

theorem of_eq (hb : g.Books l) (hp : h.position = g.position)
    (hs : h.status.position = g.status.position)
    (ha : h.active.map (·.move) = g.active.map (·.move)) (hm : h.moves = g.moves) : h.Books l := by
  refine ⟨hb.placed.of_eq hp hs, ?_, ?_, ?_, hb.moves, hb.acks, hb.truthful⟩
  · rw [ha]
    exact hb.active
  · rw [hm]
    exact hb.waiting
  · rw [hp]
    exact hb.position

/-- A move that is acknowledged goes from the active place to the endings. -/
theorem retire {a : RunningMove} {k : MoveAck} (hb : g.Books l) (ha : g.active = some a)
    (hg : k.group = a.move.group) (hq : k.seq = a.move.seq) (hk : k.position = g.status.position)
    (hn : h.active = none) (hm : h.moves = g.moves) (hp : h.position = g.position)
    (hs : h.status.position = g.status.position) : (h.offer k).Books (l.note (.acked k)) := by
  have hl : l.active = some a.move := by rw [hb.active, ha]; rfl
  refine ⟨hb.placed.of_eq ((position_offer k h).trans hp)
    ((status_position_offer k h).trans hs), ?_, ?_, ?_, ?_, ?_, ?_⟩
  · simp [Ledger.note, hn]
  · rw [moves_offer, hm]
    exact hb.waiting
  · rw [position_offer, hp]
    exact hb.position
  · simp [Ledger.note, hb.moves, hl, Ending.move]
  · simp [Ledger.note, hb.acks, hl, Ending.ack?]
  · intro x hx
    simp only [Ledger.note, hl, Option.toList_some, List.map_cons, List.map_nil, List.mem_append,
      List.mem_singleton] at hx
    obtain hx | rfl := hx
    · exact hb.truthful x hx
    · refine ⟨hg, hq, ?_⟩
      rw [hk, hb.placed.toNat_status_position, hb.position]

theorem finish (reason : AckReason) (hb : g.Books l) :
    (g.finish reason).Books ((g.finishNotes reason).foldl Ledger.note l) := by
  cases ha : g.active with
  | none => simpa [finish_eq_of_none ha, finishNotes, ha] using hb
  | some a =>
      rw [finish_eq_of_active ha]
      simp only [finishNotes, ha, Option.toList_some, List.map_cons, List.map_nil, List.foldl_cons,
        List.foldl_nil]
      exact hb.retire ha rfl rfl rfl rfl rfl rfl rfl

theorem halt (hb : g.Books l) : g.halt.Books (g.haltNotes.foldl Ledger.note l) := by
  cases ha : g.active with
  | none =>
      rw [halt_eq_of_none ha]
      simpa [haltNotes, ha] using hb.of_eq (h := g.halting) rfl rfl (by simp [halting, ha]) rfl
  | some a =>
      rw [halt_eq_of_active ha]
      simp only [haltNotes, ha, Option.toList_some, List.map_cons, List.map_nil, List.foldl_cons,
        List.foldl_nil]
      exact hb.retire ha rfl rfl rfl rfl rfl rfl rfl

theorem place {p : Int} (hb : g.Books l) (h0 : 0 ≤ p) (ht : p ≤ topPosition)
    (hp : h.position = p) (hs : h.status.position = shownSteps p)
    (ha : h.active.map (·.move) = g.active.map (·.move)) (hm : h.moves = g.moves) :
    h.Books { l with position := p } := by
  refine ⟨⟨hp ▸ h0, hp ▸ ht, hp ▸ hs⟩, ?_, ?_, hp.symm, hb.moves, hb.acks, hb.truthful⟩
  · rw [ha]
    exact hb.active
  · rw [hm]
    exact hb.waiting

/-- A move that is taken up goes from the front of the queue to the active place. -/
theorem mount {m : Move} {moves : Queue Move} (hb : g.Books l) (hn : g.active = none)
    (hq : g.moves.pop? = some (m, moves)) :
    (g.mount m moves).Books
      ((if m.homes && !g.status.has .stepperOk then [.rebased .top] else []).foldl Ledger.note
        (l.note (.loaded m))) := by
  have hw : l.waiting = m :: moves.items := by
    rw [hb.waiting, (Queue.pop?_eq_some_iff.mp hq).1]
  have hl : l.active = none := by rw [hb.active, hn]; rfl
  have htaken : { g with moves, active := some { move := m, velocity := m.velocity } }.Books
      (l.note (.loaded m)) := by
    refine ⟨hb.placed.of_eq rfl rfl, rfl, ?_, hb.position, ?_, hb.acks, hb.truthful⟩
    · simp [Ledger.note, hw]
    · simp [Ledger.note, hb.moves, hl, hw]
  have htop : max 0 (min topPosition topPosition) = topPosition := by decide
  unfold StepGenerator.mount
  dsimp only
  split
  · exact htaken.place zero_le_top (Int.le_refl _) htop (congrArg shownSteps htop) rfl rfl
  · exact htaken

theorem load (hb : g.Books l) (hn : g.active = none) :
    g.load.Books (g.loadNotes.foldl Ledger.note l) := by
  cases hq : g.moves.pop? with
  | none => rwa [load_eq_of_none hq, loadNotes_of_none hq]
  | some p =>
      have hm := hb.mount hn hq
      rw [load_eq_of_some hq, loadNotes_of_some hq, List.foldl_cons, List.foldl_append]
      cases p.1.targetFrom (g.mount p.1 p.2).position with
      | some target => exact hm.of_eq rfl rfl rfl rfl
      | none => exact hm.halt

theorem advance (hb : g.Books l) : g.advance.1.Books (g.advanceNotes.foldl Ledger.note l) := by
  cases ha : g.active with
  | none => rwa [advance_of_none ha, advanceNotes_of_none ha]
  | some a =>
      cases hn : next? a g.position with
      | none =>
          rw [advance_of_stuck ha hn, advanceNotes_of_stuck ha hn]
          exact hb.halt
      | some p =>
          obtain ⟨v, p⟩ := p
          obtain ⟨-, -, -, h0, ht⟩ := next?_eq_some_iff.mp hn
          have hp : (g.advance.1).Books { l with position := p } := by
            rw [advance_of_next ha hn]
            exact hb.place h0 ht rfl rfl (by simp [StepGenerator.place, ha]) rfl
          rw [advanceNotes_of_next ha hn]
          split
          · exact hp
          · exact hp

theorem perform {d : TickAction} {limit : Bool} (hb : g.Books l) (hd : g.Due limit d) :
    (g.perform d).Books ((g.notes d).foldl Ledger.note l) := by
  cases d with
  | cancel =>
      refine ⟨hb.placed.of_eq rfl rfl, rfl, rfl, hb.position, ?_, ?_, ?_⟩
      · simp [notes, Ledger.note, hb.moves, Function.comp_def, Ending.move]
      · simp [notes, Ledger.note, hb.acks, Function.comp_def, Ending.ack?]
      · intro x hx
        simp only [notes, Ledger.note, List.foldl_cons, List.foldl_nil, List.mem_append,
          List.mem_map] at hx
        obtain hx | ⟨m, -, rfl⟩ := hx
        · exact hb.truthful x hx
        · trivial
  | settle => exact hb.of_eq rfl rfl rfl rfl
  | load => exact hb.load hd.1
  | zero =>
      have hz : g.atSwitch.Books (l.note (.rebased .switch)) :=
        hb.place (Int.le_refl 0) zero_le_top rfl rfl rfl rfl
      exact hz.finish .stoppedByCondition
  | advance => exact hb.advance
  | finish reason => exact hb.finish reason

theorem react {e : AxisEvent} (hb : g.Books l) : (g.react e).Books (l.hear e g) := by
  by_cases he : ∃ m, e = .enqueue m
  · obtain ⟨m, rfl⟩ := he
    cases hp : g.moves.push? m with
    | none => simpa [StepGenerator.react, Ledger.hear, hp] using hb
    | some moves =>
        have hitems := (Queue.push?_eq_some_iff.mp hp).2.1
        simp only [StepGenerator.react, Ledger.hear, hp, Option.isSome_some, if_true]
        refine ⟨hb.placed.of_eq rfl rfl, hb.active, ?_, hb.position, ?_, hb.acks, hb.truthful⟩
        · rw [hitems, hb.waiting]
        · simp [hb.moves]
  · have hm := moves_react e (fun m h => he ⟨m, h⟩) g
    have hl : l.hear e g = l := by
      cases e with
      | enqueue m => exact absurd ⟨m, rfl⟩ he
      | _ => rfl
    rw [hl]
    exact hb.of_eq (position_react e g) (status_position_react e g) (by simp) hm

theorem run {g : StepGenerator} (hb : g.Books l) (es : List AxisEvent) :
    (g.run es).Books (account Ledger.note Ledger.hear g l es) := by
  apply run_account _ _ _ fun _ => True
  · intro limit d g l hd _ hb
    exact hb.perform hd
  · intro g l limit hb
    exact hb.of_eq rfl rfl rfl rfl
  · intro g l encoder hb
    exact hb.of_eq rfl rfl rfl rfl
  · intro e g l _ hb
    exact hb.react
  · intro n _
    trivial
  · exact hb

theorem start (depth ackDepth : Nat) :
    (StepGenerator.start { moves := .empty depth, acks := .empty ackDepth }).1.Books {} :=
  ⟨placed_start _, rfl, rfl, rfl, rfl, rfl, fun _ hx => absurd hx List.not_mem_nil⟩

end Books

/-! ## The ledger enters what the run has done -/

theorem offered_foldl_note (h : List AxisNote) (l : Ledger) :
    (h.foldl Ledger.note l).offered = l.offered ++ acks h := by
  induction h generalizing l with
  | nil => simp
  | cons n h ih =>
      rw [List.foldl_cons, ih, acks_cons]
      cases n <;> simp [Ledger.note]

theorem queued_foldl_note (h : List AxisNote) (l : Ledger) :
    (h.foldl Ledger.note l).queued = l.queued := by
  induction h generalizing l with
  | nil => rfl
  | cons n h ih =>
      rw [List.foldl_cons, ih]
      cases n <;> rfl

theorem offered_account (g : StepGenerator) (l : Ledger) (es : List AxisEvent) :
    (account Ledger.note Ledger.hear g l es).offered = l.offered ++ acks (g.history es) := by
  rw [acks_history]
  apply account_collect
  intro e g l
  cases e with
  | tick limit encoder => exact offered_foldl_note _ l
  | enqueue m =>
      have hh : (l.hear (.enqueue m) g).offered = l.offered := by
        unfold Ledger.hear
        dsimp only
        split <;> rfl
      exact hh.trans (List.append_nil _).symm
  | _ => exact (List.append_nil _).symm

theorem queued_account (g : StepGenerator) (l : Ledger) (es : List AxisEvent) :
    (account Ledger.note Ledger.hear g l es).queued = l.queued ++ g.collect taken es := by
  apply account_collect
  intro e g l
  cases e with
  | tick limit encoder => exact (queued_foldl_note _ l).trans (List.append_nil _).symm
  | enqueue m =>
      simp only [account, Ledger.hear, taken]
      split <;> simp
  | _ => exact (List.append_nil _).symm

/-! ## Only a cancel discards moves -/

theorem cancelled_notMem_notes {d : TickAction} (hd : d ≠ .cancel) (g : StepGenerator) :
    .cancelled ∉ g.notes d := by
  cases d with
  | cancel => exact absurd rfl hd
  | settle => simp [notes]
  | load =>
      cases hq : g.moves.pop? with
      | none => simp [notes, loadNotes_of_none hq]
      | some p =>
          obtain ⟨m, moves⟩ := p
          simp only [notes, loadNotes_of_some hq]
          split <;> split <;> simp [haltNotes]
  | zero => simp [notes, finishNotes]
  | advance =>
      cases ha : g.active with
      | none => simp [notes, advanceNotes_of_none ha]
      | some a =>
          cases hn : next? a g.position with
          | none => simp [notes, advanceNotes_of_stuck ha hn, haltNotes]
          | some p =>
              simp only [notes, advanceNotes_of_next (v := p.1) (p := p.2) ha hn]
              split <;> simp
  | finish reason => simp [notes, finishNotes]

theorem cancelled_notMem_notesAll {ds : List TickAction} (hd : .cancel ∉ ds) (g : StepGenerator) :
    .cancelled ∉ notesAll ds g := by
  induction ds generalizing g with
  | nil => exact List.not_mem_nil
  | cons d ds ih =>
      rw [List.mem_cons, not_or] at hd
      rw [notesAll, List.mem_append, not_or]
      exact ⟨cancelled_notMem_notes (Ne.symm hd.1) g, ih hd.2 _⟩

theorem cancelled_notMem_tickNotes {limit : Bool} (h : g.status.cancelRequested = false) :
    .cancelled ∉ g.tickNotes limit := by
  apply cancelled_notMem_notesAll
  rw [cancel_mem_actions_iff]
  exact Bool.eq_false_iff.mp h

/-- Without a cancel every further ending is an acknowledgement. -/
theorem ended_foldl_note {h : List AxisNote} (hh : .cancelled ∉ h) (l : Ledger) :
    ∃ new, (h.foldl Ledger.note l).ended = l.ended ++ new ∧ ∀ x ∈ new, x.ack?.isSome := by
  induction h generalizing l with
  | nil => exact ⟨[], by simp⟩
  | cons n h ih =>
      rw [List.mem_cons, not_or] at hh
      obtain ⟨new, hnew, hacked⟩ := ih hh.2 (l.note n)
      rw [List.foldl_cons, hnew]
      cases n with
      | cancelled => exact absurd rfl hh.1
      | acked a =>
          refine ⟨_, List.append_assoc _ _ _, ?_⟩
          intro x hx
          obtain hx | hx := List.mem_append.mp hx
          · obtain ⟨m, -, rfl⟩ := List.mem_map.mp hx
            rfl
          · exact hacked x hx
      | _ => exact ⟨new, rfl, hacked⟩

/-- An event ends moves by acknowledging them, but a tick that was asked to cancel drops the active
one and all that wait. -/
theorem ended_account (g : StepGenerator) (l : Ledger) (e : AxisEvent) :
    ∃ new, (account Ledger.note Ledger.hear g l [e]).ended = l.ended ++ new ∧
      if e.isTick && g.status.cancelRequested then
        new = (l.active.toList ++ l.waiting).map .discarded
      else ∀ x ∈ new, x.ack?.isSome := by
  cases e with
  | tick limit encoder =>
      cases hc : g.status.cancelRequested with
      | true =>
          rw [account, tickNotes_of_cancelRequested limit hc]
          exact ⟨_, rfl, rfl⟩
      | false =>
          obtain ⟨new, hnew, hacked⟩ := ended_foldl_note (cancelled_notMem_tickNotes hc) l
          exact ⟨new, hnew, hacked⟩
  | enqueue m =>
      refine ⟨[], ?_, ?_⟩
      · simp only [account, Ledger.hear]
        split <;> simp
      · simp [AxisEvent.isTick]
  | _ => exact ⟨[], (List.append_nil _).symm, by simp [AxisEvent.isTick]⟩

/-- The moves that were queued are those that have ended, the active one and those that wait, in
this order. Each further one ends with an acknowledgement of its own or because a tick was asked to
cancel, and the acknowledgements that are offered name the ended moves in this order and the whole
steps at which they ended. The reader gets those that found room, and the flag of a lost one is
raised by just those that did not. -/
theorem every_move_is_accounted_for (depth ackDepth : Nat) (es : List AxisEvent) :
    let s := (start { moves := .empty depth, acks := .empty ackDepth }).1
    let g := s.run es
    let l := s.ledger es
    let active := (g.active.map (·.move)).toList
    s.collect taken es = l.ended.map Ending.move ++ active ++ g.moves.items ∧
    (∀ e, ∃ new, (s.ledger (es ++ [e])).ended = l.ended ++ new ∧
      if e.isTick && g.status.cancelRequested then
        new = (active ++ g.moves.items).map .discarded
      else ∀ x ∈ new, x.ack?.isSome = true) ∧
    (s.collect attempted es).map Prod.fst = l.ended.filterMap Ending.ack? ∧
    l.position = g.position ∧ (∀ x ∈ l.ended, x.Truthful) ∧
    s.collect delivered es ++ g.acks.items =
      ((s.collect attempted es).filter Prod.snd).map Prod.fst ∧
    ∀ e, (g.step e).status.has .ackDropped =
      (((attempted e g).any fun o => !o.2) ||
        (g.status.has .ackDropped && e != .clearDropped)) := by
  intro s g l active
  have hb : g.Books l := (Books.start depth ackDepth).run es
  have hactive : l.active.toList = active := congrArg Option.toList hb.active
  have hqueued : l.queued = s.collect taken es := queued_account s {} es
  have hoffered : l.offered = acks (s.history es) := offered_account s {} es
  refine ⟨?_, ?_, ?_, hb.position, hb.truthful, delivered_run s es, fun e => lost_step e g⟩
  · rw [← hqueued, hb.moves, hactive, hb.waiting]
  · intro e
    have he : s.ledger (es ++ [e]) = account Ledger.note Ledger.hear g l [e] :=
      account_append Ledger.note Ledger.hear s {} es [e]
    rw [he, ← hactive, ← hb.waiting]
    exact ended_account g l e
  · rw [map_fst_attempted, hb.acks, hoffered]

/-- Two moves of one tick each are completed, with room for one acknowledgement, and a third is
cancelled. -/
def completeAndCancel : List AxisEvent :=
  [.enqueue ⟨0, 0, 1, 2147483648, 0, ⟨0⟩⟩, .enqueue ⟨0, 1, 1, 2147483648, 0, ⟨0⟩⟩,
    .tick false none, .tick false none, .tick false none, .tick false none,
    .enqueue ⟨0, 2, 1, 0, 0, ⟨0⟩⟩, .tick false none, .requestCancel, .tick false none]

theorem every_move_is_accounted_for_of_completeAndCancel :
    let s := (start { moves := .empty 2, acks := .empty 1 }).1
    (s.collect taken completeAndCancel).map (·.seq) = [0, 1, 2] ∧
      (s.collect attempted completeAndCancel).map Prod.snd = [true, false] ∧
      (s.ledger completeAndCancel).ended.map (fun x => x.ack?.map (·.position)) =
        [some 1, some 2, none] ∧
      (∀ x ∈ (s.ledger completeAndCancel).ended, x.Truthful) ∧
      (s.run completeAndCancel).status.has .ackDropped = true := by
  intro s
  obtain ⟨-, -, -, -, htruthful, -, -⟩ := every_move_is_accounted_for 2 1 completeAndCancel
  refine ⟨?_, ?_, ?_, htruthful, ?_⟩
  all_goals decide +kernel

end StepGenerator

end AxisNode
