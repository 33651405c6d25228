import AxisNode.Proofs.Motion.Drive
import AxisNode.Proofs.Motion.Ledger

/-!
# What a stop reaches

A stop leaves a request for the generator, and the next tick takes it: that tick drops the active
move and every move that waits by then, also those queued after the stop. A move that is queued
after that tick is out of the stop's reach. It waits, is loaded and is retired with one
acknowledgement, until there is another stop.

## Implementation notes

A move is named by its place among the moves that the queue has taken, so that two moves that look
alike are told apart.
-/

namespace AxisNode

/-- Where a queued move is. -/
inductive Whereabouts where
  | ended (e : Ending)
  | active (m : Move)
  | waiting (m : Move)
deriving DecidableEq, Repr

namespace Whereabouts

/-- The move whose whereabouts they are. -/
def move : Whereabouts → Move
  | ended e => e.move
  | active m => m
  | waiting m => m

/-- Where a cancel leaves the move. -/
def cancel : Whereabouts → Whereabouts
  | ended e => ended e
  | active m => ended (.discarded m)
  | waiting m => ended (.discarded m)

/-- The move has not been discarded: if it has ended, it was retired with an acknowledgement. -/
def Spared (w : Whereabouts) (m : Move) : Prop :=
  w = .waiting m ∨ w = .active m ∨ ∃ a position, w = .ended (.retired m a position)

end Whereabouts

namespace Ledger

variable {l : Ledger}

/-- Where the moves are that were queued, oldest first. -/
def whereabouts (l : Ledger) : List Whereabouts :=
  l.ended.map .ended ++ l.active.toList.map .active ++ l.waiting.map .waiting

theorem map_move_whereabouts (l : Ledger) :
    l.whereabouts.map Whereabouts.move =
      l.ended.map Ending.move ++ l.active.toList ++ l.waiting := by
  simp [whereabouts, Function.comp_def, Whereabouts.move]

theorem whereabouts_note_cancelled (l : Ledger) :
    (l.note .cancelled).whereabouts = l.whereabouts.map Whereabouts.cancel := by
  simp [whereabouts, note, Function.comp_def, Whereabouts.cancel]

/-- Moves that are queued are put behind the others. -/
theorem whereabouts_queue (l : Ledger) (ms : List Move) :
    { l with queued := l.queued ++ ms, waiting := l.waiting ++ ms }.whereabouts =
      l.whereabouts ++ ms.map .waiting := by
  simp [whereabouts]

theorem whereabouts_eq_ended_iff {i : Nat} {e : Ending} :
    l.whereabouts[i]? = some (.ended e) ↔ l.ended[i]? = some e := by
  by_cases hi : i < l.ended.length
  · have hlength : i < (l.ended.map Whereabouts.ended).length := by rwa [List.length_map]
    rw [whereabouts, List.append_assoc, List.getElem?_append_left hlength]
    simp
  · rw [List.getElem?_eq_none (Nat.le_of_not_lt hi)]
    have hlength : (l.ended.map Whereabouts.ended).length ≤ i := by
      rw [List.length_map]
      exact Nat.le_of_not_lt hi
    rw [whereabouts, List.append_assoc, List.getElem?_append_right hlength]
    constructor
    · intro h
      simpa using List.mem_of_getElem? h
    · rintro ⟨⟩

/-- A move that is behind the first endings is spared if every further one is an
acknowledgement. -/
theorem spared_of_acked {old new : List Ending} {i : Nat} {w : Whereabouts}
    (hended : l.ended = old ++ new) (hacked : ∀ e ∈ new, e.ack?.isSome = true)
    (hi : old.length ≤ i) (hw : l.whereabouts[i]? = some w) : w.Spared w.move := by
  have hlength : (old.map Whereabouts.ended).length ≤ i := by rwa [List.length_map]
  rw [whereabouts, hended, List.map_append, List.append_assoc, List.append_assoc,
    List.getElem?_append_right hlength] at hw
  obtain hnew | hactive | hwaiting : (∃ e ∈ new, .ended e = w) ∨
      (∃ m, l.active = some m ∧ .active m = w) ∨ ∃ m ∈ l.waiting, .waiting m = w := by
    simpa using List.mem_of_getElem? hw
  · obtain ⟨e, he, rfl⟩ := hnew
    have hack := hacked e he
    cases e with
    | retired m a position => exact .inr (.inr ⟨a, position, rfl⟩)
    | discarded m => cases hack
  · obtain ⟨m, -, rfl⟩ := hactive
    exact .inr (.inl rfl)
  · obtain ⟨m, -, rfl⟩ := hwaiting
    exact .inl rfl

end Ledger

namespace StepGenerator

variable {g : StepGenerator} {l : Ledger}

/-! ## The request -/

/-- No action asks to cancel. -/
theorem status_cancelRequested_perform (d : TickAction) (g : StepGenerator) :
    (g.perform d).status.cancelRequested = (g.status.cancelRequested && d != .cancel) := by
  by_cases hd : d = .cancel
  · subst hd
    exact (Bool.and_false _).symm
  · rw [status_perform (f := AxisStatus.cancelRequested) ⟨fun _ _ => rfl, fun _ _ => rfl⟩ hd]
    simp [hd]

/-- A tick takes the request back. -/
theorem status_cancelRequested_interrupt (limit : Bool) (encoder : Option Int32)
    (g : StepGenerator) : (g.interrupt limit encoder).1.status.cancelRequested = false := by
  cases hc : g.status.cancelRequested with
  | true =>
      rw [interrupt_eq_begun, hc]
      rfl
  | false =>
      refine interrupt_fold (fun (_ : Unit) _ => ()) (fun g _ => g.status.cancelRequested = false)
        (fun _ => True) ?_ (fun _ _ _ h => h) (fun _ _ _ h => h) encoder g () (fun _ _ => trivial)
        hc
      intro d h _ _ _ hh
      rw [status_cancelRequested_perform, hh, Bool.false_and]

/-- Once there is no request, only a further one brings one about. -/
theorem status_cancelRequested_run {es : List AxisEvent} (hes : .requestCancel ∉ es)
    (hc : g.status.cancelRequested = false ∨ es.any AxisEvent.isTick = true) :
    (g.run es).status.cancelRequested = false := by
  induction es generalizing g with
  | nil => exact hc.resolve_right Bool.false_ne_true
  | cons e es ih =>
      have hes' : .requestCancel ∉ es := fun h => hes (List.mem_cons_of_mem _ h)
      refine ih hes' ?_
      cases e with
      | tick limit encoder => exact .inl (status_cancelRequested_interrupt limit encoder g)
      | requestCancel => exact absurd (List.mem_cons_self ..) hes
      | _ => exact hc.imp (fun h => (status_cancelRequested_react _ g (by simp)).trans h) fun h => h

/-! ## What becomes of the moves -/

/-- The ledger after some events, when it stood at `l` before them. -/
def ledgerFrom (g : StepGenerator) (l : Ledger) (es : List AxisEvent) : Ledger :=
  account Ledger.note Ledger.hear g l es

theorem ledgerFrom_cons (g : StepGenerator) (l : Ledger) (e : AxisEvent) (es : List AxisEvent) :
    g.ledgerFrom l (e :: es) = (g.step e).ledgerFrom (g.ledgerFrom l [e]) es :=
  account_append Ledger.note Ledger.hear g l [e] es

/-- What has ended has ended for good. -/
theorem ended_prefix (g : StepGenerator) (l : Ledger) (es : List AxisEvent) :
    l.ended <+: (g.ledgerFrom l es).ended := by
  induction es generalizing g l with
  | nil => exact List.prefix_refl _
  | cons e es ih =>
      obtain ⟨new, hnew, -⟩ := ended_account g l e
      rw [ledgerFrom_cons]
      exact List.IsPrefix.trans ⟨new, hnew.symm⟩ (ih _ _)

/-- Without a request every further ending is an acknowledgement. -/
theorem ended_of_uncancelled {es : List AxisEvent} (hes : .requestCancel ∉ es)
    (hc : g.status.cancelRequested = false) (l : Ledger) :
    ∃ new, (g.ledgerFrom l es).ended = l.ended ++ new ∧ ∀ e ∈ new, e.ack?.isSome = true := by
  induction es generalizing g l with
  | nil => exact ⟨[], (List.append_nil _).symm, by simp⟩
  | cons e es ih =>
      have he : e ≠ .requestCancel := fun h => hes (h ▸ List.mem_cons_self ..)
      have hes' : .requestCancel ∉ es := fun h => hes (List.mem_cons_of_mem _ h)
      have hone : .requestCancel ∉ [e] := by simpa using he.symm
      have hstep : (g.run [e]).status.cancelRequested = false :=
        status_cancelRequested_run hone (.inl hc)
      obtain ⟨first, hfirst, hacked⟩ := ended_account g l e
      rw [hc, Bool.and_false, if_neg Bool.false_ne_true] at hacked
      obtain ⟨others, hothers, hacked'⟩ := ih hes' hstep (g.ledgerFrom l [e])
      have hended : (g.ledgerFrom l [e]).ended = l.ended ++ first := hfirst
      refine ⟨first ++ others, ?_, ?_⟩
      · rw [ledgerFrom_cons]
        exact hothers.trans (by rw [hended, List.append_assoc])
      · intro x hx
        exact (List.mem_append.mp hx).elim (hacked x) (hacked' x)

/-- Between two ticks moves can only be queued. -/
theorem ledgerFrom_of_isTick {es : List AxisEvent} (hes : es.any AxisEvent.isTick = false)
    (g : StepGenerator) (l : Ledger) :
    ∃ ms, g.ledgerFrom l es =
      { l with queued := l.queued ++ ms, waiting := l.waiting ++ ms } := by
  induction es generalizing g l with
  | nil => exact ⟨[], by simp [ledgerFrom, account]⟩
  | cons e es ih =>
      rw [List.any_cons, Bool.or_eq_false_iff] at hes
      obtain ⟨ms, hms⟩ := ih hes.2 (g.step e) (g.ledgerFrom l [e])
      rw [ledgerFrom_cons, hms]
      cases e with
      | tick limit encoder => cases hes.1
      | enqueue m =>
          simp only [ledgerFrom, account, Ledger.hear]
          split
          · exact ⟨m :: ms, by simp⟩
          · exact ⟨ms, rfl⟩
      | _ => exact ⟨ms, rfl⟩

/-- A move that waits while the request is pending waits on until the next tick, which discards
it. -/
theorem whereabouts_of_cancelRequested {es : List AxisEvent} {i : Nat} {m : Move}
    (hc : g.status.cancelRequested = true) (hw : l.whereabouts[i]? = some (.waiting m)) :
    (g.ledgerFrom l es).whereabouts[i]? =
      some (if es.any AxisEvent.isTick then .ended (.discarded m) else .waiting m) := by
  induction es generalizing g l with
  | nil => exact hw
  | cons e es ih =>
      rw [ledgerFrom_cons]
      cases he : e.isTick with
      | true =>
          -- the tick discards it, and what has ended stays so
          have hone : g.ledgerFrom l [e] = l.note .cancelled := by
            cases e with
            | tick limit encoder =>
                simp only [ledgerFrom, account, tickNotes_of_cancelRequested limit hc,
                  List.foldl_cons, List.foldl_nil]
            | _ => cases he
          have hended : (l.note .cancelled).ended[i]? = some (.discarded m) := by
            rw [← Ledger.whereabouts_eq_ended_iff, Ledger.whereabouts_note_cancelled,
              List.getElem?_map, hw]
            rfl
          obtain ⟨new, hnew⟩ := ended_prefix (g.step e) (l.note .cancelled) es
          have hi := (List.getElem?_eq_some_iff.mp hended).1
          rw [hone, List.any_cons, he, Bool.true_or, if_pos rfl, Ledger.whereabouts_eq_ended_iff,
            ← hnew, List.getElem?_append_left hi, hended]
      | false =>
          have hquiet : [e].any AxisEvent.isTick = false := by simp [he]
          obtain ⟨ms, hms⟩ := ledgerFrom_of_isTick hquiet g l
          have hpending : (g.run [e]).status.cancelRequested = true :=
            cancelRequested_run hc (by simpa using he)
          have hi := (List.getElem?_eq_some_iff.mp hw).1
          rw [List.any_cons, he, Bool.false_or]
          refine ih hpending ?_
          rw [hms, Ledger.whereabouts_queue, List.getElem?_append_left hi, hw]

/-- A move that was queued without a request pending is spared until there is one. -/
theorem spared_of_uncancelled {es : List AxisEvent} {i : Nat} {m : Move}
    (hes : .requestCancel ∉ es) (hc : g.status.cancelRequested = false) (hb : g.Books l)
    (hi : l.ended.length ≤ i) (hm : l.queued[i]? = some m) :
    ∃ w, (g.ledgerFrom l es).whereabouts[i]? = some w ∧ w.Spared m := by
  obtain ⟨new, hended, hacked⟩ := ended_of_uncancelled hes hc l
  have hqueued : (g.ledgerFrom l es).queued[i]? = some m := by
    have hlt := (List.getElem?_eq_some_iff.mp hm).1
    rw [ledgerFrom, queued_account, List.getElem?_append_left hlt, hm]
  have hbooks : (g.run es).Books (g.ledgerFrom l es) := hb.run es
  rw [hbooks.moves, ← Ledger.map_move_whereabouts, List.getElem?_map,
    Option.map_eq_some_iff] at hqueued
  obtain ⟨w, hw, rfl⟩ := hqueued
  exact ⟨w, hw, Ledger.spared_of_acked hended hacked hi hw⟩

theorem ledgerFrom_append (g : StepGenerator) (l : Ledger) (es fs : List AxisEvent) :
    g.ledgerFrom l (es ++ fs) = (g.run es).ledgerFrom (g.ledgerFrom l es) fs :=
  account_append Ledger.note Ledger.hear g l es fs

/-- What becomes of a move that is queued after a request, when no further one follows. -/
theorem whereabouts_of_enqueue {between after : List AxisEvent} {m : Move} (hb : g.Books l)
    (hc : g.status.cancelRequested = true) (hbetween : .requestCancel ∉ between)
    (hafter : .requestCancel ∉ after) (hroom : ((g.run between).moves.push? m).isSome = true) :
    ∃ w, (g.ledgerFrom l (between ++ .enqueue m :: after)).whereabouts[
        (g.ledgerFrom l between).queued.length]? = some w ∧
      if between.any AxisEvent.isTick then
        w.Spared m ∧
          (g.run (between ++ .enqueue m :: after)).status.cancelRequested = false
      else
        w = if after.any AxisEvent.isTick then .ended (.discarded m) else .waiting m := by
  have hbooks : (g.run between).Books (g.ledgerFrom l between) := hb.run between
  have hlength := congrArg List.length hbooks.moves
  rw [← Ledger.map_move_whereabouts, List.length_map] at hlength
  rw [ledgerFrom_append, ledgerFrom_cons, run_append, run]
  generalize hg : g.run between = h at hroom hbooks
  generalize g.ledgerFrom l between = k at hlength hbooks
  have htaken : h.ledgerFrom k [.enqueue m] =
      { k with queued := k.queued ++ [m], waiting := k.waiting ++ [m] } := by
    simp only [ledgerFrom, account, Ledger.hear, hroom, if_true]
  have hsame := status_cancelRequested_react (.enqueue m) h (by simp)
  split
  · next htick =>
      have hh : h.status.cancelRequested = false :=
        hg ▸ status_cancelRequested_run hbetween (.inr htick)
      have hstep : (h.step (.enqueue m)).status.cancelRequested = false := hsame.trans hh
      have hbooks' : (h.step (.enqueue m)).Books (h.ledgerFrom k [.enqueue m]) :=
        hbooks.run [.enqueue m]
      obtain ⟨w, hw, hspared⟩ := spared_of_uncancelled (i := k.queued.length) (m := m) hafter hstep
        hbooks' (by
          rw [htaken, hbooks.moves]
          simp only [List.length_append, List.length_map]
          omega)
        (by rw [htaken]; exact List.getElem?_concat_length)
      exact ⟨w, hw, hspared, status_cancelRequested_run hafter (.inl hstep)⟩
  · next htick =>
      have hquiet : ∀ e ∈ between, e.isTick = false := by simpa using htick
      have hstep : (h.step (.enqueue m)).status.cancelRequested = true :=
        hsame.trans (hg ▸ cancelRequested_run hc hquiet)
      refine ⟨_, whereabouts_of_cancelRequested hstep ?_, rfl⟩
      rw [htaken, Ledger.whereabouts_queue, hlength]
      exact List.getElem?_concat_length

end StepGenerator

namespace Drive

open StepGenerator

variable {d : Drive} {l : Ledger}

/-- The ledger of the generator in a run of the drive. -/
def ledger (d : Drive) (es : List DriveEvent) : Ledger := d.generator.ledger (d.axisEvents es)

theorem books_start (c : AxisController) (depth ackDepth : Nat) (es : List DriveEvent) :
    ((start c depth ackDepth).run es).generator.Books ((start c depth ackDepth).ledger es) := by
  rw [generator_run]
  exact (Books.start depth ackDepth).run _

theorem ledger_append (d : Drive) (es fs : List DriveEvent) :
    d.ledger (es ++ fs) =
      (d.run es).generator.ledgerFrom (d.ledger es) ((d.run es).axisEvents fs) := by
  rw [ledger, axisEvents_append, generator_run]
  exact ledgerFrom_append d.generator {} _ _

theorem cancelRequested_run_stop (d : Drive) (es : List DriveEvent) :
    (d.run (es ++ [.stop])).generator.status.cancelRequested = true := by
  rw [run_append]
  rfl

/-- What becomes of a move that is accepted while the last stop is still to be heard or behind the
tick that heard it. -/
theorem whereabouts_of_accepted {between after : List DriveEvent} {m : StagedMove}
    (hb : d.generator.Books l) (hc : d.generator.status.cancelRequested = true)
    (hbetween : .stop ∉ between) (hafter : .stop ∉ after)
    (haccepted : ((d.run between).controller.queueMove (d.run between).link m).accepted = true) :
    ∃ move w, (d.run between).controller.convert? m = some move ∧
      (d.generator.ledgerFrom l (d.axisEvents (between ++ .queue m :: after))).whereabouts[
        (d.generator.ledgerFrom l (d.axisEvents between)).queued.length]? = some w ∧
      if between.any DriveEvent.isTick then
        w.Spared move ∧
          (d.run (between ++ .queue m :: after)).generator.status.cancelRequested = false
      else w = if after.any DriveEvent.isTick then .ended (.discarded move) else .waiting move := by
  obtain ⟨move, hmove, hroom⟩ := AxisController.accepted_queueMove_iff.mp haccepted
  rw [link, generator_run] at hroom
  have hevents : d.axisEvents (between ++ .queue m :: after) =
      d.axisEvents between ++
        .enqueue move :: ((d.run between).step (.queue m)).axisEvents after := by
    rw [axisEvents_append, axisEvents, DriveEvent.axisEvents, hmove]
    rfl
  obtain ⟨w, hw, hfate⟩ := whereabouts_of_enqueue hb hc
    (requestCancel_notMem_axisEvents hbetween d)
    (requestCancel_notMem_axisEvents hafter ((d.run between).step (.queue m))) hroom
  rw [any_isTick_axisEvents, any_isTick_axisEvents] at hfate
  refine ⟨move, w, hmove, ?_, ?_⟩
  · rw [hevents]
    exact hw
  · rw [generator_run, hevents]
    exact hfate

/-- A move that is accepted after the last stop is spared by it if a tick lies between the two: it
waits, is active or was retired with an acknowledgement of its own, and the queue gives up only what
is loaded. Without a tick between them the move waits until the next one, which discards it. -/
theorem stop_spares_moves_behind_its_tick (c : AxisController) (depth ackDepth : Nat)
    (before between after : List DriveEvent) (m : StagedMove) (hbetween : .stop ∉ between)
    (hafter : .stop ∉ after) :
    let s := start c depth ackDepth
    let earlier := before ++ [.stop] ++ between
    let es := before ++ [.stop] ++ (between ++ .queue m :: after)
    let d := s.run earlier
    let g := (s.run es).generator
    let l := s.ledger es
    (d.controller.queueMove d.link m).accepted = true →
    ∃ move w, d.controller.convert? m = some move ∧
      l.whereabouts[(s.ledger earlier).queued.length]? = some w ∧
      (if between.any DriveEvent.isTick then
        w.Spared move ∧ ∀ limit encoder,
          loads (g.tickNotes limit) ++ (g.interrupt limit encoder).1.moves.items = g.moves.items
      else w = if after.any DriveEvent.isTick then .ended (.discarded move) else .waiting move) ∧
      l.active = g.active.map (·.move) ∧ l.waiting = g.moves.items ∧
      l.ended.filterMap Ending.ack? = acks (s.generator.history (s.axisEvents es)) := by
  intro s earlier es d g l haccepted
  have hbooks : g.Books l := books_start c depth ackDepth es
  have hoffered : l.offered = acks (s.generator.history (s.axisEvents es)) :=
    offered_account s.generator {} _
  have hd : d = (s.run (before ++ [.stop])).run between := run_append s _ _
  rw [hd] at haccepted
  have hb : (s.run (before ++ [.stop])).generator.Books (s.ledger (before ++ [.stop])) :=
    books_start c depth ackDepth _
  have hc := cancelRequested_run_stop s before
  obtain ⟨move, w, hmove, hw, hfate⟩ :=
    whereabouts_of_accepted hb hc hbetween hafter haccepted
  rw [← ledger_append, ← ledger_append] at hw
  rw [← run_append] at hmove hfate
  refine ⟨move, w, hmove, hw, ?_, hbooks.active, hbooks.waiting, hbooks.acks.trans hoffered⟩
  split
  · next htick =>
      rw [if_pos htick] at hfate
      have hg : g.status.cancelRequested = false := hfate.2
      exact ⟨hfate.1, loads_interrupt_eq hg⟩
  · next htick =>
      rwa [if_neg htick] at hfate

/-- Once a tick has heard the stop, a move of one tick is queued and retired. -/
theorem stop_spares_moves_behind_its_tick_of_tickBetween :
    let s := start .tenMicrometresPerStep 3 3
    let m := StagedMove.linear ⟨0, 0, 1, 0, 0, 0⟩
    let earlier : List DriveEvent := [] ++ [.stop] ++ [.tick false none]
    let after : List DriveEvent := List.replicate 3 (.tick false none)
    ((s.run earlier).controller.queueMove (s.run earlier).link m).accepted = true ∧
      ∃ move w, (s.run earlier).controller.convert? m = some move ∧
        (s.ledger ([] ++ [.stop] ++ ([.tick false none] ++ .queue m :: after))).whereabouts[
          (s.ledger earlier).queued.length]? = some w ∧ w.Spared move := by
  intro s m earlier after
  have haccepted : ((s.run earlier).controller.queueMove (s.run earlier).link m).accepted = true :=
    by decide +kernel
  obtain ⟨move, w, hmove, hw, hfate, -⟩ := stop_spares_moves_behind_its_tick
    .tenMicrometresPerStep 3 3 [] [.tick false none] after m (by decide) (by decide) haccepted
  rw [if_pos (by decide)] at hfate
  exact ⟨haccepted, move, w, hmove, hw, hfate.1⟩

/-- A move that is accepted between a stop and the tick that hears it is discarded by that tick. -/
theorem stop_discards_move_accepted_before_its_tick :
    let s := start .tenMicrometresPerStep 3 3
    let m := StagedMove.linear ⟨0, 0, 1, 0, 0, 0⟩
    let d := s.run [.stop]
    let es : List DriveEvent := [.stop, .queue m, .tick false none]
    (d.controller.queueMove d.link m).accepted = true ∧
      d.controller.convert? m = some ⟨0, 0, 1, 0, 0, ⟨0⟩⟩ ∧
      (s.ledger es).whereabouts = [.ended (.discarded ⟨0, 0, 1, 0, 0, ⟨0⟩⟩)] ∧
      (s.run es).generator.moves.items = [] := by
  decide +kernel

end Drive

end AxisNode
