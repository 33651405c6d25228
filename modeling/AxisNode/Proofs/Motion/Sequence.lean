import AxisNode.Proofs.Motion.Trajectory

/-!
# Moves one after another

Moves that wait in a row share the ticks without a gap: the tick that retires one loads the next and
advances it at once. Only the first one is loaded by a tick of its own, and a move without ticks
takes one to be retired. So the tick on which each move ends can be told from the durations alone,
and here the generator is followed through the whole row.
-/

namespace AxisNode

open FixedPoint

namespace Move

variable {m : Move} {start : Int} {j : Nat}

theorem positionAt_duration (m : Move) (start : Int) :
    m.positionAt start m.duration.toNat = start + m.travel := by
  have ht := Int.tdiv_eq_ediv_of_dvd (m.two_dvd_acceleration m.duration.toNat)
  simp only [travel, positionAt, ht, add_assoc]

/-- The move does not leave the range of positions. -/
def StaysInRange (m : Move) (start : Int) : Prop :=
  ∀ j ≤ m.duration.toNat, 0 ≤ m.positionAt start j ∧ m.positionAt start j ≤ topPosition

instance (m : Move) (start : Int) : Decidable (m.StaysInRange start) :=
  inferInstanceAs (Decidable (∀ j ≤ m.duration.toNat, _))

/-- A velocity is the difference of two positions in range, so it can be stored. -/
theorem StaysInRange.reaches (h : m.StaysInRange start) (h1 : 1 ≤ j)
    (hj : j ≤ m.duration.toNat) : m.Reaches start j := by
  obtain ⟨i, rfl⟩ : ∃ i, j = i + 1 := ⟨j - 1, by omega⟩
  obtain ⟨hi0, hit⟩ := h i (by omega)
  obtain ⟨h0, ht⟩ := h (i + 1) hj
  refine ⟨?_, h0, ht⟩
  have hv := m.positionAt_succ start i
  simp only [Fits, topPosition, stepUnit] at hit ht ⊢
  omega

end Move

/-! ## The schedule -/

/-- Moves to be run one after another, of which there is at least one. -/
structure MoveSequence where
  first : Move
  rest : List Move

namespace MoveSequence

variable {q : MoveSequence} {start : Int} {i j k : Nat} {m : Move}

/-- All moves of the row. -/
def moves (q : MoveSequence) : List Move := q.first :: q.rest

/-- The tick that retires the move at a place. -/
def endTick (q : MoveSequence) (i : Nat) : Nat :=
  2 + q.first.duration.toNat + ((q.rest.take i).map fun m => max m.duration.toNat 1).sum

/-- The tick that loads the move at a place. -/
def loadTick (q : MoveSequence) : Nat → Nat
  | 0 => 1
  | i + 1 => q.endTick i

/-- The first tick that the move at a place may have. -/
def firstTick (q : MoveSequence) : Nat → Nat
  | 0 => 2
  | i + 1 => q.endTick i

/-- Where the move at a place starts when the first one starts at `start`. -/
def startOf (q : MoveSequence) (start : Int) (i : Nat) : Int :=
  start + ((q.moves.take i).map Move.travel).sum

/-- No move leaves the range of positions. -/
def InRange (q : MoveSequence) (start : Int) : Prop :=
  ∀ (i : Nat) (m : Move), q.moves[i]? = some m → m.StaysInRange (q.startOf start i)

theorem endTick_succ (h : q.rest[i]? = some m) :
    q.endTick (i + 1) = q.endTick i + max m.duration.toNat 1 := by
  simp only [endTick, List.take_add_one, h, Option.toList_some, List.map_append, List.sum_append,
    List.map_singleton, List.sum_singleton, Nat.add_assoc]

theorem startOf_zero (q : MoveSequence) (start : Int) : q.startOf start 0 = start := by
  simp [startOf]

/-- Each move starts where the one before it ends. -/
theorem startOf_succ (h : q.moves[i]? = some m) :
    q.startOf start (i + 1) = m.positionAt (q.startOf start i) m.duration.toNat := by
  rw [Move.positionAt_duration]
  simp only [startOf, List.take_add_one, h, Option.toList_some, List.map_append, List.sum_append,
    List.map_singleton, List.sum_singleton, add_assoc]

theorem firstTick_le (q : MoveSequence) (i : Nat) :
    q.loadTick i ≤ q.firstTick i ∧ q.firstTick i ≤ q.loadTick i + 1 := by
  cases i <;> simp [loadTick, firstTick]

theorem loadTick_pos (q : MoveSequence) (i : Nat) : 0 < q.loadTick i := by
  cases i <;> simp only [loadTick, endTick] <;> omega

/-- A move ends once its ticks are spent, but not on the tick that loads it. -/
theorem endTick_eq (h : q.moves[i]? = some m) :
    q.endTick i = max (q.firstTick i + m.duration.toNat) (q.loadTick i + 1) := by
  cases i with
  | zero =>
      obtain rfl : q.first = m := Option.some.inj h
      simp only [endTick, firstTick, loadTick, List.take_zero, List.map_nil, List.sum_nil]
      omega
  | succ i =>
      rw [endTick_succ h, firstTick, loadTick]
      omega

theorem endTick_le_succ (q : MoveSequence) (i : Nat) : q.endTick i ≤ q.endTick (i + 1) := by
  simp only [endTick, List.take_add_one, List.map_append, List.sum_append]
  omega

theorem endTick_mono (q : MoveSequence) (hij : i ≤ j) : q.endTick i ≤ q.endTick j :=
  monotone_nat_of_le_succ q.endTick_le_succ hij

theorem endTick_lt (hij : i < j) (hj : j < q.moves.length) : q.endTick i < q.endTick j := by
  have hi : i < q.rest.length := by
    rw [moves, List.length_cons] at hj
    omega
  have hnext := endTick_succ (List.getElem?_eq_getElem hi)
  have hmono : q.endTick (i + 1) ≤ q.endTick j := q.endTick_mono hij
  omega

theorem endTick_le_loadTick (q : MoveSequence) (hij : i < j) : q.endTick i ≤ q.loadTick j := by
  cases j with
  | zero => exact absurd hij (Nat.not_lt_zero i)
  | succ j => exact q.endTick_mono (Nat.le_of_lt_succ hij)

/-- What is to be told by the notes of tick `k`: the end of the move that this tick retires, if it
retires one, and nothing otherwise. -/
structure Tells (q : MoveSequence) (start : Int) (k : Nat) (h : List AxisNote) : Prop where
  ends (i : Nat) (m : Move) (place : q.moves[i]? = some m) (now : k = q.endTick i) :
    StepGenerator.AckedOnce m (q.startOf start (i + 1)) .completeWithoutCondition h
  quiet (between : ∀ i < q.moves.length, k ≠ q.endTick i) : acks h = []

theorem length_of_place (h : q.moves[i]? = some m) : i < q.moves.length :=
  (List.getElem?_eq_some_iff.mp h).1

theorem tells_end {h : List AxisNote} (hi : q.moves[i]? = some m)
    (ha : StepGenerator.AckedOnce m (q.startOf start (i + 1)) .completeWithoutCondition h) :
    q.Tells start (q.endTick i) h := by
  constructor
  · intro j m' hj hends
    obtain rfl : i = j := by
      obtain hlt | heq | hgt := Nat.lt_trichotomy i j
      · exact absurd hends (Nat.ne_of_lt (endTick_lt hlt (length_of_place hj)))
      · exact heq
      · exact absurd hends.symm (Nat.ne_of_lt (endTick_lt hgt (length_of_place hi)))
    obtain rfl : m = m' := Option.some.inj (hi.symm.trans hj)
    exact ha
  · intro hbetween
    exact absurd rfl (hbetween i (length_of_place hi))

theorem tells_nothing {h : List AxisNote} (hk : ∀ i < q.moves.length, k ≠ q.endTick i)
    (ha : acks h = []) : q.Tells start k h := by
  constructor
  · intro i m hi hends
    exact absurd hends (hk i (length_of_place hi))
  · intro _
    exact ha

/-- Between the tick that loads a move and the one that retires it none is retired. -/
theorem ne_endTick (q : MoveSequence) (hl : q.loadTick i < k) (he : k < q.endTick i) (j : Nat) :
    k ≠ q.endTick j := by
  obtain hlt | hge := Nat.lt_or_ge j i
  · have := q.endTick_le_loadTick hlt
    omega
  · have := q.endTick_mono hge
    omega

end MoveSequence

/-- A tray with room for all of them loses no acknowledgement. -/
theorem AckTray.items_foldl_receive_of_room (t : AckTray) (as : List MoveAck)
    (h : t.queue.items.length + as.length ≤ t.queue.capacity) :
    (as.foldl AckTray.receive t).queue.items = t.queue.items ++ as ∧
      (as.foldl AckTray.receive t).queue.capacity = t.queue.capacity := by
  induction as generalizing t with
  | nil => exact ⟨(List.append_nil _).symm, rfl⟩
  | cons a as ih =>
      rw [List.length_cons] at h
      obtain ⟨queue, hpush⟩ := Queue.exists_push? a (show t.queue.items.length < _ by omega)
      obtain ⟨-, hitems, hcapacity⟩ := Queue.push?_eq_some_iff.mp hpush
      have hreceive : t.receive a = { t with queue } := by simp only [AckTray.receive, hpush]
      have hroom : queue.items.length + as.length ≤ queue.capacity := by
        rw [hitems, hcapacity, List.length_append, List.length_singleton]
        omega
      obtain ⟨hall, hsame⟩ := ih { t with queue } hroom
      rw [List.foldl_cons, hreceive, hall, hsame, hitems, List.append_assoc]
      exact ⟨rfl, hcapacity⟩

namespace StepGenerator

variable {g : StepGenerator} {m : Move} {s : Int} {k : Nat} {q : MoveSequence}

/-! ## Ticks at the ends of a move -/

theorem interrupt_of_actions {ds : List TickAction} {limit : Bool} (hr : g.readsEncoder = true)
    (ha : (g.sample limit).actions limit = ds) (encoder : Option Int32) :
    (g.interrupt limit encoder).1 = (performAll ds (g.sample limit)).readEncoder encoder ∧
      g.tickNotes limit = notesAll ds (g.sample limit) := by
  subst ha
  rw [interrupt_eq, hr]
  exact ⟨rfl, rfl⟩

/-- The axis rests at a position: no move is active, and one may be loaded. -/
structure Ready (g : StepGenerator) (p : Int) : Prop where
  active : g.active = none
  position : g.position = p
  phase : g.phase ≠ .halted
  uncancelled : g.status.cancelRequested = false
  shown : g.status.position = shownSteps g.position

theorem Ready.of_eq {h : StepGenerator} {p : Int} (hg : g.Ready p) (ha : h.active = g.active)
    (hp : h.position = g.position) (hph : h.phase = g.phase)
    (hc : h.status.cancelRequested = g.status.cancelRequested)
    (hs : h.status.position = g.status.position) : h.Ready p :=
  ⟨ha ▸ hg.active, hp ▸ hg.position, hph ▸ hg.phase, hc ▸ hg.uncancelled, by
    rw [hs, hp]; exact hg.shown⟩

/-- The move that waits first is loaded where the last one ended. -/
theorem Ready.load {p : Int} (hg : g.Ready p) (hq : g.moves.items.head? = some m)
    (hm : m.homes = false) (hin : m.StaysInRange p) :
    g.load.Underway m p 0 ∧ g.loadNotes = [.loaded m] ∧
      g.load.moves.items = g.moves.items.tail := by
  obtain ⟨moves, hpop⟩ := Queue.exists_pop?_of_head? hq
  have hend : Fits (m.positionAt g.position m.duration.toNat) := by
    rw [hg.position]
    obtain ⟨h0, ht⟩ := hin _ (Nat.le_refl _)
    exact fits_of_range h0 ht
  obtain ⟨hu, hn, -⟩ := underway_load hpop hm hg.uncancelled hg.shown hend
  rw [hg.position] at hu
  refine ⟨hu, hn, ?_⟩
  rw [moves_load hpop, (Queue.pop?_eq_some_iff.mp hpop).1, List.tail_cons]

/-- A generator at rest takes a tick to load a move. -/
theorem Ready.tick {p : Int} (hg : g.Ready p) (hq : g.moves.items.head? = some m)
    (hm : m.homes = false) (hin : m.StaysInRange p) (limit : Bool) (encoder : Option Int32) :
    (g.interrupt limit encoder).1.Underway m p 0 ∧
      (g.interrupt limit encoder).1.moves.items = g.moves.items.tail ∧
      acks (g.tickNotes limit) = [] := by
  have hs : (g.sample limit).Ready p := hg.of_eq rfl rfl rfl rfl rfl
  have hwaits : (g.sample limit).hasMoves = true := hasMoves_of_head? hq
  have hact : (g.sample limit).actions limit = [.load] := by
    simp [actions, actActions, hs.uncancelled, hs.phase, hs.active, hwaits]
  have hr : g.readsEncoder = true := by simp [readsEncoder, hg.uncancelled, hg.phase]
  obtain ⟨hi, hn⟩ := interrupt_of_actions hr hact encoder
  obtain ⟨hu, hnotes, hrest⟩ := hs.load hq hm hin
  rw [hi, hn]
  refine ⟨hu.of_eq rfl rfl rfl rfl rfl, hrest, ?_⟩
  simp [notesAll, notes, hnotes]

/-- With its ticks spent a move is acknowledged where it ends and leaves the generator at rest. -/
theorem Underway.retire (hu : g.Underway m s m.duration.toNat) :
    (g.finish .completeWithoutCondition).Ready (m.positionAt s m.duration.toNat) ∧
      AckedOnce m (m.positionAt s m.duration.toNat) .completeWithoutCondition
        (g.finishNotes .completeWithoutCondition) ∧
      (g.finish .completeWithoutCondition).moves = g.moves := by
  have hphase := phase_finish hu.active .completeWithoutCondition
  have hshown := hu.shown
  rw [hu.position] at hshown
  refine ⟨?_, ⟨g.status.ack m .completeWithoutCondition, ?_, rfl, rfl, hshown, rfl⟩,
    moves_finish _ _⟩
  · rw [finish_eq_of_active hu.active] at hphase ⊢
    refine ⟨active_offer _ _, (position_offer _ _).trans hu.position, ?_,
      (status_cancelRequested_offer _ _).trans hu.uncancelled, ?_⟩
    · rw [hphase]
      decide
    · rw [status_position_offer, position_offer]
      exact hu.shown
  · simp [finishNotes, hu.active]

/-- The last move is retired, and none is loaded. -/
theorem Underway.tick_last (hu : g.Underway m s m.duration.toNat) (hm : m.homes = false)
    (hq : g.moves.items = []) (limit : Bool) (encoder : Option Int32) :
    let h := (g.interrupt limit encoder).1
    h.active = none ∧ h.position = m.positionAt s m.duration.toNat ∧ h.moves.items = [] ∧
      AckedOnce m (m.positionAt s m.duration.toNat) .completeWithoutCondition
        (g.tickNotes limit) := by
  have hs : (g.sample limit).Underway m s m.duration.toNat := hu.of_eq rfl rfl rfl rfl rfl
  obtain ⟨hready, hacked, hmoves⟩ := hs.retire
  have hwaits : ((g.sample limit).finish .completeWithoutCondition).hasMoves = false := by
    rw [hasMoves, hmoves]
    simp [Queue.isEmpty, show (g.sample limit).moves.items = [] from hq]
  have hact : (g.sample limit).actions limit = [.finish .completeWithoutCondition] := by
    rw [hs.actions_spent hm rfl, changeOverActions, hs.not_isHoming hm]
    simp [hwaits]
  obtain ⟨hi, hn⟩ := interrupt_of_actions hu.readsEncoder hact encoder
  dsimp only
  rw [hi, hn]
  refine ⟨hready.active, hready.position, (congrArg Queue.items hmoves).trans hq, ?_⟩
  exact hacked.of_acks (by simp [notesAll, notes])

/-- The move that waits next is loaded by the tick that retires the one before it, which is also its
first tick, if it has any. -/
theorem Underway.tick_changeOver {next : Move} (hu : g.Underway m s m.duration.toNat)
    (hm : m.homes = false) (hq : g.moves.items.head? = some next) (hnext : next.homes = false)
    (hin : next.StaysInRange (m.positionAt s m.duration.toNat)) (limit : Bool)
    (encoder : Option Int32) :
    let h := (g.interrupt limit encoder).1
    h.Underway next (m.positionAt s m.duration.toNat) (min 1 next.duration.toNat) ∧
      h.moves.items = g.moves.items.tail ∧
      AckedOnce m (m.positionAt s m.duration.toNat) .completeWithoutCondition
        (g.tickNotes limit) := by
  have hs : (g.sample limit).Underway m s m.duration.toNat := hu.of_eq rfl rfl rfl rfl rfl
  obtain ⟨hready, hacked, hmoves⟩ := hs.retire
  have hact := hs.actions_spent hm rfl limit
  rw [changeOverActions, hs.not_isHoming hm] at hact
  have hwaits : ((g.sample limit).finish .completeWithoutCondition).moves.items.head? =
      some next := by
    rw [hmoves]
    exact hq
  simp only [Bool.false_eq_true, if_false, hasMoves_of_head? hwaits, if_true] at hact
  obtain ⟨hloaded, hnotes, hrest⟩ := hready.load hwaits hnext hin
  rw [hloaded.hasTicks] at hact
  have hitems : ((g.sample limit).finish .completeWithoutCondition).load.moves.items =
      g.moves.items.tail := hrest.trans (congrArg (fun moves => moves.items.tail) hmoves)
  obtain ⟨hi, hn⟩ := interrupt_of_actions hu.readsEncoder hact encoder
  dsimp only
  rw [hi, hn]
  by_cases hd : 0 < next.duration.toNat
  · -- the loaded move has its first tick at once
    obtain ⟨hfirst, hquiet⟩ := hloaded.advance (hin.reaches (Nat.le_refl 1) hd)
    rw [Nat.min_eq_left hd, decide_eq_true hd]
    refine ⟨hfirst.of_eq rfl rfl rfl rfl rfl, ?_, ?_⟩
    · exact (congrArg Queue.items (moves_advance _)).trans hitems
    · exact hacked.of_acks (by simp [notesAll, notes, perform, hnotes, hquiet])
  · rw [Nat.eq_zero_of_not_pos hd, decide_eq_false (Nat.lt_irrefl 0)]
    refine ⟨hloaded.of_eq rfl rfl rfl rfl rfl, hitems, ?_⟩
    exact hacked.of_acks (by simp [notesAll, notes, perform, hnotes])

/-- Without a move a tick leaves the axis where it is and tells nothing. -/
theorem tick_vacant (ha : g.active = none) (hq : g.moves.items = []) (limit : Bool)
    (encoder : Option Int32) :
    let h := (g.interrupt limit encoder).1
    h.active = none ∧ h.position = g.position ∧ h.moves.items = [] ∧
      acks (g.tickNotes limit) = [] := by
  have hs : (g.sample limit).active = none := ha
  have hm : (g.sample limit).hasMoves = false := by
    simp [hasMoves, Queue.isEmpty, show (g.sample limit).moves.items = [] from hq]
  have hact : (g.sample limit).actions limit = [.cancel] ∨ (g.sample limit).actions limit = [] ∨
      (g.sample limit).actions limit = [.settle] := by
    by_cases hc : (g.sample limit).status.cancelRequested
    · exact .inl (by simp [actions, hc])
    by_cases hh : (g.sample limit).phase = .halted
    · exact .inr (.inl (by simp [actions, hc, hh]))
    by_cases hp : (g.sample limit).phase = .moveComplete
    · exact .inr (.inr (by simp [actions, actActions, hc, hs, hm, hp]))
    · exact .inr (.inl (by simp [actions, actActions, hc, hh, hs, hm, hp]))
  dsimp only
  rw [interrupt_eq, tickNotes]
  obtain hds | hds | hds := hact <;> rw [hds] <;>
    refine ⟨?_, ?_, ?_, rfl⟩ <;> dsimp only <;> split <;>
      first | rfl | exact ha | exact hq

/-- Acknowledgements that find room are put behind those that wait. -/
theorem items_acks_interrupt (limit : Bool) (encoder : Option Int32)
    (hroom : g.acks.items.length + (acks (g.tickNotes limit)).length ≤ g.acks.capacity) :
    (g.interrupt limit encoder).1.acks.items = g.acks.items ++ acks (g.tickNotes limit) ∧
      (g.interrupt limit encoder).1.acks.capacity = g.acks.capacity := by
  have htray := congrArg AckTray.queue (tray_interrupt limit encoder g)
  rw [show (g.interrupt limit encoder).1.acks = _ from htray]
  exact AckTray.items_foldl_receive_of_room g.tray _ hroom

/-! ## The whole row -/

/-- How a row that was queued at `s` stands after `k` ticks, when `owed` of its moves have not been
acknowledged: it waits as a whole, one of its moves runs, or all have ended. -/
inductive Follows (q : MoveSequence) (s : Int) (k owed : Nat) (g : StepGenerator) : Prop
  | queued (before : k = 0) (owing : owed = q.moves.length) (ready : g.Ready s)
      (waiting : g.moves.items = q.moves)
  | running (i : Nat) (m : Move) (place : q.moves[i]? = some m) (loaded : q.loadTick i ≤ k)
      (unfinished : k < q.endTick i) (owing : owed + i = q.moves.length)
      (underway : g.Underway m (q.startOf s i) (min (k + 1 - q.firstTick i) m.duration.toNat))
      (waiting : g.moves.items = q.rest.drop i)
  | finished (ended : q.endTick q.rest.length ≤ k) (owing : owed = 0) (vacant : g.active = none)
      (position : g.position = q.startOf s q.moves.length) (waiting : g.moves.items = [])

variable {owed : Nat}

/-- The tick that retires a move of the row loads the next one, if there is one. -/
theorem follows_of_spent {i : Nat} (place : q.moves[i]? = some m) (hlast : k + 1 = q.endTick i)
    (owing : owed + i = q.moves.length)
    (hu : g.Underway m (q.startOf s i) m.duration.toNat) (waiting : g.moves.items = q.rest.drop i)
    (hswitch : ∀ m ∈ q.moves, m.homes = false) (hrange : q.InRange s) (limit : Bool)
    (encoder : Option Int32) :
    Follows q s (k + 1) (owed - 1) (g.interrupt limit encoder).1 ∧
      AckedOnce m (q.startOf s (i + 1)) .completeWithoutCondition (g.tickNotes limit) := by
  have hm : m.homes = false := hswitch m (List.mem_of_getElem? place)
  have hlength : q.moves.length = q.rest.length + 1 := List.length_cons
  have hi := MoveSequence.length_of_place place
  rw [MoveSequence.startOf_succ place]
  cases hnext : q.rest[i]? with
  | some next =>
      have hhead : g.moves.items.head? = some next := by rw [waiting, List.head?_drop, hnext]
      have hin := hrange (i + 1) next hnext
      rw [MoveSequence.startOf_succ place] at hin
      have hends := MoveSequence.endTick_succ hnext
      have hplace : q.moves[i + 1]? = some next := hnext
      have hi' := MoveSequence.length_of_place hplace
      have hhomes : next.homes = false := hswitch next (List.mem_of_getElem? hplace)
      obtain ⟨hfirst, hrest, hacked⟩ :=
        hu.tick_changeOver hm hhead hhomes hin limit encoder
      refine ⟨.running (i + 1) next hnext hlast.ge (by omega) (by omega) ?_ ?_, hacked⟩
      · have hone : k + 1 + 1 - q.firstTick (i + 1) = 1 := by
          rw [MoveSequence.firstTick]
          omega
        rw [hone, MoveSequence.startOf_succ place]
        exact hfirst
      · rw [hrest, waiting, List.tail_drop]
  | none =>
      have hend : q.rest.length ≤ i := List.getElem?_eq_none_iff.mp hnext
      obtain rfl : i = q.rest.length := by omega
      have hempty : g.moves.items = [] := by rw [waiting, List.drop_length]
      obtain ⟨ha, hp, hrest, hacked⟩ := hu.tick_last hm hempty limit encoder
      refine ⟨.finished hlast.ge (by omega) ha ?_ hrest, hacked⟩
      rw [hp, hlength, MoveSequence.startOf_succ place]

/-- A tick takes the row on and acknowledges the move that it retires, if it retires one. -/
theorem Follows.tick (h : Follows q s k owed g) (hswitch : ∀ m ∈ q.moves, m.homes = false)
    (hrange : q.InRange s) (limit : Bool) (encoder : Option Int32) :
    ∃ owed', Follows q s (k + 1) owed' (g.interrupt limit encoder).1 ∧
      q.Tells s (k + 1) (g.tickNotes limit) ∧
      (acks (g.tickNotes limit)).length + owed' = owed := by
  have hhomes : ∀ {i : Nat} {m : Move}, q.moves[i]? = some m → m.homes = false := fun hi =>
    hswitch _ (List.mem_of_getElem? hi)
  cases h with
  | queued before owing ready waiting =>
      subst before
      have hfirst : g.moves.items.head? = some q.first := by rw [waiting]; rfl
      have hin := hrange 0 q.first rfl
      rw [MoveSequence.startOf_zero] at hin
      obtain ⟨hu, hrest, hquiet⟩ :=
        ready.tick hfirst (hhomes (i := 0) rfl) hin limit encoder
      refine ⟨owed, .running 0 q.first rfl (Nat.le_refl _) ?_ owing ?_ ?_,
        MoveSequence.tells_nothing ?_ hquiet, by rw [hquiet]; exact Nat.zero_add _⟩
      · simp only [MoveSequence.endTick]
        omega
      · rw [MoveSequence.startOf_zero]
        simpa [MoveSequence.firstTick] using hu
      · rw [hrest, waiting]
        rfl
      · intro i _
        simp only [MoveSequence.endTick]
        omega
  | running i m place loaded unfinished owing underway waiting =>
      have hends := MoveSequence.endTick_eq place
      obtain ⟨hle, hge⟩ := q.firstTick_le i
      -- by `hends` the ticks of the move are spent just if the coming tick is the one to retire it
      by_cases hlast : k + 1 = q.endTick i
      · rw [Nat.min_eq_right (by omega)] at underway
        obtain ⟨hnext, hacked⟩ :=
          follows_of_spent place hlast owing underway waiting hswitch hrange limit encoder
        have htells := MoveSequence.tells_end place hacked
        rw [← hlast] at htells
        have hi := MoveSequence.length_of_place place
        obtain ⟨a, hone, -⟩ := hacked
        exact ⟨owed - 1, hnext, htells, by rw [hone, List.length_singleton]; omega⟩
      · have hleft : min (k + 1 - q.firstTick i) m.duration.toNat < m.duration.toNat := by omega
        have hnext : min (k + 1 - q.firstTick i) m.duration.toNat + 1 =
            min (k + 1 + 1 - q.firstTick i) m.duration.toNat := by omega
        have hr := (hrange i m place).reaches (Nat.le_add_left 1 _) hleft
        obtain ⟨hu, hquiet, -⟩ := underway.tick (hhomes place) hleft hr limit encoder
        obtain ⟨hi, -⟩ := underway.tick_eq (hhomes place) hleft limit encoder
        rw [hnext] at hu
        refine ⟨owed, .running i m place (by omega) (by omega) owing hu ?_,
          MoveSequence.tells_nothing (fun j _ => q.ne_endTick (i := i) (by omega) (by omega) j)
            hquiet, by rw [hquiet]; exact Nat.zero_add _⟩
        rw [hi, ← waiting]
        exact congrArg Queue.items (moves_advance (g.sample limit))
  | finished ended owing vacant position waiting =>
      obtain ⟨ha, hp, hm, hquiet⟩ := tick_vacant vacant waiting limit encoder
      refine ⟨0, .finished (by omega) rfl ha (hp.trans position) hm,
        MoveSequence.tells_nothing ?_ hquiet, by rw [hquiet, owing]; rfl⟩
      intro i hi
      have hbound : q.endTick i ≤ q.endTick q.rest.length :=
        q.endTick_mono (Nat.le_of_lt_succ hi)
      omega

/-- Ticks take the row on, one by one. -/
theorem Follows.run (h : Follows q s k owed g) (hswitch : ∀ m ∈ q.moves, m.homes = false)
    (hrange : q.InRange s) {es : List AxisEvent} (hes : ∀ e ∈ es, e.isTick = true) :
    ∃ owed', Follows q s (k + es.length) owed' (g.run es) ∧
      (acks (g.history es)).length + owed' = owed := by
  induction es generalizing g k owed with
  | nil => exact ⟨owed, h, Nat.zero_add _⟩
  | cons e es ih =>
      cases e with
      | tick limit encoder =>
          obtain ⟨owed', hnext, -, howed⟩ := h.tick hswitch hrange limit encoder
          obtain ⟨last, hrun, hlast⟩ := ih hnext fun e he => hes e (List.mem_cons_of_mem _ he)
          refine ⟨last, ?_, ?_⟩
          · rw [List.length_cons, Nat.add_comm es.length, ← Nat.add_assoc]
            exact hrun
          · rw [history, eventNotes, acks_append, List.length_append, Nat.add_assoc, ← howed,
              ← hlast]
            rfl
      | _ => cases hes _ (List.mem_cons_self ..)

/-- Ticks alone put the acknowledgements that find room behind those that wait. -/
theorem items_acks_run {es : List AxisEvent} (hes : ∀ e ∈ es, e.isTick = true)
    (hroom : g.acks.items.length + (acks (g.history es)).length ≤ g.acks.capacity) :
    (g.run es).acks.items = g.acks.items ++ acks (g.history es) := by
  induction es generalizing g with
  | nil => exact (List.append_nil _).symm
  | cons e es ih =>
      cases e with
      | tick limit encoder =>
          rw [history, eventNotes, acks_append, List.length_append] at hroom
          obtain ⟨hitems, hcapacity⟩ := items_acks_interrupt limit encoder (g := g) (by omega)
          have hrest := ih (g := (g.interrupt limit encoder).1)
            (fun e he => hes e (List.mem_cons_of_mem _ he)) (by
              rw [hitems, hcapacity, List.length_append, Nat.add_assoc]
              exact hroom)
          rw [history, eventNotes, acks_append, ← List.append_assoc, ← hitems]
          exact hrest
      | _ => cases hes _ (List.mem_cons_self ..)

/-- Moves for which there is room are queued in their order, and nothing else changes. -/
theorem run_enqueue (ms : List Move)
    (hroom : g.moves.items.length + ms.length ≤ g.moves.capacity) :
    ∃ moves : Queue Move, g.run (ms.map .enqueue) = { g with moves } ∧
      moves.items = g.moves.items ++ ms := by
  induction ms generalizing g with
  | nil => exact ⟨g.moves, rfl, (List.append_nil _).symm⟩
  | cons m ms ih =>
      rw [List.length_cons] at hroom
      obtain ⟨queue, hpush⟩ := Queue.exists_push? m (show g.moves.items.length < _ by omega)
      obtain ⟨-, hitems, hcapacity⟩ := Queue.push?_eq_some_iff.mp hpush
      have hstep : g.step (.enqueue m) = { g with moves := queue } := by
        simp only [step, react, hpush]
      obtain ⟨moves, hrun, hall⟩ := ih (g := { g with moves := queue }) (by
        simp only [hitems, hcapacity, List.length_append, List.length_singleton]
        omega)
      refine ⟨moves, ?_, ?_⟩
      · rw [List.map_cons, run, hstep, hrun]
      · rw [hall, hitems, List.append_assoc]
        rfl

theorem Follows.underway {i : Nat} (h : Follows q s k owed g) (place : q.moves[i]? = some m)
    (loaded : q.loadTick i ≤ k) (unfinished : k < q.endTick i) :
    g.Underway m (q.startOf s i) (min (k + 1 - q.firstTick i) m.duration.toNat) := by
  cases h with
  | queued before =>
      have := q.loadTick_pos i
      omega
  | running j m' place' loaded' unfinished' owing underway waiting =>
      obtain hlt | rfl | hgt := Nat.lt_trichotomy i j
      · have := q.endTick_le_loadTick hlt
        omega
      · obtain rfl : m = m' := Option.some.inj (place.symm.trans place')
        exact underway
      · have := q.endTick_le_loadTick hgt
        omega
  | finished ended =>
      have hi := MoveSequence.length_of_place place
      have := q.endTick_mono (Nat.le_of_lt_succ hi)
      omega

theorem Follows.vacant (h : Follows q s k owed g) (hk : q.endTick q.rest.length ≤ k) :
    g.active = none ∧ g.position = q.startOf s q.moves.length := by
  cases h with
  | queued before =>
      simp only [MoveSequence.endTick] at hk
      omega
  | running i m place loaded unfinished owing underway waiting =>
      have hi := MoveSequence.length_of_place place
      have := q.endTick_mono (Nat.le_of_lt_succ hi)
      omega
  | finished ended owing vacant position waiting => exact ⟨vacant, position⟩

/-- Moves that do not look for the switch and stay in range are queued on a generator at rest, and
ticks follow. The move at place `i` is loaded on tick `loadTick i`, has its ticks one after another
from `firstTick i` on and is acknowledged as complete on tick `endTick i`, when it has had exactly
its duration of them; no other tick acknowledges anything. In the end the axis stands where all the
moves together lead. -/
theorem queued_moves_follow_schedule (q : MoveSequence) (g : StepGenerator) (es : List AxisEvent)
    (hg : g.Placed) (hidle : g.active = none) (hphase : g.phase ≠ .halted)
    (hcancel : g.status.cancelRequested = false) (hqueue : g.moves.items = [])
    (hfit : q.moves.length ≤ g.moves.capacity)
    (hroom : g.acks.items.length + q.moves.length ≤ g.acks.capacity)
    (hswitch : ∀ m ∈ q.moves, m.homes = false) (hrange : q.InRange g.position)
    (hes : ∀ e ∈ es, e.isTick = true) :
    let k := es.length
    let h := g.run (q.moves.map .enqueue ++ es)
    (∀ (i : Nat) (m : Move), q.moves[i]? = some m →
      (q.loadTick i ≤ k → k < q.endTick i →
        h.Underway m (q.startOf g.position i) (min (k + 1 - q.firstTick i) m.duration.toNat)) ∧
      (k + 1 = q.endTick i →
        h.Underway m (q.startOf g.position i) m.duration.toNat ∧
        ∀ limit, AckedOnce m (q.startOf g.position (i + 1)) .completeWithoutCondition
          (h.tickNotes limit))) ∧
    ((∀ i < q.moves.length, k + 1 ≠ q.endTick i) → ∀ limit, acks (h.tickNotes limit) = []) ∧
    h.acks.items = g.acks.items ++ acks (g.history (q.moves.map .enqueue ++ es)) ∧
    (q.endTick q.rest.length ≤ k →
      h.active = none ∧ h.position = g.position + (q.moves.map Move.travel).sum) := by
  intro k h
  obtain ⟨moves, hqueued, hitems⟩ := run_enqueue (g := g) q.moves (by rw [hqueue]; simpa using hfit)
  rw [hqueue, List.nil_append] at hitems
  have hstart : Follows q g.position 0 q.moves.length { g with moves } :=
    .queued rfl rfl ⟨hidle, rfl, hphase, hcancel, hg.shown⟩ hitems
  obtain ⟨owed, hfollows, howed⟩ := hstart.run hswitch hrange hes
  have hquiet : g.history (q.moves.map .enqueue) = [] :=
    history_of_isTick (by simp [AxisEvent.isTick])
  have hrun : h = StepGenerator.run { g with moves } es := by
    simp only [h, run_append, hqueued]
  have hhistory : g.history (q.moves.map .enqueue ++ es) =
      StepGenerator.history { g with moves } es := by
    rw [history_append, hquiet, hqueued, List.nil_append]
  rw [Nat.zero_add, ← hrun] at hfollows
  have htells : ∀ limit, q.Tells g.position (k + 1) (h.tickNotes limit) := by
    intro limit
    obtain ⟨-, -, htold, -⟩ := hfollows.tick hswitch hrange limit none
    exact htold
  refine ⟨?_, fun hbetween limit => (htells limit).quiet hbetween, ?_, ?_⟩
  · intro i m hi
    have hunderway := hfollows.underway hi
    refine ⟨hunderway, fun hend => ⟨?_, fun limit => (htells limit).ends i m hi hend⟩⟩
    have hends := MoveSequence.endTick_eq hi
    have hle := q.firstTick_le i
    have hspent := hunderway (by omega) (by omega)
    rwa [Nat.min_eq_right (by omega)] at hspent
  · rw [hhistory, hrun]
    exact items_acks_run hes (by dsimp only; omega)
  · intro hend
    obtain ⟨hvacant, hposition⟩ := hfollows.vacant hend
    refine ⟨hvacant, ?_⟩
    rw [hposition, MoveSequence.startOf, List.take_length]

/-- Three moves, the second of which has no ticks. -/
def threeMoves : MoveSequence where
  first := ⟨0, 0, 2, 5, -1, ⟨0⟩⟩
  rest := [⟨0, 1, 0, 0, 0, ⟨0⟩⟩, ⟨0, 2, 1, 1, 0, ⟨0⟩⟩]

/-- The ends of the three moves are told on the ticks 4, 5 and 6, and then the axis has come to
`(4 + 3) + 0 + 1`. -/
theorem queued_moves_follow_schedule_of_threeMoves :
    let g := (start { moves := .empty 3, acks := .empty 3 }).1
    let h := fun k => g.run (threeMoves.moves.map .enqueue ++ List.replicate k (.tick false none))
    [0, 1, 2].map threeMoves.endTick = [4, 5, 6] ∧
      AckedOnce ⟨0, 1, 0, 0, 0, ⟨0⟩⟩ 7 .completeWithoutCondition ((h 4).tickNotes false) ∧
      (h 6).active = none ∧ (h 6).position = 8 := by
  intro g h
  have hrange : threeMoves.InRange g.position := by
    intro i m hi
    match i, hi with
    | 0, hi => obtain rfl := Option.some.inj hi; decide
    | 1, hi => obtain rfl := Option.some.inj hi; decide
    | 2, hi => obtain rfl := Option.some.inj hi; decide
    | i + 3, hi => exact absurd hi (by simp [threeMoves, MoveSequence.moves])
  have hrun := fun k => queued_moves_follow_schedule threeMoves g
    (List.replicate k (.tick false none)) (placed_start _) rfl (by decide) rfl rfl (by decide)
    (by decide) (by decide) hrange (by simp [AxisEvent.isTick])
  exact ⟨by decide, (((hrun 4).1 1 _ rfl).2 (by decide)).2 false, (hrun 6).2.2.2 (by decide)⟩

end StepGenerator

end AxisNode
