import AxisNode.Bus.Recording
import AxisNode.Proofs.Motion.Table
import AxisNode.Proofs.Node.Origins

/-!
# A stop comes behind what was executed before it

A stop empties the groups and is sent to the controller behind the moves that were sent on earlier.
The controller handles it by asking the step generator to cancel, and the next tick drops the active
move and all that wait. So after this tick nothing is left of what was executed before the stop, and
nothing of it steps or is acknowledged any more. A tick may fall between any two turns: the argument
rests on the numbers of the requests, which never decrease along the queue to the controller.
-/

namespace AxisNode

namespace Origins

variable {o : Origins} {k : Nat}

/-- Commands wait in the order of the requests that sent them. -/
structure Ordered (o : Origins) : Prop where
  sorted : o.commands.Pairwise fun x y => x.1 ≤ y.1
  le_handled : ∀ x ∈ o.commands, x.1 ≤ o.handled

/-- Commands and requests to come are no older than request `k`. -/
structure Sends (o : Origins) (k : Nat) : Prop where
  handled : k ≤ o.handled
  commands : ∀ x ∈ o.commands, k ≤ x.1

/-- Nothing in the node is older than request `k`. -/
structure Since (o : Origins) (k : Nat) : Prop extends o.Sends k where
  moves : ∀ x ∈ o.moves, k ≤ x.1
  active : ∀ x ∈ o.active, k ≤ x.1

/-- A stop no older than request `k` waits for the controller. -/
def Waits (o : Origins) (k : Nat) : Prop := ∃ j, k ≤ j ∧ (j, MotionCommand.stop) ∈ o.commands

/-- The oldest command is a stop no older than request `k`. -/
def IsNext (o : Origins) (k : Nat) : Prop :=
  ∃ j, k ≤ j ∧ o.commands.head? = some (j, MotionCommand.stop)

/-! ## What one event keeps -/

section Step

variable {τ : Type} (e : NodeEvent) (n n' : Node τ)

theorem mem_numbered {α : Type} {j : Nat} {items : List α} :
    ∀ x ∈ items.map (j, ·), x.1 = j := by
  intro x hx
  obtain ⟨a, -, rfl⟩ := List.mem_map.mp hx
  rfl

/-- A request sends its commands behind the others, and some of all may be lost. -/
theorem sublist_sent (r : GroupRequest) (table : MoveTable) (capacity k : Nat)
    (commands : List (Nat × MotionCommand)) :
    ∃ new, (∀ x ∈ new, x.1 = k) ∧ (sent r table capacity k commands).Sublist (commands ++ new) := by
  have hsame : ∃ new : List (Nat × MotionCommand), (∀ x ∈ new, x.1 = k) ∧
      commands.Sublist (commands ++ new) :=
    ⟨[], fun x hx => absurd hx List.not_mem_nil, List.sublist_append_left _ _⟩
  cases r with
  | stage m => exact hsame
  | report group => exact hsame
  | clearAll => exact hsame
  | execute group start cancel =>
      simp only [sent]
      cases table.group? group with
      | none => exact hsame
      | some g =>
          refine ⟨g.moves.map fun m => (k, .move m), ?_, List.take_sublist _ _⟩
          intro x hx
          obtain ⟨m, -, rfl⟩ := List.mem_map.mp hx
          rfl
  | stop =>
      refine ⟨[(k, .stop)], fun x hx => by rw [List.mem_singleton.mp hx], ?_⟩
      simp only [sent]
      split
      · exact List.Sublist.refl _
      · exact List.sublist_append_right _ _

/-- In every event commands keep their order and new ones get the number of the last request. -/
theorem step_commands (o : Origins) :
    o.handled ≤ (o.step e n n').handled ∧
      ∃ new, (∀ x ∈ new, x.1 = (o.step e n n').handled) ∧
        (o.step e n n').commands.Sublist (o.commands ++ new) := by
  have hsame : o.handled ≤ o.handled ∧ ∃ new, (∀ x ∈ new, x.1 = o.handled) ∧
      o.commands.Sublist (o.commands ++ new) :=
    ⟨Nat.le_refl _, [], fun x hx => absurd hx List.not_mem_nil, List.sublist_append_left _ _⟩
  cases e with
  | frame id payload =>
      exact ⟨Nat.le_refl _, _, mem_numbered, List.Sublist.refl _⟩
  | tick limit encoder =>
      obtain ⟨hc, hh⟩ := foldl_note (n.axis.tickNotes limit) o
      simp only [step, hc, hh]
      exact hsame
  | turn task =>
      cases task with
      | staging =>
          simp only [step]
          cases n.groupRequests.pop? with
          | none => exact hsame
          | some p =>
              exact ⟨Nat.le_succ _, sublist_sent p.1 n.table _ (o.handled + 1) o.commands⟩
      | motion =>
          simp only [step]
          by_cases hc : o.commands = []
          · rw [handle_of_nil hc]
            exact hsame
          · obtain ⟨c, rest, hc⟩ := List.exists_cons_of_ne_nil hc
            rw [handle_of_cons hc, hc]
            exact ⟨Nat.le_refl _, [], fun x hx => absurd hx List.not_mem_nil,
              by rw [List.append_nil]; exact List.sublist_cons_self c rest⟩
      | _ => exact hsame

theorem Ordered.step (ho : o.Ordered) : (o.step e n n').Ordered := by
  obtain ⟨hle, new, hnew, hsub⟩ := step_commands e n n' o
  have hall : ∀ x ∈ o.commands ++ new, x.1 ≤ (o.step e n n').handled := by
    intro x hx
    obtain hx | hx := List.mem_append.mp hx
    · exact Nat.le_trans (ho.le_handled x hx) hle
    · exact Nat.le_of_eq (hnew x hx)
  constructor
  · apply List.Pairwise.sublist hsub
    apply List.pairwise_append.mpr
    refine ⟨ho.sorted, ?_, ?_⟩
    · apply List.pairwise_of_forall_mem_list
      intro x hx y hy
      exact Nat.le_of_eq ((hnew x hx).trans (hnew y hy).symm)
    · intro x hx y hy
      rw [hnew y hy]
      exact Nat.le_trans (ho.le_handled x hx) hle
  · intro x hx
    exact hall x (hsub.subset hx)

theorem Sends.step (hs : o.Sends k) : (o.step e n n').Sends k := by
  obtain ⟨hle, new, hnew, hsub⟩ := step_commands e n n' o
  have hk := Nat.le_trans hs.handled hle
  constructor
  · exact hk
  · intro x hx
    obtain hx | hx := List.mem_append.mp (hsub.subset hx)
    · exact hs.commands x hx
    · rw [hnew x hx]
      exact hk

end Step

theorem Since.note (hs : o.Since k) (n : AxisNote) : (o.note n).Since k := by
  obtain ⟨hsends, hmoves, hactive⟩ := hs
  cases n with
  | cancelled =>
      exact ⟨⟨hsends.handled, hsends.commands⟩, fun x hx => absurd hx List.not_mem_nil,
        fun x hx => absurd hx (Option.not_mem_none x)⟩
  | acked a =>
      exact ⟨⟨hsends.handled, hsends.commands⟩, hmoves,
        fun x hx => absurd hx (Option.not_mem_none x)⟩
  | loaded m =>
      refine ⟨⟨hsends.handled, hsends.commands⟩, ?_, ?_⟩
      · exact fun x hx => hmoves x (List.mem_of_mem_tail hx)
      · exact fun x hx => hmoves x (List.mem_of_mem_head? hx)
  | rebased r => exact ⟨hsends, hmoves, hactive⟩
  | advanced v p => exact ⟨hsends, hmoves, hactive⟩
  | called c => exact ⟨hsends, hmoves, hactive⟩

theorem Since.foldl_note (hs : o.Since k) (h : List AxisNote) :
    (h.foldl Origins.note o).Since k := by
  induction h generalizing o with
  | nil => exact hs
  | cons n h ih => exact ih (hs.note n)

/-- What the notes say was caused by moves no older than request `k`. -/
theorem Since.causes (hs : o.Since k) (h : List AxisNote) :
    ∀ p ∈ o.causes h, ∀ j ∈ p.1, k ≤ j := by
  induction h generalizing o with
  | nil => exact fun p hp => absurd hp List.not_mem_nil
  | cons n h ih =>
      intro p hp j hj
      obtain rfl | hp := List.mem_cons.mp hp
      · obtain ⟨x, hx, rfl⟩ := Option.map_eq_some_iff.mp hj
        exact hs.active x hx
      · exact ih (hs.note n) p hp j hj

theorem Since.step {τ : Type} (hs : o.Since k) (e : NodeEvent) (n n' : Node τ) :
    (o.step e n n').Since k := by
  have hsends := hs.toSends.step e n n'
  cases e with
  | frame id payload => exact ⟨hsends, hs.moves, hs.active⟩
  | tick limit encoder => exact hs.foldl_note _
  | turn task =>
      cases task with
      | staging =>
          refine ⟨hsends, ?_, ?_⟩
          · simp only [Origins.step]
            cases n.groupRequests.pop? <;> exact hs.moves
          · simp only [Origins.step]
            cases n.groupRequests.pop? <;> exact hs.active
      | motion =>
          simp only [Origins.step] at hsends ⊢
          by_cases hc : o.commands = []
          · rw [handle_of_nil hc]
            exact hs
          · obtain ⟨c, rest, hc⟩ := List.exists_cons_of_ne_nil hc
            rw [handle_of_cons hc] at hsends ⊢
            refine ⟨hsends, fun x hx => ?_, hs.active⟩
            obtain hx | hx := List.mem_append.mp hx
            · exact hs.moves x hx
            · rw [mem_numbered x hx]
              exact hs.commands c (hc ▸ List.mem_cons_self ..)
      | _ => exact hs

/-! ## From the stop to the next tick -/

section Run

variable {τ β : Type} [RegisterLink τ] [FrameBus β] {s : Site τ β}

theorem Ordered.run (ho : o.Ordered) (es : List NodeEvent) : (s.origins o es).Ordered := by
  apply Site.origins_invariant (I := fun o (_ : Site τ β) => o.Ordered)
  · intro o s e ho
    exact ho.step e s.node (s.step e).node
  · exact ho

theorem Since.run (hs : o.Since k) (es : List NodeEvent) : (s.origins o es).Since k := by
  apply Site.origins_invariant (I := fun o (_ : Site τ β) => o.Since k)
  · intro o s e hs
    exact hs.step e s.node (s.step e).node
  · exact hs

theorem Since.causes_run (hs : o.Since k) (es : List NodeEvent) :
    ∀ p ∈ s.causes o es, ∀ j ∈ p.1, k ≤ j := by
  apply Site.causes_invariant (I := fun o (_ : Site τ β) => o.Since k)
  · intro o s e hs
    exact hs.step e s.node (s.step e).node
  · intro o s limit hs
    exact hs.causes _
  · exact hs

/-- The step generator is asked to cancel, and only moves younger than request `k` are to come. -/
structure Cancelling (o : Origins) (s : Site τ β) (k : Nat) : Prop extends o.Sends k where
  requested : s.node.axis.status.cancelRequested = true

theorem Cancelling.step {e : NodeEvent} (hc : o.Cancelling s k) (he : e.isTick = false) :
    (o.step e s.node (s.step e).node).Cancelling (s.step e) k := by
  refine ⟨hc.toSends.step e s.node (s.step e).node, ?_⟩
  rw [Site.axis_step]
  exact StepGenerator.cancelRequested_run hc.requested (Node.isTick_axisEvents he s.node)

theorem Cancelling.run {es : List NodeEvent} (hc : o.Cancelling s k)
    (hes : ∀ e ∈ es, e.isTick = false) : (s.origins o es).Cancelling (s.run es) k := by
  induction es generalizing s o with
  | nil => exact hc
  | cons e es ih =>
      exact ih (hc.step (hes e (List.mem_cons_self ..)))
        fun x hx => hes x (List.mem_cons_of_mem _ hx)

omit [RegisterLink τ] [FrameBus β] in
/-- The tick that takes the request drops every move there is. -/
theorem Cancelling.tick (hc : o.Cancelling s k) (limit : Bool) (encoder : Option Int32)
    (n' : Node τ) : (o.step (.tick limit encoder) s.node n').Since k := by
  simp only [Origins.step, StepGenerator.tickNotes_of_cancelRequested limit hc.requested]
  exact ⟨⟨hc.handled, hc.commands⟩, fun x hx => absurd hx List.not_mem_nil,
    fun x hx => absurd hx (Option.not_mem_none x)⟩

/-- Behind a stop in the queue there is nothing older, and handling it asks for a cancel. -/
theorem IsNext.cancelling (hn : o.IsNext k) (ho : o.Ordered) (ha : o.Agrees s.node) :
    (o.step (.turn .motion) s.node (s.step (.turn .motion)).node).Cancelling
      (s.step (.turn .motion)) k := by
  obtain ⟨j, hk, hj⟩ := hn
  obtain ⟨rest, hc⟩ := List.head?_eq_some_iff.mp hj
  have hsorted := ho.sorted
  rw [hc, List.pairwise_cons] at hsorted
  have hsends : o.Sends k := by
    constructor
    · exact Nat.le_trans hk (ho.le_handled (j, .stop) (hc ▸ List.mem_cons_self ..))
    · intro x hx
      rw [hc] at hx
      obtain rfl | hx := List.mem_cons.mp hx
      · exact hk
      · exact Nat.le_trans hk (hsorted.1 x hx)
  have hfirst : s.node.motionCommands.items.head? = some .stop := by
    rw [← ha.commands, hc]
    rfl
  obtain ⟨q, hq⟩ := Queue.exists_pop?_of_head? hfirst
  refine ⟨hsends.step _ _ _, ?_⟩
  rw [Site.axis_step, Node.axisEvents, hq]
  rfl

/-- With the first tick that follows the handling of a stop everything older is gone. -/
theorem IsNext.since (hn : o.IsNext k) (ho : o.Ordered) (ha : o.Agrees s.node)
    {quiet : List NodeEvent} (hquiet : ∀ e ∈ quiet, e.isTick = false) (limit : Bool)
    (encoder : Option Int32) :
    (s.origins o (.turn .motion :: (quiet ++ [.tick limit encoder]))).Since k := by
  have hc := (hn.cancelling ho ha).run hquiet
  rw [Site.origins, Site.origins_append, Site.origins, Site.origins]
  exact hc.tick limit encoder _

/-! ## A stop is not lost -/

theorem Waits.request {table : MoveTable} {capacity : Nat} (hw : o.Waits k) (hk : k ≤ o.handled)
    (hl : o.commands.length ≤ capacity) (r : GroupRequest) :
    (o.request r table capacity).Waits k := by
  obtain ⟨j, hj, hm⟩ := hw
  cases r with
  | stage m => exact ⟨j, hj, hm⟩
  | report group => exact ⟨j, hj, hm⟩
  | clearAll => exact ⟨j, hj, hm⟩
  | execute group start cancel =>
      refine ⟨j, hj, ?_⟩
      simp only [Origins.request, sent]
      cases table.group? group with
      | none => exact hm
      | some g =>
          dsimp only
          rw [List.take_append, List.take_of_length_le hl]
          exact List.mem_append_left _ hm
  | stop =>
      refine ⟨o.handled + 1, Nat.le_succ_of_le hk, ?_⟩
      simp only [Origins.request, sent]
      split
      · exact List.mem_append_right _ (List.mem_singleton_self _)
      · exact List.mem_singleton_self _

/-- A stop waits until it is handled or a younger one takes its place. -/
theorem Waits.step (hw : o.Waits k) (ha : o.Agrees s.node) (hk : k ≤ o.handled) (e : NodeEvent) :
    (o.step e s.node (s.step e).node).Waits k ∨ e = .turn .motion ∧ o.IsNext k := by
  obtain ⟨j, hj, hm⟩ := hw
  cases e with
  | frame id payload => exact .inl ⟨j, hj, List.mem_append_left _ hm⟩
  | tick limit encoder =>
      refine .inl ⟨j, hj, ?_⟩
      rw [Origins.step, (foldl_note _ o).1]
      exact hm
  | turn task =>
      cases task with
      | staging =>
          left
          simp only [Origins.step]
          cases s.node.groupRequests.pop? with
          | none => exact ⟨j, hj, hm⟩
          | some p =>
              have hl : o.commands.length ≤ s.node.motionCommands.capacity := by
                rw [← List.length_map Prod.snd, ha.commands]
                exact s.node.motionCommands.length_le
              exact Waits.request ⟨j, hj, hm⟩ hk hl p.1
      | motion =>
          obtain ⟨c, rest, hc⟩ := List.exists_cons_of_ne_nil (List.ne_nil_of_mem hm)
          rw [hc] at hm
          obtain hhead | hrest := List.mem_cons.mp hm
          · right
            exact ⟨rfl, j, hj, by rw [hc, hhead]; rfl⟩
          · left
            refine ⟨j, hj, ?_⟩
            simp only [Origins.step, handle_of_cons hc]
            exact hrest
      | _ => exact .inl ⟨j, hj, hm⟩

theorem Waits.run (hw : o.Waits k) (ha : o.Agrees s.node) (hs : k ≤ o.handled)
    (es : List NodeEvent) :
    (s.origins o es).Waits k ∨ ∃ first rest, es = first ++ .turn .motion :: rest ∧
      (s.origins o first).IsNext k := by
  induction es generalizing s o with
  | nil => exact .inl hw
  | cons e es ih =>
      obtain hw | ⟨rfl, hnext⟩ := hw.step ha hs e
      · have hle := (step_commands e s.node (s.step e).node o).1
        obtain hw | ⟨first, rest, rfl, hnext⟩ := ih hw (ha.step e) (Nat.le_trans hs hle)
        · exact .inl hw
        · exact .inr ⟨e :: first, rest, rfl, hnext⟩
      · exact .inr ⟨[], es, rfl, hnext⟩

end Run

/-! ## The stop and what was executed before it -/

theorem getLast?_request_stop (table : MoveTable) (capacity : Nat) (o : Origins) :
    (o.request .stop table capacity).commands.getLast? = some (o.handled + 1, .stop) := by
  simp only [Origins.request, sent]
  split
  · exact List.getLast?_concat
  · rfl

theorem ordered_start : ({} : Origins).Ordered := by
  constructor
  · exact List.Pairwise.nil
  · intro x hx
    exact absurd hx List.not_mem_nil

end Origins

open Origins in
/-- Once a stop has been handled every group is empty and the stop waits for the controller, until
it is handled or gives way to a younger one. From the first tick on that follows the handling of
either, nothing that was executed before the stop is queued or active, and every pulse and every
acknowledgement comes from a move that was executed after it. The notes that carry the numbers show
all the calls that the ticks make on the lines and all the acknowledgements that they offer. -/
theorem stop_outlasts_moves {τ β : Type} [RegisterLink τ] [FrameBus β] (setup : NodeSetup)
    (controller : AxisController) (driver : ChipDriver τ) (bus : β) (before : List NodeEvent) :
    let start : Site τ β := ⟨(Node.start setup controller driver).1, bus⟩
    let s := start.run before
    let o := start.origins {} before
    let k := o.handled + 1
    let s' := s.step (.turn .staging)
    let o' := o.step (.turn .staging) s.node s'.node
    s.node.groupRequests.items.head? = some .stop →
      (∀ g ∈ s'.node.table.groups, g.isEmpty = true) ∧
      o'.handled = k ∧ o'.commands.getLast? = some (k, .stop) ∧
      ∀ between,
        let m := s'.run between
        let om := s'.origins o' between
        (om.Waits k ∨ ∃ first rest, between = first ++ .turn .motion :: rest ∧
          (s'.origins o' first).IsNext k) ∧
        (om.IsNext k → ∀ quiet limit encoder after, (∀ e ∈ quiet, e.isTick = false) →
          let upToTick := .turn .motion :: (quiet ++ [.tick limit encoder])
          let t := m.run upToTick
          let ot := m.origins om upToTick
          (t.origins ot after).Agrees (t.run after).node ∧ (t.origins ot after).Since k ∧
            t.Shows after ((t.causes ot after).map Prod.snd) ∧
            ∀ p ∈ t.causes ot after, p.2.isEffect = true → ∃ j, p.1 = some j ∧ k ≤ j) := by
  intro start s o k s' o' hhead
  have ha : o.Agrees s.node := (agrees_start setup controller driver).run before
  have ho : o.Ordered := ordered_start.run before
  have ha' : o'.Agrees s'.node := ha.step (.turn .staging)
  have ho' : o'.Ordered := ho.step (.turn .staging) s.node s'.node
  obtain ⟨q, hq⟩ := Queue.exists_pop?_of_head? hhead
  obtain ⟨-, -, -, htable, -, -⟩ := Node.runStaging_spec hq ha.room
  have hrequest : o' = o.request .stop s.node.table s.node.motionCommands.capacity := by
    simp only [o', Origins.step, hq]
  have hhandled : o'.handled = k := by rw [hrequest]; rfl
  have hlast : o'.commands.getLast? = some (k, .stop) := by
    rw [hrequest]
    exact getLast?_request_stop _ _ o
  refine ⟨?_, hhandled, hlast, fun between => ⟨?_, ?_⟩⟩
  · intro g hg
    have hclear : s'.node.table = s.node.table.clear := htable
    exact MoveTable.isEmpty_of_mem_clear (hclear ▸ hg)
  · exact Waits.run ⟨k, Nat.le_refl k, List.mem_of_getLast? hlast⟩ ha' (Nat.le_of_eq hhandled.symm)
      between
  · intro hnext quiet limit encoder after hquiet upToTick t ot
    have ham := ha'.run between
    have hat : ot.Agrees t.node := ham.run upToTick
    have hsince : ot.Since k := hnext.since (ho'.run between) ham hquiet limit encoder
    have hshows : t.Shows after ((t.causes ot after).map Prod.snd) := by
      rw [Site.map_snd_causes]
      exact t.shows_history after
    refine ⟨hat.run after, hsince.run after, hshows, fun p hp he => ?_⟩
    obtain ⟨j, hj⟩ := Option.isSome_iff_exists.mp (hat.isSome_of_causes after p hp he)
    exact ⟨j, hj, hsince.causes_run after p hp j hj⟩

/-- A request to the node at the gantry. -/
def NodeEvent.request (m : Message) : NodeEvent :=
  .frame (.make .gantryX m.kind .command) m.bytes

/-- A move of one step in every tick is staged and executed. -/
def stageAndExecute : List NodeEvent :=
  [.request (.addLinearMoveRequest ⟨0, 0, 9, 0, 21474837, 0⟩), .turn .staging,
    .request (.executeMoveGroupRequest 0 0 0), .turn .staging]

/-- A stop meets a move that runs, and another move is executed before the stop is handled. -/
theorem stop_outlasts_moves_of_executedAgain :
    let start : Site RegisterFile RecordingBus :=
      ⟨(Node.start ⟨.gantryX, .host, 0⟩ .tenMicrometresPerStep { link := {} }).1, {}⟩
    let before := stageAndExecute ++ [.turn .motion, .tick false none, .request .stopRequest]
    let s := start.run before
    let o := start.origins {} before
    let s' := s.step (.turn .staging)
    let o' := o.step (.turn .staging) s.node s'.node
    let m := s'.run stageAndExecute
    let om := s'.origins o' stageAndExecute
    let t := m.run [.turn .motion, .tick false none]
    let ot := m.origins om [.turn .motion, .tick false none]
    let after := [.turn .motion, .tick false none, .tick false none]
    o.active.map Prod.fst = some 2 ∧ o'.handled = 3 ∧
      (∀ p ∈ t.causes ot after, p.2.isEffect = true → ∃ j, p.1 = some j ∧ o.handled < j) ∧
      ((t.causes ot after).filter fun p => p.2.isEffect).map Prod.fst =
        [some 5, some 5, some 5] := by
  intro start before s o s' o' m om t ot after
  obtain ⟨-, -, -, hbetween⟩ := stop_outlasts_moves ⟨.gantryX, .host, 0⟩
    .tenMicrometresPerStep ({ link := {} } : ChipDriver RegisterFile)
    ({} : RecordingBus) before (by decide +kernel)
  have hafter := (hbetween stageAndExecute).2 ⟨3, by decide +kernel, by decide +kernel⟩
    [] false none after (by simp)
  exact ⟨by decide +kernel, by decide +kernel, hafter.2.2.2, by decide +kernel⟩

end AxisNode
