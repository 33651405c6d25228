import AxisNode.Proofs.Node.Execution
import AxisNode.Proofs.Node.StopOrder

/-!
# The last disable takes effect

Requests to switch the motor on or off wait for the axis controller behind whatever was sent to it
before, and a stop may discard them. A request to execute a group waits for the staging task first,
and only the moves that it sends on reach the controller, which switches the motor on for them. So
commands for the motor take effect in the order in which the node took them, but for one case: a
request to execute a group may still wait for the staging task when a later request to disable the
motor already waits for the controller, and then its moves come behind.
-/

namespace AxisNode

/-! ## What switches the motor on and off -/

/-- Whether the controller may switch the motor on for a command. -/
def MotionCommand.switchesOn : MotionCommand → Bool
  | request .enable => true
  | move _ => true
  | _ => false

/-- Whether the motor is on once the controller has handled a command. -/
def AxisController.enabledAfter (c : AxisController) : MotionCommand → Bool
  | .request .enable => true
  | .request .disable => false
  | .move m => c.enabled || (c.convert? m).isSome
  | _ => c.enabled

theorem AxisController.enabledAfter_of_off {c : AxisController} {command : MotionCommand}
    (hc : c.enabled = false) (h : command.switchesOn = false) : c.enabledAfter command = false := by
  cases command with
  | request r =>
      cases r with
      | enable => cases h
      | disable => rfl
      | _ => exact hc
  | move m => cases h
  | stop => exact hc

theorem AxisController.motor_push (c : AxisController) (link : MoveLink) (m : Move) :
    (c.push link m).controller.enabled = true ∧
      (((c.push link m).events.filterMap Event.motor?).getLast?).getD c.enabled = true := by
  cases he : c.enabled <;> cases hq : link.moves.push? m <;>
    simp [push, enable, he, hq, List.filterMap_cons, Event.motor?]

theorem Outbox.motor_post (o : Outbox) (destination : NodeAddress) (r : Reply) :
    (o.post destination r).events.filterMap Event.motor? = [] := by
  unfold post
  split <;> rfl

/-- The last call on the line that powers the motor says what the controller remembers. -/
theorem MotionTask.motor_handle (c : MotionCommand) (t : MotionTask) :
    (t.handle c).1.controller.enabled = t.controller.enabledAfter c ∧
      (((t.handle c).2.filterMap Event.motor?).getLast?).getD t.controller.enabled =
        t.controller.enabledAfter c := by
  cases c with
  | request r =>
      have hreply : ∀ r, (((t.reply r).2.filterMap Event.motor?).getLast?).getD
          t.controller.enabled = t.controller.enabled := by
        intro r
        rw [MotionTask.reply, Outbox.motor_post]
        rfl
      cases r with
      | getConstraints => exact ⟨rfl, hreply _⟩
      | position => exact ⟨rfl, hreply _⟩
      | limitSwitch => exact ⟨rfl, hreply _⟩
      | _ => exact ⟨rfl, rfl⟩
  | move m =>
      simp only [handle, AxisController.queueMove, AxisController.enabledAfter]
      cases t.controller.convert? m with
      | none => exact ⟨(Bool.or_false _).symm, (Bool.or_false _).symm⟩
      | some move =>
          rw [Option.isSome_some, Bool.or_true]
          exact t.controller.motor_push t.link move
  | stop => exact ⟨rfl, rfl⟩

/-- What a request sends on goes behind what waits, unless a stop finds no room; and only an execute
sends on what can switch the motor on. -/
theorem StagingTask.queueAfter_append {r : GroupRequest} {capacity : Nat}
    {items : List MotionCommand} (table : MoveTable) (hl : items.length ≤ capacity)
    (hr : ¬(r = .stop ∧ capacity ≤ items.length)) :
    ∃ new, queueAfter r table capacity items = items ++ new ∧
      ((∀ group start cancel, r ≠ .execute group start cancel) →
        ∀ c ∈ new, c.switchesOn = false) := by
  cases r with
  | stage m => exact ⟨[], (List.append_nil _).symm, fun _ => List.forall_mem_nil _⟩
  | report group => exact ⟨[], (List.append_nil _).symm, fun _ => List.forall_mem_nil _⟩
  | clearAll => exact ⟨[], (List.append_nil _).symm, fun _ => List.forall_mem_nil _⟩
  | execute group start cancel =>
      simp only [queueAfter]
      cases table.group? group with
      | none => exact ⟨[], (List.append_nil _).symm, fun _ => List.forall_mem_nil _⟩
      | some g =>
          refine ⟨(g.moves.map MotionCommand.move).take (capacity - items.length), ?_,
            fun h => absurd rfl (h group start cancel)⟩
          dsimp only
          rw [List.take_append, List.take_of_length_le hl]
  | stop =>
      have hroom : items.length < capacity := Nat.lt_of_not_le fun h => hr ⟨rfl, h⟩
      refine ⟨[.stop], if_pos hroom, fun _ c hc => ?_⟩
      rw [List.mem_singleton.mp hc]
      rfl

namespace Queue

variable {α : Type} {q q' : Queue α} {new : List α} {a : α} {i : Nat}

/-- The places of the items that a queue holds behind those of another. -/
def newPlaces (q q' : Queue α) : List Nat :=
  List.range' q.items.length (q'.items.length - q.items.length)

theorem mem_newPlaces : i ∈ q.newPlaces q' ↔ q.items.length ≤ i ∧ i < q'.items.length := by
  rw [newPlaces, List.mem_range'_1]
  omega

/-- An item of a queue that something was put behind was there before or is at a new place. -/
theorem getElem?_of_append (h : q'.items = q.items ++ new) (hi : q'.items[i]? = some a) :
    q.items[i]? = some a ∨ i ∈ q.newPlaces q' ∧ a ∈ new := by
  have hlt := (List.getElem?_eq_some_iff.mp hi).1
  rw [h] at hi
  by_cases hold : i < q.items.length
  · rw [List.getElem?_append_left hold] at hi
    exact .inl hi
  · rw [List.getElem?_append_right (Nat.le_of_not_lt hold)] at hi
    exact .inr ⟨mem_newPlaces.mpr ⟨Nat.le_of_not_lt hold, hlt⟩, List.mem_of_getElem? hi⟩

end Queue

namespace Node

variable {τ : Type} {n : Node τ}

/-- Requests are queued behind the others. -/
theorem groupRequests_handleFrame (n : Node τ) (id : FrameId) (payload : List UInt8) :
    ∃ rs, (n.handleFrame id payload).1.groupRequests.items = n.groupRequests.items ++ rs := by
  apply Route.deliver_keeps (P := fun n' : Node τ =>
    ∃ rs, n'.groupRequests.items = n.groupRequests.items ++ rs)
  · intro l hl
    simp only [routes, Route.forNode, Route.all, List.foldr, Route.leaves, List.mem_append,
      List.mem_singleton, List.not_mem_nil, or_false] at hl
    obtain rfl | rfl | rfl | rfl := hl
    · apply Leaf.handling_keeps
      intro r n' h
      cases r <;> exact h
    · apply Leaf.queueing_keeps
      rintro r n' q hq ⟨rs, hrs⟩
      refine ⟨rs ++ [r], ?_⟩
      rw [(Queue.push?_eq_some_iff.mp hq).2.1, hrs, List.append_assoc]
    · exact Leaf.queueing_keeps fun _ _ _ _ h => h
    · exact Leaf.queueing_keeps fun _ _ _ _ h => h
  · exact ⟨[], (List.append_nil _).symm⟩

theorem runMotion_of_some {command : MotionCommand} {q : Queue MotionCommand}
    (h : n.motionCommands.pop? = some (command, q)) :
    n.runMotion.node.controller.enabled = n.controller.enabledAfter command ∧
      n.runMotion.events = (n.motionTask.handle command).2 := by
  have hrun : n.runMotion.node.controller = (n.motionTask.handle command).1.controller ∧
      n.runMotion.events = (n.motionTask.handle command).2 := by
    simp [runMotion, runMotionWithin, Queue.popWithin?, h, setLink]
  rw [hrun.1]
  exact ⟨(n.motionTask.motor_handle command).1, hrun.2⟩

/-- A turn of the staging task handles a stop that finds the queue to the controller full, so that
everything in it is discarded. -/
def discards (n : Node τ) : Bool :=
  n.groupRequests.items.head? == some .stop &&
    n.motionCommands.capacity ≤ n.motionCommands.items.length

/-- A turn of the staging task leaves the queue to the controller with a stop alone, or puts
something behind what waits there. -/
theorem runStaging_cases {r : GroupRequest} {q : Queue GroupRequest}
    (h : n.groupRequests.pop? = some (r, q)) (hc : 0 < n.motionCommands.capacity) :
    n.discards = true ∧ n.runStaging.node.motionCommands.items = [.stop] ∨
      n.discards = false ∧ ∃ new,
        n.runStaging.node.motionCommands.items = n.motionCommands.items ++ new ∧
          ((∀ group start cancel, r ≠ .execute group start cancel) →
            ∀ c ∈ new, c.switchesOn = false) := by
  obtain ⟨-, -, -, -, -, hqueue⟩ := runStaging_spec h hc
  have hdiscards : n.discards = true ↔
      r = .stop ∧ n.motionCommands.capacity ≤ n.motionCommands.items.length := by
    simp [discards, (Queue.pop?_eq_some_iff.mp h).1]
  by_cases hstop : r = .stop ∧ n.motionCommands.capacity ≤ n.motionCommands.items.length
  · left
    refine ⟨hdiscards.mpr hstop, ?_⟩
    rw [hqueue, hstop.1]
    exact if_neg (Nat.not_lt.mpr hstop.2)
  · right
    refine ⟨Bool.eq_false_iff.mpr fun hd => hstop (hdiscards.mp hd), ?_⟩
    rw [hqueue]
    exact StagingTask.queueAfter_append n.table n.motionCommands.length_le hstop

theorem discards_of_none (h : n.groupRequests.pop? = none) : n.discards = false := by
  simp [discards, Queue.pop?_eq_none_iff.mp h]

end Node

/-! ## What the node has taken and not discarded -/

/-- A command for the motor as it comes over the bus. -/
inductive PowerCommand where
  | enable
  | disable
  | execute
deriving DecidableEq, Repr

/-- What a command has to say about the power of the motor, if anything. -/
def MotionCommand.power? : MotionCommand → Option PowerCommand
  | request .enable => some .enable
  | request .disable => some .disable
  | _ => none

/-- What a group request has to say about the power of the motor: the moves that it sends on switch
it on. -/
def GroupRequest.power? : GroupRequest → Option PowerCommand
  | execute .. => some .execute
  | _ => none

theorem GroupRequest.power?_eq_execute_iff {r : GroupRequest} :
    r.power? = some .execute ↔ ∃ group start cancel, r = .execute group start cancel := by
  cases r <;> simp [power?]

namespace Site

variable {τ β : Type} [RegisterLink τ] [FrameBus β] {s : Site τ β} {p : Nat}

/-- No stop discards the command at a place of the queue to the controller: in a run it is handled
or still waits. -/
def keeps (s : Site τ β) (i : Nat) : List NodeEvent → Bool
  | [] => true
  | e :: es =>
      match e with
      | .turn .motion => i == 0 || (s.step e).keeps (i - 1) es
      | .turn .staging => !s.node.discards && (s.step e).keeps i es
      | _ => (s.step e).keeps i es

/-- Of the commands that the request at a place of the queue of the staging task sends on some is
not discarded, or the request still waits. -/
def keepsRequest (s : Site τ β) (j : Nat) : List NodeEvent → Bool
  | [] => true
  | e :: es =>
      match e with
      | .turn .staging =>
          if j = 0 then
            (s.node.motionCommands.newPlaces (s.step e).node.motionCommands).any
              fun i => (s.step e).keeps i es
          else (s.step e).keepsRequest (j - 1) es
      | _ => (s.step e).keepsRequest j es

/-- The commands for the motor that frames put on the queues in a run and that are not discarded. -/
def accepted (s : Site τ β) : List NodeEvent → List PowerCommand
  | [] => []
  | e :: es =>
      let t := s.step e
      let new := match e with
        | .frame _ _ =>
            ((s.node.groupRequests.newPlaces t.node.groupRequests).filterMap fun j =>
              if t.keepsRequest j es then t.node.groupRequests.items[j]?.bind GroupRequest.power?
              else none) ++
            (s.node.motionCommands.newPlaces t.node.motionCommands).filterMap fun i =>
              if t.keeps i es then t.node.motionCommands.items[i]?.bind MotionCommand.power?
              else none
        | _ => []
      new ++ t.accepted es

/-- Whether the axis controller has switched the motor on. -/
def powered (s : Site τ β) : Bool := s.node.controller.enabled

/-- The calls on the line that powers the motor. -/
def motorCalls (s : Site τ β) : List NodeEvent → List Bool
  | [] => []
  | e :: es =>
      let called := match e with
        | .turn .motion => s.node.runMotion.events.filterMap Event.motor?
        | _ => []
      called ++ (s.step e).motorCalls es

/-- From a place of the queue on no command that is handled in a run can switch the motor on. -/
structure Unopposed (s : Site τ β) (p : Nat) (es : List NodeEvent) : Prop where
  commands : ∀ i c, p ≤ i → s.node.motionCommands.items[i]? = some c → c.switchesOn = true →
    s.keeps i es = false
  requests : ∀ j r, s.node.groupRequests.items[j]? = some r → r.power? = some .execute →
    s.keepsRequest j es = false
  accepted : s.accepted es = []

/-- A request to disable the motor waits at a place and is not discarded, and nothing behind it can
switch the motor on. -/
structure Awaits (s : Site τ β) (p : Nat) (es : List NodeEvent) : Prop where
  waits : s.node.motionCommands.items[p]? = some (.request .disable)
  kept : s.keeps p es = true
  unopposed : s.Unopposed (p + 1) es

/-- The motor is off and nothing can switch it on. -/
structure Off (s : Site τ β) (es : List NodeEvent) : Prop where
  powered : s.powered = false
  unopposed : s.Unopposed 0 es

/-- Nothing happens to either queue. -/
structure SameQueues (s t : Site τ β) : Prop where
  groupRequests : t.node.groupRequests = s.node.groupRequests
  motionCommands : t.node.motionCommands = s.node.motionCommands

/-! ## One event -/

section Step

variable {e : NodeEvent} {es : List NodeEvent}

theorem Unopposed.of_sameQueues {t : Site τ β} {es' : List NodeEvent} (hu : s.Unopposed p es)
    (hq : SameQueues s t) (hk : ∀ i, t.keeps i es' = s.keeps i es)
    (hr : ∀ j, t.keepsRequest j es' = s.keepsRequest j es) (ha : t.accepted es' = s.accepted es) :
    t.Unopposed p es' := by
  obtain ⟨hcommands, hrequests, haccepted⟩ := hu
  refine ⟨?_, ?_, ha.trans haccepted⟩
  · intro i c hi hc
    rw [hk]
    exact hcommands i c hi (hq.motionCommands ▸ hc)
  · intro j r hj
    rw [hr]
    exact hrequests j r (hq.groupRequests ▸ hj)

/-- What a frame adds to a queue can only switch the motor on if it is discarded. -/
theorem Unopposed.frame {id : FrameId} {payload : List UInt8}
    (hu : s.Unopposed p (.frame id payload :: es)) :
    (s.step (.frame id payload)).Unopposed p es := by
  obtain ⟨hcommands, hrequests, haccepted⟩ := hu
  obtain ⟨rs, hrs⟩ := (Node.received_handleFrame s.node id payload).commands
  obtain ⟨rs', hrs'⟩ := s.node.groupRequests_handleFrame id payload
  have hm : (s.step (.frame id payload)).node.motionCommands.items =
      s.node.motionCommands.items ++ rs.map .request := hrs
  have hg : (s.step (.frame id payload)).node.groupRequests.items =
      s.node.groupRequests.items ++ rs' := hrs'
  obtain ⟨hnew, hrest⟩ := List.append_eq_nil_iff.mp haccepted
  obtain ⟨hexecutes, hpower⟩ := List.append_eq_nil_iff.mp hnew
  rw [List.filterMap_eq_nil_iff] at hexecutes hpower
  refine ⟨?_, ?_, hrest⟩
  · intro i c hi hc hon
    obtain hold | ⟨hnew, hmem⟩ := Queue.getElem?_of_append hm hc
    · exact hcommands i c hi hold hon
    · have hplace := hpower i hnew
      rw [hc, Option.bind_some] at hplace
      obtain ⟨r, -, rfl⟩ := List.mem_map.mp hmem
      cases r with
      | enable => simpa [MotionCommand.power?] using hplace
      | _ => cases hon
  · intro j r hj hr
    obtain hold | ⟨hnew, -⟩ := Queue.getElem?_of_append hg hj
    · exact hrequests j r hold hr
    · have hplace := hexecutes j hnew
      rw [hj, Option.bind_some, hr] at hplace
      simpa using hplace

theorem keeps_staging (hd : s.node.discards = false) (i : Nat) :
    s.keeps i (.turn .staging :: es) = (s.step (.turn .staging)).keeps i es := by
  rw [keeps, hd, Bool.not_false, Bool.true_and]

/-- The staging task sends on what can switch the motor on only if it is discarded. -/
theorem Unopposed.staging (hc : 0 < s.node.motionCommands.capacity)
    (hu : s.Unopposed p (.turn .staging :: es)) : (s.step (.turn .staging)).Unopposed p es := by
  cases hq : s.node.groupRequests.pop? with
  | none =>
      have hnode : (s.step (.turn .staging)).node = s.node := by
        rw [step, turn, Node.runStaging_of_none hq]
      refine ⟨?_, ?_, hu.accepted⟩
      · intro i c hi hic hon
        rw [← keeps_staging (Node.discards_of_none hq)]
        exact hu.commands i c hi (hnode ▸ hic) hon
      · intro j r hj
        rw [hnode, Queue.pop?_eq_none_iff.mp hq] at hj
        cases hj
  | some x =>
      obtain ⟨r, q⟩ := x
      have hitems := (Queue.pop?_eq_some_iff.mp hq).1
      have hgroup : (s.step (.turn .staging)).node.groupRequests = q :=
        (Node.runStaging_spec hq hc).2.2.1
      refine ⟨?_, ?_, hu.accepted⟩
      · intro i c hi hic hon
        obtain ⟨-, hlone⟩ | ⟨hd, new, hnew, hother⟩ := Node.runStaging_cases hq hc
        · have hstop := List.mem_of_getElem? (hlone ▸ hic)
          rw [List.mem_singleton.mp hstop] at hon
          cases hon
        · obtain hold | ⟨hplace, hmem⟩ := Queue.getElem?_of_append hnew hic
          · rw [← keeps_staging hd]
            exact hu.commands i c hi hold hon
          · by_cases hexecute : ∃ group start cancel, r = .execute group start cancel
            · have hkept := hu.requests 0 r (by rw [hitems, List.getElem?_cons_zero])
                (GroupRequest.power?_eq_execute_iff.mpr hexecute)
              rw [keepsRequest, if_pos rfl, List.any_eq_false] at hkept
              exact Bool.eq_false_iff.mpr (hkept i hplace)
            · have hoff := hother (fun group start cancel hr => hexecute ⟨group, start, cancel, hr⟩)
                c hmem
              rw [hon] at hoff
              cases hoff
      · intro j x hj hx
        rw [hgroup] at hj
        exact hu.requests (j + 1) x (by rw [hitems]; exact hj) hx

theorem step_motion_of_none (h : s.node.motionCommands.pop? = none) :
    s.step (.turn .motion) = s := by
  rw [Site.step, turn, Node.runMotion_of_none h]

/-- A turn of the controller takes the first command. -/
theorem Unopposed.motion (hu : s.Unopposed p (.turn .motion :: es)) :
    (s.step (.turn .motion)).Unopposed (p - 1) es := by
  obtain ⟨hcommands, hrequests, haccepted⟩ := hu
  cases hq : s.node.motionCommands.pop? with
  | none =>
      have hnode : (s.step (.turn .motion)).node = s.node := by
        rw [step_motion_of_none hq]
      refine ⟨?_, ?_, haccepted⟩
      · intro i c hi hic
        rw [hnode, Queue.pop?_eq_none_iff.mp hq] at hic
        cases hic
      · intro j r hj
        exact hrequests j r (hnode ▸ hj)
  | some x =>
      obtain ⟨c, q⟩ := x
      have hitems := (Queue.pop?_eq_some_iff.mp hq).1
      obtain ⟨-, hqueue, -, hgroup⟩ := Node.axis_runMotion hq
      have hqueue' : (s.step (.turn .motion)).node.motionCommands = q := hqueue
      have hgroup' : (s.step (.turn .motion)).node.groupRequests = s.node.groupRequests := hgroup
      refine ⟨?_, ?_, haccepted⟩
      · intro i c' hi hic hon
        rw [hqueue'] at hic
        exact hcommands (i + 1) c' (by omega) (by rw [hitems]; exact hic) hon
      · intro j r hj
        exact hrequests j r (hgroup' ▸ hj)

/-- Every event keeps what waits from being opposed; a turn of the controller moves it up. -/
theorem Unopposed.step (hc : 0 < s.node.motionCommands.capacity) (hu : s.Unopposed p (e :: es)) :
    (s.step e).Unopposed (if e = .turn .motion then p - 1 else p) es := by
  have hsame : ∀ n' : Node τ, s.node.SameWork n' → n' = (s.step e).node →
      SameQueues s (s.step e) := by
    rintro n' hw rfl
    exact ⟨hw.groupRequests, hw.motionCommands⟩
  cases e with
  | frame id payload => exact hu.frame
  | tick limit encoder =>
      exact hu.of_sameQueues ⟨rfl, rfl⟩ (fun _ => rfl) (fun _ => rfl) rfl
  | turn task =>
      cases task with
      | motion => exact hu.motion
      | staging => exact hu.staging hc
      | reports =>
          exact hu.of_sameQueues (hsame _ (Node.sameWork_runReports s.node) rfl) (fun _ => rfl)
            (fun _ => rfl) rfl
      | chip =>
          exact hu.of_sameQueues (hsame _ (Node.sameWork_runChip s.node) rfl) (fun _ => rfl)
            (fun _ => rfl) rfl
      | outbox =>
          exact hu.of_sameQueues (hsame _ (Node.sameWork_runOutbox s.node s.bus) rfl)
            (fun _ => rfl) (fun _ => rfl) rfl

theorem controller_step (he : e ≠ .turn .motion) (s : Site τ β) :
    (s.step e).node.controller = s.node.controller := by
  cases e with
  | frame id payload => exact (Node.received_handleFrame s.node id payload).controller
  | tick limit encoder => rfl
  | turn task =>
      cases task with
      | motion => exact absurd rfl he
      | reports => rfl
      | staging =>
          cases hq : s.node.groupRequests.pop? with
          | none => rw [step, turn, Node.runStaging_of_none hq]
          | some x =>
              obtain ⟨r, q⟩ := x
              rw [step, turn, Node.runStaging_of_some hq]
      | chip => exact (Node.sameWork_runChip s.node).controller
      | outbox => rfl

/-- Only a turn of the controller switches the motor on or off. -/
theorem powered_step (he : e ≠ .turn .motion) (s : Site τ β) : (s.step e).powered = s.powered :=
  congrArg AxisController.enabled (controller_step he s)

theorem powered_motion {c : MotionCommand} {q : Queue MotionCommand}
    (h : s.node.motionCommands.pop? = some (c, q)) :
    (s.step (.turn .motion)).powered = s.node.controller.enabledAfter c :=
  (Node.runMotion_of_some h).1

theorem Off.step (hc : 0 < s.node.motionCommands.capacity) (ho : s.Off (e :: es)) :
    (s.step e).Off es := by
  have hu : (s.step e).Unopposed 0 es := by
    simpa using ho.unopposed.step hc
  refine ⟨?_, hu⟩
  by_cases he : e = .turn .motion
  · subst he
    cases hq : s.node.motionCommands.pop? with
    | none =>
        rw [step_motion_of_none hq]
        exact ho.powered
    | some x =>
        obtain ⟨c, q⟩ := x
        -- The command is at place zero, where it cannot be discarded any more.
        have hoff : c.switchesOn = false := by
          rw [← Bool.not_eq_true]
          intro hon
          have hkept := ho.unopposed.commands 0 c (Nat.le_refl 0)
            (by rw [(Queue.pop?_eq_some_iff.mp hq).1, List.getElem?_cons_zero]) hon
          cases hkept
        exact (powered_motion hq).trans (AxisController.enabledAfter_of_off ho.powered hoff)
  · rw [powered_step he]
    exact ho.powered

/-- A command that is not discarded keeps its place until a turn of the controller. -/
theorem place_step (hc : 0 < s.node.motionCommands.capacity) (he : e ≠ .turn .motion)
    {c : MotionCommand} (hi : s.node.motionCommands.items[p]? = some c)
    (hk : s.keeps p (e :: es) = true) :
    (s.step e).node.motionCommands.items[p]? = some c ∧ (s.step e).keeps p es = true := by
  have hbehind : ∀ new, (s.node.motionCommands.items ++ new)[p]? = some c := fun new => by
    rw [List.getElem?_append_left (List.getElem?_eq_some_iff.mp hi).1, hi]
  cases e with
  | frame id payload =>
      obtain ⟨rs, hrs⟩ := (Node.received_handleFrame s.node id payload).commands
      refine ⟨?_, hk⟩
      rw [step, hrs]
      exact hbehind _
  | tick limit encoder => exact ⟨hi, hk⟩
  | turn task =>
      cases task with
      | motion => exact absurd rfl he
      | reports => exact ⟨hi, hk⟩
      | outbox => exact ⟨hi, hk⟩
      | chip =>
          refine ⟨?_, hk⟩
          rw [step, turn, (Node.sameWork_runChip s.node).motionCommands]
          exact hi
      | staging =>
          rw [keeps, Bool.and_eq_true, Bool.not_eq_true'] at hk
          refine ⟨?_, hk.2⟩
          cases hq : s.node.groupRequests.pop? with
          | none =>
              rw [step, turn, Node.runStaging_of_none hq]
              exact hi
          | some x =>
              obtain ⟨r, q⟩ := x
              obtain ⟨hd, -⟩ | ⟨-, new, hnew, -⟩ := Node.runStaging_cases hq hc
              · rw [hk.1] at hd
                cases hd
              · rw [step, turn, hnew]
                exact hbehind new

/-- A request to disable the motor waits until the controller handles it, and then the motor is
off. -/
theorem Awaits.step (hc : 0 < s.node.motionCommands.capacity) (ha : s.Awaits p (e :: es)) :
    (∃ p', (s.step e).Awaits p' es) ∨
      (s.step e).Off es ∧ s.motorCalls [e] = [false] := by
  obtain ⟨hwaits, hkept, hu⟩ := ha
  have hu' := hu.step hc
  by_cases he : e = .turn .motion
  · subst he
    rw [if_pos rfl, Nat.add_sub_cancel] at hu'
    obtain ⟨⟨c, q⟩, hq⟩ : ∃ x, s.node.motionCommands.pop? = some x := by
      rw [← Option.ne_none_iff_exists', Ne, Queue.pop?_eq_none_iff]
      intro hnil
      rw [hnil] at hwaits
      cases hwaits
    have hitems := (Queue.pop?_eq_some_iff.mp hq).1
    rw [hitems] at hwaits
    -- The turn takes the command in front, which is the request itself at place zero.
    cases p with
    | zero =>
        obtain rfl : c = .request .disable := Option.some_inj.mp hwaits
        refine .inr ⟨⟨powered_motion hq, hu'⟩, ?_⟩
        rw [motorCalls, (Node.runMotion_of_some hq).2]
        rfl
    | succ k =>
        refine .inl ⟨k, ?_, hkept, hu'⟩
        rw [Site.step, turn, (Node.axis_runMotion hq).2.1]
        exact hwaits
  · rw [if_neg he] at hu'
    obtain ⟨hwaits', hkept'⟩ := place_step hc he hwaits hkept
    exact .inl ⟨p, hwaits', hkept', hu'⟩

end Step

/-! ## A run -/

variable {setup : NodeSetup}

theorem motorCalls_cons (s : Site τ β) (e : NodeEvent) (es : List NodeEvent) :
    s.motorCalls (e :: es) = s.motorCalls [e] ++ (s.step e).motorCalls es := by
  simp only [motorCalls, List.append_nil]

theorem motorCalls_step (e : NodeEvent) (s : Site τ β) :
    ((s.motorCalls [e]).getLast?).getD s.powered = (s.step e).powered := by
  by_cases he : e = .turn .motion
  · subst he
    rw [motorCalls, motorCalls, List.append_nil]
    cases hq : s.node.motionCommands.pop? with
    | none =>
        rw [step_motion_of_none hq, Node.runMotion_of_none hq]
        rfl
    | some x =>
        obtain ⟨c, q⟩ := x
        rw [powered_motion hq, (Node.runMotion_of_some hq).2]
        exact (s.node.motionTask.motor_handle c).2
  · have hnone : s.motorCalls [e] = [] := by
      cases e with
      | turn task =>
          cases task with
          | motion => exact absurd rfl he
          | _ => rfl
      | _ => rfl
    rw [hnone, powered_step he]
    rfl

/-- The last call on the line that powers the motor says what the controller remembers. -/
theorem motorCalls_run (s : Site τ β) (es : List NodeEvent) :
    ((s.motorCalls es).getLast?).getD s.powered = (s.run es).powered := by
  induction es generalizing s with
  | nil => rfl
  | cons e es ih =>
      rw [motorCalls_cons, List.getLast?_append, Option.getD_or, motorCalls_step]
      exact ih (s.step e)

theorem Off.run {es : List NodeEvent} (hb : s.node.Built setup {}) (ho : s.Off es) :
    (s.run es).powered = false := by
  induction es generalizing s with
  | nil => exact ho.powered
  | cons e es ih =>
      have hc : 0 < s.node.motionCommands.capacity := hb.motionCommands ▸ Nat.zero_lt_succ 9
      exact ih (built_run hb (by decide) [e]) (ho.step hc)

/-- At the end of a run a request to disable the motor that is not discarded still waits, or it has
been handled and the motor is off. -/
theorem Awaits.run {es : List NodeEvent} (hb : s.node.Built setup {}) (ha : s.Awaits p es) :
    (s.run es).node.motionCommands.items ≠ [] ∨
      (s.run es).powered = false ∧ s.motorCalls es ≠ [] := by
  induction es generalizing s p with
  | nil =>
      left
      intro hnil
      have hwaits := ha.waits
      rw [run] at hnil
      rw [hnil] at hwaits
      cases hwaits
  | cons e es ih =>
      have hc : 0 < s.node.motionCommands.capacity := hb.motionCommands ▸ Nat.zero_lt_succ 9
      have hb' : (s.step e).node.Built setup {} := built_run hb (by decide) [e]
      rw [motorCalls_cons]
      obtain ⟨p', ha'⟩ | ⟨ho, hcall⟩ := ha.step hc
      · obtain hwaits | ⟨hoff, hsome⟩ := ih hb' ha'
        · exact .inl hwaits
        · exact .inr ⟨hoff, List.append_ne_nil_of_right_ne_nil _ hsome⟩
      · refine .inr ⟨Off.run (s := s.step e) hb' ho, ?_⟩
        rw [hcall]
        exact List.cons_ne_nil _ _

/-- A poll of a node without commands leaves the motor as it is. -/
theorem powered_poll (h : s.node.motionCommands.items = []) : s.poll.powered = s.powered := by
  have hmotion : (s.turn .reports).turn .motion = s.turn .reports := by
    have hnone : (s.turn .reports).node.motionCommands.pop? = none :=
      Queue.pop?_eq_none_iff.mpr h
    simp only [turn] at hnone ⊢
    rw [Node.runMotion_of_none hnone]
  have hpoll : s.poll =
      (((s.turn .reports).step (.turn .staging)).step (.turn .chip)).step (.turn .outbox) :=
    congrArg (fun t => ((t.step (.turn .staging)).step (.turn .chip)).step (.turn .outbox)) hmotion
  rw [hpoll, powered_step (e := .turn .outbox) (by decide),
    powered_step (e := .turn .chip) (by decide), powered_step (e := .turn .staging) (by decide)]
  rfl

end Site

open Site in
/-- A request to disable the motor is taken and not discarded, no command for the motor is taken
after it, and no request to execute a group that waits for the staging task at that time sends on
what reaches the controller. Then the motor is off when a poll finds nothing left to do, which it
does at some point if nothing comes between the polls. -/
theorem last_disable_takes_effect {τ β : Type} [RegisterLink τ] [FrameBus β] (setup : NodeSetup)
    (controller : AxisController) (driver : ChipDriver τ) (bus : β) (before : List NodeEvent)
    (id : FrameId) (payload : List UInt8) (after : List NodeEvent) :
    let start : Site τ β := ⟨(Node.start setup controller driver).1, bus⟩
    let s := start.run before
    let t := s.step (.frame id payload)
    t.node.motionCommands.items = s.node.motionCommands.items ++ [.request .disable] →
    t.keeps s.node.motionCommands.items.length after = true →
    t.accepted after = [] →
    (∀ j r, t.node.groupRequests.items[j]? = some r → r.power? = some .execute →
      t.keepsRequest j after = false) →
    (∃ k, ((t.run after).polls k).busy = false) ∧
      ((t.run after).busy = false →
        (t.run after).poll.powered = false ∧
          (t.motorCalls after).getLast? = some false) := by
  intro start s t htaken hkept haccepted hexecutes
  have hb : t.node.Built setup {} :=
    built_run (built_run (Node.built_start setup controller driver) (by decide) before)
      (by decide) [.frame id payload]
  have hwaits : t.Awaits s.node.motionCommands.items.length after := by
    refine ⟨?_, hkept, ?_, hexecutes, haccepted⟩
    · rw [htaken]
      exact List.getElem?_concat_length
    · intro i c hi hc
      have hlt := (List.getElem?_eq_some_iff.mp hc).1
      rw [htaken, List.length_append, List.length_singleton] at hlt
      omega
  obtain ⟨k, -, hidle⟩ := exists_first_idle (built_run hb (by decide) after) (by decide)
  refine ⟨⟨k, hidle⟩, fun hbusy => ?_⟩
  obtain ⟨-, -, -, -, -, hrest⟩ := (t.run after).node.work_poll (t.run after).bus
  have hempty : (t.run after).node.motionCommands.items = [] :=
    List.length_eq_zero_iff.mp (hrest.mp hbusy).1.motionCommands
  obtain hwaiting | ⟨hoff, hcalls⟩ := hwaits.run hb
  · exact absurd hempty hwaiting
  · obtain ⟨on, hon⟩ : ∃ on, (t.motorCalls after).getLast? = some on :=
      ⟨_, List.getLast?_eq_some_getLast hcalls⟩
    have hlast := t.motorCalls_run after
    rw [hon, Option.getD_some, hoff] at hlast
    refine ⟨?_, hon.trans (congrArg some hlast)⟩
    rw [powered_poll hempty]
    exact hoff

/-- A move waits for the controller and a request to execute an empty group for the staging task. -/
def moveAndExecute : List NodeEvent :=
  stageSlots [0] ++
    [executeFirst, .turn .staging, .request (.executeMoveGroupRequest 1 0 0)]

/-- Requests to enable the motor come in and are discarded by a stop. -/
def enableAndStop : List NodeEvent :=
  [.turn .staging, .turn .motion, .turn .motion] ++
    List.replicate 10 (.request .enableMotorRequest) ++
    [.request .stopRequest, .turn .staging, .turn .motion]

theorem last_disable_takes_effect_of_enableAndStop :
    let s := gantry.run moveAndExecute
    let t := s.step (.request .disableMotorRequest)
    s.node.motionCommands.items.length = 1 ∧ t.node.groupRequests.items.length = 1 ∧
      (t.run enableAndStop).poll.powered = false ∧
      t.motorCalls enableAndStop = [true, false] := by
  intro s t
  have hexecutes : ∀ j r, t.node.groupRequests.items[j]? = some r → r.power? = some .execute →
      t.keepsRequest j enableAndStop = false := by
    intro j r hj _
    have hall : ∀ j < t.node.groupRequests.items.length,
        t.keepsRequest j enableAndStop = false := by decide +kernel
    exact hall j (List.getElem?_eq_some_iff.mp hj).1
  obtain ⟨-, hoff⟩ := last_disable_takes_effect ⟨.gantryX, .host, 0⟩
    .tenMicrometresPerStep ({ link := {} } : ChipDriver RegisterFile)
    ({} : RecordingBus) moveAndExecute (.make .gantryX .disableMotorRequest .command)
    Message.disableMotorRequest.bytes enableAndStop (by decide +kernel) (by decide +kernel)
    (by decide +kernel) hexecutes
  exact ⟨by decide +kernel, by decide +kernel, (hoff (by decide +kernel)).1, by decide +kernel⟩

/-- A request to disable the motor that comes behind a request to execute a group is handled before
the moves of the group, and the motor is on when nothing is left to do. -/
theorem disable_overtakes_waiting_execute :
    let s := gantry.run (stageSlots [0] ++ [executeFirst])
    let t := s.step (.request .disableMotorRequest)
    let after := NodeEvent.poll ++ NodeEvent.poll
    t.node.motionCommands.items = s.node.motionCommands.items ++ [.request .disable] ∧
      t.keeps s.node.motionCommands.items.length after = true ∧ t.accepted after = [] ∧
      (t.run after).busy = false ∧ (t.run after).poll.powered = true ∧
      t.motorCalls after = [false, true] := by
  refine ⟨?_, ?_, ?_, ?_, ?_, ?_⟩
  all_goals decide +kernel

end AxisNode
