import AxisNode.Node.Basic
import AxisNode.Proofs.Motion.Drive
import AxisNode.Proofs.Families
import AxisNode.Proofs.Visits

/-!
# Where a received frame ends up

Every kind that a node takes leads to one of its four queues, so a received frame is put at the end
of one queue or changes nothing at all. What decides is the address, the kind, the length of the
payload and the room in that queue. A frame for the node that changes nothing is named in the log.
-/

namespace AxisNode

/-- The queues that received frames lead to. A system request leads to the outbox, since it is
answered at once. -/
inductive NodeQueue where
  | outbox
  | group
  | motion
  | chip
deriving DecidableEq, Repr

namespace NodeQueue

/-- The four queues. -/
def all : List NodeQueue := [outbox, group, motion, chip]

/-- The kinds of the frames that lead to a queue. -/
def members : NodeQueue → List MessageKind
  | outbox => Family.system.members
  | group => Family.group.members
  | motion => Family.motion.members
  | chip => Family.chip.members

variable {q q' : NodeQueue} {k : MessageKind}

/-- No kind leads to two queues. -/
theorem eq_of_mem_members (h : k ∈ q.members) (h' : k ∈ q'.members) : q = q' := by
  have hdisjoint : ∀ p ∈ all, ∀ p' ∈ all, ∀ k ∈ p.members, k ∈ p'.members → p = p' := by decide
  have hall : ∀ p : NodeQueue, p ∈ all := by
    intro p
    cases p <;> decide
  exact hdisjoint q (hall q) q' (hall q') k h h'

theorem filter_all (h : k ∈ q.members) : all.filter (fun p => decide (k ∈ p.members)) = [q] := by
  have hsame : ∀ p ∈ all, decide (k ∈ p.members) = decide (p = q) := by
    intro p _
    exact decide_eq_decide.mpr ⟨fun hp => eq_of_mem_members hp h, fun hp => hp ▸ h⟩
  rw [List.filter_congr hsame]
  cases q <;> rfl

end NodeQueue

namespace Leaf

variable {σ α β : Type} {F : Family α} {kind : MessageKind}

theorem exists_size?_of_parse? (hF : F.Lawful) {payload : List UInt8} {a : α}
    (hp : F.parse? kind payload = some a) :
    ∃ size, kind.size? = some size ∧ size ≤ payload.length :=
  (hF.isSome_parse?_iff.mp (Option.isSome_of_eq_some hp)).2

theorem not_exists_size?_of_parse? (hF : F.Lawful) {payload : List UInt8} (hk : kind ∈ F.members)
    (hp : F.parse? kind payload = none) :
    ¬∃ size, kind.size? = some size ∧ size ≤ payload.length := by
  intro hsize
  have hsome := hF.isSome_parse?_iff.mpr ⟨decide_eq_true hk, hsize⟩
  rw [hp] at hsome
  cases hsome

theorem Refuses.result {l : Leaf σ} {payload : List UInt8} {s : σ}
    (h : l.Refuses kind payload s) :
    (l.receive kind payload s).1 = s ∧ ∃ line, .log line ∈ (l.receive kind payload s).2 := by
  obtain ⟨line, h⟩ := h
  exact ⟨by rw [h], line, by rw [h]; exact List.mem_singleton_self _⟩

/-- A leaf in front of a queue appends what can be read if there is room. Otherwise it says so in
the log and changes nothing. -/
theorem receive_queueing (hF : F.Lawful) (hk : kind ∈ F.members) (wrap : α → β)
    (get : σ → Queue β) (set : Queue β → σ → σ) (payload : List UInt8) (s : σ) :
    ((∃ size, kind.size? = some size ∧ size ≤ payload.length) ∧
        (get s).items.length < (get s).capacity) ∧
      (∃ a q, F.parse? kind payload = some a ∧ q.items = (get s).items ++ [wrap a] ∧
        q.capacity = (get s).capacity ∧
        ((queueing F wrap get set).receive kind payload s).1 = set q s) ∨
    ¬((∃ size, kind.size? = some size ∧ size ≤ payload.length) ∧
        (get s).items.length < (get s).capacity) ∧
      ((queueing F wrap get set).receive kind payload s).1 = s ∧
      ∃ line, .log line ∈ ((queueing F wrap get set).receive kind payload s).2 := by
  cases hp : F.parse? kind payload with
  | none =>
      exact .inr ⟨fun h => not_exists_size?_of_parse? hF hk hp h.1, (reading_refuses hp).result⟩
  | some a =>
      cases hq : (get s).push? (wrap a) with
      | none =>
          have hfull := Nat.not_lt.mpr (Queue.push?_eq_none_iff.mp hq)
          exact .inr ⟨fun h => hfull h.2, (queueing_refuses hp hq).result⟩
      | some q =>
          obtain ⟨hroom, hitems, hcapacity⟩ := Queue.push?_eq_some_iff.mp hq
          refine .inl ⟨⟨exists_size?_of_parse? hF hp, hroom⟩, a, q, rfl, hitems, hcapacity, ?_⟩
          simp only [queueing, reading, hp, hq]

end Leaf

/-- A fan-out to leaves reaches those that take the kind. -/
theorem Route.reached_all_leaf {σ : Type} (ls : List (Leaf σ)) (id : FrameId) (k : MessageKind) :
    (all (ls.map leaf)).reached id k = ls.filter fun l => decide (k ∈ l.members) := by
  induction ls with
  | nil => rfl
  | cons l ls ih =>
      have hall : all ((l :: ls).map leaf) = both (leaf l) (all (ls.map leaf)) := rfl
      rw [hall, reached_both, ih]
      by_cases hk : k ∈ l.members
      · simp [reached_leaf hk, hk]
      · have hnot : (leaf l).accepts k = false := decide_eq_false hk
        simp [reached_of_not_accepts hnot, hk]

namespace Node

variable {τ : Type} {n n' : Node τ} {q : NodeQueue} {k : MessageKind} {payload : List UInt8}

/-- Whether a queue of the node takes one item more. -/
def HasRoom (n : Node τ) : NodeQueue → Prop
  | .outbox => n.outbox.items.length < n.outbox.capacity
  | .group => n.groupRequests.items.length < n.groupRequests.capacity
  | .motion => n.motionCommands.items.length < n.motionCommands.capacity
  | .chip => n.chipRequests.items.length < n.chipRequests.capacity

/-- What a system request is answered with. -/
def replyTo (r : SystemRequest) (n : Node τ) : Reply :=
  match r with
  | .heartbeat => .heartbeat
  | .deviceInfo => .deviceInfo n.setup.version

/-- The payload was read and put at the end of a queue, and `n'` is `n` in all else. A system
request puts the answer to the host there. -/
inductive Takes (n : Node τ) (k : MessageKind) (payload : List UInt8) : NodeQueue → Node τ → Prop
  | outbox {r : SystemRequest} {items : Outbox} (parsed : Family.system.parse? k payload = some r)
      (appended : items.items = n.outbox.items ++ [.make n.setup.host (n.replyTo r)])
      (capacity : items.capacity = n.outbox.capacity) :
      Takes n k payload .outbox { n with outbox := items }
  | group {r : GroupRequest} {items : Queue GroupRequest}
      (parsed : Family.group.parse? k payload = some r)
      (appended : items.items = n.groupRequests.items ++ [r])
      (capacity : items.capacity = n.groupRequests.capacity) :
      Takes n k payload .group { n with groupRequests := items }
  | motion {r : MotionRequest} {items : Queue MotionCommand}
      (parsed : Family.motion.parse? k payload = some r)
      (appended : items.items = n.motionCommands.items ++ [.request r])
      (capacity : items.capacity = n.motionCommands.capacity) :
      Takes n k payload .motion { n with motionCommands := items }
  | chip {r : ChipRequest} {items : Queue ChipRequest}
      (parsed : Family.chip.parse? k payload = some r)
      (appended : items.items = n.chipRequests.items ++ [r])
      (capacity : items.capacity = n.chipRequests.capacity) :
      Takes n k payload .chip { n with chipRequests := items }

/-- Taking a frame always shows. -/
theorem Takes.ne (h : n.Takes k payload q n') : n' ≠ n := by
  intro hsame
  cases h with
  | outbox _ happended =>
      have hitems : _ = n.outbox.items := congrArg (fun n : Node τ => n.outbox.items) hsame
      simp [happended] at hitems
  | group _ happended =>
      have hitems : _ = n.groupRequests.items :=
        congrArg (fun n : Node τ => n.groupRequests.items) hsame
      simp [happended] at hitems
  | motion _ happended =>
      have hitems : _ = n.motionCommands.items :=
        congrArg (fun n : Node τ => n.motionCommands.items) hsame
      simp [happended] at hitems
  | chip _ happended =>
      have hitems : _ = n.chipRequests.items :=
        congrArg (fun n : Node τ => n.chipRequests.items) hsame
      simp [happended] at hitems

/-- The leaf in front of a queue. -/
def leaf : NodeQueue → Leaf (Node τ)
  | .outbox => .handling .system answer
  | .group => .queueing .group (fun r => r) (fun n => n.groupRequests)
      fun q n => { n with groupRequests := q }
  | .motion => .queueing .motion .request (fun n => n.motionCommands)
      fun q n => { n with motionCommands := q }
  | .chip => .queueing .chip (fun r => r) (fun n => n.chipRequests)
      fun q n => { n with chipRequests := q }

theorem routes_eq (a : NodeAddress) :
    (routes a : Route (Node τ)) = .forNode a (.all ((NodeQueue.all.map leaf).map .leaf)) := rfl

theorem members_leaf (q : NodeQueue) : (leaf q : Leaf (Node τ)).members = q.members := by
  cases q <;> rfl

theorem answer_fst (r : SystemRequest) (n : Node τ) :
    (n.answer r).1 = (n.post (n.replyTo r)).1 := by
  cases r <;> rfl

theorem mem_answer {r : SystemRequest} {e : Event} (h : e ∈ (n.post (n.replyTo r)).2) :
    e ∈ (n.answer r).2 := by
  cases r with
  | heartbeat => exact List.mem_cons_of_mem _ h
  | deviceInfo => exact h

/-- An answer is queued if there is room, and is named in the log if there is none. -/
theorem answer_spec (r : SystemRequest) (n : Node τ) :
    (∃ o, n.outbox.push? (.make n.setup.host (n.replyTo r)) = some o ∧
      (n.answer r).1 = { n with outbox := o }) ∨
    ¬n.HasRoom .outbox ∧ (n.answer r).1 = n ∧
      .log (.outboxFull (n.replyTo r).kind) ∈ (n.answer r).2 := by
  rw [answer_fst]
  cases hq : n.outbox.push? (.make n.setup.host (n.replyTo r)) with
  | none =>
      have hpost : n.post (n.replyTo r) = (n, [.log (.outboxFull (n.replyTo r).kind)]) := by
        simp only [post, Outbox.post, hq]
      have hfull : ¬n.HasRoom .outbox := Nat.not_lt.mpr (Queue.push?_eq_none_iff.mp hq)
      refine .inr ⟨hfull, by rw [hpost], mem_answer ?_⟩
      rw [hpost]
      exact List.mem_singleton_self _
  | some o => exact .inl ⟨o, rfl, by simp only [post, Outbox.post, hq]⟩

/-- The payload holds the record of its kind, and the queue of the kind has room. -/
def Fits (n : Node τ) (k : MessageKind) (payload : List UInt8) (q : NodeQueue) : Prop :=
  (∃ size, k.size? = some size ∧ size ≤ payload.length) ∧ n.HasRoom q

/-- A leaf takes what fits; otherwise it says so in the log and changes nothing. -/
theorem receive_leaf (n : Node τ) (payload : List UInt8) (hk : k ∈ q.members) :
    n.Fits k payload q ∧ n.Takes k payload q ((leaf q).receive k payload n).1 ∨
    ¬n.Fits k payload q ∧ ((leaf q).receive k payload n).1 = n ∧
      ∃ line, .log line ∈ ((leaf q).receive k payload n).2 := by
  cases q with
  | outbox =>
      cases hp : Family.system.parse? k payload with
      | none =>
          exact .inr ⟨fun h => Leaf.not_exists_size?_of_parse? Family.lawful_system hk hp h.1,
            (Leaf.reading_refuses hp).result⟩
      | some r =>
          have hreceive : (leaf .outbox).receive k payload n = n.answer r := by
            simp only [leaf, Leaf.handling, Leaf.reading, hp]
          rw [hreceive]
          obtain ⟨o, ho, hanswer⟩ | ⟨hfull, hsame, hlog⟩ := answer_spec r n
          · obtain ⟨hroom, happended, hcapacity⟩ := Queue.push?_eq_some_iff.mp ho
            rw [hanswer]
            exact .inl ⟨⟨Leaf.exists_size?_of_parse? Family.lawful_system hp, hroom⟩,
              .outbox hp happended hcapacity⟩
          · exact .inr ⟨fun h => hfull h.2, hsame, _, hlog⟩
  | group =>
      obtain ⟨hfits, r, o, hp, happended, hcapacity, hresult⟩ | hrefused :=
        Leaf.receive_queueing Family.lawful_group hk (fun r => r)
          (fun n : Node τ => n.groupRequests) (fun q n => { n with groupRequests := q }) payload n
      · exact .inl ⟨hfits, hresult ▸ .group hp happended hcapacity⟩
      · exact .inr hrefused
  | motion =>
      obtain ⟨hfits, r, o, hp, happended, hcapacity, hresult⟩ | hrefused :=
        Leaf.receive_queueing Family.lawful_motion hk MotionCommand.request
          (fun n : Node τ => n.motionCommands) (fun q n => { n with motionCommands := q }) payload n
      · exact .inl ⟨hfits, hresult ▸ .motion hp happended hcapacity⟩
      · exact .inr hrefused
  | chip =>
      obtain ⟨hfits, r, o, hp, happended, hcapacity, hresult⟩ | hrefused :=
        Leaf.receive_queueing Family.lawful_chip hk (fun r => r)
          (fun n : Node τ => n.chipRequests) (fun q n => { n with chipRequests := q }) payload n
      · exact .inl ⟨hfits, hresult ▸ .chip hp happended hcapacity⟩
      · exact .inr hrefused

variable {id : FrameId}

theorem accepts_routes (a : NodeAddress) :
    (routes a : Route (Node τ)).accepts k = true ↔ ∃ q, k ∈ NodeQueue.members q := by
  rw [Route.accepts_iff]
  constructor
  · rintro ⟨l, hl, hk⟩
    simp only [routes_eq, Route.forNode, Route.all, NodeQueue.all, List.map_cons, List.map_nil,
      List.foldr, Route.leaves, List.mem_append, List.mem_singleton, List.not_mem_nil,
      or_false] at hl
    obtain rfl | rfl | rfl | rfl := hl
    all_goals exact ⟨_, members_leaf _ ▸ hk⟩
  · rintro ⟨q, hk⟩
    refine ⟨leaf q, ?_, (members_leaf q).symm ▸ hk⟩
    cases q <;> simp [routes_eq, Route.forNode, Route.all, NodeQueue.all, Route.leaves]

/-- A frame for another node is not even named. -/
theorem handleFrame_of_not_accepts (ha : n.setup.node.accepts id.node = false)
    (payload : List UInt8) : n.handleFrame id payload = (n, []) := by
  simp [handleFrame, routes, Route.forNode, Route.deliver, ha]

/-- A frame for the node goes to the leaf in front of the queue that its kind leads to. -/
theorem handleFrame_of_mem (ha : n.setup.node.accepts id.node = true) (hid : id.kind? = some k)
    (hk : k ∈ q.members) (payload : List UInt8) :
    n.handleFrame id payload = (leaf q).receive k payload n := by
  have hmembers : (fun l : Leaf (Node τ) => decide (k ∈ l.members)) ∘ leaf =
      fun p => decide (k ∈ p.members) := funext fun p => by rw [Function.comp_apply, members_leaf]
  have hreached : (routes n.setup.node : Route (Node τ)).reached id k = [leaf q] := by
    rw [routes_eq, Route.forNode, Route.reached_gate_of_admits ha, Route.reached_all_leaf,
      List.filter_map, hmembers, NodeQueue.filter_all hk, List.map_singleton]
  rw [handleFrame, Route.deliver_of_accepts hid payload _ n ((accepts_routes _).mpr ⟨q, hk⟩),
    hreached, Leaf.visit_singleton]

/-- A frame of any other kind is named and changes nothing. -/
theorem handleFrame_of_notMem (ha : n.setup.node.accepts id.node = true)
    (hk : ∀ k q, id.kind? = some k → k ∉ NodeQueue.members q) (payload : List UInt8) :
    ∃ line, n.handleFrame id payload = (n, [.log line]) := by
  unfold handleFrame routes Route.forNode
  rw [Route.deliver_gate]
  cases hid : id.kind? with
  | none => exact ⟨_, by rw [if_pos ha]⟩
  | some k =>
      have hnobody : (routes n.setup.node : Route (Node τ)).accepts k = false := by
        rw [← Bool.not_eq_true, accepts_routes]
        rintro ⟨q, hq⟩
        exact hk k q hid hq
      refine ⟨_, if_pos ?_⟩
      rw [ha, Bool.true_and]
      exact congrArg not hnobody

/-- All that a received frame can do. -/
theorem handleFrame_cases (n : Node τ) (id : FrameId) (payload : List UInt8) :
    n.setup.node.accepts id.node = true ∧ (∃ k q, id.kind? = some k ∧ k ∈ NodeQueue.members q ∧
      n.Fits k payload q ∧ n.Takes k payload q (n.handleFrame id payload).1) ∨
    ¬(n.setup.node.accepts id.node = true ∧ ∃ k q, id.kind? = some k ∧
        k ∈ NodeQueue.members q ∧ n.Fits k payload q) ∧
      (n.handleFrame id payload).1 = n ∧
      (n.setup.node.accepts id.node = true →
        ∃ line, .log line ∈ (n.handleFrame id payload).2) := by
  cases ha : n.setup.node.accepts id.node with
  | false =>
      rw [handleFrame_of_not_accepts ha]
      exact .inr ⟨fun h => Bool.false_ne_true h.1, rfl, fun h => absurd h Bool.false_ne_true⟩
  | true =>
      by_cases hkind : ∃ k q, id.kind? = some k ∧ k ∈ NodeQueue.members q
      · obtain ⟨k, q, hid, hk⟩ := hkind
        rw [handleFrame_of_mem ha hid hk]
        obtain ⟨hfits, htakes⟩ | ⟨hfits, hsame, hlog⟩ := receive_leaf n payload hk
        · exact .inl ⟨rfl, k, q, hid, hk, hfits, htakes⟩
        · refine .inr ⟨?_, hsame, fun _ => hlog⟩
          rintro ⟨-, k', q', hid', hk', hfits'⟩
          obtain rfl : k' = k := Option.some.inj (hid'.symm.trans hid)
          exact hfits (NodeQueue.eq_of_mem_members hk' hk ▸ hfits')
      · obtain ⟨line, hframe⟩ := handleFrame_of_notMem ha
          (fun k q hid hk => hkind ⟨k, q, hid, hk⟩) payload
        rw [hframe]
        refine .inr ⟨?_, rfl, fun _ => ⟨line, List.mem_singleton_self _⟩⟩
        rintro ⟨-, k, q, hid, hk, -⟩
        exact hkind ⟨k, q, hid, hk⟩

end Node

/-- A received frame appends one item to one of the four queues or changes nothing. It is appended
just if the node answers to its address, its kind leads to a queue, the payload holds the record of
the kind and the queue has room. The item is the message that was read, on the one queue that its
kind leads to, or the answer to the host. A frame for the node that changes nothing is named in the
log. -/
theorem frame_appends_to_its_queue {τ : Type} (n : Node τ) (raw : UInt32) (payload : List UInt8) :
    let id := FrameId.ofRaw raw
    let n' := (n.handleFrame id payload).1
    let events := (n.handleFrame id payload).2
    (n' ≠ n ↔ n.setup.node.accepts id.node = true ∧ ∃ k q, id.kind? = some k ∧
      k ∈ NodeQueue.members q ∧ n.Fits k payload q) ∧
    (n' ≠ n → ∃ k q, id.kind? = some k ∧ k ∈ NodeQueue.members q ∧ n.Takes k payload q n') ∧
    (∀ k q q', k ∈ NodeQueue.members q → k ∈ NodeQueue.members q' → q = q') ∧
    (n.setup.node.accepts id.node = true → n' = n → ∃ line, .log line ∈ events) := by
  intro id n' events
  obtain ⟨ha, k, q, hid, hk, hfits, htakes⟩ | ⟨hfits, hsame, hlog⟩ := n.handleFrame_cases id payload
  · exact ⟨iff_of_true htakes.ne ⟨ha, k, q, hid, hk, hfits⟩, fun _ => ⟨k, q, hid, hk, htakes⟩,
      fun k q q' => NodeQueue.eq_of_mem_members, fun _ h => absurd h htakes.ne⟩
  · exact ⟨iff_of_false (fun h => h hsame) hfits, fun h => absurd hsame h,
      fun k q q' => NodeQueue.eq_of_mem_members, fun ha _ => hlog ha⟩

/-- A stop for both axes of the head reaches the left one with padding behind it and with the
reserved bits set. It is queued; with the queue full it is named in the log. -/
theorem frame_appends_to_its_queue_of_groupStop :
    let n := (Node.start ⟨.headL, .host, 7⟩ .tenMicrometresPerStep
      ({ link := {} } : ChipDriver RegisterFile)).1
    let full := { n with groupRequests := ⟨1, [.clearAll], by decide⟩ }
    let id := FrameId.ofRaw 0xe0002803
    n.setup.node.accepts id.node = true ∧ id.node ≠ n.setup.node.code ∧
      id.kind? = some .stopRequest ∧ (n.handleFrame id [0, 0]).1 ≠ n ∧
      (∃ k q, id.kind? = some k ∧ k ∈ NodeQueue.members q ∧
        n.Takes k [0, 0] q (n.handleFrame id [0, 0]).1) ∧
      (n.handleFrame id [0, 0]).1.groupRequests.items = [.stop] ∧
      (full.handleFrame id [0, 0]).1 = full ∧
      ∃ line, .log line ∈ (full.handleFrame id [0, 0]).2 := by
  intro n full id
  obtain ⟨hiff, htakes, -, -⟩ := frame_appends_to_its_queue n 0xe0002803 [0, 0]
  obtain ⟨-, -, -, hlog⟩ := frame_appends_to_its_queue full 0xe0002803 [0, 0]
  have hkind : id.kind? = some .stopRequest := by decide +kernel
  have hroom : n.HasRoom .group := show 0 < 10 by decide
  have hchanged : (n.handleFrame id [0, 0]).1 ≠ n :=
    hiff.mpr ⟨by decide +kernel, .stopRequest, .group, hkind, by decide, ⟨0, rfl, by decide⟩, hroom⟩
  have hfull : (full.handleFrame id [0, 0]).1 = full := by rfl
  exact ⟨by decide +kernel, by decide +kernel, hkind, hchanged, htakes hchanged,
    by decide +kernel, hfull, hlog (by decide +kernel) hfull⟩

end AxisNode
