import AxisNode.Proofs.Routing

/-!
# The leaves that a frame reaches

The nodes of a route decide again on every level who gets a frame: a fan-out asks each side whether
it takes the kind, and a gate looks at the identifier and then asks once more. Together they come to
one rule: a frame that a gate receives is handed, from left to right and once to each, to the leaves
that take its kind and around which every gate admits its identifier. A leaf that has no use for the
frame is as good as absent. A borrowed route is the route itself and needs no case of its own.
-/

namespace AxisNode

variable {σ : Type}

namespace Leaf

variable {kind : MessageKind} {payload : List UInt8} {s : σ}

/-- Hands a payload to leaves, one after another. -/
def visit (kind : MessageKind) (payload : List UInt8) : List (Leaf σ) → σ → σ × List Event
  | [], s => (s, [])
  | l :: ls, s =>
      let (s, first) := l.receive kind payload s
      let (s, others) := visit kind payload ls s
      (s, first ++ others)

/-- The leaf has no use for a payload: it says so in the log and leaves the state alone. -/
def Refuses (l : Leaf σ) (kind : MessageKind) (payload : List UInt8) (s : σ) : Prop :=
  ∃ line, l.receive kind payload s = (s, [.log line])

theorem visit_singleton (l : Leaf σ) : visit kind payload [l] s = l.receive kind payload s := by
  simp [visit]

theorem visit_append (ls ms : List (Leaf σ)) (s : σ) :
    visit kind payload (ls ++ ms) s =
      ((visit kind payload ms (visit kind payload ls s).1).1,
        (visit kind payload ls s).2 ++ (visit kind payload ms (visit kind payload ls s).1).2) := by
  induction ls generalizing s with
  | nil => rfl
  | cons l ls ih => simp only [List.cons_append, visit, ih, List.append_assoc]

/-- The leaves behind one that refuses find the state as if it were not there. -/
theorem visit_of_refuses {l : Leaf σ} {front : List (Leaf σ)}
    (h : l.Refuses kind payload (visit kind payload front s).1) (back : List (Leaf σ)) :
    (visit kind payload (front ++ l :: back) s).1 = (visit kind payload (front ++ back) s).1 := by
  obtain ⟨line, h⟩ := h
  simp only [visit_append, visit, h]

section Reading

variable {α β : Type} {F : Family α}

theorem reading_refuses {handle : MessageKind → α → σ → σ × List Event}
    (h : F.parse? kind payload = none) : (reading F handle).Refuses kind payload s :=
  ⟨_, by simp only [reading, h]; rfl⟩

theorem queueing_refuses {wrap : α → β} {get : σ → Queue β} {set : Queue β → σ → σ} {a : α}
    (h : F.parse? kind payload = some a) (hfull : (get s).push? (wrap a) = none) :
    (queueing F wrap get set).Refuses kind payload s :=
  ⟨_, by simp only [queueing, reading, h, hfull]; rfl⟩

end Reading

end Leaf

namespace Route

/-- The leaves of a route from left to right, each with the gates around it. -/
def gatedLeaves : Route σ → List (List (FrameId → Bool) × Leaf σ)
  | nothing => []
  | leaf l => [([], l)]
  | both left right => left.gatedLeaves ++ right.gatedLeaves
  | gate admits inner => inner.gatedLeaves.map fun p => (admits :: p.1, p.2)

/-- The leaves that take a kind and around which every gate admits the identifier. -/
def reached (r : Route σ) (id : FrameId) (kind : MessageKind) : List (Leaf σ) :=
  (r.gatedLeaves.filter fun p =>
    p.1.all (fun admits => admits id) && decide (kind ∈ p.2.members)).map Prod.snd

variable {id : FrameId} {kind : MessageKind} {admits : FrameId → Bool} {inner : Route σ}

theorem map_snd_gatedLeaves (r : Route σ) : r.gatedLeaves.map Prod.snd = r.leaves := by
  induction r with
  | nothing => rfl
  | leaf l => rfl
  | both left right ihl ihr => rw [gatedLeaves, List.map_append, ihl, ihr, leaves]
  | gate admits inner ih => rw [gatedLeaves, List.map_map, leaves, ← ih]; rfl

theorem reached_leaf {l : Leaf σ} (h : kind ∈ l.members) : (leaf l).reached id kind = [l] := by
  simp [reached, gatedLeaves, h]

theorem reached_both (left right : Route σ) :
    (both left right).reached id kind = left.reached id kind ++ right.reached id kind := by
  simp [reached, gatedLeaves]

/-- A fan-out to any number of routes reaches the leaves of each, side by side. -/
theorem reached_all (routes : List (Route σ)) :
    (all routes).reached id kind = routes.flatMap fun r => r.reached id kind := by
  induction routes with
  | nil => rfl
  | cons r routes ih => rw [List.flatMap_cons, ← ih]; exact reached_both r (all routes)

theorem reached_gate_of_admits (h : admits id = true) :
    (gate admits inner).reached id kind = inner.reached id kind := by
  simp [reached, gatedLeaves, List.filter_map, Function.comp_def, h]

theorem reached_gate_of_not_admits (h : admits id = false) :
    (gate admits inner).reached id kind = [] := by
  simp [reached, gatedLeaves, List.filter_map, Function.comp_def, h]

/-- A route takes the kinds that its leaves take, whatever the gates say. -/
theorem accepts_iff {r : Route σ} : r.accepts kind = true ↔ ∃ l ∈ r.leaves, kind ∈ l.members := by
  induction r with
  | nothing => simp [accepts, leaves]
  | leaf l => simp [accepts, leaves]
  | both left right ihl ihr => simp [accepts, leaves, ihl, ihr, or_and_right, exists_or]
  | gate admits inner ih => exact ih

theorem reached_of_not_accepts {r : Route σ} (h : r.accepts kind = false) :
    r.reached id kind = [] := by
  rw [reached, List.map_eq_nil_iff, List.filter_eq_nil_iff]
  intro p hp hreached
  have hmem : p.2 ∈ r.leaves := map_snd_gatedLeaves r ▸ List.mem_map_of_mem hp
  have htakes : kind ∈ p.2.members := of_decide_eq_true (Bool.and_eq_true_iff.mp hreached).2
  exact Bool.false_ne_true (h ▸ accepts_iff.mpr ⟨p.2, hmem, htakes⟩)

/-- A side of a fan-out is offered the frame just if it takes the kind, and nothing is lost by
that. -/
theorem offer_eq_visit {r : Route σ} {payload : List UInt8} {s : σ}
    (h : r.accepts kind = true →
      r.deliver id payload s = Leaf.visit kind payload (r.reached id kind) s) :
    (if r.accepts kind then r.deliver id payload s else (s, [])) =
      Leaf.visit kind payload (r.reached id kind) s := by
  split
  · next hk => exact h hk
  · next hk => rw [reached_of_not_accepts (Bool.eq_false_iff.mpr hk)]; rfl

/-- A route that takes the kind of a frame hands it to the leaves that it reaches. -/
theorem deliver_of_accepts (hid : id.kind? = some kind) (payload : List UInt8) (r : Route σ)
    (s : σ) (hk : r.accepts kind = true) :
    r.deliver id payload s = Leaf.visit kind payload (r.reached id kind) s := by
  induction r generalizing s with
  | nothing => exact absurd hk Bool.false_ne_true
  | leaf l =>
      have hmem : kind ∈ l.members := of_decide_eq_true hk
      rw [reached_leaf hmem, Leaf.visit_singleton]
      simp only [deliver, hid]
  | both left right ihl ihr =>
      have hleft := offer_eq_visit (ihl s)
      have hright := offer_eq_visit (ihr (Leaf.visit kind payload (left.reached id kind) s).1)
      rw [reached_both, Leaf.visit_append]
      simp only [deliver, hid, hleft, hright]
  | gate admits inner ih =>
      have hinner : inner.accepts kind = true := hk
      cases ha : admits id with
      | true =>
          rw [reached_gate_of_admits ha, ← ih s hinner]
          simp [deliver, ha, hid, hinner]
      | false =>
          rw [reached_gate_of_not_admits ha]
          simp [deliver, ha, Leaf.visit]

/-- What a gate does with a frame: it hands it to the leaves that are reached, unless there are none
because nobody takes the kind. -/
theorem deliver_gate (admits : FrameId → Bool) (inner : Route σ) (id : FrameId)
    (payload : List UInt8) (s : σ) :
    (gate admits inner).deliver id payload s =
      match id.kind? with
      | some k =>
          if admits id && !inner.accepts k then (s, [.log (.noTarget k)])
          else Leaf.visit k payload ((gate admits inner).reached id k) s
      | none => (s, if admits id then [.log (.unknownMessage id.messageCode)] else []) := by
  cases hid : id.kind? with
  | none => cases ha : admits id <;> simp [deliver, hid, ha]
  | some k =>
      cases hk : inner.accepts k with
      | true => simp [deliver_of_accepts hid payload (gate admits inner) s hk, hk]
      | false =>
          have hnobody : (gate admits inner).reached id k = [] := reached_of_not_accepts hk
          cases ha : admits id <;> simp [deliver, hid, ha, hk, hnobody, Leaf.visit]

end Route

/-- A gate that receives a frame changes the state as its leaves do that are reached, each of which
gets the frame once, from left to right; a frame of an unknown kind changes nothing. The log shows
what these leaves have to say, or that nobody takes the kind. A fan-out reaches the leaves of all
its routes in their order. A leaf that refuses is as good as absent, and a leaf refuses what it
cannot read or has no room for. -/
theorem frame_visits_reached_leaves (admits : FrameId → Bool) (inner : Route σ) (id : FrameId)
    (payload : List UInt8) (s : σ) :
    let root := Route.gate admits inner
    ((root.deliver id payload s).1 =
      id.kind?.elim s fun k => (Leaf.visit k payload (root.reached id k) s).1) ∧
    ((root.deliver id payload s).2 =
      match id.kind? with
      | some k =>
          if admits id && !inner.accepts k then [.log (.noTarget k)]
          else (Leaf.visit k payload (root.reached id k) s).2
      | none => if admits id then [.log (.unknownMessage id.messageCode)] else []) ∧
    (∀ k (routes : List (Route σ)),
      (Route.all routes).reached id k = routes.flatMap fun r => r.reached id k) ∧
    (∀ k front l back, id.kind? = some k → root.reached id k = front ++ l :: back →
      l.Refuses k payload (Leaf.visit k payload front s).1 →
      (root.deliver id payload s).1 = (Leaf.visit k payload (front ++ back) s).1) ∧
    (∀ {α : Type} (F : Family α) k t, F.parse? k payload = none →
      (∀ handle, (Leaf.handling F handle).Refuses k payload t) ∧
      ∀ {β : Type} (wrap : α → β) (get : σ → Queue β) set,
        (Leaf.queueing F wrap get set).Refuses k payload t) ∧
    ∀ {α β : Type} (F : Family α) (wrap : α → β) (get : σ → Queue β) set k t a,
      F.parse? k payload = some a → (get t).push? (wrap a) = none →
      (Leaf.queueing F wrap get set).Refuses k payload t := by
  intro root
  have hdeliver := Route.deliver_gate admits inner id payload s
  have hstate : (root.deliver id payload s).1 =
      id.kind?.elim s fun k => (Leaf.visit k payload (root.reached id k) s).1 := by
    rw [hdeliver]
    cases id.kind? with
    | none => rfl
    | some k =>
        dsimp only [Option.elim]
        split
        · next hk =>
            have hinner : inner.accepts k = false := by simpa using (Bool.and_eq_true_iff.mp hk).2
            have hnobody : root.reached id k = [] := Route.reached_of_not_accepts hinner
            rw [hnobody]
            rfl
        · rfl
  refine ⟨hstate, ?_, fun k routes => Route.reached_all routes, ?_, ?_, ?_⟩
  · rw [hdeliver]
    cases id.kind? with
    | none => rfl
    | some k => dsimp only; split <;> rfl
  · intro k front l back hid hreached hrefuses
    rw [hstate, hid]
    dsimp only [Option.elim]
    rw [hreached, Leaf.visit_of_refuses hrefuses back]
  · intro α F k t hparse
    exact ⟨fun handle => Leaf.reading_refuses hparse,
      fun wrap get set => Leaf.reading_refuses hparse⟩
  · intro α β F wrap get set k t a hparse hfull
    exact Leaf.queueing_refuses hparse hfull

/-- Two axes behind one gate, each with a gate and a queue of its own. -/
def Route.gripperAxes : Route (Queue GroupRequest × Queue GroupRequest) :=
  .gate (fun id => NodeAddress.gripperZ.accepts id.node || NodeAddress.gripperG.accepts id.node)
    (.all [
      .forNode .gripperZ (.leaf (.queueing .group (fun r => r) Prod.fst fun q s => (q, s.2))),
      .forNode .gripperG (.leaf (.queueing .group (fun r => r) Prod.snd fun q s => (s.1, q)))])

/-- A stop for both axes reaches the second one although the queue of the first is full. -/
theorem frame_visits_reached_leaves_of_full_queue :
    let full : Queue GroupRequest := ⟨1, [.clearAll], by decide⟩
    let id := FrameId.make .gripper .stopRequest .command
    let axisZ : Leaf (Queue GroupRequest × Queue GroupRequest) :=
      .queueing .group (fun r => r) Prod.fst fun q s => (q, s.2)
    let axisG : Leaf (Queue GroupRequest × Queue GroupRequest) :=
      .queueing .group (fun r => r) Prod.snd fun q s => (s.1, q)
    Route.gripperAxes.reached id .stopRequest = [axisZ, axisG] ∧
      axisZ.Refuses .stopRequest [] (full, .empty 1) ∧
      (Route.gripperAxes.deliver id [] (full, .empty 1)).1 =
        (Leaf.visit .stopRequest [] [axisG] (full, .empty 1)).1 ∧
      (Route.gripperAxes.deliver id [] (full, .empty 1)).1.2.items = [.stop] := by
  intro full id axisZ axisG
  obtain ⟨-, -, -, hskip, -, hfull⟩ := frame_visits_reached_leaves
    (fun id => NodeAddress.gripperZ.accepts id.node || NodeAddress.gripperG.accepts id.node)
    (.all [.forNode .gripperZ (.leaf axisZ), .forNode .gripperG (.leaf axisG)]) id []
    (full, Queue.empty 1)
  have hreached : Route.gripperAxes.reached id .stopRequest = [axisZ, axisG] := rfl
  have hrefuses : axisZ.Refuses .stopRequest [] (full, .empty 1) :=
    hfull .group _ _ _ .stopRequest _ .stop rfl rfl
  exact ⟨hreached, hrefuses, hskip .stopRequest [] axisZ [axisG] rfl hreached hrefuses,
    by decide +kernel⟩

end AxisNode
