import AxisNode.Proofs.Node.Intake
import AxisNode.Proofs.Node.Run
import AxisNode.Proofs.Node.Sending

/-!
# Which frames reach a node

The controller compares a received identifier with its filter elements in the order of their slots,
and the first element that matches decides. The filters of a node store just the frames that the
node answers to, so behind them it does what it would do with every frame stored.
-/

namespace AxisNode

/-! ## Words and addresses -/

namespace FrameId

theorem and_word (a b : FrameId) : a.word &&& b.word =
    word ⟨a.message &&& b.message, a.node &&& b.node, a.function &&& b.function⟩ := by
  have hfields : (a.message ++ a.node.toBitVec) &&& (b.message ++ b.node.toBitVec) =
      (a.message &&& b.message) ++ (a.node &&& b.node).toBitVec := BitVec.and_append
  calc a.word &&& b.word
      = ((a.message ++ a.node.toBitVec) &&& (b.message ++ b.node.toBitVec)) ++
          (a.function &&& b.function) := BitVec.and_append
    _ = _ := by rw [hfields]; rfl

/-- The node mask keeps the address and nothing else. -/
theorem and_nodeMask (id : FrameId) :
    id.word &&& Filter.nodeMask.toBitVec.setWidth 29 = word ⟨0, id.node, 0⟩ := by
  have hnode : id.node &&& 0xff = id.node := UInt8.and_neg_one
  rw [Filter.nodeMask, setWidth_raw, and_word]
  simp [hnode]

end FrameId

/-! ## Filter elements -/

/-- Whether the two words of a filter cover an identifier. -/
def FilterKind.covers (first second word : BitVec 29) : FilterKind → Bool
  | range => first ≤ word && word ≤ second
  | exact => word == first || word == second
  | mask => word &&& second == first &&& second

/-- Whether a frame goes to the first queue. -/
def FilterAction.isFifo0 : FilterAction → Bool
  | toFifo0 | toFifo0HighPriority => true
  | _ => false

namespace FilterElement

/-- What an element does with an identifier if it matches; a disabled element matches none. -/
def verdict? (word : BitVec 29) : FilterElement → Option FilterAction
  | unused => none
  | used kind action first second =>
      if action ≠ .disabled ∧ kind.covers first second word then some action else none

/-- What becomes of an identifier: the first element that matches decides. -/
def verdict (unmatched : FilterAction) (es : List FilterElement) (word : BitVec 29) :
    FilterAction :=
  (es.findSome? (verdict? word)).getD unmatched

theorem verdict?_forAddress (n : NodeAddress) (id : FrameId) :
    (ofFilter (.forAddress n)).verdict? id.word =
      if id.node = n.code then some .toFifo0 else none := by
  have hcovers : FilterKind.mask.covers ((FrameId.pack n.code 0 0).raw.toBitVec.setWidth 29)
      (Filter.nodeMask.toBitVec.setWidth 29) id.word ↔ id.node = n.code := by
    rw [FilterKind.covers, FrameId.setWidth_raw, FrameId.and_nodeMask, FrameId.and_nodeMask,
      beq_iff_eq, FrameId.word_inj, FrameId.mk.injEq]
    exact ⟨fun h => h.2.1, fun h => ⟨rfl, h, rfl⟩⟩
  simp only [ofFilter, Filter.forAddress, verdict?, hcovers]
  simp

theorem verdict?_rejectAll (word : BitVec 29) :
    (ofFilter .rejectAll).verdict? word = some .reject := by
  simp [ofFilter, Filter.rejectAll, verdict?, FilterKind.covers]

theorem verdict_cons (unmatched : FilterAction) (e : FilterElement) (es : List FilterElement)
    (word : BitVec 29) :
    verdict unmatched (e :: es) word = (e.verdict? word).getD (verdict unmatched es word) := by
  rw [verdict, List.findSome?_cons]
  cases e.verdict? word <;> rfl

/-- Filters for some addresses store the frames for these and leave the others to what follows. -/
theorem verdict_forAddresses (unmatched : FilterAction) (ns : List NodeAddress)
    (rest : List FilterElement) (id : FrameId) :
    verdict unmatched (ns.map (fun n => ofFilter (.forAddress n)) ++ rest) id.word =
      if ∃ n ∈ ns, id.node = n.code then .toFifo0 else verdict unmatched rest id.word := by
  induction ns with
  | nil => simp
  | cons n ns ih =>
      rw [List.map_cons, List.cons_append, verdict_cons, verdict?_forAddress, ih]
      by_cases hn : id.node = n.code <;> simp [hn]

/-- The filters of a node store the frames that it answers to and reject the others, whatever stands
behind them. -/
theorem verdict_forNode (unmatched : FilterAction) (n : NodeAddress) (rest : List FilterElement)
    (id : FrameId) :
    verdict unmatched ((Filter.forNode n).map ofFilter ++ rest) id.word =
      if n.accepts id.node then .toFifo0 else .reject := by
  have hfilters : (Filter.forNode n).map ofFilter ++ rest =
      (n :: .broadcast :: n.groupAlias.toList).map (fun n => ofFilter (.forAddress n)) ++
        (ofFilter .rejectAll :: rest) := by
    simp [Filter.forNode, Function.comp_def]
  have hanswers : (∃ m ∈ n :: .broadcast :: n.groupAlias.toList, id.node = m.code) ↔
      n.accepts id.node = true := by
    simp only [NodeAddress.accepts_iff, List.mem_cons, Option.mem_toList]
    grind
  rw [hfilters, verdict_forAddresses, verdict_cons, verdict?_rejectAll]
  simp only [hanswers, Option.getD_some]

end FilterElement

/-! ## The controller -/

/-- A call while the controller is configured. -/
inductive FilterCall where
  | add (f : Filter)
  | install (n : NodeAddress)
  | acceptAll
deriving DecidableEq, Repr

namespace CanController

variable {c : CanController}

/-- Whether the controller stores a received frame in its first queue. -/
def stores (unmatched : FilterAction) (c : CanController) (id : FrameId) : Bool :=
  c.mode == .running && (FilterElement.verdict unmatched c.filters id.word).isFifo0

theorem stores_start (unmatched : FilterAction) (c : CanController) (id : FrameId) :
    c.start.stores unmatched id =
      (FilterElement.verdict unmatched c.filters id.word).isFifo0 := rfl

/-- The controller after some calls; what a call is answered with is ignored. -/
def configure (c : CanController) : List FilterCall → CanController
  | [] => c
  | .add f :: calls => configure (FrameBus.addFilter f c).2 calls
  | .install n :: calls => configure (FrameBus.installNodeFilters n c).2.1 calls
  | .acceptAll :: calls => configure c.acceptAll calls

/-- A controller that filters are installed in. -/
structure Configuring (c : CanController) : Prop where
  mode : c.mode = .configuration
  filters : c.filters.length = 8
  nextSlot : c.nextSlot ≤ 8

theorem configuring_fresh (timing : BitTiming) : Configuring { timing } :=
  ⟨rfl, rfl, Nat.zero_le 8⟩

/-- The controller with a filter in its next slot. -/
def place (f : Filter) (c : CanController) : CanController :=
  { c with filters := c.filters.set c.nextSlot (.ofFilter f), nextSlot := c.nextSlot + 1 }

theorem Configuring.place (h : c.Configuring) (hlt : c.nextSlot < 8) (f : Filter) :
    (c.place f).Configuring :=
  ⟨h.mode, List.length_set.trans h.filters, hlt⟩

/-- A filter goes to the next slot; without a slot for it nothing changes. -/
theorem Configuring.addFilter_eq (h : c.Configuring) (f : Filter) :
    FrameBus.addFilter f c =
      if c.nextSlot < 8 then (.ok (), c.place f) else (.error .unsupportedFilter, c) := by
  by_cases hlt : c.nextSlot < 8
  · simp [FrameBus.addFilter, CanController.addFilter, CanController.place, h.mode, h.filters, hlt]
  · simp [FrameBus.addFilter, CanController.addFilter, h.mode, h.filters, hlt]

theorem Configuring.addFilter (h : c.Configuring) (f : Filter) :
    (FrameBus.addFilter f c).2.Configuring := by
  rw [h.addFilter_eq]
  split
  · next hlt => exact h.place hlt f
  · exact h

theorem Configuring.addFilters_cons (h : c.Configuring) (f : Filter) (fs : List Filter) :
    FrameBus.addFilters (f :: fs) c =
      if c.nextSlot < 8 then FrameBus.addFilters fs (c.place f)
      else (.error .unsupportedFilter, c) := by
  rw [FrameBus.addFilters, h.addFilter_eq]
  by_cases hlt : c.nextSlot < 8
  · simp only [hlt, if_true]
  · simp only [hlt, if_false]

theorem Configuring.addFilters (h : c.Configuring) (fs : List Filter) :
    (FrameBus.addFilters fs c).2.Configuring := by
  induction fs generalizing c with
  | nil => exact h
  | cons f fs ih =>
      rw [h.addFilters_cons]
      split
      · next hlt => exact ih (h.place hlt f)
      · exact h

/-- Filters are taken just if there is a slot for each of them. -/
theorem Configuring.fst_addFilters (h : c.Configuring) (fs : List Filter) :
    (FrameBus.addFilters fs c).1 =
      if c.nextSlot + fs.length ≤ 8 then .ok () else .error .unsupportedFilter := by
  induction fs generalizing c with
  | nil => exact (if_pos h.nextSlot).symm
  | cons f fs ih =>
      rw [h.addFilters_cons, List.length_cons]
      split
      · next hlt =>
          rw [ih (h.place hlt f), CanController.place, Nat.add_right_comm, Nat.add_assoc]
      · next hfull => rw [if_neg (by omega)]

/-- Filters fill the slots from the next one on. -/
theorem Configuring.filters_addFilters (h : c.Configuring) {fs : List Filter}
    (hroom : c.nextSlot + fs.length ≤ 8) :
    (FrameBus.addFilters fs c).2.filters =
      c.filters.take c.nextSlot ++ fs.map .ofFilter ++
        c.filters.drop (c.nextSlot + fs.length) := by
  induction fs generalizing c with
  | nil => simp [FrameBus.addFilters]
  | cons f fs ih =>
      rw [List.length_cons] at hroom
      have hlt : c.nextSlot < 8 := by omega
      have htake : (c.place f).filters.take (c.nextSlot + 1) =
          c.filters.take c.nextSlot ++ [.ofFilter f] := by
        simp [CanController.place, List.take_add_one, List.take_set_of_le, h.filters, hlt]
      have hdrop : (c.place f).filters.drop (c.nextSlot + 1 + fs.length) =
          c.filters.drop (c.nextSlot + 1 + fs.length) := List.drop_set_of_lt (by omega)
      have hnext : (c.place f).nextSlot = c.nextSlot + 1 := rfl
      rw [h.addFilters_cons, if_pos hlt, ih (h.place hlt f) (by omega), hnext, htake, hdrop,
        List.map_cons, List.length_cons, List.append_assoc (c.filters.take _),
        List.singleton_append, Nat.add_right_comm, Nat.add_assoc]

theorem Configuring.acceptAll (h : c.Configuring) : c.acceptAll.Configuring :=
  ⟨h.mode, List.length_set.trans h.filters, Nat.le_add_left 1 7⟩

theorem Configuring.configure (h : c.Configuring) (calls : List FilterCall) :
    (c.configure calls).Configuring := by
  induction calls generalizing c with
  | nil => exact h
  | cons call calls ih =>
      cases call with
      | add f => exact ih (h.addFilter f)
      | install n => exact ih (h.addFilters (Filter.forNode n))
      | acceptAll => exact ih h.acceptAll

/-- An element in the first slot that matches everything lets every frame through, whatever stands
in the other slots. -/
theorem Configuring.stores_acceptAll (h : c.Configuring) (unmatched : FilterAction) (id : FrameId) :
    c.acceptAll.start.stores unmatched id = true := by
  have hpos : 0 < c.filters.length := by rw [h.filters]; exact Nat.zero_lt_succ 7
  obtain ⟨e, es, hes⟩ := List.exists_cons_of_length_pos hpos
  have hverdict : FilterElement.verdict unmatched c.acceptAll.filters id.word = .toFifo0 := by
    simp [CanController.acceptAll, hes, FilterElement.verdict_cons, FilterElement.verdict?,
      FilterKind.covers]
  rw [stores_start, hverdict, FilterAction.isFifo0]

theorem length_forNode_le (n : NodeAddress) : (Filter.forNode n).length ≤ 4 := by
  cases n <;> decide

/-- The filters of a node fit into a fresh controller, which then stores what the node answers to
and nothing else. -/
theorem installNodeFilters_fresh (timing : BitTiming) (n : NodeAddress) :
    ∃ c : CanController,
      FrameBus.installNodeFilters n ({ timing } : CanController) =
        (.ok (), c, [.log (.installingFilters n)]) ∧
      ∀ unmatched id, c.start.stores unmatched id = n.accepts id.node := by
  have hroom : 0 + (Filter.forNode n).length ≤ 8 := by
    have := length_forNode_le n
    omega
  have hok := (configuring_fresh timing).fst_addFilters (Filter.forNode n)
  have hfilters := (configuring_fresh timing).filters_addFilters hroom
  rw [if_pos hroom] at hok
  rw [List.take_zero, List.nil_append] at hfilters
  refine ⟨(FrameBus.addFilters (Filter.forNode n) { timing }).2, ?_, fun unmatched id => ?_⟩
  · rw [FrameBus.installNodeFilters, ← hok]
  · rw [stores_start, hfilters, FilterElement.verdict_forNode]
    cases n.accepts id.node <;> rfl

end CanController

/-! ## A node behind its controller -/

namespace Node

variable {τ : Type} {n n' : Node τ}

theorem Takes.setup {k : MessageKind} {payload : List UInt8} {q : NodeQueue}
    (h : n.Takes k payload q n') : n'.setup = n.setup := by
  cases h <;> rfl

theorem setup_handleFrame (n : Node τ) (id : FrameId) (payload : List UInt8) :
    (n.handleFrame id payload).1.setup = n.setup := by
  obtain ⟨-, k, q, -, -, -, htakes⟩ | ⟨-, hsame, -⟩ := n.handleFrame_cases id payload
  · exact htakes.setup
  · rw [hsame]

end Node

namespace CanController

/-- Sending changes nothing but the requests. -/
theorem exists_send (c : CanController) (id : FrameId) (payload : List UInt8)
    (length : LengthCode) :
    ∃ requests, (FrameBus.send id payload length c).2 = { c with requests } := by
  obtain ⟨timing, mode, nextSlot, filters, mailbox, requests⟩ := c
  cases mode with
  | configuration => exact ⟨requests, rfl⟩
  | running =>
      simp only [FrameBus.send, send]
      by_cases hlong : LengthCode.maxPayload < max length.size payload.length
      · exact ⟨requests, by simp only [hlong, if_true]⟩
      · simp only [hlong, if_false]
        exact ⟨_, rfl⟩

theorem stores_sendNext (unmatched : FilterAction) (o : Outbox) (c : CanController) :
    (o.sendNext c).bus.stores unmatched = c.stores unmatched := by
  unfold Outbox.sendNext
  cases o.pop? with
  | none => rfl
  | some p =>
      obtain ⟨requests, hsend⟩ := c.exists_send p.1.id p.1.payload (.ofSize p.1.payload.length)
      have hstores : (p.1.send c).2.stores unmatched = c.stores unmatched := by
        rw [show (p.1.send c).2 = { c with requests } from hsend]
        rfl
      dsimp only
      split <;> next heq => exact (congrArg (fun x => x.2.stores unmatched) heq).symm.trans hstores

end CanController

namespace Site

variable {τ β : Type} [RegisterLink τ] [FrameBus β]

theorem setup_step (e : NodeEvent) (s : Site τ β) : (s.step e).node.setup = s.node.setup := by
  cases e with
  | frame id payload => exact s.node.setup_handleFrame id payload
  | tick limit encoder => rfl
  | turn task =>
      cases task with
      | reports => rfl
      | motion =>
          simp only [step, turn, Node.runMotion, Node.runMotionWithin]
          split <;> rfl
      | staging =>
          simp only [step, turn, Node.runStaging, Node.runStagingWithin]
          split <;> rfl
      | chip =>
          simp only [step, turn, Node.runChip, Node.runChipWithin]
          split <;> rfl
      | outbox => rfl

/-- A node does not notice the bus that its frames go out on. -/
theorem node_run_congr {s s' : Site τ β} (h : s.node = s'.node) (es : List NodeEvent) :
    (s.run es).node = (s'.run es).node := by
  induction es generalizing s s' with
  | nil => exact h
  | cons e es ih =>
      refine ih ?_
      cases e with
      | frame id payload => simp only [step, h]
      | tick limit encoder => simp only [step, h]
      | turn task =>
          cases task with
          | outbox => simp only [step, turn, Node.runOutbox, Outbox.outbox_sendNext, h]
          | _ => simp only [step, turn, h]

/-- Whether an event gets past the controller: a frame does if it is stored. -/
def lets (unmatched : FilterAction) (s : Site τ CanController) : NodeEvent → Bool
  | .frame id _ => s.bus.stores unmatched id
  | _ => true

/-- A run in which a frame reaches the node just if the controller stores it. -/
def runBehind (unmatched : FilterAction) (s : Site τ CanController) :
    List NodeEvent → Site τ CanController
  | [] => s
  | e :: es => runBehind unmatched (if s.lets unmatched e then s.step e else s) es

/-- Sending a frame leaves the filters of the controller alone. -/
theorem stores_step (unmatched : FilterAction) (e : NodeEvent) (s : Site τ CanController) :
    (s.step e).bus.stores unmatched = s.bus.stores unmatched := by
  cases e with
  | turn task =>
      cases task with
      | outbox => exact CanController.stores_sendNext unmatched s.node.outbox s.bus
      | _ => rfl
  | _ => rfl

/-- If the controller stores every frame for the node, the node does what it does without it. -/
theorem runBehind_eq_run {unmatched : FilterAction} {s : Site τ CanController}
    (h : ∀ id, s.node.setup.node.accepts id.node = true → s.bus.stores unmatched id = true)
    (es : List NodeEvent) : s.runBehind unmatched es = s.run es := by
  induction es generalizing s with
  | nil => rfl
  | cons e es ih =>
      have hstep : (if s.lets unmatched e then s.step e else s) = s.step e := by
        split
        · rfl
        · next hlets =>
            cases e with
            | turn task => exact absurd rfl hlets
            | tick limit encoder => exact absurd rfl hlets
            | frame id payload =>
                have ha : s.node.setup.node.accepts id.node = false :=
                  Bool.eq_false_iff.mpr fun ha => hlets (h id ha)
                rw [step, Node.handleFrame_of_not_accepts ha]
      rw [runBehind, hstep]
      refine ih fun id => ?_
      rw [setup_step, stores_step]
      exact h id

end Site

open CanController in
/-- The filters of a node store just the frames that it answers to, whatever becomes of frames that
no filter matches. A node behind them ends like a node behind a controller that stores everything.
After any configuration, with filters that were refused among it, accepting all stores every frame;
the filters of a node are refused just if the slots left over are too few. -/
theorem filters_and_addresses_agree {τ : Type} [RegisterLink τ] (unmatched : FilterAction)
    (timing : BitTiming) :
    let fresh : CanController := { timing }
    (∀ n : NodeAddress, ∃ c : CanController,
      FrameBus.installNodeFilters n fresh = (.ok (), c, [.log (.installingFilters n)]) ∧
      ∀ id, c.start.stores unmatched id = n.accepts id.node) ∧
    (∀ (n : Node τ) (es : List NodeEvent),
      let filtered := (FrameBus.installNodeFilters n.setup.node fresh).2.1
      (Site.runBehind unmatched ⟨n, filtered.start⟩ es).node =
        (Site.runBehind unmatched ⟨n, fresh.acceptAll.start⟩ es).node) ∧
    ∀ calls : List FilterCall,
      let c := fresh.configure calls
      (∀ id, c.acceptAll.start.stores unmatched id = true) ∧
      ∀ n : NodeAddress, (FrameBus.installNodeFilters n c).1 =
        if c.nextSlot + (Filter.forNode n).length ≤ 8 then .ok ()
        else .error .unsupportedFilter := by
  intro fresh
  have hfresh : fresh.Configuring := configuring_fresh timing
  refine ⟨fun n => ?_, fun n es => ?_, fun calls => ⟨fun id => ?_, fun n => ?_⟩⟩
  · obtain ⟨c, hc, hstores⟩ := installNodeFilters_fresh timing n
    exact ⟨c, hc, hstores unmatched⟩
  · obtain ⟨c, hc, hstores⟩ := installNodeFilters_fresh timing n.setup.node
    intro filtered
    have hfiltered : filtered = c := congrArg (·.2.1) hc
    have hnode : (⟨n, c.start⟩ : Site τ CanController).node =
        (⟨n, fresh.acceptAll.start⟩ : Site τ CanController).node := rfl
    rw [hfiltered, Site.runBehind_eq_run, Site.runBehind_eq_run]
    · exact Site.node_run_congr hnode es
    · exact fun id _ => hfresh.stores_acceptAll unmatched id
    · exact fun id ha => (hstores unmatched id).trans ha
  · exact (hfresh.configure calls).stores_acceptAll unmatched id
  · exact (hfresh.configure calls).fst_addFilters (Filter.forNode n)

/-- The third set of filters finds two slots and needs three. -/
example : (FrameBus.installNodeFilters .gantryX
    (({} : CanController).configure [.install .gantryX, .install .gantryY])).1 =
      .error .unsupportedFilter := rfl

end AxisNode
