import AxisNode.Board.CanController
import AxisNode.Node.Outbox
import AxisNode.Proofs.Families
import Mathlib.Order.Bounds.Basic

/-!
# From the outbox to the wire

The replies that the outbox accepts go out in the order in which they were posted, one frame for
each, and a frame is read back as the reply that it was made from. A length is rounded up twice on
the way, for the record and for the frame; the second time there is nothing left to round.
-/

namespace AxisNode

/-! ## Lengths -/

namespace LengthCode

theorem mem_all (c : LengthCode) : c ∈ all :=
  List.mem_map.mpr ⟨c.code, List.mem_finRange c.code, rfl⟩

theorem pairwise_all : all.Pairwise fun a b => a.size < b.size := by decide

/-- The size for a number of bytes is the smallest that holds them. -/
theorem isLeast_size_ofSize {n : Nat} (h : n ≤ maxPayload) :
    IsLeast {m | m ∈ Set.range size ∧ n ≤ m} (ofSize n).size := by
  have hsome : (all.find? fun c => n ≤ c.size).isSome = true :=
    List.find?_isSome.mpr ⟨⟨15⟩, mem_all _, decide_eq_true h⟩
  obtain ⟨c, hc⟩ := Option.isSome_iff_exists.mp hsome
  have hof : ofSize n = c := by rw [ofSize, hc, Option.getD_some]
  obtain ⟨hholds, smaller, larger, hall, hshort⟩ := List.find?_eq_some_iff_append.mp hc
  rw [hof]
  refine ⟨⟨⟨c, rfl⟩, of_decide_eq_true hholds⟩, ?_⟩
  rintro - ⟨⟨d, rfl⟩, hd⟩
  have hmem : d ∈ smaller ++ c :: larger := hall ▸ mem_all d
  obtain hd' | hd' := List.mem_append.mp hmem
  · have hlt := hshort d hd'
    simp only [Bool.not_eq_true', decide_eq_false_iff_not] at hlt
    exact absurd hd hlt
  · obtain rfl | hd' := List.mem_cons.mp hd'
    · exact Nat.le_refl _
    · have hpairs := pairwise_all
      rw [hall, List.pairwise_append, List.pairwise_cons] at hpairs
      exact (hpairs.2.1.1 d hd').le

/-- Rounding a size up again does not change which sizes hold the bytes. -/
theorem isLeast_max_iff {n m : Nat} (h : n ≤ maxPayload) :
    IsLeast {k | k ∈ Set.range size ∧ max (ofSize n).size n ≤ k} m ↔
      IsLeast {k | k ∈ Set.range size ∧ n ≤ k} m := by
  have hsame : {k | k ∈ Set.range size ∧ max (ofSize n).size n ≤ k} =
      {k | k ∈ Set.range size ∧ n ≤ k} := by
    ext k
    refine and_congr_right fun hk => ⟨fun hle => (Nat.le_max_right _ _).trans hle, fun hle => ?_⟩
    exact Nat.max_le.mpr ⟨(isLeast_size_ofSize h).2 ⟨hk, hle⟩, hle⟩
  rw [hsame]

end LengthCode

/-! ## Frames -/

/-- A request for one frame with an identifier of 29 bits, at one bit rate, that carries a payload
and zeros behind it, up to the next length that holds a number of bytes. If it then has no data, it
goes out marked as remote: so the driver of the peripheral treats it, and the node has no say in
this. -/
structure TransmitRequest.Frames (id : FrameId) (payload : List UInt8) (needed : Nat)
    (t : TransmitRequest) : Prop where
  id : t.id = id
  extended : t.extended = true
  flexible : t.flexible = true
  rateSwitch : t.rateSwitch = false
  data : t.data = payload ++ List.replicate (t.data.length - payload.length) 0
  length : IsLeast {n | n ∈ Set.range LengthCode.size ∧ needed ≤ n} t.data.length
  code : t.length.size = t.data.length
  remote : t.remote = t.data.isEmpty

namespace CanController

theorem length_pad {data : List UInt8} {n : Nat} (h : data.length ≤ n) :
    (pad data n).length = n := by
  rw [pad, List.length_append, List.length_replicate]
  omega

/-- A running controller sends any payload that fits into a frame and refuses every other. -/
theorem send_running {c : CanController} (hc : c.mode = .running) (id : FrameId)
    (payload : List UInt8) (length : LengthCode) :
    if payload.length ≤ LengthCode.maxPayload then
      ∃ t : TransmitRequest, t.Frames id payload (max length.size payload.length) ∧
        FrameBus.send id payload length c = (.ok (), { c with requests := c.requests ++ [t] })
    else FrameBus.send id payload length c = (.error .payloadTooLong, c) := by
  split
  · next h =>
      have hneeded : max length.size payload.length ≤ LengthCode.maxPayload :=
        Nat.max_le.mpr ⟨length.size_le_maxPayload, h⟩
      have hleast := LengthCode.isLeast_size_ofSize hneeded
      have hpad := length_pad ((Nat.le_max_right length.size payload.length).trans hleast.1.2)
      refine ⟨
        { mailbox := c.mailbox, id, extended := true, flexible := true, rateSwitch := false,
          length := .ofSize (max length.size payload.length),
          data := pad payload (LengthCode.ofSize (max length.size payload.length)).size },
        ⟨rfl, rfl, rfl, rfl, ?_, ?_, hpad.symm, ?_⟩, ?_⟩
      · rw [hpad]
        rfl
      · rw [hpad]
        exact hleast
      · have hempty : ∀ data : List UInt8, (data.length == 0) = data.isEmpty := by
          intro data
          cases data <;> rfl
        exact (congrArg (· == 0) hpad.symm).trans (hempty _)
      · simp only [FrameBus.send, send, hc, Nat.not_lt.mpr hneeded, if_false]
  · next h =>
      have hlong : LengthCode.maxPayload < max length.size payload.length :=
        (Nat.lt_of_not_le h).trans_le (Nat.le_max_right _ _)
      simp only [FrameBus.send, send, hc, hlong, if_true]

end CanController

theorem MessageKind.size?_le {k : MessageKind} {n : Nat} (h : k.size? = some n) :
    n ≤ LengthCode.maxPayload := by
  cases k <;> cases h <;> decide

/-- A request carries a reply to a node: a frame with the bytes of the reply, which a node that
reads the identifier and the data takes for this reply. -/
structure Carries (destination : NodeAddress) (r : Reply) (t : TransmitRequest) : Prop where
  frames : t.Frames (.make destination r.kind .networkManagement) r.toMessage.bytes
    r.toMessage.bytes.length
  size : r.kind.size? = some r.toMessage.bytes.length
  address : (FrameId.ofRaw t.id.raw).address? = some destination
  kind : (FrameId.ofRaw t.id.raw).kind? = some r.kind
  function : (FrameId.ofRaw t.id.raw).function? = some .networkManagement
  parse : Family.reply.parse? r.kind t.data = some r

theorem TransmitRequest.Frames.carries {t : TransmitRequest} {destination : NodeAddress} {r : Reply}
    (h : t.Frames (.make destination r.kind .networkManagement) r.toMessage.bytes
      r.toMessage.bytes.length) : Carries destination r t where
  frames := h
  size := r.toMessage.size?_kind
  address := by rw [FrameId.ofRaw_raw, h.id, FrameId.address?_make]
  kind := by rw [FrameId.ofRaw_raw, h.id, FrameId.kind?_make]
  function := by rw [FrameId.ofRaw_raw, h.id, FrameId.function?_make]
  parse := by
    rw [h.data]
    exact Family.lawful_reply.exact.parse?_bytes_append r _

/-- A running controller sends every reply. -/
theorem Outgoing.send_make {c : CanController} (hc : c.mode = .running) (destination : NodeAddress)
    (r : Reply) : ∃ t, Carries destination r t ∧
      (make destination r).send c = (.ok (), { c with requests := c.requests ++ [t] }) := by
  have hle : r.toMessage.bytes.length ≤ LengthCode.maxPayload :=
    MessageKind.size?_le r.toMessage.size?_kind
  have hsend := CanController.send_running hc (.make destination r.kind .networkManagement)
    r.toMessage.bytes (.ofSize r.toMessage.bytes.length)
  rw [if_pos hle] at hsend
  obtain ⟨t, ht, hc'⟩ := hsend
  refine ⟨t, TransmitRequest.Frames.carries { ht with length := ?_ }, hc'⟩
  exact (LengthCode.isLeast_max_iff hle).mp ht.length

/-- The next reply is gone whatever the bus does with it. -/
theorem Outbox.outbox_sendNext {β : Type} [FrameBus β] (o : Outbox) (bus : β) :
    (o.sendNext bus).outbox = (o.pop?.map Prod.snd).getD o := by
  unfold sendNext
  cases o.pop? with
  | none => rfl
  | some p =>
      dsimp only
      split <;> rfl

/-! ## The outbox and the controller -/

/-- Something that happens to an outbox that is emptied to a controller. -/
inductive SendEvent where
  | post (destination : NodeAddress) (r : Reply)
  /-- A turn of sending, with the mailbox that the hardware offers. -/
  | turn (mailbox : Nat)
deriving DecidableEq, Repr

/-- An outbox and the controller that it is emptied to. -/
structure Sender where
  outbox : Outbox
  bus : CanController

namespace Sender

variable {s : Sender}

/-- One reply is posted, or the sending task has a turn and finds a mailbox. -/
def step (s : Sender) : SendEvent → Sender
  | .post destination r => { s with outbox := (s.outbox.post destination r).outbox }
  | .turn mailbox =>
      let sent := s.outbox.sendNext { s.bus with mailbox }
      ⟨sent.outbox, sent.bus⟩

/-- Outbox and controller after a list of events. -/
def run (s : Sender) : List SendEvent → Sender
  | [] => s
  | e :: es => run (s.step e) es

/-- The replies that the outbox accepts in a run. -/
def accepted (s : Sender) : List SendEvent → List (NodeAddress × Reply)
  | [] => []
  | .post destination r :: es =>
      let later := accepted (s.step (.post destination r)) es
      if (s.outbox.post destination r).accepted then (destination, r) :: later else later
  | .turn mailbox :: es => accepted (s.step (.turn mailbox)) es

theorem run_append (s : Sender) (es es' : List SendEvent) :
    s.run (es ++ es') = (s.run es).run es' := by
  induction es generalizing s with
  | nil => rfl
  | cons e es ih => exact ih (s.step e)

theorem accepted_append (s : Sender) (es es' : List SendEvent) :
    s.accepted (es ++ es') = s.accepted es ++ (s.run es).accepted es' := by
  induction es generalizing s with
  | nil => rfl
  | cons e es ih =>
      cases e with
      | turn mailbox => exact ih (s.step (.turn mailbox))
      | post destination r =>
          simp only [List.cons_append, accepted, run, ih]
          split <;> rfl

theorem accepted_turns (s : Sender) (mailboxes : List Nat) :
    s.accepted (mailboxes.map .turn) = [] := by
  induction mailboxes generalizing s with
  | nil => rfl
  | cons mailbox mailboxes ih => exact ih (s.step (.turn mailbox))

/-- The items of an outbox are these replies. -/
def Waits (s : Sender) (waiting : List (NodeAddress × Reply)) : Prop :=
  s.outbox.items = waiting.map fun p => .make p.1 p.2

/-- A post adds one reply at the end if it is accepted, and nothing otherwise. -/
theorem Waits.post {waiting : List (NodeAddress × Reply)} (h : s.Waits waiting)
    (destination : NodeAddress) (r : Reply) :
    (s.step (.post destination r)).Waits
      (if (s.outbox.post destination r).accepted then waiting ++ [(destination, r)]
        else waiting) := by
  have hspec := s.outbox.post_spec destination r
  change (s.outbox.post destination r).outbox.items = _
  split at hspec
  · rw [hspec.1, hspec.2, h, if_pos rfl, List.map_append]
    rfl
  · rw [hspec.1, hspec.2, h]
    rfl

/-- A turn sends the oldest reply in one frame. -/
theorem Waits.turn {destination : NodeAddress} {r : Reply} {waiting : List (NodeAddress × Reply)}
    (h : s.Waits ((destination, r) :: waiting)) (hmode : s.bus.mode = .running) (mailbox : Nat) :
    (s.step (.turn mailbox)).Waits waiting ∧ (s.step (.turn mailbox)).bus.mode = .running ∧
      ∃ t, Carries destination r t ∧
        (s.step (.turn mailbox)).bus.requests = s.bus.requests ++ [t] := by
  obtain ⟨rest, hpop, hrest⟩ := Queue.exists_pop?_of_cons h
  obtain ⟨t, ht, hsend⟩ := Outgoing.send_make (c := { s.bus with mailbox }) hmode destination r
  have hstep : s.step (.turn mailbox) =
      ⟨rest, { s.bus with mailbox, requests := s.bus.requests ++ [t] }⟩ := by
    simp only [step, Outbox.sendNext, hpop, hsend]
  rw [hstep]
  exact ⟨hrest, hmode, t, ht, rfl⟩

theorem Waits.turn_of_nil (h : s.Waits []) (mailbox : Nat) :
    s.step (.turn mailbox) = { s with bus := { s.bus with mailbox } } := by
  simp only [step, Outbox.sendNext, Queue.pop?_eq_none_iff.mpr h]

/-- What waited and what is accepted goes out in its order, a frame for each, or still waits. -/
theorem Waits.run {waiting : List (NodeAddress × Reply)} (h : s.Waits waiting)
    (hmode : s.bus.mode = .running) (es : List SendEvent) :
    ∃ sent rest ts, waiting ++ s.accepted es = sent ++ rest ∧ (s.run es).Waits rest ∧
      (s.run es).bus.requests = s.bus.requests ++ ts ∧ (s.run es).bus.mode = .running ∧
      List.Forall₂ (fun p => Carries p.1 p.2) sent ts := by
  induction es generalizing s waiting with
  | nil =>
      exact ⟨[], waiting, [], List.append_nil _, h, (List.append_nil _).symm, hmode, .nil⟩
  | cons e es ih =>
      cases e with
      | post destination r =>
          obtain ⟨sent, rest, ts, hsplit, hrun⟩ := ih (h.post destination r) hmode
          refine ⟨sent, rest, ts, ?_, hrun⟩
          rw [← hsplit, accepted]
          split <;> simp
      | turn mailbox =>
          cases waiting with
          | nil =>
              have hstep := h.turn_of_nil mailbox
              have hwaits : (s.step (.turn mailbox)).Waits [] := hstep ▸ h
              obtain ⟨sent, rest, ts, hsplit, hrest, hts, hrun⟩ := ih hwaits (hstep ▸ hmode)
              exact ⟨sent, rest, ts, hsplit, hrest, hts.trans (by rw [hstep]), hrun⟩
          | cons p waiting =>
              obtain ⟨hwaits, hmode', t, ht, hbus⟩ := Waits.turn h hmode mailbox
              obtain ⟨sent, rest, ts, hsplit, hrest, hts, hmode'', hall⟩ := ih hwaits hmode'
              refine ⟨p :: sent, rest, t :: ts, congrArg (p :: ·) hsplit, hrest, ?_, hmode'',
                .cons ht hall⟩
              exact hts.trans (by rw [hbus, List.append_assoc, List.singleton_append])

/-- As many turns as there are items empty an outbox. -/
theorem items_turns (s : Sender) (mailboxes : List Nat) :
    (s.run (mailboxes.map .turn)).outbox.items = s.outbox.items.drop mailboxes.length := by
  induction mailboxes generalizing s with
  | nil => rfl
  | cons mailbox mailboxes ih =>
      have hstep : (s.step (.turn mailbox)).outbox.items = s.outbox.items.drop 1 := by
        rw [step, Outbox.outbox_sendNext]
        cases hq : s.outbox.pop? with
        | none => simp [Queue.pop?_eq_none_iff.mp hq]
        | some p => simp [(Queue.pop?_eq_some_iff.mp hq).1]
      rw [List.map_cons, run, ih, hstep, List.drop_drop, List.length_cons, Nat.add_comm]

/-- Once there have been turns enough, everything that was accepted has been sent. -/
theorem Waits.run_turns (h : s.Waits []) (hmode : s.bus.mode = .running) (es : List SendEvent)
    {mailboxes : List Nat} (henough : (s.run es).outbox.items.length ≤ mailboxes.length) :
    (s.run (es ++ mailboxes.map .turn)).outbox.items = [] ∧
      ∃ ts, (s.run (es ++ mailboxes.map .turn)).bus.requests = s.bus.requests ++ ts ∧
        List.Forall₂ (fun p => Carries p.1 p.2) (s.accepted es) ts := by
  have hempty : (s.run (es ++ mailboxes.map .turn)).outbox.items = [] := by
    rw [run_append, items_turns, List.drop_eq_nil_of_le henough]
  obtain ⟨sent, rest, ts, hsplit, hrest, hts, -, hall⟩ := h.run hmode (es ++ mailboxes.map .turn)
  have hnone : rest = [] := List.map_eq_nil_iff.mp (hrest.symm.trans hempty)
  have hsent : s.accepted es = sent := by
    rw [accepted_append, accepted_turns, hnone, List.append_nil, List.append_nil,
      List.nil_append] at hsplit
    exact hsplit
  exact ⟨hempty, ts, hts, hsent ▸ hall⟩

end Sender

open Sender in
/-- The replies that an outbox accepts go out to a started controller in their order, one frame for
each that is no longer waiting, and turns enough send them all. A frame names the node, the kind and
network management in its identifier, and carries the record of the reply and zeros up to the
smallest length that holds it, from which the reply is read back. A reply without data, as to a
heartbeat, goes out marked as a remote frame, which is how the driver of the peripheral treats a
frame of length zero and not something that the node asks for. In general the controller pads a
payload to the smallest length that holds it and what is asked for; a payload that is too long for a
frame is refused and changes nothing. -/
theorem accepted_replies_are_sent (capacity : Nat) (c : CanController) (es : List SendEvent) :
    let s : Sender := ⟨.empty capacity, c.start⟩
    (∃ sent waiting ts, s.accepted es = sent ++ waiting ∧ (s.run es).Waits waiting ∧
      (s.run es).bus.requests = c.requests ++ ts ∧
      List.Forall₂ (fun p => Carries p.1 p.2) sent ts) ∧
    (∀ mailboxes : List Nat, (s.run es).outbox.items.length ≤ mailboxes.length →
      (s.run (es ++ mailboxes.map .turn)).outbox.items = [] ∧
      ∃ ts, (s.run (es ++ mailboxes.map .turn)).bus.requests = c.requests ++ ts ∧
        List.Forall₂ (fun p => Carries p.1 p.2) (s.accepted es) ts) ∧
    ∀ (id : FrameId) (payload : List UInt8) (length : LengthCode),
      if payload.length ≤ LengthCode.maxPayload then
        ∃ t : TransmitRequest, t.Frames id payload (max length.size payload.length) ∧
          FrameBus.send id payload length c.start =
            (.ok (), { c.start with requests := c.requests ++ [t] })
      else FrameBus.send id payload length c.start = (.error .payloadTooLong, c.start) := by
  intro s
  have hwaits : s.Waits [] := rfl
  refine ⟨?_, fun mailboxes henough => hwaits.run_turns rfl es henough,
    CanController.send_running rfl⟩
  obtain ⟨sent, waiting, ts, hsplit, hrest, hts, -, hall⟩ := hwaits.run rfl es
  exact ⟨sent, waiting, ts, hsplit, hrest, hts, hall⟩

/-- An outbox for one reply: the second is refused, and the third finds the room that a turn has
made. Its nine bytes go out in a frame of twelve. -/
theorem accepted_replies_are_sent_of_fullOutbox :
    let s : Sender := ⟨.empty 1, ({} : CanController).start⟩
    let report : Reply := .position ⟨300, 1, 1⟩
    let es : List SendEvent :=
      [.post .host .heartbeat, .post .host (.deviceInfo 7), .turn 0, .post .gantryX report]
    (s.run es).outbox.items.length ≤ [2].length ∧
      (s.run (es ++ [.turn 2])).outbox.items = [] ∧
      (∃ t t', (s.run (es ++ [.turn 2])).bus.requests = [t, t'] ∧ Carries .host .heartbeat t ∧
        Carries .gantryX report t') ∧
      (s.run (es ++ [.turn 2])).bus.requests.map (·.data) =
        [[], [0, 0, 1, 44, 0, 0, 0, 1, 1, 0, 0, 0]] := by
  intro s report es
  have henough : (s.run es).outbox.items.length ≤ [2].length := by decide +kernel
  have haccepted : s.accepted es = [(.host, .heartbeat), (.gantryX, report)] := by decide +kernel
  obtain ⟨hempty, ts, hts, hall⟩ := (accepted_replies_are_sent 1 {} es).2.1 [2] henough
  rw [show Sender.accepted _ es = [(.host, .heartbeat), (.gantryX, report)] from haccepted] at hall
  obtain _ | ⟨ht, _ | ⟨ht', ⟨⟩⟩⟩ := hall
  exact ⟨henough, hempty, ⟨_, _, hts, ht, ht'⟩, by decide +kernel⟩

end AxisNode
