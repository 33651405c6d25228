import AxisNode.Chip.Driver
import Mathlib.Tactic.IntervalCases

/-!
# The currents in the chip

The driver remembers the currents that it last wrote. They are followed through any calls over a
link that may fail at any access, next to what the registers of the chip really hold. All that a
call can do is one of four outcomes. Once a write of the currents has succeeded, what is remembered
is what the chip holds.
-/

namespace AxisNode

namespace MotorCurrents

/-- Each field cut to the bits that fit into the register. -/
def fit (c : MotorCurrents) : MotorCurrents := ⟨c.hold &&& 0x1f, c.run &&& 0x1f, c.delay &&& 0xf⟩

theorem ofWord_word (c : MotorCurrents) : ofWord c.word = c.fit := by
  rw [ofWord, fit, MotorCurrents.mk.injEq]
  refine ⟨?_, ?_, ?_⟩ <;>
    refine UInt8.toBitVec_inj.mp (BitVec.eq_of_getLsbD_eq fun i hi => ?_) <;>
    interval_cases i <;> simp [word]

theorem fit_ofWord (w : UInt32) : (ofWord w).fit = ofWord w := by
  rw [ofWord, fit, MotorCurrents.mk.injEq]
  refine ⟨?_, ?_, ?_⟩ <;>
    refine UInt8.toBitVec_inj.mp (BitVec.eq_of_getLsbD_eq fun i hi => ?_) <;>
    interval_cases i <;> simp

end MotorCurrents

/-- The address that an access goes to. -/
def RegisterAccess.address : RegisterAccess → UInt8
  | write address _ => address
  | read address => address

/-- A link behind which the registers of a chip can be seen. Every access is noted, and one that
fails leaves the registers alone. Of one that succeeds only the register of the currents is told,
so that flags may clear when they are read. -/
class FaithfulLink (τ : Type) [RegisterLink τ] where
  words : τ → UInt8 → UInt32
  accesses : τ → List RegisterAccess
  accesses_write (address : UInt8) (data : UInt32) (l : τ) :
    accesses (RegisterLink.write address data l).2 = accesses l ++ [.write address data]
  accesses_read (address : UInt8) (l : τ) :
    accesses (RegisterLink.read address l).2 = accesses l ++ [.read address]
  words_write_of_failed (address : UInt8) (data : UInt32) (l : τ)
    (h : (RegisterLink.write address data l).1 = false) :
    words (RegisterLink.write address data l).2 = words l
  words_read_of_failed (address : UInt8) (l : τ) (h : (RegisterLink.read address l).1 = none) :
    words (RegisterLink.read address l).2 = words l
  currents_write (address : UInt8) (data : UInt32) (l : τ)
    (h : (RegisterLink.write address data l).1 = true) :
    words (RegisterLink.write address data l).2 Register.currents =
      if address = Register.currents then data else words l Register.currents
  currents_read (address : UInt8) (l : τ) :
    words (RegisterLink.read address l).2 Register.currents = words l Register.currents

instance : FaithfulLink RegisterFile where
  words := RegisterFile.words
  accesses := RegisterFile.accesses
  accesses_write address data f := by
    simp only [RegisterLink.write]
    split <;> rfl
  accesses_read address f := rfl
  words_write_of_failed address data f h := by
    simp only [RegisterLink.write] at h ⊢
    split at h
    · cases h
    · next hc => rw [if_neg hc]
  words_read_of_failed address f h := rfl
  currents_write address data f h := by
    simp only [RegisterLink.write] at h ⊢
    split at h
    · next hc =>
        rw [if_pos hc]
        simp only [eq_comm]
    · cases h
  currents_read address f := rfl

/-- A register file behind a link that is up or down at each access as planned. -/
structure PatchyFile where
  file : RegisterFile := {}
  up : List Bool := []

namespace PatchyFile

/-- The register file as the next access finds it. -/
def next (l : PatchyFile) : RegisterFile := { l.file with connected := l.up.headD true }

instance : RegisterLink PatchyFile where
  write address data l := (RegisterLink.write address data l.next).map id (⟨·, l.up.tail⟩)
  read address l := (RegisterLink.read address l.next).map id (⟨·, l.up.tail⟩)

instance : FaithfulLink PatchyFile where
  words l := l.file.words
  accesses l := l.file.accesses
  accesses_write address data l := FaithfulLink.accesses_write address data l.next
  accesses_read address l := FaithfulLink.accesses_read address l.next
  words_write_of_failed address data l := FaithfulLink.words_write_of_failed address data l.next
  words_read_of_failed address l := FaithfulLink.words_read_of_failed address l.next
  currents_write address data l := FaithfulLink.currents_write address data l.next
  currents_read address l := FaithfulLink.currents_read address l.next

end PatchyFile

/-- A call of the driver. -/
inductive ChipCall where
  | write (address : UInt8) (data : UInt32)
  | read (address : UInt8)
  | setCurrents (hold run : UInt32)
  | writeCurrents
deriving DecidableEq, Repr

/-- Whether a call writes the register of the currents. -/
def ChipCall.writesCurrents : ChipCall → Bool
  | write address _ => address = Register.currents
  | read _ => false
  | setCurrents _ _ => true
  | writeCurrents => true

namespace ChipDriver

variable {τ : Type} [RegisterLink τ]

/-- The driver after a call, and whether the call failed. -/
def perform (c : ChipCall) (d : ChipDriver τ) : Except ChipError Unit × ChipDriver τ :=
  match c with
  | .write address data => d.write address data
  | .read address => (d.read address).map (Except.map fun _ => ()) id
  | .setCurrents hold run => d.setCurrents hold run
  | .writeCurrents => d.writeCurrents

/-- The driver after some calls, whatever they were answered with. -/
def run (calls : List ChipCall) (d : ChipDriver τ) : ChipDriver τ :=
  calls.foldl (fun d c => (d.perform c).2) d

theorem run_append (cs cs' : List ChipCall) (d : ChipDriver τ) :
    d.run (cs ++ cs') = (d.run cs).run cs' := List.foldl_append

/-- The currents after those that are not zero were set. -/
def adjusted (d : ChipDriver τ) (hold run : UInt32) : MotorCurrents :=
  let c := d.currents
  let c := if hold = 0 then c else { c with hold := d.step hold }
  if run = 0 then c else { c with run := d.step run }

omit [RegisterLink τ] in
theorem hold_adjusted (d : ChipDriver τ) (run : UInt32) :
    (d.adjusted 0 run).hold = d.currents.hold := by
  unfold adjusted
  dsimp only
  split <;> rfl

omit [RegisterLink τ] in
theorem run_adjusted (d : ChipDriver τ) (hold : UInt32) :
    (d.adjusted hold 0).run = d.currents.run := by
  unfold adjusted
  dsimp only
  rw [if_pos rfl]
  split <;> rfl

omit [RegisterLink τ] in
theorem delay_adjusted (d : ChipDriver τ) (hold run : UInt32) :
    (d.adjusted hold run).delay = d.currents.delay := by
  unfold adjusted
  dsimp only
  split <;> split <;> rfl

/-- The access that a call asks for. -/
def asked (d : ChipDriver τ) : ChipCall → RegisterAccess
  | .write address data => .write address data
  | .read address => .read address
  | .setCurrents hold run => .write Register.currents (d.adjusted hold run).word
  | .writeCurrents => .write Register.currents d.currents.word

variable [FaithfulLink τ]

/-- The currents as the chip has them. -/
def inChip (d : ChipDriver τ) : MotorCurrents :=
  MotorCurrents.ofWord (FaithfulLink.words d.link Register.currents)

/-- All that an access can come to. -/
inductive Outcome (d : ChipDriver τ) :
    RegisterAccess → Except ChipError Unit → ChipDriver τ → Prop
  /-- The address names no register, and the link is not touched. -/
  | refused {a : RegisterAccess} (h : Register.valid a.address = false) :
      Outcome d a (.error (.invalidRegister a.address)) d
  | failed {a : RegisterAccess} {link : τ} (hvalid : Register.valid a.address = true)
      (haccesses : FaithfulLink.accesses link = FaithfulLink.accesses d.link ++ [a])
      (hwords : FaithfulLink.words link = FaithfulLink.words d.link) :
      Outcome d a (.error .link) { d with link }
  /-- Something else than the currents was written or read. -/
  | passed {a : RegisterAccess} {link : τ} (hvalid : Register.valid a.address = true)
      (haccesses : FaithfulLink.accesses link = FaithfulLink.accesses d.link ++ [a])
      (hother : ∀ data, a ≠ .write Register.currents data)
      (hword : FaithfulLink.words link Register.currents =
        FaithfulLink.words d.link Register.currents) :
      Outcome d a (.ok ()) { d with link }
  /-- The currents were written and are remembered. -/
  | renewed {data : UInt32} {link : τ}
      (haccesses : FaithfulLink.accesses link =
        FaithfulLink.accesses d.link ++ [.write Register.currents data])
      (hword : FaithfulLink.words link Register.currents = data) :
      Outcome d (.write Register.currents data) (.ok ())
        { d with link, currents := MotorCurrents.ofWord data }

theorem outcome_write (d : ChipDriver τ) (address : UInt8) (data : UInt32) :
    Outcome d (.write address data) (d.write address data).1 (d.write address data).2 := by
  have haccesses := FaithfulLink.accesses_write address data d.link
  have hfailed := FaithfulLink.words_write_of_failed address data d.link
  have hword := FaithfulLink.currents_write address data d.link
  unfold write
  split
  · next hvalid =>
      generalize RegisterLink.write address data d.link = r at haccesses hfailed hword
      obtain ⟨done, link⟩ := r
      cases done with
      | false => exact .failed hvalid haccesses (hfailed rfl)
      | true =>
          have hword := hword rfl
          dsimp only
          split
          · next ha =>
              subst ha
              exact .renewed haccesses (hword.trans (if_pos rfl))
          · next ha =>
              refine .passed hvalid haccesses ?_ (hword.trans (if_neg ha))
              intro data' h
              exact ha (RegisterAccess.write.inj h).1
  · next hvalid => exact .refused (Bool.not_eq_true _ ▸ hvalid)

theorem outcome_read (d : ChipDriver τ) (address : UInt8) :
    Outcome d (.read address) ((d.read address).1.map fun _ => ()) (d.read address).2 := by
  have haccesses := FaithfulLink.accesses_read address d.link
  have hfailed := FaithfulLink.words_read_of_failed address d.link
  have hword := FaithfulLink.currents_read address d.link
  unfold read
  split
  · next hvalid =>
      generalize RegisterLink.read address d.link = r at haccesses hfailed hword
      obtain ⟨data?, link⟩ := r
      cases data? with
      | none => exact .failed hvalid haccesses (hfailed rfl)
      | some data => exact .passed hvalid haccesses (fun _ h => nomatch h) hword
  · next hvalid => exact .refused (Bool.not_eq_true _ ▸ hvalid)

theorem outcome_perform (d : ChipDriver τ) (c : ChipCall) :
    Outcome d (d.asked c) (d.perform c).1 (d.perform c).2 := by
  cases c with
  | write address data => exact outcome_write d address data
  | read address => exact outcome_read d address
  | setCurrents hold run => exact outcome_write d Register.currents (d.adjusted hold run).word
  | writeCurrents => exact outcome_write d Register.currents d.currents.word

/-! ## What an access does -/

variable {d d' : ChipDriver τ} {a : RegisterAccess} {result : Except ChipError Unit}

theorem Outcome.accesses (h : Outcome d a result d') :
    ∃ new, FaithfulLink.accesses d'.link = FaithfulLink.accesses d.link ++ new ∧
      ∀ x ∈ new, Register.valid x.address = true := by
  cases h with
  | refused h => exact ⟨[], (List.append_nil _).symm, fun _ hx => nomatch hx⟩
  | failed hvalid haccesses hwords =>
      exact ⟨[a], haccesses, fun x hx => List.mem_singleton.mp hx ▸ hvalid⟩
  | passed hvalid haccesses hother hword =>
      exact ⟨[a], haccesses, fun x hx => List.mem_singleton.mp hx ▸ hvalid⟩
  | renewed haccesses hword =>
      have hvalid : Register.valid Register.currents = true := by decide
      exact ⟨_, haccesses, fun x hx => List.mem_singleton.mp hx ▸ hvalid⟩

/-- An access that fails changes neither the chip nor what is remembered of it. -/
theorem Outcome.unchanged {e : ChipError} (h : Outcome d a (.error e) d') :
    FaithfulLink.words d'.link = FaithfulLink.words d.link ∧ d'.currents = d.currents := by
  cases h with
  | refused h => exact ⟨rfl, rfl⟩
  | failed hvalid haccesses hwords => exact ⟨hwords, rfl⟩

/-- What is remembered is what the chip holds. -/
def Mirrors (d : ChipDriver τ) : Prop := d.currents = d.inChip

theorem Outcome.mirrors (h : Outcome d a result d') (hd : d.Mirrors) : d'.Mirrors := by
  cases h with
  | refused h => exact hd
  | failed hvalid haccesses hwords =>
      exact hd.trans (congrArg MotorCurrents.ofWord (congrFun hwords Register.currents).symm)
  | passed hvalid haccesses hother hword =>
      exact hd.trans (congrArg MotorCurrents.ofWord hword.symm)
  | renewed haccesses hword => exact congrArg MotorCurrents.ofWord hword.symm

theorem Outcome.mirrors_of_written {data : UInt32}
    (h : Outcome d (.write Register.currents data) (.ok ()) d') : d'.Mirrors := by
  cases h with
  | passed hvalid haccesses hother hword => exact absurd rfl (hother data)
  | renewed haccesses hword => exact congrArg MotorCurrents.ofWord hword.symm

/-- A write of the currents either leaves those in the chip or sets them to the fields that fit. -/
theorem Outcome.inChip_cases {c : MotorCurrents}
    (h : Outcome d (.write Register.currents c.word) result d') :
    d'.inChip = d.inChip ∨ d'.inChip = c.fit := by
  cases h with
  | refused h => exact .inl rfl
  | failed hvalid haccesses hwords =>
      exact .inl (congrArg MotorCurrents.ofWord (congrFun hwords Register.currents))
  | passed hvalid haccesses hother hword => exact absurd rfl (hother c.word)
  | renewed haccesses hword =>
      exact .inr ((congrArg MotorCurrents.ofWord hword).trans c.ofWord_word)

/-! ## Calls one after the other -/

theorem accesses_run (calls : List ChipCall) (d : ChipDriver τ) :
    ∃ new, FaithfulLink.accesses (d.run calls).link = FaithfulLink.accesses d.link ++ new ∧
      ∀ x ∈ new, Register.valid x.address = true := by
  induction calls generalizing d with
  | nil => exact ⟨[], (List.append_nil _).symm, fun _ hx => nomatch hx⟩
  | cons c calls ih =>
      obtain ⟨first, hfirst, hvalid⟩ := (outcome_perform d c).accesses
      obtain ⟨others, hothers, hvalid'⟩ := ih (d.perform c).2
      refine ⟨first ++ others, ?_, ?_⟩
      · calc FaithfulLink.accesses (d.run (c :: calls)).link
            = FaithfulLink.accesses (d.perform c).2.link ++ others := hothers
          _ = FaithfulLink.accesses d.link ++ (first ++ others) := by
              rw [hfirst, List.append_assoc]
      · intro x hx
        exact (List.mem_append.mp hx).elim (hvalid x) (hvalid' x)

theorem Mirrors.run (hd : d.Mirrors) (calls : List ChipCall) : (d.run calls).Mirrors := by
  induction calls generalizing d with
  | nil => exact hd
  | cons c calls ih => exact ih ((outcome_perform d c).mirrors hd)

theorem mirrors_of_writesCurrents {c : ChipCall} (hc : c.writesCurrents = true)
    (hok : (d.perform c).1 = .ok ()) : (d.perform c).2.Mirrors := by
  have h := outcome_perform d c
  rw [hok] at h
  cases c with
  | write address data =>
      obtain rfl : address = Register.currents := of_decide_eq_true hc
      exact h.mirrors_of_written
  | read address => cases hc
  | setCurrents hold run => exact h.mirrors_of_written
  | writeCurrents => exact h.mirrors_of_written

theorem Mirrors.keeps_field (hd : d.Mirrors) {hold run : UInt32} (f : MotorCurrents → UInt8)
    (hf : f (d.adjusted hold run).fit = f d.currents.fit) :
    f (d.setCurrents hold run).2.inChip = f d.inChip := by
  rcases (outcome_perform d (.setCurrents hold run)).inChip_cases with h | h
  · exact congrArg f h
  · calc f (d.setCurrents hold run).2.inChip
        = f (d.adjusted hold run).fit := congrArg f h
      _ = f d.currents.fit := hf
      _ = f d.inChip := by rw [hd, inChip, MotorCurrents.fit_ofWord]

/-- For any calls, with any arguments, over a link that may fail at any access: the chip is accessed
only at addresses that name a register, and a call that fails changes neither its registers nor what
is remembered. From a successful write of the currents on, what is remembered is what the chip
holds, and setting currents keeps in the chip a current that is given as zero, and the delay. -/
theorem remembered_currents_mirror_chip {τ : Type} [RegisterLink τ] [FaithfulLink τ]
    (d : ChipDriver τ) (calls : List ChipCall) :
    (∃ new, FaithfulLink.accesses (d.run calls).link = FaithfulLink.accesses d.link ++ new ∧
      ∀ x ∈ new, Register.valid x.address = true) ∧
    ∀ before call after, calls = before ++ call :: after →
      let now := d.run before
      let performed := now.perform call
      (∀ e, performed.1 = .error e →
        FaithfulLink.words performed.2.link = FaithfulLink.words now.link ∧
          performed.2.currents = now.currents) ∧
      (call.writesCurrents = true → performed.1 = .ok () →
        let later := d.run calls
        later.currents = later.inChip ∧
        ∀ hold run,
          (later.setCurrents 0 run).2.inChip.hold = later.inChip.hold ∧
            (later.setCurrents hold 0).2.inChip.run = later.inChip.run ∧
            (later.setCurrents hold run).2.inChip.delay = later.inChip.delay) := by
  refine ⟨accesses_run calls d, ?_⟩
  rintro before call after rfl
  intro now performed
  have houtcome : Outcome now (now.asked call) performed.1 performed.2 := outcome_perform now call
  refine ⟨?_, ?_⟩
  · intro e he
    rw [he] at houtcome
    exact houtcome.unchanged
  · intro hcall hok later
    have hmirrors : later.Mirrors := by
      have hrun : later = performed.2.run after := run_append before (call :: after) d
      rw [hrun]
      exact (mirrors_of_writesCurrents hcall hok).run after
    refine ⟨hmirrors, fun hold run => ⟨?_, ?_, ?_⟩⟩
    · exact hmirrors.keeps_field _ (congrArg (· &&& 0x1f) (later.hold_adjusted run))
    · exact hmirrors.keeps_field _ (congrArg (· &&& 0x1f) (later.run_adjusted hold))
    · exact hmirrors.keeps_field _ (congrArg (· &&& 0xf) (later.delay_adjusted hold run))

/-- The first fields are too large, and the link is down when they are to be written. Once they have
been written, a word that is written directly is remembered, and one that does not get through
changes nothing. -/
theorem remembered_currents_mirror_chip_of_outage :
    let d : ChipDriver PatchyFile :=
      { link := { up := [false, true, true, false] }, currents := ⟨0xe7, 9, 0xf5⟩ }
    let later := d.run [.writeCurrents, .write 0x02 5, .writeCurrents, .write 0x10 0x00030f1f,
      .write 0x10 0]
    d.currents ≠ d.inChip ∧
      (d.perform .writeCurrents).1 = .error .link ∧
      (d.perform .writeCurrents).2.currents = d.currents ∧
      later.link.file.accesses.length = 4 ∧
      (∀ x ∈ later.link.file.accesses, Register.valid x.address = true) ∧
      later.currents = later.inChip ∧ later.inChip = ⟨31, 15, 3⟩ ∧
      ∀ run, (later.setCurrents 0 run).2.inChip.hold = 31 := by
  intro d later
  obtain ⟨⟨new, hnew, hvalid⟩, hat⟩ := remembered_currents_mirror_chip d
    [.writeCurrents, .write 0x02 5, .writeCurrents, .write 0x10 0x00030f1f, .write 0x10 0]
  have hdown : (d.perform .writeCurrents).1 = .error .link := by decide +kernel
  have hlater : later.inChip = ⟨31, 15, 3⟩ := by decide +kernel
  obtain ⟨hmirrors, hkeeps⟩ :=
    (hat [.writeCurrents, .write 0x02 5] .writeCurrents _ rfl).2 (by decide) (by decide +kernel)
  refine ⟨by decide +kernel, hdown, ((hat [] .writeCurrents _ rfl).1 _ hdown).2,
    by decide +kernel, ?_, hmirrors, hlater, ?_⟩
  · intro x hx
    exact hvalid x ((List.nil_append new ▸ hnew) ▸ hx)
  · intro run
    exact (hkeeps 0 run).1.trans (congrArg MotorCurrents.hold hlater)

end ChipDriver

end AxisNode
