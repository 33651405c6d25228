import AxisNode.Proofs.Chip.Mirror

/-!
# The step of a current

The product of scale and current is formed only for a current below a quotient of the same scale, so
it stays within 37 bits. Read as a natural number the step grows with the current up to the largest
step and stays there, and it fits the five bits of its field.

## Implementation notes

That no operation goes wrong is said by a second computation. It does the same operations in the
same order, and has no result if it divides by zero or forms a product that 64 bits cannot hold.
-/

namespace AxisNode

/-! ## Words that may go wrong -/

namespace Word

/-- A quotient; there is none by zero. -/
def div? (a b : UInt64) : Option UInt64 := if b = 0 then none else some (a / b)

/-- A product; there is none if 64 bits cannot hold it. -/
def mul? (a b : UInt64) : Option UInt64 :=
  if a.toNat * b.toNat < 2 ^ 64 then some (a * b) else none

theorem toNat_mul_of_lt {a b : UInt64} (h : a.toNat * b.toNat < 2 ^ 64) :
    (a * b).toNat = a.toNat * b.toNat := by
  rw [UInt64.toNat_mul, Nat.mod_eq_of_lt h]

theorem toNat_upperHalf (a : UInt64) : (a >>> 32).toUInt32.toNat = a.toNat / 2 ^ 32 := by
  have hlt := a.toNat_lt
  rw [UInt64.toNat_toUInt32, UInt64.toNat_shiftRight]
  change a.toNat >>> 32 % 2 ^ 32 = _
  rw [Nat.shiftRight_eq_div_pow]
  omega

/-- One less, but not less than zero. Of a small word the narrowing to eight bits loses nothing. -/
theorem toNat_lessOne {a : UInt32} (h : a.toNat < 2 ^ 8) :
    (if a = 0 then (0 : UInt32) else a - 1).toUInt8.toNat = a.toNat - 1 := by
  by_cases hzero : a = 0
  · subst hzero
    rfl
  · have hpos : (1 : UInt32) ≤ a := by
      refine UInt32.le_iff_toNat_le.mpr (Nat.one_le_iff_ne_zero.mpr fun h0 => hzero ?_)
      exact UInt32.toNat_inj.mp h0
    rw [if_neg hzero, UInt32.toNat_toUInt8, UInt32.toNat_sub_of_le _ _ hpos]
    change (a.toNat - 1) % 2 ^ 8 = _
    omega

end Word

/-- The step of a current, if no operation on the way goes wrong. -/
def checkedStep? (scale : UInt64) (current : UInt32) : Option UInt8 :=
  if scale = 0 then some 31
  else do
    let limit ← Word.div? 0x2000000000 scale
    if limit ≤ current.toUInt64 then some 31
    else do
      let product ← Word.mul? scale current.toUInt64
      let value := (product >>> 32).toUInt32
      some (if value = 0 then 0 else value - 1).toUInt8

/-! ## On either side of the limit -/

section Step

variable {scale : UInt64} {current : UInt32}

/-- The current from which on the step is the largest. A scale of zero has the limit zero. -/
def currentLimit (scale : UInt64) : Nat := 2 ^ 37 / scale.toNat

theorem limit_le_iff :
    0x2000000000 / scale ≤ current.toUInt64 ↔ currentLimit scale ≤ current.toNat := by
  rw [UInt64.le_iff_toNat_le, UInt64.toNat_div, UInt32.toNat_toUInt64]
  rfl

theorem product_lt (h : current.toNat < currentLimit scale) :
    scale.toNat * current.toNat < 2 ^ 37 := by
  have hpos : 0 < scale.toNat := by
    refine Nat.pos_of_ne_zero fun hzero => ?_
    rw [currentLimit, hzero, Nat.div_zero] at h
    exact Nat.not_lt_zero _ h
  calc scale.toNat * current.toNat
      < scale.toNat * currentLimit scale := Nat.mul_lt_mul_of_pos_left h hpos
    _ ≤ 2 ^ 37 := Nat.mul_div_le _ _

theorem product_fits (h : current.toNat < currentLimit scale) :
    scale.toNat * current.toUInt64.toNat < 2 ^ 64 := by
  rw [UInt32.toNat_toUInt64]
  exact (product_lt h).trans (by decide)

theorem currentStep_of_limit_le (h : currentLimit scale ≤ current.toNat) :
    currentStep scale current = 31 := by
  unfold currentStep
  by_cases hzero : scale = 0
  · rw [if_pos hzero]
  · rw [if_neg hzero, if_pos (limit_le_iff.mpr h)]

theorem toNat_currentStep_of_lt_limit (h : current.toNat < currentLimit scale) :
    (currentStep scale current).toNat = scale.toNat * current.toNat / 2 ^ 32 - 1 := by
  have hzero : scale ≠ 0 := by
    rintro rfl
    exact Nat.not_lt_zero _ h
  have hlt := product_lt h
  have hvalue : ((scale * current.toUInt64) >>> 32).toUInt32.toNat =
      scale.toNat * current.toNat / 2 ^ 32 := by
    rw [Word.toNat_upperHalf, Word.toNat_mul_of_lt (product_fits h), UInt32.toNat_toUInt64]
  unfold currentStep
  rw [if_neg hzero, if_neg (limit_le_iff.not.mpr (Nat.not_le.mpr h))]
  dsimp only
  rw [Word.toNat_lessOne (by omega), hvalue]

theorem currentStep_le (scale : UInt64) (current : UInt32) : currentStep scale current ≤ 31 := by
  rcases Nat.lt_or_ge current.toNat (currentLimit scale) with h | h
  · have hlt := product_lt h
    rw [UInt8.le_iff_toNat_le, toNat_currentStep_of_lt_limit h]
    change _ ≤ 31
    omega
  · rw [currentStep_of_limit_le h]
    decide

/-- Below the limit the product grows with the current, and from there on the step is the
largest. -/
theorem currentStep_mono {larger : UInt32} (h : current ≤ larger) :
    currentStep scale current ≤ currentStep scale larger := by
  have hle : current.toNat ≤ larger.toNat := UInt32.le_iff_toNat_le.mp h
  rcases Nat.lt_or_ge larger.toNat (currentLimit scale) with hlarger | hlarger
  · have hproduct : scale.toNat * current.toNat ≤ scale.toNat * larger.toNat :=
      Nat.mul_le_mul_left _ hle
    rw [UInt8.le_iff_toNat_le, toNat_currentStep_of_lt_limit hlarger,
      toNat_currentStep_of_lt_limit (hle.trans_lt hlarger)]
    exact Nat.sub_le_sub_right (Nat.div_le_div_right hproduct) 1
  · rw [currentStep_of_limit_le hlarger]
    exact currentStep_le scale current

/-- The division and the product are reached only where they go well. -/
theorem checkedStep?_eq (scale : UInt64) (current : UInt32) :
    checkedStep? scale current = some (currentStep scale current) := by
  unfold checkedStep? currentStep
  by_cases hzero : scale = 0
  · rw [if_pos hzero, if_pos hzero]
  · rw [if_neg hzero, if_neg hzero, Word.div?, if_neg hzero, Option.bind_eq_bind, Option.bind_some]
    by_cases hlimit : 0x2000000000 / scale ≤ current.toUInt64
    · rw [if_pos hlimit, if_pos hlimit]
    · have hfits := product_fits (Nat.not_le.mp (limit_le_iff.not.mp hlimit))
      rw [if_neg hlimit, if_neg hlimit, Word.mul?, if_pos hfits]
      rfl

end Step

theorem and_fieldMask_of_le {step : UInt8} (h : step ≤ 31) : step &&& 0x1f = step := by
  rw [← UInt8.toNat_inj, UInt8.toNat_and]
  have hlt : step.toNat < 2 ^ 5 := Nat.lt_succ_of_le (UInt8.le_iff_toNat_le.mp h)
  exact (Nat.and_two_pow_sub_one_eq_mod step.toNat 5).trans (Nat.mod_eq_of_lt hlt)

/-- For any scale and any currents: no operation divides by zero or overflows, a larger current has
no smaller step, no step is above 31, and each is read back from its field of the register. -/
theorem current_steps_grow_within_their_field (scale : UInt64) {current larger : UInt32}
    (h : current ≤ larger) :
    checkedStep? scale current = some (currentStep scale current) ∧
      currentStep scale current ≤ currentStep scale larger ∧ currentStep scale larger ≤ 31 ∧
      ∀ c : MotorCurrents,
        (MotorCurrents.ofWord { c with hold := currentStep scale current }.word).hold =
            currentStep scale current ∧
          (MotorCurrents.ofWord { c with run := currentStep scale current }.word).run =
            currentStep scale current := by
  have hmask := and_fieldMask_of_le (currentStep_le scale current)
  refine ⟨checkedStep?_eq scale current, currentStep_mono h, currentStep_le scale larger, ?_⟩
  intro c
  rw [MotorCurrents.ofWord_word, MotorCurrents.ofWord_word]
  exact ⟨hmask, hmask⟩

/-- The currents on either side of the limit of the scale of an ordinary board. -/
theorem current_steps_grow_within_their_field_of_limit :
    (125505 : UInt32) ≤ 125506 ∧ checkedStep? 1095072 125505 = some 30 ∧
      currentStep 1095072 125505 ≤ currentStep 1095072 125506 ∧
      currentStep 1095072 125506 = 31 ∧
      (MotorCurrents.ofWord (MotorCurrents.word ⟨currentStep 1095072 125505, 9, 6⟩)).hold = 30 := by
  have hstep : currentStep 1095072 125505 = 30 := by decide +kernel
  obtain ⟨hchecked, hmono, -, hfield⟩ :=
    current_steps_grow_within_their_field 1095072 (show (125505 : UInt32) ≤ 125506 by decide)
  refine ⟨by decide, hchecked.trans (congrArg some hstep), hmono, by decide +kernel, ?_⟩
  exact (hfield ⟨0, 9, 6⟩).1.trans hstep

end AxisNode
