import ThuasRiscv.Core.Alu
import ThuasRiscv.Isa.Semantics

/-!
# The barrel shifter

The value and the fill vector of the staged shifter are the two halves of one
vector of 64 bits. Every stage shifts this vector, and so do all five stages
together.
-/

namespace ThuasRiscv

/-! ## One stage -/

/-- The value is the high half: a stage of the left shifter shifts the whole vector. -/
theorem shiftLeftStage_append {n : ℕ} (hn : n < 32) (enable : Bool) (p : DataType × DataType) :
    (shiftLeftStage n enable p).1 ++ (shiftLeftStage n enable p).2 =
      (p.1 ++ p.2) <<< (if enable then n else 0) := by
  cases enable with
  | false => simp [shiftLeftStage]
  | true =>
    apply BitVec.eq_of_getLsbD_eq
    intro k hk
    simp only [shiftLeftStage, if_true, BitVec.getLsbD_append, BitVec.getLsbD_shiftLeft,
      BitVec.getLsbD_or, BitVec.getLsbD_ushiftRight]
    by_cases h1 : k < 32
    · by_cases h2 : k < n
      · simp [h1, h2]
      · have h3 : k - n < 32 := by omega
        simp [h1, h2, h3, hk]
    · have h2 : ¬ k < n := by omega
      by_cases h3 : k - 32 < n
      · have h4 : k - n < 32 := by omega
        have h5 : 32 - n + (k - 32) = k - n := by omega
        simp [h1, h2, h3, h4, h5, hk]
      · have h4 : ¬ k - n < 32 := by omega
        have h5 : k - 32 - n = k - n - 32 := by omega
        have h6 : k - 32 < 32 := by omega
        have h7 : 32 ≤ 32 - n + (k - 32) := by omega
        simp [h1, h2, h3, h4, h5, h6, hk, BitVec.getLsbD_of_ge _ _ h7]

/-- The value is the low half: a stage of the right shifter shifts the whole vector. -/
theorem shiftRightStage_append {n : ℕ} (hn : n < 32) (enable : Bool) (p : DataType × DataType) :
    (shiftRightStage n enable p).2 ++ (shiftRightStage n enable p).1 =
      (p.2 ++ p.1) >>> (if enable then n else 0) := by
  cases enable with
  | false => simp [shiftRightStage]
  | true =>
    apply BitVec.eq_of_getLsbD_eq
    intro k hk
    simp only [shiftRightStage, if_true, BitVec.getLsbD_append, BitVec.getLsbD_shiftLeft,
      BitVec.getLsbD_or, BitVec.getLsbD_ushiftRight]
    by_cases h1 : k < 32
    · by_cases h2 : n + k < 32
      · have h3 : k < 32 - n := by omega
        simp [h1, h2, h3]
      · have h3 : ¬ k < 32 - n := by omega
        have h4 : k - (32 - n) = n + k - 32 := by omega
        have h5 : 32 ≤ n + k := by omega
        simp [h1, h2, h3, h4, BitVec.getLsbD_of_ge _ _ h5]
    · have h2 : ¬ n + k < 32 := by omega
      have h3 : n + (k - 32) = n + k - 32 := by omega
      simp [h1, h2, h3]

/-! ## Five stages -/

/-- The five low bits of the amount are the amounts of the enabled stages. -/
theorem sum_stages (b : DataType) :
    (if b.getLsbD 4 then 16 else 0) + (if b.getLsbD 3 then 8 else 0) +
      (if b.getLsbD 2 then 4 else 0) + (if b.getLsbD 1 then 2 else 0) +
        (if b.getLsbD 0 then 1 else 0) = Isa.amount b := by
  have hbits : ∀ x : BitVec 5, (if x.getLsbD 4 then 16 else 0) + (if x.getLsbD 3 then 8 else 0) +
      (if x.getLsbD 2 then 4 else 0) + (if x.getLsbD 1 then 2 else 0) +
        (if x.getLsbD 0 then 1 else 0) = x.toNat := by decide
  have hlow := hbits (b.setWidth 5)
  simp only [BitVec.getLsbD_setWidth, BitVec.toNat_setWidth] at hlow
  simpa [Isa.amount] using hlow

/-- The high half of a shifted vector. -/
theorem shiftLeft_eq (signs a b : DataType) :
    shiftLeft signs a b = ((a ++ signs) <<< Isa.amount b).extractLsb' 32 32 := by
  have hhigh (p : DataType × DataType) : p.1 = (p.1 ++ p.2).extractLsb' 32 32 :=
    BitVec.extractLsb'_append_eq_left.symm
  rw [← sum_stages]
  simp only [BitVec.shiftLeft_add]
  unfold shiftLeft
  rw [hhigh (shiftLeftStage 1 _ _), shiftLeftStage_append (by decide),
    shiftLeftStage_append (by decide), shiftLeftStage_append (by decide),
    shiftLeftStage_append (by decide), shiftLeftStage_append (by decide)]

/-- The low half of a shifted vector. -/
theorem shiftRight_eq (signs a b : DataType) :
    shiftRight signs a b = ((signs ++ a) >>> Isa.amount b).extractLsb' 0 32 := by
  have hlow (p : DataType × DataType) : p.1 = (p.2 ++ p.1).extractLsb' 0 32 :=
    BitVec.extractLsb'_append_eq_right.symm
  rw [← sum_stages]
  simp only [BitVec.shiftRight_add]
  unfold shiftRight
  rw [hlow (shiftRightStage 1 _ _), shiftRightStage_append (by decide),
    shiftRightStage_append (by decide), shiftRightStage_append (by decide),
    shiftRightStage_append (by decide), shiftRightStage_append (by decide)]

/-! ## Shifts and rotates -/

theorem amount_lt (b : DataType) : Isa.amount b < 32 := Nat.mod_lt _ (by decide)

theorem shiftLeft_logical (a b : DataType) : shiftLeft 0 a b = a <<< Isa.amount b := by
  have hn := amount_lt b
  rw [shiftLeft_eq]
  apply BitVec.eq_of_getLsbD_eq
  intro k hk
  simp only [BitVec.getLsbD_extractLsb', BitVec.getLsbD_shiftLeft, BitVec.getLsbD_append]
  by_cases h : k < Isa.amount b
  · have h1 : 32 + k - Isa.amount b < 32 := by omega
    simp [h, h1]
  · have h1 : ¬ 32 + k - Isa.amount b < 32 := by omega
    have h2 : 32 + k - Isa.amount b - 32 = k - Isa.amount b := by omega
    have h3 : ¬ 32 + k < Isa.amount b := by omega
    have h4 : 32 + k < 64 := by omega
    simp [h, h1, h2, h3, h4, hk]

theorem shiftLeft_rotate (a b : DataType) : shiftLeft a a b = a.rotateLeft (Isa.amount b) := by
  have hn := amount_lt b
  rw [shiftLeft_eq]
  apply BitVec.eq_of_getLsbD_eq
  intro k hk
  rw [BitVec.getLsbD_rotateLeft, Nat.mod_eq_of_lt hn]
  simp only [BitVec.getLsbD_extractLsb', BitVec.getLsbD_shiftLeft, BitVec.getLsbD_append]
  by_cases h : k < Isa.amount b
  · have h1 : 32 + k - Isa.amount b < 32 := by omega
    have h2 : 32 - Isa.amount b + k = 32 + k - Isa.amount b := by omega
    have h3 : ¬ 32 + k < Isa.amount b := by omega
    have h4 : 32 + k < 64 := by omega
    simp [h, h1, h2, h3, h4, hk]
  · have h1 : ¬ 32 + k - Isa.amount b < 32 := by omega
    have h2 : 32 + k - Isa.amount b - 32 = k - Isa.amount b := by omega
    have h3 : ¬ 32 + k < Isa.amount b := by omega
    have h4 : 32 + k < 64 := by omega
    simp [h, h1, h2, h3, h4, hk]

theorem shiftRight_logical (a b : DataType) : shiftRight 0 a b = a >>> Isa.amount b := by
  rw [shiftRight_eq]
  apply BitVec.eq_of_getLsbD_eq
  intro k hk
  simp only [BitVec.getLsbD_extractLsb', BitVec.getLsbD_ushiftRight, BitVec.getLsbD_append]
  by_cases h : Isa.amount b + k < 32
  · simp [h, hk]
  · have h1 : 32 ≤ Isa.amount b + k := by omega
    simp [h, BitVec.getLsbD_of_ge _ _ h1]

theorem shiftRight_arithmetic (a b : DataType) :
    shiftRight (if a.msb then BitVec.allOnes 32 else 0) a b = a.sshiftRight (Isa.amount b) := by
  have hn := amount_lt b
  rw [shiftRight_eq]
  apply BitVec.eq_of_getLsbD_eq
  intro k hk
  rw [BitVec.getLsbD_sshiftRight]
  simp only [BitVec.getLsbD_extractLsb', BitVec.getLsbD_ushiftRight, BitVec.getLsbD_append]
  by_cases h : Isa.amount b + k < 32
  · simp [h, hk]
  · have hones : (BitVec.allOnes 32).getLsbD (Isa.amount b + k - 32) = true := by
      rw [BitVec.getLsbD_allOnes, decide_eq_true (by omega)]
    cases a.msb with
    | false => simp [h]
    | true =>
      rw [if_pos rfl, Nat.zero_add, if_neg h, if_neg h, hones]
      simp [hk]

theorem shiftRight_rotate (a b : DataType) : shiftRight a a b = a.rotateRight (Isa.amount b) := by
  have hn := amount_lt b
  rw [shiftRight_eq]
  apply BitVec.eq_of_getLsbD_eq
  intro k hk
  rw [BitVec.getLsbD_rotateRight, Nat.mod_eq_of_lt hn]
  simp only [BitVec.getLsbD_extractLsb', BitVec.getLsbD_ushiftRight, BitVec.getLsbD_append]
  by_cases h : Isa.amount b + k < 32
  · have h1 : k < 32 - Isa.amount b := by omega
    simp [h, h1, hk]
  · have h1 : ¬ k < 32 - Isa.amount b := by omega
    have h2 : Isa.amount b + k - 32 = k - (32 - Isa.amount b) := by omega
    simp [h, h1, h2, hk]

end ThuasRiscv
