import ThuasRiscv.Core.BitManipulation
import Mathlib.Data.Nat.Count
import Mathlib.Order.Interval.Finset.Nat

/-!
# Bit counts

The counting functions with their counters of range 0 to 31, an assignment out
of the range being an error. No path leaves the range, and the results are the
numbers of ones, of leading zeros and of trailing zeros.
-/

namespace ThuasRiscv

/-! ## The numbers -/

/-- The positions of the ones. -/
def ones (x : DataType) : Finset ℕ := {i ∈ Finset.range 32 | x.getLsbD i = true}

/-- The positions from which on up there are zeros only. -/
def leadingZeros (x : DataType) : Finset ℕ :=
  {i ∈ Finset.range 32 | ∀ j ∈ Finset.range 32, i ≤ j → x.getLsbD j = false}

/-- The positions from which on down there are zeros only. -/
def trailingZeros (x : DataType) : Finset ℕ :=
  {i ∈ Finset.range 32 | ∀ j ∈ Finset.range 32, j ≤ i → x.getLsbD j = false}

/-! ## Counters with a range -/

/-- An assignment to a variable of `integer range 0 to 31`. -/
def inRange (n : ℕ) : Option ℕ := if n ≤ 31 then some n else none

namespace Ranged

variable (input : DataType)

/-- The loop goes from the highest bit down. -/
def countOnes : Option DataType :=
  if input = BitVec.allOnes 32 then some 32
  else
    ((List.range 32).reverse.foldlM
      (fun count i => if input.getLsbD i then inRange (count + 1) else some count) 0).map
      (BitVec.ofNat 32)

def leadingStep (n : ℕ) (p : ℕ × DataType) : Option (ℕ × DataType) :=
  if p.2 >>> (32 - n) = 0 then (inRange (p.1 + n)).map fun m => (m, p.2 <<< n) else some p

def countLeadingZeros : Option DataType :=
  if input = 0 then some 32
  else do
    let p ← leadingStep 16 (0, input)
    let p ← leadingStep 8 p
    let p ← leadingStep 4 p
    let p ← leadingStep 2 p
    (if p.2.getLsbD 31 then some p.1 else inRange (p.1 + 1)).map (BitVec.ofNat 32)

def trailingStep (n : ℕ) (p : ℕ × DataType) : Option (ℕ × DataType) :=
  if p.2 <<< (32 - n) = 0 then (inRange (p.1 + n)).map fun m => (m, p.2 >>> n) else some p

def countTrailingZeros : Option DataType :=
  if input = 0 then some 32
  else do
    let p ← trailingStep 16 (0, input)
    let p ← trailingStep 8 p
    let p ← trailingStep 4 p
    let p ← trailingStep 2 p
    (if p.2.getLsbD 0 then some p.1 else inRange (p.1 + 1)).map (BitVec.ofNat 32)

/-! ## No path leaves the range -/

variable {input}

theorem foldlM_countOnes (l : List ℕ) {count : ℕ}
    (h : count + l.countP (input.getLsbD ·) ≤ 31) :
    l.foldlM (fun count i => if input.getLsbD i then inRange (count + 1) else some count) count =
      some (count + l.countP (input.getLsbD ·)) := by
  induction l generalizing count with
  | nil => rfl
  | cons i l ih =>
    rw [List.countP_cons] at h ⊢
    rw [List.foldlM_cons]
    cases hi : input.getLsbD i with
    | false =>
      rw [hi, if_neg Bool.false_ne_true, Nat.add_zero] at h
      simpa using ih h
    | true =>
      rw [hi, if_pos rfl] at h
      have hrange : inRange (count + 1) = some (count + 1) := if_pos (by omega)
      rw [if_pos rfl, hrange, if_pos rfl, Nat.add_comm (l.countP _) 1, ← Nat.add_assoc]
      exact ih (by omega)

/-- A word with a zero has at most 31 ones. -/
theorem countP_le (h : input ≠ BitVec.allOnes 32) :
    (List.range 32).countP (input.getLsbD ·) ≤ 31 := by
  have hle := List.countP_le_length (p := (input.getLsbD ·)) (l := List.range 32)
  rw [List.length_range] at hle
  rcases Nat.eq_or_lt_of_le hle with heq | hlt
  · have hall := List.countP_eq_length.mp (heq.trans List.length_range.symm)
    refine absurd (BitVec.eq_of_getLsbD_eq fun i hi => ?_) h
    rw [hall i (List.mem_range.mpr hi), BitVec.getLsbD_allOnes, decide_eq_true hi]
  · omega

theorem foldl_countOnes (l : List ℕ) (count : ℕ) :
    l.foldl (fun count i => if input.getLsbD i then count + 1 else count) count =
      count + l.countP (input.getLsbD ·) := by
  induction l generalizing count with
  | nil => rfl
  | cons i l ih =>
    rw [List.foldl_cons, ih, List.countP_cons]
    split_ifs <;> omega

theorem countOnes_eq (x : DataType) : countOnes x = some (ThuasRiscv.countOnes x) := by
  rw [countOnes, ThuasRiscv.countOnes]
  split_ifs with h
  · rfl
  · have hle := countP_le h
    rw [foldlM_countOnes, foldl_countOnes, List.countP_reverse]
    · rfl
    · rw [List.countP_reverse]
      omega

/-- The last step counts at most one zero. -/
theorem inRange_last {n : ℕ} (b : Bool) (h : n ≤ 30) :
    (if b then some n else inRange (n + 1)) = some (if b then n else n + 1) := by
  cases b with
  | true => rfl
  | false => exact if_pos (Nat.succ_le_succ h)

/-- A step in either direction adds its width or nothing. -/
theorem step_eq {c : Prop} [Decidable c] {n m : ℕ} {p : ℕ × DataType} (y : DataType)
    (h : p.1 ≤ m) (hm : m + n ≤ 31) :
    (if c then (inRange (p.1 + n)).map fun k => (k, y) else some p) =
        some (if c then (p.1 + n, y) else p) ∧
      (if c then (p.1 + n, y) else p).1 ≤ m + n := by
  rw [inRange, if_pos (show p.1 + n ≤ 31 by omega)]
  split_ifs
  · exact ⟨rfl, Nat.add_le_add_right h n⟩
  · exact ⟨rfl, h.trans (Nat.le_add_right m n)⟩

theorem leadingStep_eq {n m : ℕ} {p : ℕ × DataType} (h : p.1 ≤ m) (hm : m + n ≤ 31) :
    leadingStep n p = some (ThuasRiscv.leadingStep n p) ∧
      (ThuasRiscv.leadingStep n p).1 ≤ m + n :=
  step_eq (p.2 <<< n) h hm

theorem countLeadingZeros_eq (x : DataType) :
    countLeadingZeros x = some (ThuasRiscv.countLeadingZeros x) := by
  rw [countLeadingZeros, ThuasRiscv.countLeadingZeros]
  split_ifs with h
  · rfl
  · obtain ⟨h16, hle16⟩ := leadingStep_eq (n := 16) (m := 0) (p := (0, x)) le_rfl (by decide)
    obtain ⟨h8, hle8⟩ := leadingStep_eq (n := 8) hle16 (by decide)
    obtain ⟨h4, hle4⟩ := leadingStep_eq (n := 4) hle8 (by decide)
    obtain ⟨h2, hle2⟩ := leadingStep_eq (n := 2) hle4 (by decide)
    simp only [h16, h8, h4, h2, Option.bind_eq_bind, Option.bind_some]
    rw [inRange_last _ hle2]
    rfl

theorem trailingStep_eq {n m : ℕ} {p : ℕ × DataType} (h : p.1 ≤ m) (hm : m + n ≤ 31) :
    trailingStep n p = some (ThuasRiscv.trailingStep n p) ∧
      (ThuasRiscv.trailingStep n p).1 ≤ m + n :=
  step_eq (p.2 >>> n) h hm

theorem countTrailingZeros_eq (x : DataType) :
    countTrailingZeros x = some (ThuasRiscv.countTrailingZeros x) := by
  rw [countTrailingZeros, ThuasRiscv.countTrailingZeros]
  split_ifs with h
  · rfl
  · obtain ⟨h16, hle16⟩ := trailingStep_eq (n := 16) (m := 0) (p := (0, x)) le_rfl (by decide)
    obtain ⟨h8, hle8⟩ := trailingStep_eq (n := 8) hle16 (by decide)
    obtain ⟨h4, hle4⟩ := trailingStep_eq (n := 4) hle8 (by decide)
    obtain ⟨h2, hle2⟩ := trailingStep_eq (n := 2) hle4 (by decide)
    simp only [h16, h8, h4, h2, Option.bind_eq_bind, Option.bind_some]
    rw [inRange_last _ hle2]
    rfl

end Ranged

/-! ## The results are the numbers -/

theorem countP_range_eq_card (p : ℕ → Bool) (n : ℕ) :
    (List.range n).countP p = {i ∈ Finset.range n | p i = true}.card := by
  rw [← Nat.count_eq_card_filter_range]
  induction n with
  | zero => rfl
  | succ n ih =>
    rw [List.range_succ, List.countP_append, ih, Nat.count_succ, List.countP_singleton]

theorem toNat_countOnes (x : DataType) : (countOnes x).toNat = (ones x).card := by
  have hcount : (ones x).card = (List.range 32).countP (x.getLsbD ·) :=
    (countP_range_eq_card _ 32).symm
  rw [countOnes]
  split_ifs with h
  · rw [hcount, h]
    rfl
  · have hle := Ranged.countP_le h
    rw [Ranged.foldl_countOnes, Nat.zero_add, hcount, BitVec.toNat_ofNat]
    exact Nat.mod_eq_of_lt (by omega)

theorem toNat_countLeadingZeros (x : DataType) :
    (countLeadingZeros x).toNat = (leadingZeros x).card := by
  rw [countLeadingZeros_eq]
  have hle : x.clz.toNat ≤ 32 := BitVec.le_def.mp BitVec.clz_le
  have hzeros : leadingZeros x = Finset.Ico (32 - x.clz.toNat) 32 := by
    ext i
    simp only [leadingZeros, Finset.mem_filter, Finset.mem_range, Finset.mem_Ico]
    constructor
    · rintro ⟨hi, hzero⟩
      refine ⟨?_, hi⟩
      by_contra hlt
      have hne : x ≠ 0#32 := by
        rintro rfl
        exact hlt (by simp)
      have hone := BitVec.getLsbD_true_clz_of_ne_zero (by decide) hne
      rw [hzero _ (by omega) (by omega)] at hone
      cases hone
    · rintro ⟨hge, hi⟩
      refine ⟨hi, fun j _ hij => ?_⟩
      have hlt := BitVec.toNat_lt_two_pow_sub_clz (x := x)
      rw [BitVec.getLsbD]
      exact Nat.testBit_lt_two_pow (hlt.trans_le (Nat.pow_le_pow_right (by decide) (by omega)))
  rw [hzeros, Nat.card_Ico]
  omega

theorem toNat_countTrailingZeros (x : DataType) :
    (countTrailingZeros x).toNat = (trailingZeros x).card := by
  rw [countTrailingZeros_eq]
  have hle : x.ctz.toNat ≤ 32 := by
    rw [BitVec.ctz_eq_reverse_clz]
    exact BitVec.le_def.mp BitVec.clz_le
  have hzeros : trailingZeros x = Finset.range x.ctz.toNat := by
    ext i
    simp only [trailingZeros, Finset.mem_filter, Finset.mem_range]
    constructor
    · rintro ⟨hi, hzero⟩
      by_contra hge
      have hne : x ≠ 0#32 := by
        rintro rfl
        have hall : (0#32).ctz = 32#32 := by
          rw [← countTrailingZeros_eq]
          exact if_pos rfl
        rw [hall] at hge
        exact hge hi
      have hone := BitVec.getLsbD_true_ctz_of_ne_zero hne
      rw [hzero _ (by omega) (by omega)] at hone
      cases hone
    · intro hi
      exact ⟨hi.trans_le hle, fun j _ hji => BitVec.getLsbD_false_of_lt_ctz (hji.trans_lt hi)⟩
  rw [hzeros, Finset.card_range]

/-- The counting functions return the numbers, and no counter leaves its range. -/
theorem bit_counts (x : DataType) :
    Ranged.countOnes x = some (BitVec.ofNat 32 (ones x).card) ∧
    Ranged.countLeadingZeros x = some (BitVec.ofNat 32 (leadingZeros x).card) ∧
    Ranged.countTrailingZeros x = some (BitVec.ofNat 32 (trailingZeros x).card) := by
  refine ⟨?_, ?_, ?_⟩
  · rw [Ranged.countOnes_eq, ← toNat_countOnes, BitVec.ofNat_toNat, BitVec.setWidth_eq]
  · rw [Ranged.countLeadingZeros_eq, ← toNat_countLeadingZeros, BitVec.ofNat_toNat,
      BitVec.setWidth_eq]
  · rw [Ranged.countTrailingZeros_eq, ← toNat_countTrailingZeros, BitVec.ofNat_toNat,
      BitVec.setWidth_eq]

example : (leadingZeros 0).card = 32 ∧ (trailingZeros 0).card = 32 := by decide

end ThuasRiscv
