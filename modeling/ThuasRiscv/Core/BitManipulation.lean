import ThuasRiscv.Core.Alu
import ThuasRiscv.Isa.Semantics

/-!
# Comparison and bit manipulation in the ALU

The operations that the ALU computes in its own way, each equal to the operation
of the instruction set: the comparison on 33 bits, the counts by halving steps
and the operations on bytes.
-/

namespace ThuasRiscv

/-! ## Comparison -/

/-- An operand that is extended with its sign. -/
theorem toInt_cons_msb (x : DataType) : (BitVec.cons x.msb x).toInt = x.toInt := by
  have hcons : BitVec.cons x.msb x = x.signExtend 33 := by
    apply BitVec.eq_of_getLsbD_eq
    intro k hk
    rw [BitVec.getLsbD_cons, BitVec.getLsbD_signExtend, decide_eq_true hk]
    by_cases h : k = 32
    · simp [h]
    · have h' : k < 32 := by omega
      simp [h, h']
  rw [hcons, BitVec.toInt_signExtend_of_le (by decide)]

/-- An operand that is extended with a zero. -/
theorem toInt_cons_false (x : DataType) : (BitVec.cons false x).toInt = x.toNat := by
  rw [BitVec.toInt_eq_toNat_of_msb (by simp)]
  simp

theorem cmplt_signed (a b : DataType) : cmplt false a b = decide (a.toInt < b.toInt) := by
  rw [cmplt, BitVec.slt_eq_decide, Bool.not_false, Bool.and_true, Bool.and_true, toInt_cons_msb,
    toInt_cons_msb]

theorem cmplt_unsigned (a b : DataType) : cmplt true a b = decide (a.toNat < b.toNat) := by
  rw [cmplt, BitVec.slt_eq_decide, Bool.not_true, Bool.and_false, Bool.and_false,
    toInt_cons_false, toInt_cons_false]
  exact decide_eq_decide.mpr Int.ofNat_lt

theorem bitsft_eq (b : DataType) : bitsft b = Isa.bit (Isa.amount b) := by
  have h : (b.extractLsb' 0 5).toNat = Isa.amount b := by
    simp [Isa.amount]
  rw [bitsft, h, Isa.bit, BitVec.twoPow_eq]

/-! ## Counts -/

theorem countOnes_eq (a : DataType) : countOnes a = a.cpop := by
  have hfold (n : ℕ) : (List.range n).foldl
      (fun count i => if a.getLsbD i then count + 1 else count) 0 = a.cpopNatRec n 0 := by
    induction n with
    | zero => rfl
    | succ n ih =>
      rw [List.range_succ, List.foldl_append, ih, BitVec.cpopNatRec_succ,
        BitVec.cpopNatRec_eq (0 + _), Nat.zero_add]
      cases h : a.getLsbD n <;> simp [h]
  unfold countOnes
  split_ifs with h
  · rw [h, BitVec.cpop_allOnes]
    rfl
  · rw [hfold]
    rfl

/-- A halving step keeps the scaled value and halves the zone of the leading one. -/
theorem leadingStep_spec {n : ℕ} (hn : 2 * n ≤ 32) {x : DataType} {p : ℕ × DataType}
    (hp : p.2.toNat = x.toNat * 2 ^ p.1) (hlow : 2 ^ (32 - 2 * n) ≤ p.2.toNat) :
    (leadingStep n p).2.toNat = x.toNat * 2 ^ (leadingStep n p).1 ∧
      2 ^ (32 - n) ≤ (leadingStep n p).2.toNat := by
  have hlt := p.2.isLt
  have hsplit : 2 ^ 32 = 2 ^ (32 - n) * 2 ^ n := by rw [← Nat.pow_add]; congr 1; omega
  have hsplit' : 2 ^ (32 - n) = 2 ^ (32 - 2 * n) * 2 ^ n := by
    rw [← Nat.pow_add]
    congr 1
    omega
  have hzero : p.2 >>> (32 - n) = 0 ↔ p.2.toNat < 2 ^ (32 - n) := by
    rw [← BitVec.toNat_inj, BitVec.toNat_ushiftRight, Nat.shiftRight_eq_div_pow]
    exact Nat.div_eq_zero_iff_lt (Nat.two_pow_pos _)
  unfold leadingStep
  split_ifs with h
  · rw [hzero] at h
    have hmul : p.2.toNat * 2 ^ n < 2 ^ 32 := by
      rw [hsplit]
      exact Nat.mul_lt_mul_of_pos_right h (Nat.two_pow_pos _)
    have hshift : (p.2 <<< n).toNat = p.2.toNat * 2 ^ n := by
      rw [BitVec.toNat_shiftLeft, Nat.shiftLeft_eq, Nat.mod_eq_of_lt hmul]
    refine ⟨?_, ?_⟩
    · rw [hshift, hp, Nat.mul_assoc, ← Nat.pow_add]
    · rw [hshift, hsplit']
      exact Nat.mul_le_mul_right _ hlow
  · rw [hzero, Nat.not_lt] at h
    exact ⟨hp, h⟩

/-- The number of leading zeros is the only scale that moves the leading one to the top. -/
theorem clz_unique {x : DataType} {c : ℕ} (hlow : 2 ^ 31 ≤ x.toNat * 2 ^ c)
    (hhigh : x.toNat * 2 ^ c < 2 ^ 32) : x.clz.toNat = c := by
  have hx : x ≠ 0#32 := by
    rintro rfl
    simp at hlow
  have hclz : x.clz.toNat < 32 := by simpa [BitVec.lt_def] using BitVec.clz_lt_iff_ne_zero.mpr hx
  have hge : 2 ^ 31 ≤ x.toNat * 2 ^ x.clz.toNat := by
    have h := BitVec.two_pow_sub_clz_le_toNat_of_ne_zero (by decide) hx
    calc 2 ^ 31 = 2 ^ (32 - 1 - x.clz.toNat) * 2 ^ x.clz.toNat := by
          rw [← Nat.pow_add]; congr 1; omega
      _ ≤ x.toNat * 2 ^ x.clz.toNat := Nat.mul_le_mul_right _ h
  have hlt : x.toNat * 2 ^ x.clz.toNat < 2 ^ 32 := by
    have h := BitVec.toNat_lt_two_pow_sub_clz (x := x)
    calc x.toNat * 2 ^ x.clz.toNat < 2 ^ (32 - x.clz.toNat) * 2 ^ x.clz.toNat :=
          Nat.mul_lt_mul_of_pos_right h (Nat.two_pow_pos _)
      _ = 2 ^ 32 := by rw [← Nat.pow_add]; congr 1; omega
  have hscale {d e : ℕ} (hde : d < e) (hd : 2 ^ 31 ≤ x.toNat * 2 ^ d) :
      2 ^ 32 ≤ x.toNat * 2 ^ e := by
    calc 2 ^ 32 = 2 ^ 31 * 2 := rfl
      _ ≤ x.toNat * 2 ^ d * 2 := Nat.mul_le_mul_right _ hd
      _ = x.toNat * 2 ^ (d + 1) := by rw [Nat.mul_assoc, Nat.pow_succ]
      _ ≤ x.toNat * 2 ^ e := Nat.mul_le_mul_left _ (Nat.pow_le_pow_right (by decide) hde)
  rcases Nat.lt_trichotomy x.clz.toNat c with h | h | h
  · exact absurd (hscale h hge) (Nat.not_le.mpr hhigh)
  · exact h
  · exact absurd (hscale h hlow) (Nat.not_le.mpr hlt)

theorem countLeadingZeros_eq (a : DataType) : countLeadingZeros a = a.clz := by
  unfold countLeadingZeros
  split_ifs with h
  · rw [h]
    decide
  · have hpos : 0 < a.toNat := Nat.pos_of_ne_zero fun h0 => h (BitVec.toNat_inj.mp h0)
    have h16 := leadingStep_spec (n := 16) (by decide) (x := a) (p := (0, a)) (by simp) hpos
    have h8 := leadingStep_spec (n := 8) (by decide) h16.1 h16.2
    have h4 := leadingStep_spec (n := 4) (by decide) h8.1 h8.2
    have h2 := leadingStep_spec (n := 2) (by decide) h4.1 h4.2
    generalize leadingStep 2 (leadingStep 4 (leadingStep 8 (leadingStep 16 (0, a)))) = p at h2
    obtain ⟨hp, hlow⟩ := h2
    have hlt := p.2.isLt
    have htop : p.2.getLsbD 31 = decide (2 ^ 31 ≤ p.2.toNat) := by
      rw [← BitVec.msb_eq_getLsbD_last, BitVec.msb_eq_decide]
    have hnext : a.toNat * 2 ^ (p.1 + 1) = p.2.toNat * 2 := by
      rw [Nat.pow_succ, ← Nat.mul_assoc, hp]
    have hc : a.clz.toNat = if p.2.getLsbD 31 then p.1 else p.1 + 1 := by
      rw [htop]
      by_cases h31 : 2 ^ 31 ≤ p.2.toNat
      · rw [if_pos (decide_eq_true h31)]
        exact clz_unique (hp ▸ h31) (hp ▸ hlt)
      · rw [if_neg (by simpa using h31)]
        apply clz_unique <;> rw [hnext] <;> omega
    simp only [← hc]
    exact (BitVec.ofNat_toNat 32 _).trans (BitVec.setWidth_eq _)

/-- The trailing zeros are counted as the leading ones of the reversed word are. -/
theorem trailingStep_eq (n : ℕ) (p : ℕ × DataType) :
    trailingStep n p =
      ((leadingStep n (p.1, p.2.reverse)).1, (leadingStep n (p.1, p.2.reverse)).2.reverse) := by
  have hright (x : DataType) (m : ℕ) : x.reverse >>> m = (x <<< m).reverse := by
    apply BitVec.eq_of_getLsbD_eq
    intro k hk
    simp only [BitVec.getLsbD_ushiftRight, BitVec.getLsbD_reverse, BitVec.getMsbD_eq_getLsbD,
      BitVec.getLsbD_shiftLeft]
    grind
  have hleft (x : DataType) (m : ℕ) : (x.reverse <<< m).reverse = x >>> m := by
    rw [← hright, BitVec.reverse_reverse_eq]
  have hzero : (p.2 <<< (32 - n)).reverse = 0 ↔ p.2 <<< (32 - n) = 0 := BitVec.reverse_eq_zero_iff
  unfold trailingStep leadingStep
  simp only [hright, hzero]
  split_ifs with h
  · rw [hleft]
  · rw [BitVec.reverse_reverse_eq]

theorem countTrailingZeros_eq (a : DataType) : countTrailingZeros a = a.ctz := by
  have hzero : a.reverse = 0 ↔ a = 0 := BitVec.reverse_eq_zero_iff
  rw [BitVec.ctz_eq_reverse_clz, ← countLeadingZeros_eq]
  unfold countTrailingZeros countLeadingZeros
  simp only [trailingStep_eq, hzero, BitVec.reverse_reverse_eq, Prod.mk.eta,
    BitVec.getLsbD_reverse]
  rfl

/-! ## Bytes -/

/-- The bit of a word that is put together from four bytes. -/
theorem getLsbD_bytes (x₃ x₂ x₁ x₀ : BitVec 8) {k : ℕ} (hk : k < 32) :
    (x₃ ++ x₂ ++ x₁ ++ x₀ : BitVec 32).getLsbD k =
      (if k / 8 = 0 then x₀ else if k / 8 = 1 then x₁ else if k / 8 = 2 then x₂ else x₃).getLsbD
        (k % 8) := by
  simp only [BitVec.getLsbD_append]
  grind

theorem getLsbD_byteAt (a : DataType) (i : ℕ) {j : ℕ} (hj : j < 8) :
    (byteAt a i).getLsbD j = a.getLsbD (8 * i + j) := by
  rw [byteAt, BitVec.getLsbD_extractLsb', decide_eq_true hj, Bool.true_and]

theorem rev8_eq (a : DataType) : rev8 a = Isa.reverseBytes a := by
  apply BitVec.eq_of_getLsbD_eq
  intro k hk
  have hmod : k % 8 < 8 := Nat.mod_lt _ (by decide)
  rw [rev8, getLsbD_bytes _ _ _ _ hk, Isa.reverseBytes, Isa.getLsbD_ofBits hk]
  split_ifs with h0 h1 h2 <;> rw [getLsbD_byteAt _ _ hmod] <;> congr 1 <;> omega

theorem brev8_eq (a : DataType) : brev8 a = Isa.reverseBitsInBytes a := by
  apply BitVec.eq_of_getLsbD_eq
  intro k hk
  have hbit (i : ℕ) :
      (bitReverse (byteAt a i)).getLsbD (k % 8) = a.getLsbD (8 * i + (7 - k % 8)) := by
    rw [bitReverse, BitVec.getLsbD_reverse, BitVec.getMsbD_eq_getLsbD,
      getLsbD_byteAt _ _ (by omega)]
    simp; omega
  rw [brev8, getLsbD_bytes _ _ _ _ hk, Isa.reverseBitsInBytes, Isa.getLsbD_ofBits hk]
  split_ifs with h0 h1 h2 <;> rw [hbit] <;> congr 1 <;> omega

theorem orByte_eq (x : BitVec 8) {j : ℕ} (hj : j < 8) :
    (orByte x).getLsbD j = (List.range 8).any fun i => x.getLsbD i := by
  unfold orByte
  split_ifs with h
  · simp [h]
  · have hset : ∃ i < 8, x.getLsbD i = true := by
      by_contra hnone
      push Not at hnone
      apply h
      apply BitVec.eq_of_getLsbD_eq
      intro i hi
      simpa using hnone i hi
    obtain ⟨i, hi, hxi⟩ := hset
    rw [List.any_eq_true.mpr ⟨i, List.mem_range.mpr hi, hxi⟩]
    exact BitVec.getLsbD_allOnes.trans (decide_eq_true hj)

theorem orcb_eq (a : DataType) : orcb a = Isa.orBytes a := by
  apply BitVec.eq_of_getLsbD_eq
  intro k hk
  have hbyte (i : ℕ) : (orByte (byteAt a i)).getLsbD (k % 8) =
      (List.range 8).any fun j => a.getLsbD (8 * i + j) := by
    rw [orByte_eq _ (Nat.mod_lt _ (by decide)), Bool.eq_iff_iff, List.any_eq_true,
      List.any_eq_true]
    have hbit {j : ℕ} (hj : j ∈ List.range 8) :
        (byteAt a i).getLsbD j = a.getLsbD (8 * i + j) := getLsbD_byteAt a i (List.mem_range.mp hj)
    constructor
    · rintro ⟨j, hj, h⟩
      exact ⟨j, hj, hbit hj ▸ h⟩
    · rintro ⟨j, hj, h⟩
      exact ⟨j, hj, (hbit hj).trans h⟩
  have hdiv : k / 8 < 4 := by omega
  rw [orcb, getLsbD_bytes _ _ _ _ hk, Isa.orBytes, Isa.getLsbD_ofBits hk]
  split_ifs with h0 h1 h2 <;> rw [hbyte]
  · rw [h0]
  · rw [h1]
  · rw [h2]
  · rw [show k / 8 = 3 by omega]

theorem zipBits_eq (a : DataType) : zipBits a = Isa.interleave a := rfl

theorem unzipBits_eq (a : DataType) : unzipBits a = Isa.deinterleave a := rfl

end ThuasRiscv
