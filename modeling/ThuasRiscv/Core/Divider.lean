import ThuasRiscv.Core.MulDiv
import ThuasRiscv.Core.Program
import ThuasRiscv.Isa.Semantics
import ThuasRiscv.LongDivision

/-!
# The two dividers

Both dividers are instances of long division with a shared buffer. The radix-4
unit computes what the instruction set says; the radix-2 unit drops the top bit of
the remainder when it divides by zero.
-/

namespace ThuasRiscv

open Isa (Mnemonic)
open LongDivision (Retired digits window)

theorem toNat_append_eq {n k : ℕ} (x : BitVec n) (y : BitVec k) :
    (x ++ y).toNat = x.toNat * 2 ^ k + y.toNat := by
  rw [BitVec.toNat_append, ← Nat.shiftLeft_add_eq_or_of_lt y.isLt, Nat.shiftLeft_eq]

namespace MulDiv

/-! ## One step -/

section Steps
variable (m : MulDiv)

theorem toNat_buf1 : m.buf1.toNat = m.buf.toNat / 2 ^ 32 := by
  rw [buf1, BitVec.extractLsb'_toNat, Nat.shiftRight_eq_div_pow, Nat.mod_eq_of_lt]
  have h := m.buf.isLt
  omega

theorem toNat_buf2 : m.buf2.toNat = m.buf.toNat % 2 ^ 32 := by
  rw [buf2, BitVec.extractLsb'_toNat, Nat.shiftRight_zero]

/-- The remainder with the next bits of the buffer, as the units see it. -/
theorem window_eq {j : ℕ} (hj : j ≤ 32) :
    window 32 j m.buf1.toNat m.buf2.toNat = m.buf.toNat / 2 ^ (32 - j) := by
  have hsplit : m.buf.toNat = 2 ^ (32 - j) * (m.buf1.toNat * 2 ^ j) + m.buf2.toNat := by
    calc m.buf.toNat = 2 ^ 32 * m.buf1.toNat + m.buf2.toNat := by
          rw [toNat_buf1, toNat_buf2, Nat.div_add_mod]
      _ = 2 ^ (32 - j) * 2 ^ j * m.buf1.toNat + m.buf2.toNat := by
          rw [← Nat.pow_add, Nat.sub_add_cancel hj]
      _ = _ := by rw [Nat.mul_assoc, Nat.mul_comm (2 ^ j)]
  rw [window, hsplit, Nat.mul_add_div (Nat.two_pow_pos _)]

/-- A step of the radix-2 unit with a remainder of 31 bits. -/
theorem reduce2_spec (hr : m.buf1.toNat < 2 ^ 31)
    (hd : m.divisor.toNat ≠ 0 → m.buf1.toNat < m.divisor.toNat) :
    (m.reduce2.extractLsb' 0 32).toNat =
        m.buf2.toNat * 2 ^ 1 % 2 ^ 32 +
          digits m.divisor.toNat 1 (window 32 1 m.buf1.toNat m.buf2.toNat) ∧
      (m.reduce2.extractLsb' 32 32).toNat =
        if m.divisor.toNat = 0 then window 32 1 m.buf1.toNat m.buf2.toNat % 2 ^ 31
        else window 32 1 m.buf1.toNat m.buf2.toNat % m.divisor.toNat := by
  have hwin := window_eq m (j := 1) (by decide)
  have hlt := LongDivision.window_lt (n := 32) (j := 1) (r := m.buf1.toNat) (by decide)
    m.buf2.isLt
  have hx := m.buf.isLt
  have hdlt := m.divisor.isLt
  have htop : (m.buf.extractLsb' 31 32).toNat = window 32 1 m.buf1.toNat m.buf2.toNat := by
    rw [hwin, BitVec.extractLsb'_toNat, Nat.shiftRight_eq_div_pow, Nat.mod_eq_of_lt]
    omega
  have hb1 := m.toNat_buf1
  have hb2 := m.toNat_buf2
  set t := window 32 1 m.buf1.toNat m.buf2.toNat with ht
  unfold reduce2
  by_cases hle : m.divisor.toNat ≤ t
  · rw [if_pos (BitVec.le_def.mpr (by rw [htop]; exact hle)), BitVec.extractLsb'_append_eq_left,
      BitVec.extractLsb'_append_eq_right]
    have hdigit : digits m.divisor.toNat 1 t = 1 := by
      unfold digits
      split_ifs with h0
      · rfl
      · exact Nat.div_eq_of_lt_le (by omega) (by have := hd h0; omega)
    have hsub : (m.buf.extractLsb' 31 31 - m.divisor.extractLsb' 0 31).toNat =
        (t - m.divisor.toNat) % 2 ^ 31 := by
      rw [BitVec.toNat_sub, BitVec.extractLsb'_toNat, BitVec.extractLsb'_toNat,
        Nat.shiftRight_zero, Nat.shiftRight_eq_div_pow]
      omega
    constructor
    · rw [toNat_append_eq, BitVec.extractLsb'_toNat, Nat.shiftRight_zero, hdigit]
      have hone : (1#1).toNat = 1 := rfl
      omega
    · rw [toNat_append_eq, hsub, BitVec.toNat_zero, Nat.zero_mul, Nat.zero_add]
      split_ifs with h0
      · rw [h0, Nat.sub_zero]
      · have := hd h0
        have hmod : t % m.divisor.toNat = t - m.divisor.toNat := by
          rw [Nat.mod_eq_sub_mod hle, Nat.mod_eq_of_lt (by omega)]
        rw [hmod, Nat.mod_eq_of_lt (by omega)]
  · rw [if_neg (fun h => hle (by rw [← htop]; exact BitVec.le_def.mp h))]
    have h0 : m.divisor.toNat ≠ 0 := by omega
    have hdigit : digits m.divisor.toNat 1 t = 0 := by
      rw [digits, if_neg h0, Nat.div_eq_of_lt (by omega)]
    have hshift : (m.buf.extractLsb' 0 63 ++ 0#1).toNat = m.buf.toNat % 2 ^ 63 * 2 := by
      rw [toNat_append_eq, BitVec.extractLsb'_toNat, Nat.shiftRight_zero]
      rfl
    constructor
    · rw [hdigit, BitVec.extractLsb'_toNat, Nat.shiftRight_zero, hshift]
      omega
    · rw [if_neg h0, BitVec.extractLsb'_toNat, Nat.shiftRight_eq_div_pow, hshift,
        Nat.mod_eq_of_lt (show t < m.divisor.toNat by omega)]
      omega

/-- The subtraction of a multiple of the divisor in the radix-4 unit. -/
theorem subtract4 {d c t : ℕ} {dc : BitVec 34} (k : BitVec 2) (hk : k.toNat = c)
    (ht : t = m.buf.toNat / 2 ^ 30) (hdc : dc.toNat = c * d) (hle : c * d ≤ t)
    (hlt : t < c * d + 2 ^ 32) :
    let buf := (m.buf.extractLsb' 30 32 - dc.setWidth 32) ++ (m.buf2.extractLsb' 0 30 ++ k)
    (buf.extractLsb' 0 32).toNat = m.buf2.toNat * 2 ^ 2 % 2 ^ 32 + c ∧
      (buf.extractLsb' 32 32).toNat = t - c * d := by
  intro buf
  have hb2 := m.buf2.isLt
  constructor
  · rw [BitVec.extractLsb'_append_eq_right, toNat_append_eq, BitVec.extractLsb'_toNat,
      Nat.shiftRight_zero, hk]
    omega
  · rw [BitVec.extractLsb'_append_eq_left, BitVec.toNat_sub, BitVec.toNat_setWidth, hdc,
      BitVec.extractLsb'_toNat, Nat.shiftRight_eq_div_pow, ← ht]
    omega

theorem reduce4_spec {d : ℕ} (hd1 : m.divisor1.toNat = d) (hd2 : m.divisor2.toNat = 2 * d)
    (hd3 : m.divisor3.toNat = 3 * d) (hdlt : d < 2 ^ 32) (hz : d = 0 → m.buf1.toNat < 2 ^ 30)
    (hd : d ≠ 0 → m.buf1.toNat < d) :
    (m.reduce4.extractLsb' 0 32).toNat =
        m.buf2.toNat * 2 ^ 2 % 2 ^ 32 + digits d 2 (window 32 2 m.buf1.toNat m.buf2.toNat) ∧
      (m.reduce4.extractLsb' 32 32).toNat = window 32 2 m.buf1.toNat m.buf2.toNat % d := by
  have hwin := window_eq m (j := 2) (by decide)
  have hlt := LongDivision.window_lt (n := 32) (j := 2) (r := m.buf1.toNat) (by decide)
    m.buf2.isLt
  have hx := m.buf.isLt
  have htop : (m.buf.extractLsb' 30 34).toNat = window 32 2 m.buf1.toNat m.buf2.toNat := by
    rw [hwin, BitVec.extractLsb'_toNat, Nat.shiftRight_eq_div_pow, Nat.mod_eq_of_lt]
    omega
  set t := window 32 2 m.buf1.toNat m.buf2.toNat with ht
  have hcmp (dc : BitVec 34) : dc ≤ m.buf.extractLsb' 30 34 ↔ dc.toNat ≤ t := by
    rw [BitVec.le_def, htop]
  -- The digit that the comparisons find is the quotient.
  have hquot {c : ℕ} (h0 : d ≠ 0) (hle : c * d ≤ t) (hlt' : t < (c + 1) * d) :
      digits d 2 t = c ∧ t % d = t - c * d := by
    have hdiv : t / d = c := Nat.div_eq_of_lt_le hle hlt'
    refine ⟨by rw [digits, if_neg h0, hdiv], ?_⟩
    rw [Nat.mod_eq_sub_mul_div, hdiv, Nat.mul_comm]
  have hfit (h0 : d ≠ 0) : t < 4 * d := by have := hd h0; omega
  unfold reduce4
  simp only [hcmp, hd1, hd2, hd3]
  by_cases h3 : 3 * d ≤ t
  · rw [if_pos h3]
    have hsub := m.subtract4 (c := 3) 0b11#2 rfl hwin hd3 h3 (by
      by_cases h0 : d = 0
      · have := hz h0; omega
      · have := hfit h0; omega)
    rw [hsub.1, hsub.2]
    by_cases h0 : d = 0
    · rw [h0]
      simp [digits]
    · obtain ⟨hq, hm⟩ := hquot h0 h3 (hfit h0)
      rw [hq, hm]
      exact ⟨rfl, rfl⟩
  have h0 : d ≠ 0 := by omega
  rw [if_neg h3]
  by_cases h2 : 2 * d ≤ t
  · obtain ⟨hq, hm⟩ := hquot h0 h2 (by omega)
    have hsub := m.subtract4 (c := 2) 0b10#2 rfl hwin hd2 h2 (by omega)
    rw [if_pos h2, hsub.1, hsub.2, hq, hm]
    exact ⟨rfl, rfl⟩
  rw [if_neg h2]
  by_cases h1 : d ≤ t
  · obtain ⟨hq, hm⟩ := hquot (c := 1) h0 (by omega) (by omega)
    have hsub := m.subtract4 (c := 1) 0b01#2 rfl hwin (hd1.trans (Nat.one_mul d).symm) (by omega)
      (by omega)
    rw [if_pos h1, hsub.1, hsub.2, hq, hm]
    exact ⟨rfl, rfl⟩
  rw [if_neg h1]
  obtain ⟨hq, hm⟩ := hquot (c := 0) h0 (by omega) (by omega)
  have hshift : (m.buf.extractLsb' 0 62 ++ 0#2).toNat = m.buf.toNat % 2 ^ 62 * 4 := by
    rw [toNat_append_eq, BitVec.extractLsb'_toNat, Nat.shiftRight_zero]
    rfl
  have hb2 := m.toNat_buf2
  constructor
  · rw [hq, BitVec.extractLsb'_toNat, Nat.shiftRight_zero, hshift]
    omega
  · rw [hm, BitVec.extractLsb'_toNat, Nat.shiftRight_eq_div_pow, hshift]
    omega

end Steps

/-! ## The run of a division -/

/-- The unit after some clocks, each with its gate, operation and operands. -/
def clocks (cfg : Generics) (m : MulDiv) (xs : List (Gate × BitVec 3 × DataType × DataType)) :
    MulDiv :=
  xs.foldl (fun m x => m.next cfg x.1 x.2.1 x.2.2.1 x.2.2.2) m

/-- No division starts in these clocks. -/
def NoDivision (xs : List (Gate × BitVec 3 × DataType × DataType)) : Prop :=
  ∀ x ∈ xs, (x.1.start && x.2.1.getLsbD 2) = false

/-- How many bits of the quotient a step retires. -/
def digitBits (cfg : Generics) : ℕ := if cfg.fastDivide then 2 else 1

theorem digitBits_mul_lastStep (cfg : Generics) : digitBits cfg * lastStep cfg = 32 := by
  unfold digitBits lastStep
  cases cfg.fastDivide <;> rfl

/-- The registers after `n` steps of the division of `a` by `b`. -/
structure Dividing (cfg : Generics) (op : BitVec 3) (a b : DataType) (n : ℕ) (m : MulDiv) :
    Prop where
  running : m.divRunning = true
  count : m.count = n + 1
  outsign : m.outsign = resultSign op a b
  divisor : cfg.fastDivide = false → m.divisor = magnitude op b
  multiples : cfg.fastDivide = true → m.divisor1.toNat = (magnitude op b).toNat ∧
    m.divisor2.toNat = 2 * (magnitude op b).toNat ∧ m.divisor3.toNat = 3 * (magnitude op b).toNat
  retired : Retired (magnitude op b).toNat 32 (digitBits cfg * n) (magnitude op a).toNat
    m.buf1.toNat m.buf2.toNat

/-- What the last step leaves. -/
structure Divided (cfg : Generics) (op : BitVec 3) (a b : DataType) (m : MulDiv) : Prop where
  outsign : m.outsign = resultSign op a b
  quotient : m.buf2.toNat = digits (magnitude op b).toNat 32 (magnitude op a).toNat
  remainder : m.buf1.toNat =
    if cfg.fastDivide = false ∧ (magnitude op b).toNat = 0 then (magnitude op a).toNat % 2 ^ 31
    else (magnitude op a).toNat % (magnitude op b).toNat

section Run
variable {cfg : Generics} {m : MulDiv} {g : Gate} {op op' : BitVec 3} {a b a' b' : DataType}
  {n : ℕ}

/-- The multiplier works on registers of its own. -/
theorem next_eq (cfg : Generics) (m : MulDiv) (g : Gate) (op : BitVec 3) (a b : DataType) :
    ∃ x : MulDiv, m.next cfg g op a b =
      { nextDivider cfg m (g.start && op.getLsbD 2) op a b with
        rdataA := x.rdataA, rdataB := x.rdataB, mulRdInt := x.mulRdInt
        mulRunning := x.mulRunning } := by
  refine ⟨m.next cfg g op a b, ?_⟩
  unfold MulDiv.next loadFactors
  cases g.start
  · rfl
  · cases op.getLsbD 1 <;> rfl

theorem nextDivider_eq_step (hr : m.divRunning = true) (hc : m.count ≠ 0) :
    nextDivider cfg m false op a b = divideStep cfg { m with divReady := false } := by
  simp [nextDivider, hr, hc]

theorem loadOperands_buf (cfg : Generics) (m : MulDiv) (op : BitVec 3) (a b : DataType) :
    (m.loadOperands cfg op a b).buf = 0#32 ++ magnitude op a := by
  unfold loadOperands
  cases cfg.fastDivide <;> rfl

theorem loadOperands_multiples (hf : cfg.fastDivide = true) :
    (m.loadOperands cfg op a b).divisor1.toNat = (magnitude op b).toNat ∧
      (m.loadOperands cfg op a b).divisor2.toNat = 2 * (magnitude op b).toNat ∧
      (m.loadOperands cfg op a b).divisor3.toNat = 3 * (magnitude op b).toNat := by
  have hb := (magnitude op b).isLt
  have h1 : (0#2 ++ magnitude op b : BitVec 34).toNat = (magnitude op b).toNat := by
    rw [toNat_append_eq, BitVec.toNat_zero, Nat.zero_mul, Nat.zero_add]
  have h2 : (0#1 ++ magnitude op b ++ 0#1 : BitVec 34).toNat = 2 * (magnitude op b).toNat := by
    rw [toNat_append_eq, toNat_append_eq, BitVec.toNat_zero]
    omega
  simp only [loadOperands, hf, if_true]
  refine ⟨h1, h2, ?_⟩
  rw [BitVec.toNat_add, h2, h1]
  omega

/-- The operands are loaded: no bit is retired. -/
theorem dividing_load (hr : m.divRunning = true) :
    Dividing cfg op a b 0 (m.loadOperands cfg op a b) := by
  have hbuf := loadOperands_buf cfg m op a b
  refine ⟨?_, ?_, ?_, ?_, loadOperands_multiples, ?_⟩
  · unfold loadOperands
    cases cfg.fastDivide <;> exact hr
  · unfold loadOperands
    cases cfg.fastDivide <;> rfl
  · unfold loadOperands
    cases cfg.fastDivide <;> rfl
  · intro hf
    simp only [loadOperands, hf, if_neg Bool.false_ne_true]
  · rw [buf1, buf2, hbuf, BitVec.extractLsb'_append_eq_left, BitVec.extractLsb'_append_eq_right,
      Nat.mul_zero]
    exact Retired.start (magnitude op a).isLt

/-- A division is not disturbed by the multiplier. -/
theorem Dividing.congr (h : Dividing cfg op a b n m) (x : MulDiv) :
    Dividing cfg op a b n { m with
      rdataA := x.rdataA, rdataB := x.rdataB, mulRdInt := x.mulRdInt
      mulRunning := x.mulRunning } :=
  ⟨h.running, h.count, h.outsign, h.divisor, h.multiples, h.retired⟩

theorem dividing_start (hs : (g.start && op.getLsbD 2) = true) :
    Dividing cfg op a b 0 (m.next cfg g op a b) := by
  obtain ⟨x, hx⟩ := next_eq cfg m g op a b
  rw [hx, hs]
  exact (dividing_load rfl).congr x

/-- The buffer after a step. -/
def stepBuf (cfg : Generics) (m : MulDiv) : BitVec 64 :=
  if cfg.fastDivide then m.reduce4 else m.reduce2

theorem divideStep_eq (cfg : Generics) (m : MulDiv) :
    divideStep cfg m = { m with
      buf := stepBuf cfg m
      divReady := decide (m.count ≠ lastStep cfg) && decide (m.count = lastStep cfg - 1)
      divRunning := m.divRunning && decide (m.count ≠ lastStep cfg)
      count := if m.count = lastStep cfg then 0 else m.count + 1 } := by
  simp only [divideStep]
  by_cases h : m.count = lastStep cfg <;> simp [h, stepBuf]

/-- Every step retires the bits of one digit. Only the last step of a division by zero in the
radix-2 unit needs more bits of the remainder than there are. -/
theorem Dividing.stepBuf_spec (h : Dividing cfg op a b n m) (hn : n < lastStep cfg) :
    let t := window 32 (digitBits cfg) m.buf1.toNat m.buf2.toNat
    ((stepBuf cfg m).extractLsb' 0 32).toNat =
        m.buf2.toNat * 2 ^ digitBits cfg % 2 ^ 32 +
          digits (magnitude op b).toNat (digitBits cfg) t ∧
      ((stepBuf cfg m).extractLsb' 32 32).toNat =
        if cfg.fastDivide = false ∧ (magnitude op b).toNat = 0 then t % 2 ^ 31
        else t % (magnitude op b).toNat := by
  have hr := h.retired
  have ha := (magnitude op a).isLt
  have hk : digitBits cfg * n ≤ 32 := by
    rw [← digitBits_mul_lastStep cfg]
    exact Nat.mul_le_mul_left _ hn.le
  have hlt := hr.remainder_lt hk ha
  cases hf : cfg.fastDivide with
  | true =>
    simp only [digitBits, hf, if_true] at hlt ⊢
    obtain ⟨hd1, hd2, hd3⟩ := h.multiples hf
    have h30 : m.buf1.toNat < 2 ^ 30 := by
      refine Nat.lt_of_lt_of_le hlt (Nat.pow_le_pow_right (by decide) ?_)
      simp only [lastStep, hf, if_true] at hn
      omega
    have hspec := m.reduce4_spec hd1 hd2 hd3 (magnitude op b).isLt (fun _ => h30)
      hr.remainder_lt_divisor
    simp only [stepBuf, hf, if_true]
    refine ⟨hspec.1, ?_⟩
    rw [hspec.2, if_neg (fun h => Bool.noConfusion h.1)]
  | false =>
    simp only [digitBits, hf, if_neg Bool.false_ne_true] at hlt ⊢
    have hd := h.divisor hf
    have h31 : m.buf1.toNat < 2 ^ 31 := by
      refine Nat.lt_of_lt_of_le hlt (Nat.pow_le_pow_right (by decide) ?_)
      simp only [lastStep, hf, if_neg Bool.false_ne_true] at hn
      omega
    have hspec := m.reduce2_spec h31 (by rw [hd]; exact hr.remainder_lt_divisor)
    simp only [stepBuf, hf, if_neg Bool.false_ne_true]
    rw [hd] at hspec
    refine ⟨hspec.1, ?_⟩
    rw [hspec.2]
    simp

theorem Dividing.window_lt (h : Dividing cfg op a b n m) (hn : n < lastStep cfg) :
    window 32 (digitBits cfg) m.buf1.toNat m.buf2.toNat < 2 ^ (digitBits cfg * (n + 1)) := by
  have hle : digitBits cfg * (n + 1) ≤ 32 := by
    rw [← digitBits_mul_lastStep cfg]
    exact Nat.mul_le_mul_left _ hn
  rw [Nat.mul_add, Nat.mul_one] at hle ⊢
  have hr := h.retired.remainder_lt (by omega) (magnitude op a).isLt
  calc window 32 (digitBits cfg) m.buf1.toNat m.buf2.toNat
      < (m.buf1.toNat + 1) * 2 ^ digitBits cfg :=
        LongDivision.window_lt (by omega) m.buf2.isLt
    _ ≤ 2 ^ (digitBits cfg * n) * 2 ^ digitBits cfg := Nat.mul_le_mul_right _ hr
    _ = 2 ^ (digitBits cfg * n + digitBits cfg) := (Nat.pow_add ..).symm

variable (a' b') in
/-- A clock of a division that goes on. -/
theorem Dividing.next_eq (h : Dividing cfg op a b n m)
    (hs : (g.start && op'.getLsbD 2) = false) :
    ∃ x : MulDiv, m.next cfg g op' a' b' =
      { divideStep cfg { m with divReady := false } with
        rdataA := x.rdataA, rdataB := x.rdataB, mulRdInt := x.mulRdInt
        mulRunning := x.mulRunning } := by
  have hc : m.count ≠ 0 := by
    rw [h.count]
    exact Nat.succ_ne_zero n
  obtain ⟨x, hx⟩ := MulDiv.next_eq cfg m g op' a' b'
  rw [hs, nextDivider_eq_step h.running hc] at hx
  exact ⟨x, hx⟩

theorem Dividing.retired_next (h : Dividing cfg op a b n m) (hn : n + 1 ≤ lastStep cfg)
    (hexact : ((stepBuf cfg m).extractLsb' 32 32).toNat =
      window 32 (digitBits cfg) m.buf1.toNat m.buf2.toNat % (magnitude op b).toNat) :
    Retired (magnitude op b).toNat 32 (digitBits cfg * (n + 1)) (magnitude op a).toNat
      ((stepBuf cfg m).extractLsb' 32 32).toNat ((stepBuf cfg m).extractLsb' 0 32).toNat := by
  have hle : digitBits cfg * (n + 1) ≤ 32 := by
    rw [← digitBits_mul_lastStep cfg]
    exact Nat.mul_le_mul_left _ hn
  rw [hexact, (h.stepBuf_spec hn).1]
  exact h.retired.step hle (magnitude op a).isLt

/-- A step before the last one. -/
theorem Dividing.step (h : Dividing cfg op a b n m) (hn : n + 1 < lastStep cfg)
    (hs : (g.start && op'.getLsbD 2) = false) :
    Dividing cfg op a b (n + 1) (m.next cfg g op' a' b') := by
  obtain ⟨x, hx⟩ := h.next_eq a' b' hs
  have hcount : m.count ≠ lastStep cfg := by
    rw [h.count]
    omega
  have hexact : ((stepBuf cfg m).extractLsb' 32 32).toNat =
      window 32 (digitBits cfg) m.buf1.toNat m.buf2.toNat % (magnitude op b).toNat := by
    rw [(h.stepBuf_spec (by omega)).2]
    split_ifs with h0
    · have hlt := h.window_lt (by omega)
      rw [h0.2, Nat.mod_zero, Nat.mod_eq_of_lt]
      refine Nat.lt_of_lt_of_le hlt (Nat.pow_le_pow_right (by decide) ?_)
      simp only [digitBits, lastStep, h0.1, if_neg Bool.false_ne_true] at hn ⊢
      omega
    · rfl
  rw [hx, divideStep_eq]
  refine ⟨?_, ?_, h.outsign, h.divisor, h.multiples, h.retired_next hn.le hexact⟩
  · simp [h.running, hcount]
  · simp [h.count]
    omega

/-- The last step. -/
theorem Dividing.last (h : Dividing cfg op a b n m) (hn : n + 1 = lastStep cfg)
    (hs : (g.start && op'.getLsbD 2) = false) :
    Divided cfg op a b (m.next cfg g op' a' b') := by
  obtain ⟨x, hx⟩ := h.next_eq a' b' hs
  have hspec := h.stepBuf_spec (by omega)
  have h32 : digitBits cfg * (n + 1) = 32 := by rw [hn, digitBits_mul_lastStep]
  have hr := h.retired.step (j := digitBits cfg) (by rw [← Nat.mul_succ, h32])
    (magnitude op a).isLt
  rw [← Nat.mul_succ, Nat.succ_eq_add_one, h32] at hr
  obtain ⟨hrem, hquot⟩ := hr.done
  rw [hx, divideStep_eq]
  refine ⟨h.outsign, ?_, ?_⟩
  · exact hspec.1.trans hquot
  · refine hspec.2.trans ?_
    split_ifs with h0
    · rw [h0.2, Nat.mod_zero, Nat.mod_zero] at hrem
      rw [hrem]
    · exact hrem

variable (cfg) in
/-- From the start of a division to its last step. -/
theorem divided_of_start (hs : (g.start && op.getLsbD 2) = true)
    {xs : List (Gate × BitVec 3 × DataType × DataType)} (hquiet : NoDivision xs)
    (hlen : xs.length = lastStep cfg) :
    Divided cfg op a b (clocks cfg (m.next cfg g op a b) xs) := by
  have hrun : ∀ (ys : List (Gate × BitVec 3 × DataType × DataType)), NoDivision ys →
      ys.length < lastStep cfg →
      Dividing cfg op a b ys.length (clocks cfg (m.next cfg g op a b) ys) := by
    intro ys
    induction ys using List.reverseRecOn with
    | nil => exact fun _ _ => dividing_start hs
    | append_singleton ys y ih =>
      intro hq hl
      rw [List.length_append] at hl
      have hd := ih (fun x hx => hq x (List.mem_append_left _ hx)) (by omega)
      rw [clocks, List.foldl_append, List.length_append]
      exact hd.step hl (hq y (by simp))
  obtain ⟨ys, y, rfl⟩ : ∃ ys y, xs = ys ++ [y] := by
    have hne : xs ≠ [] := by
      rintro rfl
      have := one_lt_lastStep cfg
      simp only [List.length_nil] at hlen
      omega
    exact ⟨xs.dropLast, xs.getLast hne, (List.dropLast_append_getLast hne).symm⟩
  rw [List.length_append, List.length_singleton] at hlen
  have hd := hrun ys (fun x hx => hquiet x (List.mem_append_left _ hx)) (by omega)
  rw [clocks, List.foldl_append]
  exact hd.last hlen (hquiet y (by simp))

/-! ## The results -/

theorem Divided.buf2_eq (h : Divided cfg op a b m) :
    m.buf2 = if magnitude op b = 0 then BitVec.allOnes 32 else magnitude op a / magnitude op b := by
  apply BitVec.eq_of_toNat_eq
  rw [h.quotient, digits]
  by_cases h0 : magnitude op b = 0
  · rw [if_pos h0, if_pos (by rw [h0]; rfl)]
    rfl
  · have h0' : (magnitude op b).toNat ≠ 0 := fun h => h0 (BitVec.eq_of_toNat_eq h)
    rw [if_neg h0, if_neg h0']
    rfl

/-- The remainder, unless it needs its top bit in a division by zero of the radix-2 unit. -/
theorem Divided.buf1_eq (h : Divided cfg op a b m)
    (hexact : cfg.fastDivide = true ∨ magnitude op b ≠ 0 ∨ (magnitude op a).toNat < 2 ^ 31) :
    m.buf1 = magnitude op a % magnitude op b := by
  apply BitVec.eq_of_toNat_eq
  rw [h.remainder, BitVec.toNat_umod]
  split_ifs with h0
  · rcases hexact with hf | hb | ha
    · exact absurd (h0.1.symm.trans hf) (by decide)
    · exact absurd (BitVec.eq_of_toNat_eq h0.2) hb
    · rw [h0.2, Nat.mod_zero, Nat.mod_eq_of_lt ha]
  · rfl

theorem magnitude_eq (op : BitVec 3) (x : DataType) :
    magnitude op x = if op.getLsbD 0 = false ∧ x.msb = true then -x else x := by
  rw [magnitude, BitVec.neg_eq_not_add]
  cases op.getLsbD 0 <;> cases x.msb <;> rfl

theorem magnitude_eq_zero_iff (op : BitVec 3) (x : DataType) : magnitude op x = 0 ↔ x = 0 := by
  rw [magnitude_eq]
  split_ifs
  · exact BitVec.neg_eq_zero_iff
  · rfl

theorem quotient_eq (m : MulDiv) : m.quotient = if m.outsign then -m.buf2 else m.buf2 := by
  rw [quotient, BitVec.neg_eq_not_add]
  rfl

theorem remainder_eq (m : MulDiv) : m.remainder = if m.outsign then -m.buf1 else m.buf1 := by
  rw [remainder, BitVec.neg_eq_not_add]
  rfl

theorem Divided.div_unsigned (h : Divided cfg op a b m) (h0 : op.getLsbD 0 = true)
    (h1 : op.getLsbD 1 = false) : m.div op = Isa.divUnsigned a b := by
  have hsign : m.outsign = false := by
    rw [h.outsign, resultSign, h0, h1]
    simp
  have hmag (x : DataType) : magnitude op x = x := by rw [magnitude_eq, h0, if_neg (by simp)]
  rw [div, h1, if_neg Bool.false_ne_true, quotient_eq, hsign, if_neg Bool.false_ne_true,
    h.buf2_eq, hmag, hmag, Isa.divUnsigned, BitVec.udiv_def]

theorem Divided.div_signed (h : Divided cfg op a b m) (h0 : op.getLsbD 0 = false)
    (h1 : op.getLsbD 1 = false) : m.div op = Isa.divSigned a b := by
  have hsign : m.outsign = (a.msb != b.msb && b != 0) := by
    rw [h.outsign, resultSign, h0, h1]
    simp
  have hmag (x : DataType) : magnitude op x = if x.msb = true then -x else x := by
    rw [magnitude_eq, h0]
    simp
  rw [div, h1, if_neg Bool.false_ne_true, quotient_eq, h.buf2_eq, Isa.divSigned, hsign,
    Isa.ofInt_tdiv]
  by_cases hb : b = 0
  · rw [if_pos ((magnitude_eq_zero_iff op b).mpr hb), if_pos hb, if_neg (by simp [hb])]
  · rw [if_neg (fun h => hb ((magnitude_eq_zero_iff op b).mp h)), if_neg hb, hmag, hmag,
      BitVec.sdiv_eq]
    have hne : (b != 0) = true := bne_iff_ne.mpr hb
    rw [hne, Bool.and_true]
    cases a.msb <;> cases b.msb <;> rfl

theorem Divided.rem_unsigned (h : Divided cfg op a b m) (h0 : op.getLsbD 0 = true)
    (h1 : op.getLsbD 1 = true)
    (hexact : cfg.fastDivide = true ∨ magnitude op b ≠ 0 ∨ (magnitude op a).toNat < 2 ^ 31) :
    m.div op = Isa.remUnsigned a b := by
  have hsign : m.outsign = false := by
    rw [h.outsign, resultSign, h0, h1]
    simp
  have hmag (x : DataType) : magnitude op x = x := by rw [magnitude_eq, h0, if_neg (by simp)]
  rw [div, h1, if_pos rfl, remainder_eq, hsign, if_neg Bool.false_ne_true,
    h.buf1_eq hexact, hmag, hmag, Isa.remUnsigned, BitVec.umod_def]
  split_ifs with hb
  · rw [hb]
    simp
  · rfl

theorem Divided.rem_signed (h : Divided cfg op a b m) (h0 : op.getLsbD 0 = false)
    (h1 : op.getLsbD 1 = true)
    (hexact : cfg.fastDivide = true ∨ magnitude op b ≠ 0 ∨ (magnitude op a).toNat < 2 ^ 31) :
    m.div op = Isa.remSigned a b := by
  have hsign : m.outsign = a.msb := by
    rw [h.outsign, resultSign, h0, h1]
    simp
  have hmag (x : DataType) : magnitude op x = if x.msb = true then -x else x := by
    rw [magnitude_eq, h0]
    simp
  rw [div, h1, if_pos rfl, remainder_eq, h.buf1_eq hexact, Isa.remSigned, hsign,
    Isa.ofInt_tmod, hmag, hmag]
  by_cases hb : b = 0
  · rw [if_pos hb, hb]
    cases a.msb <;> simp
  · rw [if_neg hb, BitVec.srem_eq]
    cases a.msb <;> cases b.msb <;> rfl

section Instructions
variable {mn : Mnemonic} {w : DataType}

theorem funct3_of_divide (hm : mn.isDivide = true) (hw : mn.Matches w) :
    mn = .div ∧ Isa.funct3 w = 0b100 ∨ mn = .divu ∧ Isa.funct3 w = 0b101 ∨
      mn = .rem ∧ Isa.funct3 w = 0b110 ∨ mn = .remu ∧ Isa.funct3 w = 0b111 := by
  cases mn
  case div => exact .inl ⟨rfl, (Mnemonic.fields_of_funct7 rfl hw).2.1⟩
  case divu => exact .inr (.inl ⟨rfl, (Mnemonic.fields_of_funct7 rfl hw).2.1⟩)
  case rem => exact .inr (.inr (.inl ⟨rfl, (Mnemonic.fields_of_funct7 rfl hw).2.1⟩))
  case remu => exact .inr (.inr (.inr ⟨rfl, (Mnemonic.fields_of_funct7 rfl hw).2.1⟩))
  all_goals cases hm

theorem start_of_divide (hm : mn.isDivide = true) (hw : mn.Matches w) (hstart : g.start = true) :
    (g.start && (Isa.funct3 w).getLsbD 2) = true := by
  rw [hstart]
  rcases funct3_of_divide hm hw with ⟨-, h3⟩ | ⟨-, h3⟩ | ⟨-, h3⟩ | ⟨-, h3⟩ <;> rw [h3] <;> rfl

/-- What the unit delivers is the value of the instruction. -/
theorem Divided.value (hm : mn.isDivide = true) (hw : mn.Matches w)
    (h : Divided cfg (Isa.funct3 w) a b m) (pc : DataType)
    (hexact : cfg.fastDivide = true ∨ (mn = .div ∨ mn = .divu) ∨
      magnitude (Isa.funct3 w) b ≠ 0 ∨ (magnitude (Isa.funct3 w) a).toNat < 2 ^ 31) :
    some (m.div (Isa.funct3 w)) = mn.value w pc a b := by
  rcases funct3_of_divide hm hw with ⟨rfl, h3⟩ | ⟨rfl, h3⟩ | ⟨rfl, h3⟩ | ⟨rfl, h3⟩
  · exact congrArg some (h.div_signed (by rw [h3]; rfl) (by rw [h3]; rfl))
  · exact congrArg some (h.div_unsigned (by rw [h3]; rfl) (by rw [h3]; rfl))
  · exact congrArg some (h.rem_signed (by rw [h3]; rfl) (by rw [h3]; rfl) (by simpa using hexact))
  · exact congrArg some (h.rem_unsigned (by rw [h3]; rfl) (by rw [h3]; rfl)
      (by simpa using hexact))

/-- The radix-4 unit computes every division of the instruction set. -/
theorem radix4_divides (hf : cfg.fastDivide = true) (hm : mn.isDivide = true)
    (hw : mn.Matches w) (hstart : g.start = true)
    {xs : List (Gate × BitVec 3 × DataType × DataType)} (hquiet : NoDivision xs)
    (hlen : xs.length = 16) (pc : DataType) :
    some ((clocks cfg (m.next cfg g (Isa.funct3 w) a b) xs).div (Isa.funct3 w)) =
      mn.value w pc a b :=
  (divided_of_start cfg (start_of_divide hm hw hstart) hquiet
    (by rw [hlen, lastStep, if_pos hf])).value hm hw pc (.inl hf)

/-- The clocks after a start. -/
def restOf (n : ℕ) : List (Gate × BitVec 3 × DataType × DataType) :=
  .replicate n (⟨false, false, false⟩, 0, 0, 0)

theorem noDivision_restOf (n : ℕ) : NoDivision (restOf n) := by
  intro x hx
  rw [List.eq_of_mem_replicate hx]
  rfl

/-- `div x3, x1, x2` of -7 by 2. -/
theorem radix4_divides_negative :
    some ((clocks { Generics.plain with fastDivide := true }
      (MulDiv.reset.next { Generics.plain with fastDivide := true } ⟨true, false, false⟩
        (Isa.funct3 0x0220c1b3) (-7) 2) (restOf 16)).div (Isa.funct3 0x0220c1b3)) = some (-3) :=
  (radix4_divides rfl rfl (show Mnemonic.div.Matches 0x0220c1b3 by decide) rfl
    (noDivision_restOf 16) rfl 0).trans (by decide)

/-- The inputs on which the radix-2 unit loses the top bit of the remainder: a division by zero
whose remainder has it. -/
def RemainderTooLong (mn : Mnemonic) (a b : DataType) : Prop :=
  b = 0 ∧ (mn = .rem ∧ a = 0x80000000 ∨ mn = .remu ∧ 2 ^ 31 ≤ a.toNat)

theorem exact_of_not_tooLong (hm : mn.isDivide = true) (hw : mn.Matches w)
    (h : ¬RemainderTooLong mn a b) :
    (mn = .div ∨ mn = .divu) ∨ magnitude (Isa.funct3 w) b ≠ 0 ∨
      (magnitude (Isa.funct3 w) a).toNat < 2 ^ 31 := by
  by_cases hb : b = 0
  · rcases funct3_of_divide hm hw with ⟨rfl, -⟩ | ⟨rfl, -⟩ | ⟨rfl, h3⟩ | ⟨rfl, h3⟩
    · exact .inl (.inl rfl)
    · exact .inl (.inr rfl)
    · have ha : a ≠ 0x80000000 := fun ha => h ⟨hb, .inl ⟨rfl, ha⟩⟩
      refine .inr (.inr ?_)
      have ha' : a.toNat ≠ 2 ^ 31 := fun h => ha (BitVec.eq_of_toNat_eq h)
      have hlt := a.isLt
      rw [h3, magnitude_eq, BitVec.msb_eq_decide]
      split_ifs with hneg
      · have hle := of_decide_eq_true hneg.2
        rw [BitVec.toNat_neg]
        omega
      · have hle : ¬2 ^ 31 ≤ a.toNat := fun h => hneg ⟨rfl, decide_eq_true h⟩
        omega
    · have ha : ¬2 ^ 31 ≤ a.toNat := fun ha => h ⟨hb, .inr ⟨rfl, ha⟩⟩
      refine .inr (.inr ?_)
      rw [h3, magnitude_eq, if_neg (by simp)]
      omega
  · exact .inr (.inl fun h => hb ((magnitude_eq_zero_iff _ b).mp h))

theorem Divided.remainder_of_zero (hf : cfg.fastDivide = false) (h : Divided cfg op a 0 m) :
    m.buf1.toNat = (magnitude op a).toNat % 2 ^ 31 := by
  rw [h.remainder, if_pos ⟨hf, by rw [(magnitude_eq_zero_iff op 0).mpr rfl]; rfl⟩]

theorem Divided.wrong (hf : cfg.fastDivide = false) (hw : mn.Matches w)
    (h : Divided cfg (Isa.funct3 w) a b m) (pc : DataType) (hlong : RemainderTooLong mn a b) :
    some (m.div (Isa.funct3 w)) ≠ mn.value w pc a b := by
  obtain ⟨rfl, ⟨rfl, rfl⟩ | ⟨rfl, ha⟩⟩ := hlong
  · have h3 : Isa.funct3 w = 0b110 := by simpa using funct3_of_divide rfl hw
    have hrem := h.remainder_of_zero hf
    rw [h3] at h hrem ⊢
    have hzero : m.buf1 = 0 := BitVec.eq_of_toNat_eq hrem
    have hdiv : m.div 0b110 = 0 := by
      rw [div, if_pos (by rfl), remainder_eq, hzero]
      simp
    rw [hdiv]
    simp [Mnemonic.value, Isa.remSigned]
  · have h3 : Isa.funct3 w = 0b111 := by simpa using funct3_of_divide rfl hw
    have hrem := h.remainder_of_zero hf
    rw [h3] at h hrem ⊢
    have hsign : m.outsign = false := h.outsign
    rw [magnitude_eq, if_neg (by simp)] at hrem
    rw [div, if_pos (by rfl), remainder_eq, hsign, if_neg Bool.false_ne_true]
    intro heq
    have ha' : m.buf1 = a := by simpa [Mnemonic.value, Isa.remUnsigned] using heq
    rw [ha'] at hrem
    omega

/-- The radix-2 unit computes the divisions of the instruction set, except for the remainder of a
division by zero that has its top bit set. -/
theorem radix2_divides_iff (hf : cfg.fastDivide = false) (hm : mn.isDivide = true)
    (hw : mn.Matches w) (hstart : g.start = true)
    {xs : List (Gate × BitVec 3 × DataType × DataType)} (hquiet : NoDivision xs)
    (hlen : xs.length = 32) (pc : DataType) :
    some ((clocks cfg (m.next cfg g (Isa.funct3 w) a b) xs).div (Isa.funct3 w)) =
        mn.value w pc a b ↔ ¬RemainderTooLong mn a b := by
  have hdone := divided_of_start cfg (m := m) (a := a) (b := b)
    (start_of_divide hm hw hstart) hquiet
    (by rw [hlen, lastStep, if_neg (by simp [hf])])
  constructor
  · intro h hlong
    exact hdone.wrong hf hw pc hlong h
  · intro h
    exact hdone.value hm hw pc (.inr (exact_of_not_tooLong hm hw h))

/-- `remu x3, x1, x2` of 7 by 2. -/
theorem radix2_remainder :
    some ((clocks { Generics.plain with fastDivide := false }
      (MulDiv.reset.next { Generics.plain with fastDivide := false } ⟨true, false, false⟩
        (Isa.funct3 0x0220f1b3) 7 2) (restOf 32)).div (Isa.funct3 0x0220f1b3)) =
      Mnemonic.remu.value 0x0220f1b3 0 7 2 :=
  (radix2_divides_iff rfl rfl (show Mnemonic.remu.Matches 0x0220f1b3 by decide) rfl
    (noDivision_restOf 32) rfl 0).mpr (by rintro ⟨h, -⟩; exact absurd h (by decide))

/-- `remu x3, x1, x2` of 2^31 by 0 delivers 0. -/
theorem radix2_remainder_by_zero :
    some ((clocks { Generics.plain with fastDivide := false }
      (MulDiv.reset.next { Generics.plain with fastDivide := false } ⟨true, false, false⟩
        (Isa.funct3 0x0220f1b3) 0x80000000 0) (restOf 32)).div (Isa.funct3 0x0220f1b3)) = some 0 ∧
      Mnemonic.remu.value 0x0220f1b3 0 0x80000000 0 = some 0x80000000 := by
  constructor <;> decide +kernel

end Instructions

end Run

end MulDiv

end ThuasRiscv
