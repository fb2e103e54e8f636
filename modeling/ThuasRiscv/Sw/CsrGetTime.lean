import ThuasRiscv.Core.Program
import ThuasRiscv.Io.Mtime
import Mathlib.Tactic.IntervalCases

/-!
# Reading the 64-bit time

`csr_get_time` reads the high word, the low word and the high word again, and
starts over when the two high words differ. The instructions may be any number
of clocks apart.
-/

namespace ThuasRiscv

open Transition

namespace CsrGetTime

/-- The loop from iteration `k` on: the iteration that ends it, and the time. `csr` is the CSR file
in every clock, and instruction `j` reads in clock `clock j`. -/
def csrGetTime (csr : ℕ → CsrAddr → DataType) (clock : ℕ → ℕ) : ℕ → ℕ → Option (ℕ × BitVec 64)
  | 0, _ => none
  | fuel + 1, k =>
    let th := csr (clock (3 * k)) timehAddr
    let tl := csr (clock (3 * k + 1)) timeAddr
    let tt := csr (clock (3 * k + 2)) timehAddr
    if th = tt then some (k, th ++ tl) else csrGetTime csr clock fuel (k + 1)

variable {csr : ℕ → CsrAddr → DataType} {clock : ℕ → ℕ}

/-- The iteration that ends the loop has read one high word twice. -/
theorem csrGetTime_eq_some {fuel k m : ℕ} {v : BitVec 64}
    (h : csrGetTime csr clock fuel k = some (m, v)) :
    csr (clock (3 * m)) timehAddr = csr (clock (3 * m + 2)) timehAddr ∧
      v = csr (clock (3 * m)) timehAddr ++ csr (clock (3 * m + 1)) timeAddr := by
  induction fuel generalizing k with
  | zero => cases h
  | succ fuel ih =>
    rw [csrGetTime] at h
    split_ifs at h with heq
    · cases h
      exact ⟨heq, rfl⟩
    · exact ih h

/-- As long as the loop goes on the two high words differ. -/
theorem csrGetTime_eq_none {fuel k : ℕ} (h : csrGetTime csr clock fuel k = none) {j : ℕ}
    (hj : j < fuel) :
    csr (clock (3 * (k + j))) timehAddr ≠ csr (clock (3 * (k + j) + 2)) timehAddr := by
  induction fuel generalizing k j with
  | zero => cases hj
  | succ fuel ih =>
    rw [csrGetTime] at h
    split_ifs at h with hne
    cases j with
    | zero => exact hne
    | succ j =>
      have hlater := ih h (Nat.lt_of_succ_lt_succ hj)
      rwa [Nat.add_right_comm, Nat.add_assoc] at hlater

/-- A number between two numbers with one high word. -/
theorem eq_of_high_eq {a b c B : ℕ} (hab : a ≤ b) (hbc : b ≤ c) (h : a / B = c / B) :
    a / B * B + b % B = b := by
  have hle := Nat.div_le_div_right (c := B) hab
  have hge := Nat.div_le_div_right (c := B) hbc
  have hhigh : a / B = b / B := by omega
  rw [hhigh, Nat.mul_comm]
  exact Nat.div_add_mod b B

/-! ## With the timer -/

section Timer

variable {g : MtimeGenerics} {s : Mtime g} {i : ℕ → MtimeInput} {cfg : Generics}
  {io : Peripherals} {c : ℕ → CsrReg} {mip : ℕ → DataType}

/-- The time in clock `t`. -/
def timeAt (s : Mtime g) (i : ℕ → MtimeInput) (t : ℕ) : BitVec 64 :=
  ((Mtime.machine g).trace s i t).mtime

/-- What an instruction that reads a CSR gets in clock `t`. -/
def readsCsr (s : Mtime g) (i : ℕ → MtimeInput) (cfg : Generics) (io : Peripherals)
    (c : ℕ → CsrReg) (mip : ℕ → DataType) (t : ℕ) (addr : CsrAddr) : DataType :=
  (c t).read cfg io (((Mtime.machine g).trace s i t).wires (mip t)) addr

/-- No reset, write to the time or wrap from clock `a` to before clock `b`. -/
def Undisturbed (s : Mtime g) (i : ℕ → MtimeInput) (a b : ℕ) : Prop :=
  ∀ t, a ≤ t → t < b → ((Mtime.machine g).trace s i t).Undisturbed (i t)

theorem readsCsr_time (t : ℕ) :
    readsCsr s i cfg io c mip t timeAddr = Mtime.low (timeAt s i t) := by
  rw [readsCsr, CsrReg.read, if_neg (by decide), if_pos rfl]
  rfl

theorem readsCsr_timeh (t : ℕ) :
    readsCsr s i cfg io c mip t timehAddr = Mtime.high (timeAt s i t) := by
  rw [readsCsr, CsrReg.read, if_neg (by decide), if_neg (by decide), if_neg (by decide),
    if_neg (by decide), if_pos rfl]
  rfl

theorem Undisturbed.timeAt_le {a b t u : ℕ} (h : Undisturbed s i a b) (ha : a ≤ t) (htu : t ≤ u)
    (hb : u ≤ b) : (timeAt s i t).toNat ≤ (timeAt s i u).toNat :=
  Mtime.trace_le htu fun v hv hvu => h v (ha.trans hv) (by omega)

/-- Two reads of one high word around a read of the low word. -/
theorem append_eq_timeAt {a b d : ℕ} (h : Undisturbed s i a d) (hab : a ≤ b) (hbd : b ≤ d)
    (hhigh : Mtime.high (timeAt s i a) = Mtime.high (timeAt s i d)) :
    Mtime.high (timeAt s i a) ++ Mtime.low (timeAt s i b) = timeAt s i b := by
  have hle := h.timeAt_le le_rfl hab hbd
  have hge := h.timeAt_le hab hbd le_rfl
  have hdiv := congrArg BitVec.toNat hhigh
  rw [Mtime.toNat_high, Mtime.toNat_high] at hdiv
  apply BitVec.eq_of_toNat_eq
  rw [BitVec.toNat_append, ← Nat.shiftLeft_add_eq_or_of_lt (Mtime.low _).isLt,
    Nat.shiftLeft_eq, Mtime.toNat_high, Mtime.toNat_low]
  exact eq_of_high_eq hle hge hdiv

variable {clock : ℕ → ℕ} (hclock : Monotone clock)

include hclock

/-- The time that the loop returns is the time of its read of the low word. -/
theorem csrGetTime_timeAt {fuel k : ℕ} {v : BitVec 64}
    (hret : csrGetTime (readsCsr s i cfg io c mip) clock fuel 0 = some (k, v))
    (h : Undisturbed s i (clock 0) (clock (3 * k + 2))) : timeAt s i (clock (3 * k + 1)) = v := by
  obtain ⟨hhigh, hv⟩ := csrGetTime_eq_some hret
  rw [readsCsr_timeh, readsCsr_timeh] at hhigh
  rw [readsCsr_timeh, readsCsr_time] at hv
  have hlast : Undisturbed s i (clock (3 * k)) (clock (3 * k + 2)) := fun t ht =>
    h t ((hclock (Nat.zero_le _)).trans ht)
  rw [hv]
  exact (append_eq_timeAt hlast (hclock (by omega)) (hclock (by omega)) hhigh).symm

/-- Every iteration that does not end the loop has seen a carry into the high word. -/
theorem le_high {n : ℕ} (hret : csrGetTime (readsCsr s i cfg io c mip) clock n 0 = none)
    (h : Undisturbed s i (clock 0) (clock (3 * n - 1))) {m : ℕ} (hm : m ≤ n) :
    m ≤ (Mtime.high (timeAt s i (clock (3 * m - 1)))).toNat := by
  induction m with
  | zero => exact Nat.zero_le _
  | succ m ih =>
    have hseen := ih (Nat.le_of_succ_le hm)
    have hne := csrGetTime_eq_none hret hm
    rw [Nat.zero_add, readsCsr_timeh, readsCsr_timeh] at hne
    have hbefore := h.timeAt_le (hclock (Nat.zero_le (3 * m - 1)))
      (hclock (show 3 * m - 1 ≤ 3 * m by omega)) (hclock (by omega))
    have hwithin := h.timeAt_le (hclock (Nat.zero_le (3 * m)))
      (hclock (show 3 * m ≤ 3 * m + 2 by omega)) (hclock (by omega))
    have hcarry : (Mtime.high (timeAt s i (clock (3 * m)))).toNat ≠
        (Mtime.high (timeAt s i (clock (3 * m + 2)))).toNat := fun heq =>
      hne (BitVec.eq_of_toNat_eq heq)
    rw [show 3 * (m + 1) - 1 = 3 * m + 2 by omega]
    rw [Mtime.toNat_high] at hseen hcarry ⊢
    rw [Mtime.toNat_high] at hcarry
    have hle := Nat.div_le_div_right (c := 2 ^ 32) hbefore
    have hle' := Nat.div_le_div_right (c := 2 ^ 32) hwithin
    omega

/-- The loop returns a time that the counter had during the call, and it returns before it has
looped `2 ^ 32` times. -/
theorem csr_get_time_torn_free :
    (∀ fuel k v, csrGetTime (readsCsr s i cfg io c mip) clock fuel 0 = some (k, v) →
      Undisturbed s i (clock 0) (clock (3 * k + 2)) →
      ∃ t, clock 0 ≤ t ∧ t ≤ clock (3 * k + 2) ∧ timeAt s i t = v) ∧
    (∀ n, csrGetTime (readsCsr s i cfg io c mip) clock n 0 = none →
      Undisturbed s i (clock 0) (clock (3 * n - 1)) → n < 2 ^ 32) := by
  constructor
  · intro fuel k v hret h
    exact ⟨clock (3 * k + 1), hclock (Nat.zero_le _), hclock (by omega),
      csrGetTime_timeAt hclock hret h⟩
  · intro n hret h
    have hseen := le_high hclock hret h le_rfl
    exact hseen.trans_lt (BitVec.isLt _)

end Timer

/-! ## A carry in the first iteration -/

/-- A timer that counts in every clock. -/
def everyClock : MtimeGenerics := ⟨1, 1, by decide⟩

/-- The low word carries within one clock. -/
def beforeCarry : Mtime everyClock := ⟨0x1ffffffff, 0, ⟨0, by decide⟩, .reset⟩

/-- No bus accesses. -/
def idle : ℕ → MtimeInput := fun _ => ⟨⟨false, .word, 0, 0, false⟩, false⟩

theorem undisturbed_beforeCarry : Undisturbed beforeCarry idle 0 5 := by
  intro t _ ht
  interval_cases t <;> decide

/-- The CSRs of a core in reset next to the timer. -/
def readsBeforeCarry : ℕ → CsrAddr → DataType :=
  readsCsr beforeCarry idle .plain .none (fun _ => .reset) fun _ => 0

theorem first_iteration_sees_carry : csrGetTime readsBeforeCarry id 1 0 = none := by
  simp only [csrGetTime, readsBeforeCarry, readsCsr_time, readsCsr_timeh]
  decide

theorem second_iteration_returns :
    csrGetTime readsBeforeCarry id 2 0 = some (1, 0x200000003) := by
  simp only [csrGetTime, readsBeforeCarry, readsCsr_time, readsCsr_timeh]
  decide

theorem time_of_second_iteration :
    (∃ t, 0 ≤ t ∧ t ≤ 5 ∧ timeAt beforeCarry idle t = 0x200000003) ∧ 1 < 2 ^ 32 :=
  have h := csr_get_time_torn_free (s := beforeCarry) (i := idle) monotone_id
  ⟨h.1 2 1 _ second_iteration_returns undisturbed_beforeCarry,
    h.2 1 first_iteration_sees_carry fun t _ ht => undisturbed_beforeCarry t (Nat.zero_le t)
      (Nat.lt_trans ht (by decide))⟩

end CsrGetTime

end ThuasRiscv
