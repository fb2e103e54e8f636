import ThuasRiscv.Bus.IoBusSwitch
import ThuasRiscv.Core.Csr
import ThuasRiscv.Transition

/-!
# External system timer

A 64-bit timer of `CLOCK_FREQUENCY`, and a compare register. Both are written in
halves of 32 bits; a write wins over the increment of its clock. The core sees
the halves of the time on two of its lines.
-/

namespace ThuasRiscv

open Transition

structure MtimeGenerics where
  systemFrequency : ℕ
  clockFrequency : ℕ
  /-- The prescaler has a value. -/
  pos : 0 < systemFrequency / clockFrequency

/-- System clocks in one count. -/
def MtimeGenerics.ratio (g : MtimeGenerics) : ℕ := g.systemFrequency / g.clockFrequency

structure Mtime (g : MtimeGenerics) where
  mtime : BitVec 64
  mtimecmp : BitVec 64
  prescaler : Fin g.ratio
  response : IoDevice

structure MtimeInput where
  request : MemRequest
  sreset : Bool

namespace Mtime

variable {g : MtimeGenerics} (s : Mtime g) (q : MemRequest) (i : MtimeInput)

def reset : Mtime g where
  mtime := 0
  mtimecmp := 0
  prescaler := ⟨0, g.pos⟩
  response := .reset

/-! ## Bus accesses -/

def low (x : BitVec 64) : DataType := x.extractLsb' 0 32

def high (x : BitVec 64) : DataType := x.extractLsb' 32 32

/-- The register that a read returns. -/
def readData : DataType :=
  if q.selects 0b00#2 then low s.mtime
  else if q.selects 0b01#2 then high s.mtime
  else if q.selects 0b10#2 then low s.mtimecmp
  else if q.selects 0b11#2 then high s.mtimecmp
  else 0

/-- A write to the half that is selected. -/
def write : Mtime g :=
  if q.selects 0b00#2 then { s with mtime := high s.mtime ++ q.data }
  else if q.selects 0b01#2 then { s with mtime := q.data ++ low s.mtime }
  else if q.selects 0b10#2 then { s with mtimecmp := high s.mtimecmp ++ q.data }
  else if q.selects 0b11#2 then { s with mtimecmp := q.data ++ low s.mtimecmp }
  else s

/-! ## One clock -/

/-- Update the system timer. -/
def update : Mtime g :=
  if h : s.prescaler.val = g.ratio - 1 then
    { s with prescaler := ⟨0, g.pos⟩, mtime := s.mtime + 1 }
  else { s with prescaler := ⟨s.prescaler.val + 1, by have := s.prescaler.isLt; omega⟩ }

def clock : Mtime g :=
  if i.sreset then .reset
  else
    let n := { s.update with response := .clock i.request (s.readData i.request) false }
    if i.request.wren then n.write i.request else n

/-- The timer from its reset on. -/
def machine (g : MtimeGenerics) : Machine (Mtime g) MtimeInput := ⟨reset, clock⟩

def irq : Bool := decide (s.mtimecmp ≤ s.mtime)

/-- The lines of the CSR file. -/
def wires (mip : DataType) : CsrWires := ⟨mip, low s.mtime, high s.mtime⟩

/-- A write to a half of the time. -/
def writesTime : Bool :=
  i.request.wren && (i.request.selects 0b00#2 || i.request.selects 0b01#2)

/-- The 64 bits wrap. -/
def wraps : Bool := s.prescaler.val = g.ratio - 1 && s.mtime = BitVec.allOnes 64

/-- A clock without a reset, a write to the time, or a wrap. -/
def Undisturbed : Prop := i.sreset = false ∧ writesTime i = false ∧ s.wraps = false

instance : Decidable (s.Undisturbed i) :=
  inferInstanceAs (Decidable (i.sreset = false ∧ writesTime i = false ∧ s.wraps = false))

variable {s i}

theorem write_mtime (h0 : q.selects 0b00#2 = false) (h1 : q.selects 0b01#2 = false) :
    (s.write q).mtime = s.mtime := by
  rw [write, h0, h1, if_neg Bool.false_ne_true, if_neg Bool.false_ne_true]
  split_ifs <;> rfl

/-- The time stays or counts. -/
theorem clock_mtime (hr : i.sreset = false) (hw : writesTime i = false) :
    (s.clock i).mtime = if s.prescaler.val = g.ratio - 1 then s.mtime + 1 else s.mtime := by
  have hupdate : s.update.mtime =
      if s.prescaler.val = g.ratio - 1 then s.mtime + 1 else s.mtime := by
    rw [update]
    split_ifs <;> rfl
  rw [clock, hr, if_neg Bool.false_ne_true, ← hupdate]
  cases hwren : i.request.wren with
  | false => rfl
  | true =>
    rw [writesTime, hwren, Bool.true_and, Bool.or_eq_false_iff] at hw
    exact write_mtime _ hw.1 hw.2

/-- Time does not go back. -/
theorem le_clock (h : s.Undisturbed i) : s.mtime.toNat ≤ (s.clock i).mtime.toNat := by
  obtain ⟨hr, hw, hwrap⟩ := h
  have hlt := s.mtime.isLt
  rw [clock_mtime hr hw]
  split_ifs with hend
  · have hmax : s.mtime.toNat ≠ 2 ^ 64 - 1 := by
      intro hall
      have hones : s.mtime = BitVec.allOnes 64 := BitVec.eq_of_toNat_eq hall
      simp [wraps, hend, hones] at hwrap
    rw [BitVec.toNat_add, show (1 : BitVec 64).toNat = 1 from rfl]
    omega
  · exact le_rfl

theorem toNat_low (x : BitVec 64) : (low x).toNat = x.toNat % 2 ^ 32 := by
  rw [low, BitVec.extractLsb'_toNat, Nat.shiftRight_zero]

theorem toNat_high (x : BitVec 64) : (high x).toNat = x.toNat / 2 ^ 32 := by
  have hlt := x.isLt
  rw [high, BitVec.extractLsb'_toNat, Nat.shiftRight_eq_div_pow]
  omega

section Runs

variable {s : Mtime g} {i : ℕ → MtimeInput}

/-- Time does not go back over undisturbed clocks. -/
theorem trace_le {a b : ℕ} (hab : a ≤ b)
    (h : ∀ t, a ≤ t → t < b → ((machine g).trace s i t).Undisturbed (i t)) :
    ((machine g).trace s i a).mtime.toNat ≤ ((machine g).trace s i b).mtime.toNat := by
  induction b, hab using Nat.le_induction with
  | base => exact le_rfl
  | succ b hab ih =>
    have hstep := le_clock (h b hab (Nat.lt_succ_self b))
    exact (ih fun t hat htb => h t hat (by omega)).trans hstep

end Runs

end Mtime

end ThuasRiscv
