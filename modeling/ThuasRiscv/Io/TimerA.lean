import ThuasRiscv.Bus.IoBusSwitch
import ThuasRiscv.ModuloCounter

/-!
# TIMER1

A simple 32-bit up counter with a compare register T and an interrupt. Where the
bus or the synchronous reset and the counter assign a signal in one clock, the
counter wins.
-/

namespace ThuasRiscv

open Transition

structure TimerA where
  en : Bool
  /-- T Compare Interrupt Enable. -/
  tcie : Bool
  /-- T Compare Match. -/
  tc : Bool
  cntr : DataType
  cmpt : DataType
  response : IoDevice
  deriving DecidableEq

structure TimerAInput where
  request : MemRequest
  sreset : Bool

namespace TimerA

def reset : TimerA where
  en := false
  tcie := false
  tc := false
  cntr := 0
  cmpt := 0
  response := .reset

variable (s n : TimerA) (q : MemRequest) (i : TimerAInput)

/-! ## Bus accesses -/

/-- The control register. -/
def ctrl : DataType := 0#27 ++ BitVec.ofBool s.tcie ++ 0#3 ++ BitVec.ofBool s.en

/-- The status register. -/
def stat : DataType := 0#27 ++ BitVec.ofBool s.tc ++ 0#4

/-- The register that a read returns. -/
def readData : DataType :=
  if q.selects 0b00#2 then s.ctrl
  else if q.selects 0b01#2 then s.stat
  else if q.selects 0b10#2 then s.cntr
  else if q.selects 0b11#2 then s.cmpt
  else 0

/-- A write to the register that is selected. -/
def write : TimerA :=
  if q.selects 0b00#2 then { s with en := q.data.getLsbD 0, tcie := q.data.getLsbD 4 }
  else if q.selects 0b01#2 then { s with tc := q.data.getLsbD 4 }
  else if q.selects 0b10#2 then { s with cntr := q.data }
  else if q.selects 0b11#2 then { s with cmpt := q.data }
  else s

/-- The signals as the synchronous reset or the bus leaves them. -/
def access : TimerA :=
  if i.sreset then .reset
  else
    let n := { s with response := .clock i.request (s.readData i.request) false }
    if i.request.wren then n.write i.request else n

/-! ## The counter -/

/-- The counter hits the compare register T; vectors of one length compare as numbers. -/
def hits : Bool := decide (s.cmpt ≤ s.cntr)

/-- The counter in one clock; `n` is what the reset or the bus leaves. -/
def count : TimerA :=
  if s.en then
    if s.hits then { n with cntr := 0, tc := true } else { n with cntr := s.cntr + 1 }
  else n

def clock : TimerA := s.count (s.access i)

def irq : Bool := s.tcie && s.tc

/-- The timer from its reset on. -/
def machine : Machine TimerA TimerAInput := ⟨reset, clock⟩

/-! ## Accesses that change a register -/

/-- A write to the counter register. -/
def writesCounter : Bool := i.request.wren && i.request.selects 0b10#2

/-- A write to the status register. -/
def writesStatus : Bool := i.request.wren && i.request.selects 0b01#2

/-- A write to the status register that clears the flag. -/
def clears : Bool := writesStatus i && !i.request.data.getLsbD 4

/-- An access that writes nothing but the status register. -/
def StatusOnly : Prop :=
  i.sreset = false ∧
    ∀ r : BitVec 2, i.request.wren = true → i.request.selects r = true → r = 0b01#2

/-- The compare match of a clock. -/
def compareMatch : Bool := s.en && s.hits

/-- TIMER1 with compare value `N` from its first match in clock `t₀` on. -/
structure Periodic (N : DataType) (x : ℕ → TimerA) (i : ℕ → TimerAInput) (t₀ : ℕ) : Prop where
  match_first : (x t₀).compareMatch = true
  first : ∀ u, u < t₀ → (x u).compareMatch = false
  /-- The values `0` to `N`, cyclically. -/
  value : ∀ n, (x (t₀ + 1 + n)).cntr.toNat = n % (N.toNat + 1)
  bounded : ∀ t, t₀ < t → (x t).cntr ≤ N
  match_iff : ∀ t, t₀ ≤ t → ((x t).compareMatch = true ↔ N.toNat + 1 ∣ t - t₀)
  /-- The flag stays until it is cleared in a later clock. -/
  flag : ∀ t u, (x t).compareMatch = true → t < u →
    (∀ k, t < k → k < u → clears (i k) = false) → (x u).tc = true
  cleared : ∀ u, clears (i u) = true → (x u).compareMatch = false → (x (u + 1)).tc = false

/-! ## One clock -/

variable {s i}

theorem write_cntr : (s.write q).cntr = if q.selects 0b10#2 then q.data else s.cntr := by
  rw [write]
  split_ifs with h0 h1 h2 h3
  all_goals simp_all [MemRequest.selects]

/-- The counter behind a clock without a reset. -/
theorem clock_cntr (hr : i.sreset = false) : (s.clock i).cntr =
    if s.en then counted true s.cmpt s.cntr
    else if writesCounter i then i.request.data else s.cntr := by
  have haccess : (s.access i).cntr = if writesCounter i then i.request.data else s.cntr := by
    rw [access, hr, writesCounter]
    cases i.request.wren
    · rfl
    · simp [write_cntr]
  rw [clock, count, ← haccess, hits, counted]
  cases s.en
  · rfl
  · by_cases hle : s.cmpt ≤ s.cntr <;> simp [hle]

/-- An access that writes nothing but the status register. -/
theorem access_of_statusOnly (hi : StatusOnly i) : (s.access i).en = s.en ∧
    (s.access i).cmpt = s.cmpt ∧ (s.access i).cntr = s.cntr ∧
    (s.access i).tc = if writesStatus i then i.request.data.getLsbD 4 else s.tc := by
  obtain ⟨hr, hstatus⟩ := hi
  rw [access, hr, writesStatus]
  cases hw : i.request.wren with
  | false => simp
  | true =>
    have h0 : i.request.selects 0b00#2 = false := by
      by_contra h
      cases hstatus _ hw (by simpa using h)
    have h2 : i.request.selects 0b10#2 = false := by
      by_contra h
      cases hstatus _ hw (by simpa using h)
    have h3 : i.request.selects 0b11#2 = false := by
      by_contra h
      cases hstatus _ hw (by simpa using h)
    cases h1 : i.request.selects 0b01#2 <;> simp [write, h0, h1, h2, h3]

theorem clock_of_statusOnly (hen : s.en = true) (hi : StatusOnly i) :
    (s.clock i).en = true ∧ (s.clock i).cmpt = s.cmpt ∧
    (s.clock i).cntr = counted true s.cmpt s.cntr ∧
    (s.clock i).tc =
      (s.hits || if writesStatus i then i.request.data.getLsbD 4 else s.tc) := by
  obtain ⟨haen, hcmpt, -, htc⟩ := access_of_statusOnly (s := s) hi
  refine ⟨?_, ?_, by rw [clock_cntr hi.1, if_pos hen], ?_⟩
  · rw [clock, count, if_pos hen]
    split_ifs <;> simp [haen, hen]
  · rw [clock, count, if_pos hen]
    split_ifs <;> simp [hcmpt]
  · rw [clock, count, if_pos hen]
    cases s.hits <;> simp [htc]

/-! ## Runs -/

section Runs

variable {s : TimerA} {i : ℕ → TimerAInput} (hen : s.en = true) (hi : ∀ t, StatusOnly (i t))

include hen hi

theorem trace_running (t : ℕ) : (machine.trace s i t).en = true ∧
    (machine.trace s i t).cmpt = s.cmpt := by
  induction t with
  | zero => exact ⟨hen, rfl⟩
  | succ t ih =>
    obtain ⟨hen', hcmpt', -, -⟩ := clock_of_statusOnly ih.1 (hi t)
    exact ⟨hen', hcmpt'.trans ih.2⟩

theorem trace_cntr (t : ℕ) : (machine.trace s i (t + 1)).cntr =
    counted true s.cmpt (machine.trace s i t).cntr := by
  obtain ⟨hent, hcmpt⟩ := trace_running hen hi t
  rw [← hcmpt]
  exact (clock_of_statusOnly hent (hi t)).2.2.1

theorem compareMatch_iff (t : ℕ) : (machine.trace s i t).compareMatch = true ↔
    s.cmpt ≤ (machine.trace s i t).cntr := by
  obtain ⟨hent, hcmpt⟩ := trace_running hen hi t
  rw [compareMatch, hits, hent, hcmpt, Bool.true_and, decide_eq_true_iff]

/-- The counter wins over the bus. -/
theorem trace_tc (t : ℕ) : (machine.trace s i (t + 1)).tc =
    ((machine.trace s i t).compareMatch ||
      if writesStatus (i t) then (i t).request.data.getLsbD 4 else (machine.trace s i t).tc) := by
  obtain ⟨hent, -⟩ := trace_running hen hi t
  rw [compareMatch, hent, Bool.true_and]
  exact (clock_of_statusOnly hent (hi t)).2.2.2

theorem trace_flag {t : ℕ} (hmatch : (machine.trace s i t).compareMatch = true) (n : ℕ)
    (hclear : ∀ k, t < k → k < t + 1 + n → clears (i k) = false) :
    (machine.trace s i (t + 1 + n)).tc = true := by
  induction n with
  | zero => rw [Nat.add_zero, trace_tc hen hi, hmatch, Bool.true_or]
  | succ n ih =>
    have hlast := hclear (t + 1 + n) (by omega) (by omega)
    have htc := ih fun k hk hkn => hclear k hk (by omega)
    rw [← Nat.add_assoc, trace_tc hen hi, htc]
    simp only [clears, Bool.and_eq_false_iff, Bool.not_eq_false'] at hlast
    rcases hlast with hwrite | hdata
    · simp [hwrite]
    · simp [hdata]

theorem trace_cleared {u : ℕ} (hclear : clears (i u) = true)
    (hmatch : (machine.trace s i u).compareMatch = false) :
    (machine.trace s i (u + 1)).tc = false := by
  simp only [clears, Bool.and_eq_true, Bool.not_eq_true'] at hclear
  rw [trace_tc hen hi, hmatch, hclear.1, hclear.2]
  rfl

/-- The period and the flag of TIMER1, for any compare value and any status writes. -/
theorem period_and_flag : ∃ t₀, Periodic s.cmpt (machine.trace s i) i t₀ := by
  let x : ℕ → DataType := fun t => (machine.trace s i t).cntr
  have hnext : ∀ t, x (t + 1) = counted true s.cmpt (x t) := trace_cntr hen hi
  have hiff := compareMatch_iff hen hi
  obtain ⟨t₀, hmatch, hfirst⟩ := ModuloCounter.exists_first_match hnext
  refine ⟨t₀, ?_⟩
  constructor
  case match_first => exact (hiff t₀).mpr hmatch
  case first =>
    intro u hu
    have hlt := BitVec.not_le.mpr (hfirst u hu)
    rw [Bool.eq_false_iff, ne_eq, hiff]
    exact hlt
  case value => exact ModuloCounter.value_after_match hnext hmatch
  case bounded =>
    intro t ht
    exact ModuloCounter.le_top_after_match hnext hmatch ht
  case match_iff =>
    intro t ht
    rw [hiff]
    exact ModuloCounter.match_iff hnext hmatch ht
  case flag =>
    intro t u hmatch hlt hclear
    obtain ⟨n, rfl⟩ := Nat.exists_eq_add_of_le (show t + 1 ≤ u from hlt)
    exact trace_flag hen hi hmatch n hclear
  case cleared =>
    intro u hclear hmatch
    exact trace_cleared hen hi hclear hmatch

end Runs

/-- A store to a register of the timer. -/
def storing (addr data : DataType) : TimerAInput := ⟨⟨true, .word, addr, data, true⟩, false⟩

/-- The timer counts with compare value 3. -/
def counting : TimerA := machine.run [storing 12 3, storing 0 1]

theorem cleared_in_every_clock : counting.en = true ∧
    ∃ t₀, Periodic counting.cmpt (machine.trace counting fun _ => storing 4 0)
      (fun _ => storing 4 0) t₀ := by
  have hen : counting.en = true := by decide
  have honly : StatusOnly (storing 4 0) := by
    refine ⟨rfl, fun r _ hr => ?_⟩
    have hstatus : (storing 4 0).request.selects 0b01#2 = true := by decide
    by_contra hne
    rw [MemRequest.selects_of_ne hr hne] at hstatus
    cases hstatus
  exact ⟨hen, period_and_flag hen fun _ => honly⟩

end TimerA

end ThuasRiscv
