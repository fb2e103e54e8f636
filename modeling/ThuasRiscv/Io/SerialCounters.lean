import ThuasRiscv.Signals
import ThuasRiscv.Io.UartLink
import ThuasRiscv.Io.Spi
import ThuasRiscv.Io.I2c
import ThuasRiscv.Io.Crc
import Mathlib

/-!
# Counters of the serial devices

The integer signals and variables of UART, SPI, I2C and CRC unit, their
declared ranges and the values that the devices assign to them, for all bus
accesses and all levels of the lines. The configuration may change at any time,
so a counter is bounded by its load and by the decrements that are guarded.
-/

namespace ThuasRiscv

open Transition

/-! ## UART -/

/-- What the UART reads in a clock. -/
structure UartInput where
  request : MemRequest
  sreset : Bool
  rxd : Bool

inductive UartCounter where
  | txbittimer | txshiftcounter | rxbittimer | rxshiftcounter
  deriving DecidableEq, Repr

/-- The declared range. -/
def UartCounter.range : UartCounter → Set ℤ
  | .txbittimer => Set.Icc 0 65535
  | .txshiftcounter => Set.Icc 0 10
  | .rxbittimer => Set.Icc 0 65535
  | .rxshiftcounter => Set.Icc 0 10

theorem UartCounter.zero_mem (k : UartCounter) : 0 ∈ k.range := by
  cases k <;> exact ⟨le_rfl, by decide⟩

/-- The values of the variable in which the transmitter adds up its shift counter. -/
def UartControl.uarttxshiftcounter (c : UartControl) : List ℤ :=
  let bits : ℤ := c.dataBits + 1
  [bits] ++ (if c.paron then [bits + 1] else []) ++
    (if c.sp2 then [bits + (if c.paron then 1 else 0) + 1] else [])

namespace Uart

variable (g : UartGenerics) (u : Uart) (i : UartInput)

/-- The device from its reset on. -/
def machine : Machine Uart UartInput := ⟨reset, fun u i => u.clock g i.request i.sreset i.rxd⟩

def counter : UartCounter → ℤ
  | .txbittimer => u.tx.txbittimer
  | .txshiftcounter => u.tx.txshiftcounter
  | .rxbittimer => u.rx.rxbittimer
  | .rxshiftcounter => u.rx.rxshiftcounter

/-- The values that the transmitter and the receiver assign in a clock without reset. -/
def counts : UartCounter → List ℤ
  | .txbittimer =>
    match u.tx.txstate with
    | .txIdle => if u.tx.txstart && u.ctrl.en then [(u.baud.toNat : ℤ)] else []
    | .txIter =>
      if 0 < u.tx.txbittimer then [u.tx.txbittimer - 1]
      else if 0 < u.tx.txshiftcounter then [(u.baud.toNat : ℤ)]
      else []
    | .txReady => []
  | .txshiftcounter =>
    match u.tx.txstate with
    | .txIdle => if u.tx.txstart && u.ctrl.en then [(u.ctrl.shiftCount : ℤ)] else []
    | .txIter =>
      if 0 < u.tx.txbittimer then []
      else if 0 < u.tx.txshiftcounter then [u.tx.txshiftcounter - 1]
      else []
    | .txReady => []
  | .rxbittimer =>
    match u.rx.rxstate with
    | .rxIdle => if !u.rx.rxdSync && u.ctrl.en then [(u.baud.toNat : ℤ) / 2] else []
    | .rxWait =>
      if 0 < u.rx.rxbittimer then [u.rx.rxbittimer - 1]
      else if !u.rx.rxdSync then [(u.baud.toNat : ℤ)]
      else []
    | .rxIter =>
      if 0 < u.rx.rxbittimer then [u.rx.rxbittimer - 1]
      else if 0 < u.rx.rxshiftcounter then [(u.baud.toNat : ℤ)]
      else if u.ctrl.paron then [(u.baud.toNat : ℤ)]
      else []
    | .rxParity => if 0 < u.rx.rxbittimer then [u.rx.rxbittimer - 1] else []
    | _ => []
  | .rxshiftcounter =>
    match u.rx.rxstate with
    | .rxWait =>
      if 0 < u.rx.rxbittimer then []
      else if !u.rx.rxdSync then [(u.ctrl.dataBits : ℤ)]
      else []
    | .rxIter =>
      if 0 < u.rx.rxbittimer then []
      else if 0 < u.rx.rxshiftcounter then [u.rx.rxshiftcounter - 1]
      else []
    | _ => []

/-- A transmission that starts has at most eleven bits. -/
def StartFits : Prop := i.sreset = false → u.starts = true → u.ctrl.shiftCount ≤ 10

instance : Decidable (u.StartFits i) :=
  inferInstanceAs (Decidable (i.sreset = false → u.starts = true → u.ctrl.shiftCount ≤ 10))

theorem counter_next (k : UartCounter) (rxd : Bool) (q : MemRequest) :
    (u.clock g q false rxd).counter k = (u.counts k).getLastD (u.counter k) := by
  cases k with
  | txbittimer =>
    change ((u.nextTx q).txbittimer : ℤ) = _
    rw [nextTx, busTx, counts, counter]
    cases u.tx.txstate <;> dsimp only <;> repeat' split
    all_goals simp only [List.getLastD_cons, List.getLastD_nil]
    all_goals omega
  | txshiftcounter =>
    change ((u.nextTx q).txshiftcounter : ℤ) = _
    rw [nextTx, busTx, counts, counter]
    cases u.tx.txstate <;> dsimp only <;> repeat' split
    all_goals simp only [List.getLastD_cons, List.getLastD_nil]
    all_goals omega
  | rxbittimer =>
    change ((u.nextRx rxd).rxbittimer : ℤ) = _
    rw [nextRx, counts, counter]
    cases u.rx.rxstate <;> dsimp only <;> repeat' split
    all_goals simp only [List.getLastD_cons, List.getLastD_nil]
    all_goals omega
  | rxshiftcounter =>
    change ((u.nextRx rxd).rxshiftcounter : ℤ) = _
    rw [nextRx, counts, counter]
    cases u.rx.rxstate <;> dsimp only <;> repeat' split
    all_goals simp only [List.getLastD_cons, List.getLastD_nil]
    all_goals omega

/-- The counters of the UART, and the variable of its transmitter. -/
def counters : Signals (machine g) UartCounter Unit ℤ where
  value := counter
  assigned u i k := if i.sreset then [0] else u.counts k
  range := UartCounter.range
  computed u i _ := if !i.sreset && u.starts then u.ctrl.uarttxshiftcounter else []
  computedRange _ := Set.Icc 0 15
  init_mem k := by cases k <;> exact UartCounter.zero_mem _
  value_next u i k := by
    change (u.clock g i.request i.sreset i.rxd).counter k = _
    cases i.sreset with
    | true => cases k <;> rfl
    | false => exact u.counter_next g k i.rxd i.request

theorem uarttxshiftcounter_mem (c : UartControl) :
    ∀ v ∈ c.uarttxshiftcounter, v ∈ Set.Icc (0 : ℤ) 15 := by
  intro v hv
  have hbits := c.dataBits_cases
  simp only [UartControl.uarttxshiftcounter, List.mem_append, List.mem_singleton] at hv
  rw [Set.mem_Icc]
  split_ifs at hv <;> simp at hv <;> omega

/-- Whatever is in the registers, only the load of the transmit shift counter can be too large. -/
theorem counts_mem (h : (counters g).Within u) (k : UartCounter) :
    (∀ v ∈ u.counts k, v ∈ k.range) ↔
      (k = .txshiftcounter → u.starts = true → u.ctrl.shiftCount ≤ 10) := by
  have hbaud : u.baud.toNat ≤ 65535 := Nat.le_of_lt_succ u.baud.isLt
  have hbits := u.ctrl.dataBits_cases
  have hk : u.counter k ∈ k.range := h k
  cases k with
  | txbittimer =>
    refine iff_of_true ?_ (by simp)
    rw [counts]
    simp only [counter, UartCounter.range, Set.mem_Icc] at hk ⊢
    cases u.tx.txstate <;> dsimp only <;> repeat' split
    all_goals simp
    all_goals omega
  | txshiftcounter =>
    rw [counts, starts]
    simp only [counter, UartCounter.range, Set.mem_Icc] at hk ⊢
    cases u.tx.txstate with
    | txIdle =>
      cases hstart : u.tx.txstart && u.ctrl.en
      · simp [hstart]
      · simp only [↓reduceIte, List.mem_cons, List.not_mem_nil, or_false, forall_eq,
          Int.natCast_nonneg, decide_true, Bool.true_and, hstart, true_and, forall_const]
        omega
    | txIter =>
      refine iff_of_true ?_ (by simp)
      dsimp only
      repeat' split
      all_goals simp
      omega
    | txReady => simp
  | rxbittimer =>
    refine iff_of_true ?_ (by simp)
    rw [counts]
    simp only [counter, UartCounter.range, Set.mem_Icc] at hk ⊢
    cases u.rx.rxstate <;> dsimp only <;> repeat' split
    all_goals simp
    all_goals omega
  | rxshiftcounter =>
    refine iff_of_true ?_ (by simp)
    rw [counts]
    simp only [counter, UartCounter.range, Set.mem_Icc] at hk ⊢
    cases u.rx.rxstate <;> dsimp only <;> repeat' split
    all_goals simp
    all_goals omega

/-- A clock assigns no value outside a range if and only if the transmission that it starts has at
most eleven bits. -/
theorem legal_iff (h : (counters g).Within u) : (counters g).Legal u i ↔ u.StartFits i := by
  constructor
  · intro hl hr hs
    refine (counts_mem g u h .txshiftcounter).mp ?_ rfl hs
    have hk := hl.signals .txshiftcounter
    simp only [counters, hr, Bool.false_eq_true, if_false] at hk
    exact hk
  · intro hfits
    constructor
    · intro k v hv
      simp only [counters] at hv ⊢
      split_ifs at hv with hr
      · rw [List.mem_singleton] at hv
        rw [hv]
        exact k.zero_mem
      · exact (counts_mem g u h k).mpr (fun _ => hfits (Bool.not_eq_true _ ▸ hr)) v hv
    · intro _ v hv
      simp only [counters] at hv ⊢
      split_ifs at hv
      · exact uarttxshiftcounter_mem u.ctrl v hv
      · cases hv

end Uart

/-! ## SPI -/

inductive SpiCounter where
  | bittimer | shiftcounter
  deriving DecidableEq, Repr

/-- The declared range. -/
def SpiCounter.range : SpiCounter → Set ℤ
  | .bittimer => Set.Icc 0 127
  | .shiftcounter => Set.Icc 0 32

theorem SpiCounter.zero_mem (k : SpiCounter) : 0 ∈ k.range := by
  cases k <;> exact ⟨le_rfl, by decide⟩

namespace Spi

variable (s : Spi) (q : MemRequest)

def counter : SpiCounter → ℤ
  | .bittimer => s.bittimer
  | .shiftcounter => s.shiftcounter

/-- The values that the bus and the transfer assign in a clock without reset. -/
def counts : SpiCounter → List ℤ
  | .bittimer =>
    match s.state with
    | .idle => [s.ctrl.spiprescaler]
    | .first => if 0 < s.bittimer then [s.bittimer - 1] else [s.ctrl.spiprescaler]
    | .second => if 0 < s.bittimer then [s.bittimer - 1] else [s.ctrl.spiprescaler]
    | .leadout => if 0 < s.bittimer then [s.bittimer - 1] else []
  | .shiftcounter =>
    (if writesData q then [s.ctrl.lastBit] else []) ++
      match s.state with
      | .second =>
        if 0 < s.bittimer then []
        else if 0 < s.shiftcounter then [s.shiftcounter - 1]
        else []
      | _ => []

theorem access_bittimer : (s.access q).bittimer = s.bittimer := by
  rw [access]
  repeat' split
  all_goals rfl

theorem access_shiftcounter :
    (s.access q).shiftcounter = if writesData q then s.ctrl.lastBit else s.shiftcounter := by
  rw [access, writesData]
  split
  · next h =>
    rw [MemRequest.selects_of_ne h (by decide)]
    split <;> rfl
  · split
    · next h =>
      rw [MemRequest.selects_of_ne h (by decide)]
      split <;> rfl
    · cases q.selects 0b10#2 <;> cases q.wren <;> rfl

variable (miso : Bool)

theorem transfer_bittimer (n : Spi) (h : n.bittimer = s.bittimer) :
    (s.transfer miso n).bittimer = (s.counts q .bittimer).getLastD s.bittimer := by
  rw [transfer, counts]
  cases s.state <;> dsimp only <;> repeat' split
  all_goals first | rfl | exact h

theorem transfer_shiftcounter (n : Spi)
    (h : n.shiftcounter = if writesData q then s.ctrl.lastBit else s.shiftcounter) :
    (s.transfer miso n).shiftcounter = (s.counts q .shiftcounter).getLastD s.shiftcounter := by
  have hload : n.shiftcounter =
      (if writesData q then [s.ctrl.lastBit] else []).getLastD s.shiftcounter := by
    rw [h]
    split <;> rfl
  rw [transfer, counts]
  cases s.state <;> dsimp only <;> repeat' split
  all_goals simp_all [finish]

/-- The counters of the SPI, and the variable with the prescaler. -/
def counters : Signals machine SpiCounter Unit ℤ where
  value := counter
  assigned s i k := if i.sreset then [0] else s.counts i.request k
  range := SpiCounter.range
  computed s i _ := if i.sreset then [] else [s.ctrl.spiprescaler]
  computedRange _ := Set.Icc 0 255
  init_mem k := by cases k <;> exact SpiCounter.zero_mem _
  value_next s i k := by
    change (s.clock i).counter k = _
    rw [clock]
    cases i.sreset with
    | true => cases k <;> rfl
    | false =>
      cases k with
      | bittimer => exact s.transfer_bittimer i.request i.miso _ (s.access_bittimer i.request)
      | shiftcounter =>
        exact s.transfer_shiftcounter i.request i.miso _ (s.access_shiftcounter i.request)

/-- The prescaler and the shift counter are loaded with at most 127 and 31. -/
theorem loads_le (c : SpiControl) :
    (0 ≤ c.spiprescaler ∧ c.spiprescaler ≤ 127) ∧ 0 ≤ c.lastBit ∧ c.lastBit ≤ 31 := by
  rw [SpiControl.spiprescaler, SpiControl.lastBit]
  constructor <;> split_ifs <;> decide

/-- Whatever is in the registers and on the line, a clock assigns no value outside a range. -/
theorem legal_of_within (i : SpiInput) (h : counters.Within s) : counters.Legal s i := by
  obtain ⟨hpre, hlast⟩ := loads_le s.ctrl
  constructor
  · intro k
    have hk : s.counter k ∈ k.range := h k
    simp only [counters]
    split_ifs
    · simpa using k.zero_mem
    · cases k with
      | bittimer =>
        rw [counts]
        simp only [counter, SpiCounter.range, Set.mem_Icc] at hk ⊢
        cases s.state <;> dsimp only <;> repeat' split
        all_goals simp
        all_goals omega
      | shiftcounter =>
        rw [counts]
        simp only [counter, SpiCounter.range, Set.mem_Icc] at hk ⊢
        cases s.state <;> dsimp only <;> repeat' split
        all_goals simp
        all_goals omega
  · intro _
    simp only [counters]
    split_ifs
    · simp
    · simp
      omega

end Spi

/-! ## I2C -/

inductive I2cCounter where
  | bittimer | shiftcounter | trise
  deriving DecidableEq, Repr

/-- The declared range. -/
def I2cCounter.range (g : I2cGenerics) : I2cCounter → Set ℤ
  | .bittimer => Set.Icc 0 (2 ^ 17 - 1)
  | .shiftcounter => Set.Icc 0 9
  | .trise => Set.Icc 0 g.criseSm

theorem I2cCounter.zero_mem (g : I2cGenerics) (k : I2cCounter) : 0 ∈ k.range g := by
  cases k with
  | bittimer => exact ⟨le_rfl, by decide⟩
  | shiftcounter => exact ⟨le_rfl, by decide⟩
  | trise =>
    refine ⟨le_rfl, ?_⟩
    rw [I2cGenerics.criseSm]
    omega

namespace I2c

variable (g : I2cGenerics) (s : I2c)

def counter : I2cCounter → ℤ
  | .bittimer => s.bittimer
  | .shiftcounter => s.shiftcounter
  | .trise => s.trise

/-- The values that the state machine assigns in a clock without reset. -/
def counts : I2cCounter → List ℤ
  | .bittimer =>
    match s.state with
    | .idle => [s.ctrl.lowBit]
    | .sendStartbit => if 0 < s.bittimer then [s.bittimer - 1] else [s.ctrl.lowBit]
    | .sendDataFirst => if 0 < s.bittimer then [s.bittimer - 1] else [s.ctrl.highBit]
    | .sendDataSecond => if 0 < s.bittimer then [s.bittimer - 1] else [s.ctrl.lowBit]
    | .sendStopbitFirst => if 0 < s.bittimer then [s.bittimer - 1] else [s.ctrl.highBit]
    | .sendStopbitSecond => if 0 < s.bittimer then [s.bittimer - 1] else [s.ctrl.lowBit]
    | .sendStopbitThird => if 0 < s.bittimer then [s.bittimer - 1] else []
    | .stretch => [s.ctrl.highBit]
  | .shiftcounter =>
    match s.state with
    | .idle => [8]
    | .sendDataSecond =>
      if 0 < s.bittimer then []
      else if 0 < s.shiftcounter then [s.shiftcounter - 1]
      else []
    | _ => []
  | .trise =>
    match s.state with
    | .sendDataFirst => if 0 < s.bittimer then [] else [s.crise g]
    | .sendDataSecond => if 0 < s.trise then [s.trise - 1] else []
    | .stretch => [s.crise g]
    | _ => []

theorem counter_access (q : MemRequest) (scl sda : Bool) (k : I2cCounter) :
    (s.synchronize (s.access q) scl sda).counter k = s.counter k := by
  rw [synchronize, access]
  repeat' split
  all_goals cases k <;> rfl

theorem counter_transmit {n : I2c} (h : ∀ k, n.counter k = s.counter k) (k : I2cCounter) :
    (s.transmit g n).counter k = (s.counts g k).getLastD (s.counter k) := by
  have hk := h k
  cases k
  all_goals
    rw [transmit, counts]
    cases s.state <;> dsimp only <;> repeat' split
  all_goals first | rfl | exact hk

/-- The rise time in fast mode is the shorter one. -/
theorem crise_mem : s.crise g ∈ I2cCounter.range g .trise := by
  simp only [crise, I2cCounter.range, Set.mem_Icc, I2cGenerics.criseFm, I2cGenerics.criseSm]
  split <;> omega

/-- The counters of the I2C master; the process has no variables. -/
def counters : Signals (machine g) I2cCounter Empty ℤ where
  value := counter
  assigned s i k := if i.sreset then [0] else s.counts g k
  range := I2cCounter.range g
  computed _ _ := nofun
  computedRange := nofun
  init_mem k := by cases k <;> exact I2cCounter.zero_mem g _
  value_next s i k := by
    change (s.clock g i).counter k = _
    rw [clock]
    cases i.sreset with
    | true => cases k <;> rfl
    | false => exact s.counter_transmit g (s.counter_access i.request i.scl i.sda) k

/-- Twice the largest baud value fits in the bit timer. -/
theorem loads_mem (c : I2cControl) : c.lowBit ∈ Set.Icc 0 (2 ^ 17 - 1) ∧
    c.highBit ∈ Set.Icc 0 (2 ^ 17 - 1) := by
  have hbaud : c.baud.toNat ≤ 65535 := Nat.le_of_lt_succ c.baud.isLt
  simp only [I2cControl.lowBit, I2cControl.highBit, Set.mem_Icc]
  constructor
  · split <;> omega
  · omega

/-- Whatever is in the registers and on the lines, a clock assigns no value outside a range. -/
theorem legal_of_within (i : I2cInput) (h : (counters g).Within s) :
    (counters g).Legal s i := by
  obtain ⟨hlow, hhigh⟩ := loads_mem s.ctrl
  have hrise := s.crise_mem g
  constructor
  · intro k
    have hk : s.counter k ∈ k.range g := h k
    simp only [counters]
    split_ifs
    · simpa using I2cCounter.zero_mem g k
    · cases k
      all_goals
        simp only [counter, I2cCounter.range, Set.mem_Icc] at hk hlow hhigh hrise ⊢
        rw [counts]
        cases s.state <;> dsimp only <;> repeat' split
      all_goals simp
      all_goals omega
  · exact nofun

end I2c

/-! ## CRC unit -/

namespace Crc

variable (s : Crc)

/-- The values that the bus and the generator assign to the counter in a clock without reset. -/
def counts (q : MemRequest) : List ℤ :=
  (if writesData q then [7] else []) ++ if 0 < s.counter then [s.counter - 1] else []

theorem access_counter (q : MemRequest) :
    (s.access q).counter = if writesData q then 7 else s.counter := by
  rw [access, writesData]
  cases q.wren with
  | false =>
    rw [if_neg Bool.false_ne_true, Bool.and_false, if_neg Bool.false_ne_true]
    split <;> rfl
  | true =>
    rw [if_pos rfl, Bool.and_true]
    split
    · next h => rw [MemRequest.selects_of_ne h (by decide)]; rfl
    · split
      · next h => rw [MemRequest.selects_of_ne h (by decide)]; rfl
      · split
        · next h => rw [MemRequest.selects_of_ne h (by decide)]; rfl
        · split
          · next h => rw [MemRequest.selects_of_ne h (by decide)]; rfl
          · split <;> rfl

/-- The bit counter, which is declared in the range 0 to 8; the process has no variables. -/
def counters : Signals machine Unit Empty ℤ where
  value s _ := s.counter
  assigned s i _ := if i.sreset then [0] else s.counts i.request
  range _ := Set.Icc 0 8
  computed _ _ := nofun
  computedRange := nofun
  init_mem _ := ⟨by decide, by decide⟩
  value_next s i _ := by
    change (s.clock i).counter = _
    rw [clock]
    cases i.sreset with
    | true => rfl
    | false =>
      simp only [Bool.false_eq_true, if_false]
      rw [generate, counts]
      have h := s.access_counter i.request
      split
      · simp
      · rw [h]
        split <;> simp

theorem legal_of_within (i : CrcInput) (h : counters.Within s) : counters.Legal s i := by
  have hk : s.counter ∈ Set.Icc 0 8 := h ()
  constructor
  · intro _
    simp only [counters]
    split_ifs
    · simp
    · rw [counts]
      rw [Set.mem_Icc] at hk
      repeat' split
      all_goals simp
      all_goals omega
  · exact nofun

end Crc

/-- In every run of the UART in which each transmission that starts has at most eleven bits, and in
all runs of the other serial devices, no clock assigns a value outside the declared range of an
integer signal or variable. -/
theorem serial_counters_in_range (g : UartGenerics) (f : I2cGenerics) :
    (∀ u, (Uart.machine g).Reachable Uart.StartFits u →
        (Uart.counters g).Within u ∧ ∀ i, (Uart.counters g).Legal u i ↔ u.StartFits i) ∧
      (∀ s, Spi.machine.Reachable Machine.free s →
        Spi.counters.Within s ∧ ∀ i, Spi.counters.Legal s i) ∧
      (∀ s, (I2c.machine f).Reachable Machine.free s →
        (I2c.counters f).Within s ∧ ∀ i, (I2c.counters f).Legal s i) ∧
      ∀ s, Crc.machine.Reachable Machine.free s →
        Crc.counters.Within s ∧ ∀ i, Crc.counters.Legal s i := by
  refine ⟨?_, ?_, ?_, ?_⟩
  · intro u h
    have hin := Signals.within_of_reachable (R := Uart.counters g)
      (fun s i hs hfits => (Uart.legal_iff g s i hs).mpr hfits) h
    exact ⟨hin, fun i => Uart.legal_iff g u i hin⟩
  · intro s h
    have hin := Signals.within_of_reachable (R := Spi.counters)
      (fun s i hs _ => s.legal_of_within i hs) h
    exact ⟨hin, fun i => s.legal_of_within i hin⟩
  · intro s h
    have hin := Signals.within_of_reachable (R := I2c.counters f)
      (fun s i hs _ => s.legal_of_within f i hs) h
    exact ⟨hin, fun i => s.legal_of_within f i hin⟩
  · intro s h
    have hin := Signals.within_of_reachable (R := Crc.counters)
      (fun s i hs _ => s.legal_of_within i hs) h
    exact ⟨hin, fun i => s.legal_of_within i hin⟩

/-- A control word and a character are written to the UART, and one more clock passes. -/
def Uart.sendOne (control data : DataType) : List UartInput :=
  [⟨UartLink.store 0 control, false, true⟩, ⟨UartLink.store 8 data, false, true⟩,
    ⟨UartLink.noAccess, false, true⟩]

/-- Nine data bits and one stop bit fill the shift counter. -/
theorem nine_bits_stay_in_range :
    let u := (Uart.machine ⟨false, false⟩).run (Uart.sendOne 0x5 0x155)
    (Uart.counters ⟨false, false⟩).Within u ∧ u.counter .txshiftcounter = 10 :=
  ⟨((serial_counters_in_range ⟨false, false⟩ ⟨50000000⟩).1 _
    (Machine.Reachable.init.runFrom_of_meets (by decide +kernel))).1, by decide +kernel⟩

/-- Nine data bits, a parity bit and two stop bits load the shift counter with twelve. -/
theorem twelve_is_assigned_to_txshiftcounter :
    ¬∀ (g : UartGenerics) (u : Uart), (Uart.machine g).Reachable Machine.free u →
      ∀ i, (Uart.counters g).Legal u i := by
  intro h
  have hl := h ⟨false, false⟩ ((Uart.machine ⟨false, false⟩).run
    ((Uart.sendOne 0x145 0x155).take 2)) (Machine.reachable_run _) ⟨UartLink.noAccess, false, true⟩
  have hv := (hl.signals .txshiftcounter 12 (by decide +kernel)).2
  exact absurd hv (by decide)

end ThuasRiscv
