import ThuasRiscv.Io.UartFrame

/-!
# Timing of the UART

Transmitter and receiver in every clock of a frame, for every baud prescaler.
The transmitter shifts out one bit in each period. The receiver sees the line
two clocks later, qualifies the start bit after half a bit time and from there
on samples once in each period, one clock past the half of the bit.
-/

namespace ThuasRiscv

namespace UartControl

/-- What two devices must agree on besides the baud rate. -/
def format (c : UartControl) : UartControl :=
  { c with
    en := true
    rcie := false
    tcie := false
    brie := false }

end UartControl

/-- The format of the characters on a line. -/
structure UartFormat where
  ctrl : UartControl
  baud : BitVec 16
  deriving DecidableEq

namespace UartFormat

variable (f : UartFormat) (ch : BitVec 9)

/-- Number of clocks of one bit. -/
def period : ℕ := f.baud.toNat + 1

/-- The line, counted from the first clock of the start bit. -/
def wave (t : ℕ) : Bool := f.ctrl.level ch (t / f.period)

/-- The line as seen through a number of registers. -/
def delayed (k t : ℕ) : Bool := if t < k then true else f.wave ch (t - k)

theorem wave_bit {m x : ℕ} (hx : x < f.period) :
    f.wave ch (m * f.period + x) = f.ctrl.level ch m := by
  rw [wave, Nat.mul_comm, Nat.mul_add_div (by omega), Nat.div_eq_of_lt hx, Nat.add_zero]

theorem delayed_bit {t m x : ℕ} (hx : x < f.period) (ht : t = m * f.period + x + 2) :
    f.delayed ch 2 t = f.ctrl.level ch m := by
  rw [delayed, if_neg (by omega), ht, Nat.add_sub_cancel, f.wave_bit ch hx]

theorem delayed_succ (k t : ℕ) : f.delayed ch (k + 1) (t + 1) = f.delayed ch k t := by
  rw [delayed, delayed, Nat.add_sub_add_right]
  congr 1
  exact propext Nat.succ_lt_succ_iff

/-- Number of bits from the start bit up to the (first) stop bit. -/
def stopBit : ℕ := f.ctrl.dataBits + 1 + f.ctrl.paron.toNat

theorem wave_stop {t : ℕ} (ht : f.stopBit * f.period ≤ t) : f.wave ch t = true :=
  f.ctrl.level_stop ch ((Nat.le_div_iff_mul_le (by unfold period; omega)).mpr ht)

theorem delayed_stop {k t : ℕ} (ht : f.stopBit * f.period + k ≤ t) :
    f.delayed ch k t = true := by
  rw [delayed]
  split_ifs
  · rfl
  · exact f.wave_stop ch (by omega)

theorem shiftCount_eq : f.ctrl.shiftCount = f.stopBit + f.ctrl.sp2.toNat := by
  rw [UartControl.shiftCount, stopBit]
  cases f.ctrl.paron <;> cases f.ctrl.sp2 <;> rfl

theorem stopBit_le : f.stopBit ≤ 11 := by
  have hpar : f.ctrl.paron.toNat ≤ 1 := Bool.toNat_le _
  rcases f.ctrl.dataBits_cases with ⟨-, h⟩ | ⟨-, -, h⟩ | ⟨-, -, h⟩ <;> rw [stopBit, h] <;> omega

/-- The line is high after the last bit of the transmitter. -/
theorem wave_rest {t : ℕ} (ht : (f.ctrl.shiftCount + 1) * f.period ≤ t) : f.wave ch t = true := by
  apply f.wave_stop ch
  have hle : f.stopBit ≤ f.ctrl.shiftCount + 1 := by rw [shiftCount_eq]; omega
  exact (Nat.mul_le_mul_right _ hle).trans ht

/-- The clock of the frame in which the receiver completes the character. -/
def lastClock : ℕ := 4 + f.baud.toNat / 2 + f.stopBit * f.period

/-- The receiver completes a character at most two clocks after the transmitter is idle again. -/
theorem lastClock_le (hbaud : 1 ≤ f.baud.toNat) :
    f.lastClock ≤ (f.ctrl.shiftCount + 1) * f.period + 2 := by
  have hbits : (f.stopBit + 1) * f.period ≤ (f.ctrl.shiftCount + 1) * f.period :=
    Nat.mul_le_mul_right _ (by rw [shiftCount_eq]; omega)
  rw [Nat.succ_mul] at hbits
  rw [lastClock]
  have hperiod : f.period = f.baud.toNat + 1 := rfl
  omega

theorem lastClock_bound : f.lastClock ≤ 12 * f.period + 4 := by
  have hbits := Nat.mul_le_mul_right f.period f.stopBit_le
  have hperiod : f.period = f.baud.toNat + 1 := rfl
  rw [lastClock]
  omega

end UartFormat

namespace Uart

/-- The transmitter waits for a write to the data register. -/
def txIdle (u : Uart) : Bool := u.tx.txstate = .txIdle && !u.tx.txstart

/-- A transmission starts. -/
def starts (u : Uart) : Bool := u.tx.txstate = .txIdle && u.tx.txstart && u.ctrl.en

/-- A write to the control or the baud rate register. -/
def writesSetup (q : MemRequest) : Bool := writesControl q || writesBaud q

/-- The format that a device is set to. -/
def format (u : Uart) : UartFormat := ⟨u.ctrl.format, u.baud⟩

section Format

variable {u : Uart} {f : UartFormat} (h : u.format = f)
include h

theorem dataBits_of_format : u.ctrl.dataBits = f.ctrl.dataBits := by subst h; rfl
theorem paron_of_format : u.ctrl.paron = f.ctrl.paron := by subst h; rfl
theorem parnevenodd_of_format : u.ctrl.parnevenodd = f.ctrl.parnevenodd := by subst h; rfl
theorem shiftCount_of_format : u.ctrl.shiftCount = f.ctrl.shiftCount := by subst h; rfl
theorem baud_of_format : u.baud = f.baud := by subst h; rfl

end Format

/-! ## Transmitter -/

/-- The transmitter in clock `t` of a frame. -/
inductive TxAt (f : UartFormat) (ch : BitVec 9) (n : UartTx) : ℕ → Prop
  | send (m x : ℕ) (hm : m ≤ f.ctrl.shiftCount) (hx : x ≤ f.baud.toNat)
      (hstart : n.txstart = false) (hstate : n.txstate = .txIter)
      (htimer : n.txbittimer + x = f.baud.toNat)
      (hcount : n.txshiftcounter + m = f.ctrl.shiftCount)
      (hbits : ∀ i < 11, n.txbuffer.getLsbD i = f.ctrl.level ch (m + i)) :
      TxAt f ch n (m * f.period + x)
  | ready (hstart : n.txstart = false) (hstate : n.txstate = .txReady) :
      TxAt f ch n ((f.ctrl.shiftCount + 1) * f.period)
  | rest (t : ℕ) (ht : (f.ctrl.shiftCount + 1) * f.period < t) (hstart : n.txstart = false)
      (hstate : n.txstate = .txIdle) : TxAt f ch n t

variable {f : UartFormat} {ch : BitVec 9} {u : Uart} {q : MemRequest}

theorem TxAt.txd {t : ℕ} (h : TxAt f ch u.tx t) : u.nextTxd = f.wave ch t := by
  cases h with
  | send m x hm hx hstart hstate htimer hcount hbits =>
    rw [nextTxd, hstate, f.wave_bit ch (by unfold UartFormat.period; omega)]
    exact hbits 0 (by omega)
  | ready hstart hstate => rw [nextTxd, hstate, f.wave_rest ch le_rfl]
  | rest t ht hstart hstate => rw [nextTxd, hstate, f.wave_rest ch ht.le]

/-- A buffer shifted by one bit holds the frame from the next bit on. -/
theorem level_shifted {n : UartTx} {m : ℕ}
    (hbits : ∀ i < 11, n.txbuffer.getLsbD i = f.ctrl.level ch (m + i)) (i : ℕ) (hi : i < 11) :
    (1#1 ++ n.txbuffer.extractLsb' 1 10).getLsbD i = f.ctrl.level ch (m + 1 + i) := by
  rw [BitVec.getLsbD_append, BitVec.getLsbD_extractLsb']
  by_cases hlast : i = 10
  · have hstop : f.stopBit ≤ m + 1 + i := by have := f.stopBit_le; omega
    rw [f.ctrl.level_stop ch hstop, hlast]
    rfl
  · have hlow : i < 10 := by omega
    rw [if_pos hlow, decide_eq_true hlow, Bool.true_and, hbits (1 + i) (by omega), Nat.add_assoc]

/-- The transmitter idles again after the last bit. -/
theorem TxAt.rest_of_txIdle {n : UartTx} {t : ℕ} (h : TxAt f ch n t)
    (hidle : n.txstate = .txIdle) : (f.ctrl.shiftCount + 1) * f.period < t := by
  cases h with
  | send m x hm hx hstart hstate => exact absurd (hstate.symm.trans hidle) UartTxState.noConfusion
  | ready hstart hstate => exact absurd (hstate.symm.trans hidle) UartTxState.noConfusion
  | rest t ht hstart hstate => exact ht

theorem TxAt.next {t : ℕ} (h : TxAt f ch u.tx t) (hf : u.format = f)
    (hq : writesData q = false) : TxAt f ch (u.nextTx q) (t + 1) := by
  have hbus : u.busTx q = { u.tx with txstart := false } := by
    rw [busTx, hq, if_neg Bool.false_ne_true]
  cases h with
  | send m x hm hx hstart hstate htimer hcount hbits =>
    by_cases hlast : x = f.baud.toNat
    · have hzero : u.tx.txbittimer = 0 := by omega
      by_cases hend : m = f.ctrl.shiftCount
      · have hnext : u.nextTx q = { u.tx with txstart := false, txstate := .txReady } := by
          simp [nextTx, hstate, hbus, hzero, show u.tx.txshiftcounter = 0 by omega]
        have ht : m * f.period + x + 1 = (f.ctrl.shiftCount + 1) * f.period := by
          rw [hend, hlast, Nat.succ_mul, UartFormat.period]
          omega
        rw [ht, hnext]
        exact .ready rfl rfl
      · have hnext : u.nextTx q =
            { u.tx with
              txstart := false
              txbittimer := u.baud.toNat
              txshiftcounter := u.tx.txshiftcounter - 1
              txbuffer := 1#1 ++ u.tx.txbuffer.extractLsb' 1 10 } := by
          simp [nextTx, hstate, hbus, hzero, show 0 < u.tx.txshiftcounter by omega]
        have ht : m * f.period + x + 1 = (m + 1) * f.period + 0 := by
          rw [hlast, Nat.succ_mul, UartFormat.period]
          omega
        rw [ht, hnext, baud_of_format hf]
        exact .send (m + 1) 0 (by omega) (by omega) rfl hstate rfl
          (by simp only; omega) (level_shifted hbits)
    · have hnext : u.nextTx q =
          { u.tx with txstart := false, txbittimer := u.tx.txbittimer - 1 } := by
        simp [nextTx, hstate, hbus, show 0 < u.tx.txbittimer by omega]
      rw [hnext, Nat.add_assoc]
      exact .send m (x + 1) hm (by omega) rfl hstate (by simp only; omega) hcount hbits
  | ready hstart hstate =>
    have hnext : u.nextTx q = { u.tx with txstart := false, txstate := .txIdle } := by
      simp [nextTx, hstate, hbus]
    rw [hnext]
    exact .rest _ (by omega) rfl rfl
  | rest t ht hstart hstate =>
    have hnext : u.nextTx q = { u.tx with txstart := false } := by
      simp [nextTx, hstate, hbus, hstart]
    rw [hnext]
    exact .rest _ (by omega) rfl hstate

/-! ## Receiver -/

/-- The first `m` data bits have been shifted in. -/
def Holds (f : UartFormat) (ch : BitVec 9) (m : ℕ) (rxbuffer : BitVec 9) : Prop :=
  ∀ i < 9, rxbuffer.getLsbD i =
    (decide (i < f.ctrl.dataBits) && (decide (f.ctrl.dataBits ≤ i + m) &&
      ch.getLsbD (i + m - f.ctrl.dataBits)))

theorem holds_zero : Holds f ch 0 0 := by
  intro i hi
  rw [show (0 : BitVec 9).getLsbD i = false from BitVec.getLsbD_zero]
  grind

theorem Holds.shiftIn {m : ℕ} {x : BitVec 9} (h : Holds f ch m x) (hm : m < f.ctrl.dataBits)
    (hf : u.format = f) :
    Holds f ch (m + 1) (u.ctrl.shiftIn (f.ctrl.level ch (m + 1)) x) := by
  intro i hi
  rw [UartControl.getLsbD_shiftIn _ _ _ hi, dataBits_of_format hf]
  have hlevel : f.ctrl.level ch (m + 1) = ch.getLsbD m := by
    rw [UartControl.level, if_neg (by omega), if_pos (by omega), Nat.add_sub_cancel]
  have hsame := h i hi
  have hnext := h (i + 1)
  have hle := f.ctrl.dataBits_le
  grind

/-- All data bits have been shifted in. -/
theorem Holds.eq {x : BitVec 9} (h : Holds f ch f.ctrl.dataBits x)
    (hch : ∀ i, f.ctrl.dataBits ≤ i → ch.getLsbD i = false) : x = ch := by
  apply BitVec.eq_of_getLsbD_eq
  intro i hi
  rw [h i hi, Nat.add_sub_cancel]
  have := hch i
  grind

/-- The receiver in clock `t` of a frame: it sees the line two clocks later than the transmitter
shifts it out. -/
inductive RxAt (f : UartFormat) (ch : BitVec 9) (n : UartRx) : ℕ → Prop
  | before (t : ℕ) (ht : t ≤ 2) (hstate : n.rxstate = .rxIdle) : RxAt f ch n t
  | wait (x : ℕ) (hx : x ≤ f.baud.toNat / 2) (hstate : n.rxstate = .rxWait)
      (htimer : n.rxbittimer + x = f.baud.toNat / 2) : RxAt f ch n (3 + x)
  | iter (m x : ℕ) (hm : m ≤ f.ctrl.dataBits) (hx : x ≤ f.baud.toNat)
      (hstate : n.rxstate = .rxIter) (htimer : n.rxbittimer + x = f.baud.toNat)
      (hcount : n.rxshiftcounter + m = f.ctrl.dataBits) (hbits : Holds f ch m n.rxbuffer) :
      RxAt f ch n (4 + f.baud.toNat / 2 + m * f.period + x)
  | parity (x : ℕ) (hpar : f.ctrl.paron = true) (hx : x ≤ f.baud.toNat)
      (hstate : n.rxstate = .rxParity) (htimer : n.rxbittimer + x = f.baud.toNat)
      (hbits : n.rxbuffer = ch) :
      RxAt f ch n (4 + f.baud.toNat / 2 + (f.ctrl.dataBits + 1) * f.period + x)
  | ready (hstate : n.rxstate = .rxReady) (hbits : n.rxbuffer = ch) : RxAt f ch n f.lastClock
  | rest (t : ℕ) (ht : f.lastClock < t) (hstate : n.rxstate = .rxIdle) : RxAt f ch n t

/-- The input synchronizer. -/
theorem rxdSync_nextRx (rxd : Bool) : (u.nextRx rxd).rxdSync = rxd := by
  rw [nextRx]
  split <;> try rfl
  all_goals split_ifs <;> rfl

/-- The line at the stop bit is no break. -/
theorem not_isBreak (h : u.rx.rxdSync = true) : u.isBreak = false := by
  rw [isBreak, h]
  rfl

section Next

variable (hf : u.format = f) (rxd : Bool)
include hf

theorem RxAt.next_iter {m x : ℕ} (hch : ∀ i, f.ctrl.dataBits ≤ i → ch.getLsbD i = false)
    (hbaud : 1 ≤ f.baud.toNat) (hm : m ≤ f.ctrl.dataBits) (hx : x ≤ f.baud.toNat)
    (hstate : u.rx.rxstate = .rxIter) (htimer : u.rx.rxbittimer + x = f.baud.toNat)
    (hcount : u.rx.rxshiftcounter + m = f.ctrl.dataBits) (hbits : Holds f ch m u.rx.rxbuffer)
    (hline : u.rx.rxdSync = f.delayed ch 2 (4 + f.baud.toNat / 2 + m * f.period + x)) :
    RxAt f ch (u.nextRx rxd) (4 + f.baud.toNat / 2 + m * f.period + x + 1) := by
  by_cases hlast : x = f.baud.toNat
  · have hzero : u.rx.rxbittimer = 0 := by omega
    have ht : 4 + f.baud.toNat / 2 + m * f.period + x + 1 =
        4 + f.baud.toNat / 2 + (m + 1) * f.period := by
      rw [hlast, Nat.succ_mul, UartFormat.period]
      omega
    by_cases hend : m = f.ctrl.dataBits
    · have hfull : u.rx.rxbuffer = ch := Holds.eq (hend ▸ hbits) hch
      have hcounter : u.rx.rxshiftcounter = 0 := by omega
      rw [ht, hend]
      by_cases hpar : f.ctrl.paron = true
      · have hnext : u.nextRx rxd =
            { u.rx with rxdSync := rxd, rxstate := .rxParity, rxbittimer := u.baud.toNat } := by
          simp [nextRx, hstate, hzero, hcounter, paron_of_format hf, hpar]
        rw [hnext, baud_of_format hf]
        exact .parity 0 hpar (by omega) rfl rfl hfull
      · have hnext : u.nextRx rxd = { u.rx with rxdSync := rxd, rxstate := .rxReady } := by
          simp [nextRx, hstate, hzero, hcounter, paron_of_format hf, hpar]
        have hstop : f.ctrl.dataBits + 1 = f.stopBit := by
          rw [UartFormat.stopBit, Bool.eq_false_iff.mpr hpar]
          rfl
        rw [hnext, hstop]
        exact .ready rfl hfull
    · have hnext : u.nextRx rxd =
          { u.rx with
            rxdSync := rxd
            rxbittimer := u.baud.toNat
            rxshiftcounter := u.rx.rxshiftcounter - 1
            rxbuffer := u.ctrl.shiftIn u.rx.rxdSync u.rx.rxbuffer } := by
        simp [nextRx, hstate, hzero, show 0 < u.rx.rxshiftcounter by omega]
      have hsample : u.rx.rxdSync = f.ctrl.level ch (m + 1) := by
        have hin : 1 + f.baud.toNat / 2 < f.period := by rw [UartFormat.period]; omega
        exact hline.trans (f.delayed_bit ch hin (by omega))
      rw [ht, hnext, baud_of_format hf, hsample]
      exact .iter (m + 1) 0 (by omega) (by omega) hstate rfl (by simp only; omega)
        (hbits.shiftIn (by omega) hf)
  · have hnext : u.nextRx rxd =
        { u.rx with rxdSync := rxd, rxbittimer := u.rx.rxbittimer - 1 } := by
      simp [nextRx, hstate, show 0 < u.rx.rxbittimer by omega]
    rw [hnext]
    exact .iter m (x + 1) hm (by omega) hstate (by simp only; omega) hcount hbits

theorem RxAt.next {t : ℕ} (h : RxAt f ch u.rx t) (hen : u.ctrl.en = true)
    (hch : ∀ i, f.ctrl.dataBits ≤ i → ch.getLsbD i = false) (hbaud : 1 ≤ f.baud.toNat)
    (hline : u.rx.rxdSync = f.delayed ch 2 t) : RxAt f ch (u.nextRx rxd) (t + 1) := by
  have hin : 1 + f.baud.toNat / 2 < f.period := by rw [UartFormat.period]; omega
  cases h with
  | before t ht hstate =>
    by_cases hlow : t = 2
    · have hsample : u.rx.rxdSync = false :=
        hline.trans (f.delayed_bit (m := 0) (x := 0) ch (by omega) (by omega))
      have hnext : u.nextRx rxd =
          { u.rx with rxdSync := rxd, rxbittimer := u.baud.toNat / 2, rxstate := .rxWait } := by
        simp [nextRx, hstate, hsample, hen]
      rw [hnext, hlow, baud_of_format hf]
      exact .wait 0 (by omega) rfl rfl
    · have hsample : u.rx.rxdSync = true := by rw [hline, UartFormat.delayed, if_pos (by omega)]
      have hnext : u.nextRx rxd = { u.rx with rxdSync := rxd } := by
        simp [nextRx, hstate, hsample]
      rw [hnext]
      exact .before _ (by omega) hstate
  | wait x hx hstate htimer =>
    by_cases hlast : x = f.baud.toNat / 2
    · have hsample : u.rx.rxdSync = false :=
        hline.trans (f.delayed_bit (m := 0) ch hin (by omega))
      have hnext : u.nextRx rxd =
          { u.rx with
            rxdSync := rxd
            rxbuffer := 0
            rxbittimer := u.baud.toNat
            rxshiftcounter := u.ctrl.dataBits
            rxstate := .rxIter } := by
        simp [nextRx, hstate, hsample, show u.rx.rxbittimer = 0 by omega]
      have ht : 3 + x + 1 = 4 + f.baud.toNat / 2 + 0 * f.period + 0 := by omega
      rw [hnext, ht, baud_of_format hf, dataBits_of_format hf]
      exact .iter 0 0 (by omega) (by omega) rfl rfl rfl holds_zero
    · have hnext : u.nextRx rxd =
          { u.rx with rxdSync := rxd, rxbuffer := 0, rxbittimer := u.rx.rxbittimer - 1 } := by
        simp [nextRx, hstate, show 0 < u.rx.rxbittimer by omega]
      rw [hnext]
      exact .wait (x + 1) (by omega) hstate (by simp only; omega)
  | iter m x hm hx hstate htimer hcount hbits =>
    exact RxAt.next_iter hf rxd hch hbaud hm hx hstate htimer hcount hbits hline
  | parity x hpar hx hstate htimer hbits =>
    by_cases hlast : x = f.baud.toNat
    · have hnext : u.nextRx rxd = { u.rx with rxdSync := rxd, rxstate := .rxReady } := by
        simp [nextRx, hstate, show u.rx.rxbittimer = 0 by omega]
      have ht : 4 + f.baud.toNat / 2 + (f.ctrl.dataBits + 1) * f.period + x + 1 = f.lastClock := by
        rw [UartFormat.lastClock, UartFormat.stopBit, hpar, Bool.toNat_true, hlast,
          Nat.succ_mul (f.ctrl.dataBits + 1)]
        rw [UartFormat.period]
        omega
      rw [hnext, ht]
      exact .ready rfl hbits
    · have hnext : u.nextRx rxd =
          { u.rx with rxdSync := rxd, rxbittimer := u.rx.rxbittimer - 1 } := by
        simp [nextRx, hstate, show 0 < u.rx.rxbittimer by omega]
      rw [hnext]
      exact .parity (x + 1) hpar (by omega) hstate (by simp only; omega) hbits
  | ready hstate hbits =>
    have hsample : u.rx.rxdSync = true :=
      hline.trans (f.delayed_stop ch (by rw [UartFormat.lastClock]; omega))
    have hnext : u.nextRx rxd = { u.rx with rxdSync := rxd, rxstate := .rxIdle } := by
      simp [nextRx, hstate, not_isBreak hsample]
    rw [hnext]
    exact .rest _ (by omega) rfl
  | rest t ht hstate =>
    have hsample : u.rx.rxdSync = true :=
      hline.trans (f.delayed_stop ch (by rw [UartFormat.lastClock] at ht; omega))
    have hnext : u.nextRx rxd = { u.rx with rxdSync := rxd } := by
      simp [nextRx, hstate, hsample]
    rw [hnext]
    exact .rest _ (by omega) hstate

end Next

/-- The receiver before, in and after the clock in which it completes the character. -/
theorem RxAt.phase {n : UartRx} {t : ℕ} (h : RxAt f ch n t) :
    t < f.lastClock ∧ n.rxstate ≠ .rxReady ∧ (n.rxstate = .rxIdle → t ≤ 2) ∨
    t = f.lastClock ∧ n.rxstate = .rxReady ∧ n.rxbuffer = ch ∨
    f.lastClock < t ∧ n.rxstate = .rxIdle := by
  have hstop : (f.ctrl.dataBits + 1) * f.period ≤ f.stopBit * f.period :=
    Nat.mul_le_mul_right _ (by rw [UartFormat.stopBit]; omega)
  cases h with
  | before t ht hstate =>
    refine .inl ⟨by rw [UartFormat.lastClock]; omega, ?_, fun _ => ht⟩
    rw [hstate]
    exact UartRxState.noConfusion
  | wait x hx hstate htimer =>
    refine .inl ⟨by rw [UartFormat.lastClock]; omega, ?_, ?_⟩ <;> rw [hstate] <;>
      exact UartRxState.noConfusion
  | iter m x hm hx hstate htimer hcount hbits =>
    have hbit : m * f.period + x < (f.ctrl.dataBits + 1) * f.period := by
      have hle := Nat.mul_le_mul_right f.period hm
      rw [Nat.succ_mul, UartFormat.period] at *
      omega
    refine .inl ⟨by rw [UartFormat.lastClock]; omega, ?_, ?_⟩ <;> rw [hstate] <;>
      exact UartRxState.noConfusion
  | parity x hpar hx hstate htimer hbits =>
    have hbit : (f.ctrl.dataBits + 1) * f.period + x < f.stopBit * f.period := by
      rw [UartFormat.stopBit, hpar, Bool.toNat_true, Nat.succ_mul (f.ctrl.dataBits + 1),
        UartFormat.period]
      omega
    refine .inl ⟨by rw [UartFormat.lastClock]; omega, ?_, ?_⟩ <;> rw [hstate] <;>
      exact UartRxState.noConfusion
  | ready hstate hbits => exact .inr (.inl ⟨rfl, hstate, hbits⟩)
  | rest t ht hstate => exact .inr (.inr ⟨ht, hstate⟩)

theorem RxAt.rxstate_rest {n : UartRx} {t : ℕ} (h : RxAt f ch n t) (ht : f.lastClock < t) :
    n.rxstate = .rxIdle := by
  rcases h.phase with ⟨hlt, -⟩ | ⟨heq, -⟩ | ⟨-, hstate⟩
  · omega
  · omega
  · exact hstate

section Line

variable {t : ℕ} (h : RxAt f ch u.rx t)
include h

theorem RxAt.completes (hline : u.rx.rxdSync = f.delayed ch 2 t) :
    u.completes = decide (t = f.lastClock) := by
  rcases h.phase with ⟨hlt, hstate, -⟩ | ⟨heq, hstate, -⟩ | ⟨hlt, hstate⟩
  · rw [Uart.completes, decide_eq_false hstate, decide_eq_false hlt.ne, Bool.false_and]
  · have hsample : u.rx.rxdSync = true :=
      hline.trans (f.delayed_stop ch (by rw [heq, UartFormat.lastClock]; omega))
    rw [Uart.completes, hstate, not_isBreak hsample, decide_eq_true heq]
    rfl
  · rw [Uart.completes, hstate, decide_eq_false hlt.ne']
    rfl

theorem RxAt.nextData (ht : t = f.lastClock) : u.nextData.setWidth 9 = ch := by
  rcases h.phase with ⟨hlt, -⟩ | ⟨-, hstate, hbits⟩ | ⟨hlt, -⟩
  · omega
  · rw [Uart.nextData, hstate, ← hbits]
    exact BitVec.setWidth_setWidth_of_le _ (by omega)
  · omega

theorem RxAt.raisesError (hf : u.format = f)
    (hch : ∀ i, f.ctrl.dataBits ≤ i → ch.getLsbD i = false)
    (hbaud : 1 ≤ f.baud.toNat) (hline : u.rx.rxdSync = f.delayed ch 2 t) :
    u.raisesError = false := by
  cases h with
  | before t ht hstate => rw [Uart.raisesError, received, hstate]; rfl
  | wait x hx hstate htimer => rw [Uart.raisesError, received, hstate]; rfl
  | iter m x hm hx hstate htimer hcount hbits =>
    rw [Uart.raisesError, received, hstate]
    by_cases hend : u.rx.rxbittimer = 0 ∧ u.rx.rxshiftcounter = 0 ∧ u.ctrl.paron = true
    · have hm' : m = f.ctrl.dataBits := by omega
      have hfull : u.rx.rxbuffer = ch := Holds.eq (hm' ▸ hbits) hch
      have hsample : u.rx.rxdSync = f.ctrl.level ch (f.ctrl.dataBits + 1) := by
        have hin : 1 + f.baud.toNat / 2 < f.period := by rw [UartFormat.period]; omega
        apply hline.trans (f.delayed_bit ch hin _)
        rw [hm', Nat.succ_mul, UartFormat.period]
        omega
      have hpar : u.parityError = false := by
        rw [parityError, hfull, hsample, UartControl.level_parity, parnevenodd_of_format hf,
          if_pos ((paron_of_format hf).symm.trans hend.2.2), xorReduce_append,
          xorReduce_ofBool, Bool.xor_self]
      simp only [if_pos hend, hpar]
      rfl
    · simp only [if_neg hend]
      rfl
  | parity x hpar hx hstate htimer hbits => rw [Uart.raisesError, received, hstate]; rfl
  | ready hstate hbits =>
    have hsample : u.rx.rxdSync = true :=
      hline.trans (f.delayed_stop ch (by rw [UartFormat.lastClock]; omega))
    rw [Uart.raisesError, received, hstate, not_isBreak hsample, hsample]
    rfl
  | rest t ht hstate => rw [Uart.raisesError, received, hstate]; rfl

end Line

end Uart

end ThuasRiscv
