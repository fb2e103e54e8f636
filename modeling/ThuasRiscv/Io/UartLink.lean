import ThuasRiscv.Io.UartTiming
import ThuasRiscv.Transition

/-!
# Characters over a serial line

The transmitter of one device drives the receiver of another, or of itself. All
characters but the last two have always arrived; the last one is found at its
clock of the frame in both devices, and the one before it at most in the last
two clocks of the receiver. The shift counter of the transmitter is declared
for frames of at most 11 bits.
-/

namespace ThuasRiscv

/-- The transmitter of one device is connected to the receiver of another. -/
structure UartLink where
  transmitter : Uart
  receiver : Uart

/-- The bus requests to the two devices, and the line that the transmitting device receives. -/
structure LinkInput where
  transmit : MemRequest
  receive : MemRequest
  rxd : Bool

/-- What has been sent over a line and what has arrived. -/
structure Traffic where
  sent : List (BitVec 9)
  completed : List (BitVec 9)
  raised : Bool

namespace UartLink

open Transition

variable (g : UartGenerics) (s : UartLink) (i : LinkInput) (t : Traffic)

def step : UartLink where
  transmitter := s.transmitter.clock g i.transmit false i.rxd
  receiver := s.receiver.clock g i.receive false s.transmitter.txd

/-- The characters written to the transmitter, those that the receiver completes, and whether an
error flag was raised. -/
def traffic : Traffic where
  sent := if Uart.writesData i.transmit then
      t.sent ++ [s.transmitter.ctrl.character i.transmit.data] else t.sent
  completed := if s.receiver.completes then
      t.completed ++ [s.receiver.nextData.setWidth 9] else t.completed
  raised := t.raised || s.receiver.raisesError

/-- The link with an observer of the traffic. -/
def observed : Machine (UartLink × Traffic) LinkInput :=
  (Machine.mk ⟨.reset, .reset⟩ (step g)).observe ⟨[], [], false⟩ traffic

/-- Nothing is on the line. -/
def quiet : Bool :=
  s.transmitter.txIdle && s.transmitter.txd && s.receiver.rx.rxdSync &&
    s.receiver.rx.rxstate = .rxIdle

/-- Characters are written when the transmitter is idle and both devices are enabled and configured
equally; the configuration changes only when nothing is on the line. -/
structure Legal : Prop where
  idle : Uart.writesData i.transmit = true → s.transmitter.txIdle = true
  enabled : Uart.writesData i.transmit = true →
    s.transmitter.ctrl.en = true ∧ s.receiver.ctrl.en = true
  equal : Uart.writesData i.transmit = true → s.receiver.format = s.transmitter.format
  baud : Uart.writesData i.transmit = true → 1 ≤ s.transmitter.baud.toNat
  setup : (Uart.writesSetup i.transmit || Uart.writesSetup i.receive) = true →
    s.quiet = true ∧ Uart.writesData i.transmit = false

instance : Decidable (s.Legal i) :=
  decidable_of_iff
    ((Uart.writesData i.transmit = true → s.transmitter.txIdle = true ∧
        (s.transmitter.ctrl.en = true ∧ s.receiver.ctrl.en = true) ∧
        s.receiver.format = s.transmitter.format ∧ 1 ≤ s.transmitter.baud.toNat) ∧
      ((Uart.writesSetup i.transmit || Uart.writesSetup i.receive) = true →
        s.quiet = true ∧ Uart.writesData i.transmit = false))
    ⟨fun h => ⟨fun hw => (h.1 hw).1, fun hw => (h.1 hw).2.1, fun hw => (h.1 hw).2.2.1,
      fun hw => (h.1 hw).2.2.2, h.2⟩,
    fun h => ⟨fun hw => ⟨h.1 hw, h.2 hw, h.3 hw, h.4 hw⟩, h.5⟩⟩

/-! ## The line as a whole -/

/-- Both devices are set to a format. -/
structure Configured (f : UartFormat) : Prop where
  transmitter : s.transmitter.format = f
  receiver : s.receiver.format = f
  transmits : s.transmitter.ctrl.en = true
  receives : s.receiver.ctrl.en = true
  baud : 1 ≤ f.baud.toNat

/-- A character of the size of the format. -/
def Sized (f : UartFormat) (ch : BitVec 9) : Prop :=
  ∀ i, f.ctrl.dataBits ≤ i → ch.getLsbD i = false

/-- The character that is still on the line in clock `k` of its frame. -/
def underway (f : UartFormat) (ch : BitVec 9) (k : ℕ) : List (BitVec 9) :=
  if k ≤ f.lastClock then [ch] else []

/-- A line on which all but the last few characters have arrived; after `n` clocks all have. -/
inductive Carries : ℕ → Prop
  | quiet (hquiet : s.quiet = true) (hall : t.completed = t.sent) : Carries 0
  | starting (f : UartFormat) (ch old : BitVec 9) (k : ℕ) (hc : s.Configured f)
      (hch : Sized f ch) (hold : Sized f old)
      (hstate : s.transmitter.tx.txstate = .txIdle) (hstart : s.transmitter.tx.txstart = true)
      (hbits : ∀ i < 11, s.transmitter.tx.txbuffer.getLsbD i = f.ctrl.level ch i)
      (htxd : s.transmitter.txd = true)
      (hrx : Uart.RxAt f old s.receiver.rx k) (hk : f.lastClock ≤ k)
      (hline : s.receiver.rx.rxdSync = f.delayed old 2 k)
      (hall : t.sent = t.completed ++ underway f old k ++ [ch]) : Carries (f.lastClock + 2)
  | sending (f : UartFormat) (ch : BitVec 9) (k : ℕ) (hc : s.Configured f)
      (hch : Sized f ch) (htx : Uart.TxAt f ch s.transmitter.tx k)
      (htxd : s.transmitter.txd = f.delayed ch 1 k)
      (hrx : Uart.RxAt f ch s.receiver.rx k)
      (hline : s.receiver.rx.rxdSync = f.delayed ch 2 k)
      (hall : t.sent = t.completed ++ underway f ch k) : Carries (f.lastClock + 1 - k)

/-! ## One clock of the line -/

/-- With `UART_SIMPLE` the control register has no format of its own. -/
def Forced (u : Uart) : Prop := g.simple = true → u.ctrl.simplified = u.ctrl

variable {g s i t}

theorem forced_clock (u : Uart) (q : MemRequest) (rxd : Bool) :
    Forced g (u.clock g q false rxd) := by
  intro hsimple
  change (u.nextControl g q).simplified = u.nextControl g q
  rw [Uart.nextControl, if_pos hsimple]
  rfl

theorem ctrl_clock {u : Uart} (h : Forced g u) {q : MemRequest}
    (hq : Uart.writesSetup q = false) (rxd : Bool) :
    (u.clock g q false rxd).ctrl = u.ctrl ∧ (u.clock g q false rxd).baud = u.baud := by
  obtain ⟨hctrl, hbaud⟩ := Bool.or_eq_false_iff.mp hq
  constructor
  · change u.nextControl g q = u.ctrl
    rw [Uart.nextControl, hctrl, if_neg Bool.false_ne_true]
    by_cases hsimple : g.simple = true
    · rw [if_pos hsimple]
      exact h hsimple
    · rw [if_neg hsimple]
  · change u.nextBaud q = u.baud
    rw [Uart.nextBaud, hbaud, if_neg Bool.false_ne_true]

theorem Configured.next {f : UartFormat} (h : s.Configured f) (ht : Forced g s.transmitter)
    (hr : Forced g s.receiver)
    (hq : (Uart.writesSetup i.transmit || Uart.writesSetup i.receive) = false) :
    (s.step g i).Configured f := by
  obtain ⟨hqt, hqr⟩ := Bool.or_eq_false_iff.mp hq
  obtain ⟨htc, htb⟩ := ctrl_clock ht hqt i.rxd
  obtain ⟨hrc, hrb⟩ := ctrl_clock hr hqr s.transmitter.txd
  constructor
  · rw [← h.transmitter, Uart.format, step, htc, htb]; rfl
  · rw [← h.receiver, Uart.format, step, hrc, hrb]; rfl
  · rw [← h.transmits, step, htc]
  · rw [← h.receives, step, hrc]
  · exact h.baud

/-- The character is either still on the line or completed in this clock. -/
theorem completed_underway {f : UartFormat} {ch : BitVec 9} {k : ℕ}
    (hrx : Uart.RxAt f ch s.receiver.rx k) (hline : s.receiver.rx.rxdSync = f.delayed ch 2 k) :
    (s.traffic i t).completed ++ underway f ch (k + 1) = t.completed ++ underway f ch k := by
  rw [traffic, hrx.completes hline]
  rcases lt_trichotomy k f.lastClock with h | h | h
  · simp [underway, h.ne, h.le, Nat.succ_le_of_lt h]
  · rw [hrx.nextData h]
    simp [underway, h]
  · simp [underway, h.ne', Nat.not_le.mpr h, Nat.not_le.mpr (h.trans (Nat.lt_succ_self k))]

theorem sent_of_write (h : Uart.writesData i.transmit = true) : (s.traffic i t).sent =
    t.sent ++ [s.transmitter.ctrl.character i.transmit.data] := by
  rw [traffic, if_pos h]

theorem sent_of_no_write (h : Uart.writesData i.transmit = false) :
    (s.traffic i t).sent = t.sent := by
  rw [traffic, if_neg (by rw [h]; exact Bool.false_ne_true)]

theorem sized_character {f : UartFormat} (hc : s.transmitter.format = f) (data : DataType) :
    Sized f (s.transmitter.ctrl.character data) := by
  intro j hj
  rw [UartControl.getLsbD_character, Uart.dataBits_of_format hc, decide_eq_false (by omega),
    Bool.false_and]

theorem nextTx_txIdle {u : Uart} (h : u.txIdle = true) (q : MemRequest) :
    u.nextTx q = u.busTx q ∧ u.nextTxd = true := by
  obtain ⟨hstate, hstart⟩ := Bool.and_eq_true_iff.mp h
  rw [Bool.not_eq_true'] at hstart
  have hstate := of_decide_eq_true hstate
  constructor
  · simp [Uart.nextTx, hstate, hstart]
  · rw [Uart.nextTxd, hstate]

/-- A write to the data register of a configured line, on which at most the end of the last frame
is left. -/
theorem carries_of_write {f : UartFormat} {old : BitVec 9} {k : ℕ} (hc : s.Configured f)
    (ht : Forced g s.transmitter) (hr : Forced g s.receiver) (hl : s.Legal i)
    (hwrite : Uart.writesData i.transmit = true) (hold : Sized f old)
    (hrx : Uart.RxAt f old s.receiver.rx k) (hk : f.lastClock ≤ k + 1)
    (hline : s.receiver.rx.rxdSync = f.delayed old 2 k)
    (htxd : s.transmitter.txd = f.delayed old 1 k)
    (hall : t.sent = t.completed ++ underway f old k) :
    (s.step g i).Carries (s.traffic i t) (f.lastClock + 2) := by
  have hsetup : (Uart.writesSetup i.transmit || Uart.writesSetup i.receive) = false := by
    apply Bool.eq_false_iff.mpr
    intro hsetup
    exact absurd hwrite (by rw [(hl.setup hsetup).2]; exact Bool.false_ne_true)
  obtain ⟨hnext, hhigh⟩ := nextTx_txIdle (hl.idle hwrite) i.transmit
  have hframe : (s.step g i).transmitter.tx =
      { s.transmitter.tx with
        txstart := true
        txbuffer := s.transmitter.ctrl.frame i.transmit.data } := by
    change s.transmitter.nextTx i.transmit = _
    rw [hnext, Uart.busTx, hwrite]
    rfl
  have hstate := (Bool.and_eq_true_iff.mp (hl.idle hwrite)).1
  apply Carries.starting f (s.transmitter.ctrl.character i.transmit.data) old (k + 1)
    (hc.next ht hr hsetup) (sized_character hc.transmitter _) hold
  case hstate => rw [hframe]; exact of_decide_eq_true hstate
  case hstart => rw [hframe]
  case hbits =>
    intro j hj
    rw [hframe]
    change (s.transmitter.ctrl.frame i.transmit.data).getLsbD j = _
    rw [UartControl.getLsbD_frame _ _ hj, ← hc.transmitter]
    rfl
  case htxd => exact hhigh
  case hrx => exact hrx.next hc.receiver _ hc.receives hold hc.baud hline
  case hk => exact hk
  case hline =>
    change (s.receiver.nextRx s.transmitter.txd).rxdSync = _
    rw [Uart.rxdSync_nextRx, htxd, UartFormat.delayed_succ]
  case hall => rw [sent_of_write hwrite, hall, completed_underway hrx hline]

theorem carries_quiet_next (hq : s.quiet = true) (hall : t.completed = t.sent)
    (ht : Forced g s.transmitter) (hr : Forced g s.receiver) (hl : s.Legal i) :
    ∃ n, (s.step g i).Carries (s.traffic i t) n ∧ (Uart.writesData i.transmit = false → n = 0) := by
  have hq' := hq
  simp only [quiet, Bool.and_eq_true, decide_eq_true_eq] at hq'
  obtain ⟨⟨⟨hidle, htxd⟩, hsync⟩, hrx⟩ := hq'
  cases hwrite : Uart.writesData i.transmit with
  | true =>
    have hc : s.Configured s.transmitter.format :=
      ⟨rfl, hl.equal hwrite, (hl.enabled hwrite).1, (hl.enabled hwrite).2, hl.baud hwrite⟩
    set f := s.transmitter.format
    have hold : Sized f 0 := fun _ _ => BitVec.getLsbD_zero
    have hhigh (k : ℕ) (hk : k ≤ 2) : f.delayed 0 k (f.lastClock + 1) = true :=
      f.delayed_stop 0 (by rw [UartFormat.lastClock]; omega)
    have hempty : t.sent = t.completed ++ underway f 0 (f.lastClock + 1) := by
      rw [underway, if_neg (by omega), List.append_nil, hall]
    refine ⟨_, carries_of_write hc ht hr hl hwrite hold (.rest _ (Nat.lt_succ_self _) hrx)
      (by omega)
      (hsync.trans (hhigh 2 le_rfl).symm) (htxd.trans (hhigh 1 (by omega)).symm) hempty, ?_⟩
    intro h
    cases h
  | false =>
    refine ⟨0, .quiet ?_ ?_, fun _ => rfl⟩
    · obtain ⟨hnext, hhigh⟩ := nextTx_txIdle hidle i.transmit
      have hbus : (s.step g i).transmitter.tx = { s.transmitter.tx with txstart := false } := by
        change s.transmitter.nextTx i.transmit = _
        rw [hnext, Uart.busTx, hwrite, if_neg Bool.false_ne_true]
      have hwait : (s.step g i).receiver.rx = { s.receiver.rx with rxdSync := true } := by
        change s.receiver.nextRx s.transmitter.txd = _
        simp [Uart.nextRx, hrx, hsync, htxd]
      have hstate := (Bool.and_eq_true_iff.mp hidle).1
      have htxd' : (s.step g i).transmitter.txd = true := hhigh
      rw [quiet, Uart.txIdle, hbus, hwait, hstate, hrx, htxd']
      rfl
    · rw [sent_of_no_write hwrite, traffic, Uart.completes, hrx]
      exact hall

theorem carries_starting_next {f : UartFormat} {ch old : BitVec 9} {k : ℕ} (hc : s.Configured f)
    (hch : Sized f ch) (hold : Sized f old) (hstate : s.transmitter.tx.txstate = .txIdle)
    (hstart : s.transmitter.tx.txstart = true)
    (hbits : ∀ i < 11, s.transmitter.tx.txbuffer.getLsbD i = f.ctrl.level ch i)
    (htxd : s.transmitter.txd = true) (hrx : Uart.RxAt f old s.receiver.rx k)
    (hk : f.lastClock ≤ k) (hline : s.receiver.rx.rxdSync = f.delayed old 2 k)
    (hall : t.sent = t.completed ++ underway f old k ++ [ch])
    (ht : Forced g s.transmitter) (hr : Forced g s.receiver) (hl : s.Legal i) :
    (s.step g i).Carries (s.traffic i t) (f.lastClock + 1) := by
  have hbusy : s.transmitter.txIdle = false := by rw [Uart.txIdle, hstart]; simp
  have hwrite : Uart.writesData i.transmit = false := by
    apply Bool.eq_false_iff.mpr
    intro hwrite
    exact absurd (hl.idle hwrite) (by rw [hbusy]; exact Bool.false_ne_true)
  have hsetup : (Uart.writesSetup i.transmit || Uart.writesSetup i.receive) = false := by
    apply Bool.eq_false_iff.mpr
    intro hsetup
    have hquiet := (hl.setup hsetup).1
    rw [quiet, hbusy] at hquiet
    exact absurd hquiet (by simp)
  have hnext : (s.step g i).transmitter.tx =
      { s.transmitter.tx with
        txstart := false
        txbittimer := f.baud.toNat
        txshiftcounter := f.ctrl.shiftCount
        txstate := .txIter } := by
    change s.transmitter.nextTx i.transmit = _
    simp [Uart.nextTx, hstate, hstart, hc.transmits, Uart.busTx, hwrite,
      Uart.baud_of_format hc.transmitter, Uart.shiftCount_of_format hc.transmitter]
  have hrest := hrx.next hc.receiver s.transmitter.txd hc.receives hold hc.baud hline
  have hidle := hrest.rxstate_rest (by omega)
  have hdone := completed_underway (i := i) (t := t) hrx hline
  rw [underway, if_neg (by omega), List.append_nil] at hdone
  apply Carries.sending f ch 0 (hc.next ht hr hsetup) hch
  case htx =>
    rw [hnext, ← Nat.zero_mul f.period]
    exact .send 0 0 (by omega) (by omega) rfl rfl rfl rfl (by simpa using hbits)
  case htxd =>
    change s.transmitter.nextTxd = true
    rw [Uart.nextTxd, hstate]
  case hrx => exact .before 0 (by omega) hidle
  case hline =>
    change (s.receiver.nextRx s.transmitter.txd).rxdSync = true
    rw [Uart.rxdSync_nextRx, htxd]
  case hall =>
    have hfresh : underway f ch 0 = [ch] := if_pos (Nat.zero_le _)
    rw [sent_of_no_write hwrite, hall, hdone, hfresh]

theorem carries_sending_next {f : UartFormat} {ch : BitVec 9} {k : ℕ} (hc : s.Configured f)
    (hch : Sized f ch) (htx : Uart.TxAt f ch s.transmitter.tx k)
    (htxd : s.transmitter.txd = f.delayed ch 1 k) (hrx : Uart.RxAt f ch s.receiver.rx k)
    (hline : s.receiver.rx.rxdSync = f.delayed ch 2 k)
    (hall : t.sent = t.completed ++ underway f ch k)
    (ht : Forced g s.transmitter) (hr : Forced g s.receiver) (hl : s.Legal i) :
    ∃ n, (s.step g i).Carries (s.traffic i t) n ∧
      (Uart.writesData i.transmit = false → n ≤ f.lastClock + 1 - (k + 1)) := by
  have hrest (hidle : s.transmitter.txIdle = true) : f.lastClock ≤ k + 1 := by
    have hstate := of_decide_eq_true (Bool.and_eq_true_iff.mp hidle).1
    have hend := htx.rest_of_txIdle hstate
    have hlast := f.lastClock_le hc.baud
    omega
  cases hwrite : Uart.writesData i.transmit with
  | true =>
    refine ⟨_, carries_of_write hc ht hr hl hwrite hch hrx (hrest (hl.idle hwrite)) hline htxd hall,
      fun h => absurd h Bool.noConfusion⟩
  | false =>
    by_cases hq : s.quiet = true
    · have hq' := hq
      simp only [quiet, Bool.and_eq_true, decide_eq_true_eq] at hq'
      obtain ⟨⟨⟨hidle, -⟩, -⟩, hwait⟩ := hq'
      have hdone : f.lastClock < k := by
        rcases hrx.phase with ⟨hlt, -, hbefore⟩ | ⟨-, hstate, -⟩ | ⟨hlt, -⟩
        · have := hrest hidle
          have := hbefore hwait
          rw [UartFormat.lastClock] at *
          omega
        · exact absurd (hstate.symm.trans hwait) UartRxState.noConfusion
        · exact hlt
      have hsent : t.completed = t.sent := by
        rw [hall, underway, if_neg (by omega), List.append_nil]
      obtain ⟨n, hn, hzero⟩ := carries_quiet_next hq hsent ht hr hl
      exact ⟨n, hn, fun _ => by rw [hzero hwrite]; omega⟩
    · have hsetup : (Uart.writesSetup i.transmit || Uart.writesSetup i.receive) = false := by
        apply Bool.eq_false_iff.mpr
        intro hsetup
        exact hq (hl.setup hsetup).1
      refine ⟨_, .sending f ch (k + 1) (hc.next ht hr hsetup) hch ?_ ?_ ?_ ?_ ?_, fun _ => le_rfl⟩
      · exact htx.next hc.transmitter hwrite
      · change s.transmitter.nextTxd = _
        rw [htx.txd, UartFormat.delayed, if_neg (by omega), Nat.add_sub_cancel]
      · exact hrx.next hc.receiver _ hc.receives hch hc.baud hline
      · change (s.receiver.nextRx s.transmitter.txd).rxdSync = _
        rw [Uart.rxdSync_nextRx, htxd, UartFormat.delayed_succ]
      · rw [sent_of_no_write hwrite, hall, completed_underway hrx hline]

theorem Carries.next {n : ℕ} (h : s.Carries t n) (ht : Forced g s.transmitter)
    (hr : Forced g s.receiver) (hl : s.Legal i) :
    ∃ n', (s.step g i).Carries (s.traffic i t) n' ∧
      (Uart.writesData i.transmit = false → n' ≤ n - 1) := by
  cases h with
  | quiet hquiet hall =>
    obtain ⟨n', hn, hzero⟩ := carries_quiet_next hquiet hall ht hr hl
    exact ⟨n', hn, fun h => (hzero h).le⟩
  | starting f ch old k hc hch hold hstate hstart hbits htxd hrx hk hline hall =>
    exact ⟨_, carries_starting_next hc hch hold hstate hstart hbits htxd hrx hk hline hall ht hr hl,
      fun _ => le_rfl⟩
  | sending f ch k hc hch htx htxd hrx hline hall =>
    obtain ⟨n', hn, hle⟩ := carries_sending_next hc hch htx htxd hrx hline hall ht hr hl
    exact ⟨n', hn, fun h => (hle h).trans (by omega)⟩

theorem Carries.raisesError {n : ℕ} (h : s.Carries t n) : s.receiver.raisesError = false := by
  cases h with
  | quiet hquiet hall =>
    simp only [UartLink.quiet, Bool.and_eq_true, decide_eq_true_eq] at hquiet
    rw [Uart.raisesError, Uart.received, hquiet.2]
    rfl
  | starting f ch old k hc hch hold hstate hstart hbits htxd hrx hk hline hall =>
    exact hrx.raisesError hc.receiver hold hc.baud hline
  | sending f ch k hc hch htx htxd hrx hline hall =>
    exact hrx.raisesError hc.receiver hch hc.baud hline

theorem Carries.inOrder {n : ℕ} (h : s.Carries t n) : t.completed <+: t.sent := by
  cases h with
  | quiet hquiet hall => exact hall ▸ List.prefix_rfl
  | starting f ch old k hc hch hold hstate hstart hbits htxd hrx hk hline hall =>
    rw [hall, List.append_assoc]
    exact List.prefix_append _ _
  | sending f ch k hc hch htx htxd hrx hline hall =>
    rw [hall]
    exact List.prefix_append _ _

theorem Carries.arrived (h : s.Carries t 0) : t.completed = t.sent := by
  generalize hn : 0 = n at h
  cases h with
  | quiet hquiet hall => exact hall
  | starting => omega
  | sending f ch k hc hch htx htxd hrx hline hall =>
    rw [hall, underway, if_neg (by omega), List.append_nil]

variable (s) in
/-- More clocks than a frame takes. -/
def frameClocks : ℕ := 12 * (s.transmitter.baud.toNat + 1) + 6

theorem Carries.le_frameClocks {n : ℕ} (h : s.Carries t n) : n ≤ s.frameClocks := by
  have hbound {f : UartFormat} (hc : s.Configured f) : f.lastClock + 2 ≤ s.frameClocks := by
    have hle := f.lastClock_bound
    have hperiod : f.period = s.transmitter.baud.toNat + 1 := by
      rw [Uart.baud_of_format hc.transmitter, UartFormat.period]
    rw [frameClocks]
    omega
  cases h with
  | quiet hquiet hall => exact Nat.zero_le _
  | starting f ch old k hc => exact hbound hc
  | sending f ch k hc =>
    have := hbound hc
    omega

/-! ## Runs -/

/-- No character is written. -/
def Silent (p : UartLink × Traffic) (i : LinkInput) : Prop :=
  p.1.Legal i ∧ Uart.writesData i.transmit = false

variable (g s t) in
/-- The receiver completes the characters that were sent in order and unmodified, a frame later the
last one too, and it raises no error flag. -/
structure Delivers : Prop where
  inOrder : t.completed <+: t.sent
  clean : t.raised = false
  arrives : ∀ is, (observed g).Meets Silent (s, t) is → s.frameClocks ≤ is.length →
    ((observed g).runFrom (s, t) is).2.completed = ((observed g).runFrom (s, t) is).2.sent

theorem carries_of_reachable (h : (observed g).Reachable (fun p i => p.1.Legal i) (s, t)) :
    (∃ n, s.Carries t n) ∧ (Forced g s.transmitter ∧ Forced g s.receiver) ∧ t.raised = false := by
  refine Machine.Reachable.invariant
    (P := fun p : UartLink × Traffic => (∃ n, p.1.Carries p.2 n) ∧
      (Forced g p.1.transmitter ∧ Forced g p.1.receiver) ∧ p.2.raised = false) ?_ ?_ h
  · exact ⟨⟨0, .quiet rfl rfl⟩, ⟨fun _ => rfl, fun _ => rfl⟩, rfl⟩
  · rintro p i - hl ⟨⟨n, hn⟩, ⟨ht, hr⟩, hraised⟩
    obtain ⟨n', hn', -⟩ := hn.next ht hr hl
    refine ⟨⟨n', hn'⟩, ⟨forced_clock _ _ _, forced_clock _ _ _⟩, ?_⟩
    change (p.2.raised || p.1.receiver.raisesError) = false
    rw [hraised, hn.raisesError, Bool.or_false]

theorem carries_runFrom {is : List LinkInput} {n : ℕ} (hn : s.Carries t n)
    (ht : Forced g s.transmitter) (hr : Forced g s.receiver)
    (h : (observed g).Meets Silent (s, t) is) :
    ∃ n' ≤ n - is.length, ((observed g).runFrom (s, t) is).1.Carries
      ((observed g).runFrom (s, t) is).2 n' := by
  induction is generalizing s t n with
  | nil => exact ⟨n, le_rfl, hn⟩
  | cons i is ih =>
    obtain ⟨n', hn', hle⟩ := hn.next ht hr h.1.1
    obtain ⟨n'', hlen, hfinal⟩ := ih hn' (forced_clock _ _ _) (forced_clock _ _ _) h.2
    have hone := hle h.1.2
    refine ⟨n'', ?_, hfinal⟩
    rw [List.length_cons]
    omega

/-- A shift counter that can hold the length of every frame delivers all formats. -/
theorem delivers_of_reachable (h : (observed g).Reachable (fun p i => p.1.Legal i) (s, t)) :
    Delivers g s t := by
  obtain ⟨⟨n, hn⟩, ⟨ht, hr⟩, hraised⟩ := carries_of_reachable h
  refine ⟨hn.inOrder, hraised, fun is his hlen => ?_⟩
  obtain ⟨n', hle, hend⟩ := carries_runFrom hn ht hr his
  have hbound := hn.le_frameClocks
  have hzero : n' = 0 := by omega
  subst hzero
  exact hend.arrived

/-! ## One device in loopback -/

/-- A device that receives what it transmits. -/
def loopback (u : Uart) : UartLink := ⟨u, u⟩

def loopbackInput (u : Uart) (q : MemRequest) : LinkInput := ⟨q, q, u.txd⟩

variable (g) in
def loopbackMachine : Machine (Uart × Traffic) MemRequest where
  init := (.reset, ⟨[], [], false⟩)
  next p q := (p.1.clock g q false p.1.txd, (loopback p.1).traffic (loopbackInput p.1 q) p.2)

/-- A run of a device in loopback is a run of a link. -/
theorem reachable_of_loopback {guard : UartLink × Traffic → LinkInput → Prop} {u : Uart}
    (h : (loopbackMachine g).Reachable
      (fun p q => guard (loopback p.1, p.2) (loopbackInput p.1 q)) (u, t)) :
    (observed g).Reachable guard (loopback u, t) := by
  generalize hp : (u, t) = p at h
  induction h generalizing u t with
  | init =>
    cases hp
    exact .init
  | @step p q _ hg ih =>
    cases hp
    exact (ih rfl).step _ hg

theorem loopback_delivers {u : Uart} (h : (loopbackMachine g).Reachable
      (fun p q => (loopback p.1).Legal (loopbackInput p.1 q)) (u, t)) :
    Delivers g (loopback u) t :=
  delivers_of_reachable (reachable_of_loopback h)

/-! ## The declared range of the shift counter -/

variable (s) in
/-- The counters and timers of the line are in their declared ranges. -/
structure InRange : Prop where
  txbittimer : s.transmitter.tx.txbittimer ≤ 65535
  txshiftcounter : s.transmitter.tx.txshiftcounter ≤ 10
  rxbittimer : s.receiver.rx.rxbittimer ≤ 65535
  rxshiftcounter : s.receiver.rx.rxshiftcounter ≤ 10

variable (s) in
/-- A transmission that starts in this clock has at most 11 bits. -/
def Fits : Prop := s.transmitter.starts = true → s.transmitter.ctrl.shiftCount ≤ 10

instance : Decidable s.Fits :=
  inferInstanceAs (Decidable (_ → _))

variable (g s t) in
/-- The characters are delivered, by signals that keep to their declared ranges. -/
structure RoundTrip : Prop extends Delivers g s t where
  inRange : s.InRange

theorem txRange_next {u : Uart} {q : MemRequest} (htimer : u.tx.txbittimer ≤ 65535)
    (hcount : u.tx.txshiftcounter ≤ 10) :
    (u.nextTx q).txbittimer ≤ 65535 ∧
      ((u.nextTx q).txshiftcounter ≤ 10 ↔ (u.starts = true → u.ctrl.shiftCount ≤ 10)) := by
  have hbaud : u.baud.toNat ≤ 65535 := Nat.le_of_lt_succ u.baud.isLt
  cases hstate : u.tx.txstate with
  | txIdle =>
    have hstarts : u.starts = (u.tx.txstart && u.ctrl.en) := by rw [Uart.starts, hstate]; rfl
    rw [Uart.nextTx, hstate, hstarts]
    cases hstart : u.tx.txstart && u.ctrl.en with
    | true => exact ⟨hbaud, by simp⟩
    | false => exact ⟨htimer, fun _ h => absurd h Bool.noConfusion, fun _ => hcount⟩
  | txIter =>
    have hstarts : u.starts = false := by rw [Uart.starts, hstate]; rfl
    rw [Uart.nextTx, hstate, hstarts]
    simp only [Bool.false_eq_true, false_imp_iff, iff_true]
    split_ifs
    · exact ⟨(Nat.sub_le _ _).trans htimer, hcount⟩
    · exact ⟨hbaud, (Nat.sub_le _ _).trans hcount⟩
    · exact ⟨htimer, hcount⟩
  | txReady =>
    have hstarts : u.starts = false := by rw [Uart.starts, hstate]; rfl
    rw [Uart.nextTx, hstate, hstarts]
    exact ⟨htimer, fun _ h => absurd h Bool.noConfusion, fun _ => hcount⟩

theorem rxRange_next {u : Uart} (rxd : Bool) (htimer : u.rx.rxbittimer ≤ 65535)
    (hcount : u.rx.rxshiftcounter ≤ 10) :
    (u.nextRx rxd).rxbittimer ≤ 65535 ∧ (u.nextRx rxd).rxshiftcounter ≤ 10 := by
  have hbaud : u.baud.toNat ≤ 65535 := Nat.le_of_lt_succ u.baud.isLt
  have hbits : u.ctrl.dataBits ≤ 10 := u.ctrl.dataBits_le.trans (by omega)
  have htick : u.rx.rxbittimer - 1 ≤ 65535 := (Nat.sub_le _ _).trans htimer
  cases hstate : u.rx.rxstate <;> rw [Uart.nextRx, hstate]
  case rxIdle =>
    simp only
    split_ifs
    · exact ⟨(Nat.div_le_self _ _).trans hbaud, hcount⟩
    · exact ⟨htimer, hcount⟩
  case rxWait =>
    simp only
    split_ifs
    · exact ⟨htick, hcount⟩
    · exact ⟨hbaud, hbits⟩
    · exact ⟨htimer, hcount⟩
  case rxIter =>
    simp only
    split_ifs
    · exact ⟨htick, hcount⟩
    · exact ⟨hbaud, (Nat.sub_le _ _).trans hcount⟩
    · exact ⟨hbaud, hcount⟩
    · exact ⟨htimer, hcount⟩
  case rxParity =>
    simp only
    split_ifs
    · exact ⟨htick, hcount⟩
    · exact ⟨htimer, hcount⟩
  case rxReady => exact ⟨htimer, hcount⟩
  case rxBreak =>
    simp only
    split_ifs <;> exact ⟨htimer, hcount⟩
  case rxFail => exact ⟨htimer, hcount⟩

theorem inRange_step (h : s.InRange) : (s.step g i).InRange ↔ s.Fits := by
  obtain ⟨htimer, hcount⟩ := txRange_next (q := i.transmit) h.txbittimer h.txshiftcounter
  obtain ⟨hrtimer, hrcount⟩ := rxRange_next s.transmitter.txd h.rxbittimer h.rxshiftcounter
  constructor
  · intro hnext
    exact hcount.mp hnext.txshiftcounter
  · intro hfits
    exact ⟨htimer, hcount.mpr hfits, hrtimer, hrcount⟩

theorem inRange_of_reachable
    (h : (observed g).Reachable (fun p i => p.1.Legal i ∧ p.1.Fits) (s, t)) : s.InRange := by
  refine Machine.Reachable.invariant (P := fun p : UartLink × Traffic => p.1.InRange) ?_ ?_ h
  · exact ⟨Nat.zero_le _, Nat.zero_le _, Nat.zero_le _, Nat.zero_le _⟩
  · intro p i _ hg hin
    exact (inRange_step hin).mpr hg.2

/-- In every run whose transmissions fit the shift counter, the line delivers. A further clock
keeps to this if and only if the transmission that it starts fits too. -/
theorem characters_round_trip (g : UartGenerics) {s : UartLink} {t : Traffic}
    (h : (observed g).Reachable (fun p i => p.1.Legal i ∧ p.1.Fits) (s, t)) :
    RoundTrip g s t ∧
      ∀ i, s.Legal i → (RoundTrip g (s.step g i) (s.traffic i t) ↔ s.Fits) := by
  have hlegal : (observed g).Reachable (fun p i => p.1.Legal i) (s, t) := h.mono fun _ _ => And.left
  have hin := inRange_of_reachable h
  refine ⟨⟨delivers_of_reachable hlegal, hin⟩, fun i hl => ⟨fun hnext => ?_, fun hfits => ?_⟩⟩
  · exact (inRange_step hin).mp hnext.inRange
  · exact ⟨delivers_of_reachable (hlegal.step i hl), (inRange_step hin).mpr hfits⟩

/-! ## A character -/

/-- A store of a word to a register of a device. -/
def store (addr data : DataType) : MemRequest := ⟨true, .word, addr, data, true⟩

/-- No access. -/
def noAccess : MemRequest := ⟨false, .word, 0, 0, false⟩

/-- Both devices are set to two clocks a bit and to a control word, a character is written, and
some more clocks pass. -/
def sendOne (control data : DataType) (n : ℕ) : List LinkInput :=
  [⟨store 0xc 1, store 0xc 1, true⟩, ⟨store 0 control, store 0 control, true⟩,
    ⟨store 8 data, noAccess, true⟩] ++ List.replicate n ⟨noAccess, noAccess, true⟩

@[irreducible] def linkRun (control data : DataType) (n : ℕ) : UartLink × Traffic :=
  (observed ⟨false, false⟩).run (sendOne control data n)

theorem linkRun_reachable {guard : UartLink × Traffic → LinkInput → Prop}
    {control data : DataType} {n : ℕ} (h : (observed ⟨false, false⟩).Meets guard
      (observed ⟨false, false⟩).init (sendOne control data n)) :
    (observed ⟨false, false⟩).Reachable guard (linkRun control data n) := by
  rw [linkRun]
  exact Machine.Reachable.init.runFrom_of_meets h

/-- A zero in 8 data bits, even parity and one stop bit is complete after 28 clocks. -/
theorem zero_with_parity_arrives :
    RoundTrip ⟨false, false⟩ (linkRun 0x101 0 28).1 (linkRun 0x101 0 28).2 ∧
      (linkRun 0x101 0 28).2.completed = [0] :=
  ⟨(characters_round_trip ⟨false, false⟩ (linkRun_reachable (by decide +kernel))).1,
    by decide +kernel⟩

/-- A frame of 9 data bits, a parity bit and two stop bits takes 13 bits. -/
theorem thirteen_bits_leave_the_range :
    ¬ ∀ s t, (observed ⟨false, false⟩).Reachable (fun p i => p.1.Legal i) (s, t) →
      RoundTrip ⟨false, false⟩ s t := by
  intro h
  have hr := h (linkRun 0x145 0x155 1).1 (linkRun 0x145 0x155 1).2
    (linkRun_reachable (by decide +kernel))
  exact absurd hr.inRange.txshiftcounter (by decide +kernel)

end UartLink

end ThuasRiscv
