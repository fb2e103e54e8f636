import ThuasRiscv.Io.I2c

/-!
# START conditions of the I2C master

A START condition is a falling edge of SDA while SCL is released. It is sent in
a state of its own, which releases SCL and pulls SDA low in the same clock. So
SCL has to be released already when the state is entered, which it is not
between two bytes of a transaction.
-/

namespace ThuasRiscv

open Transition

theorem I2cControl.lowBit_nonneg (c : I2cControl) : 0 ≤ c.lowBit := by
  rw [lowBit]
  split_ifs <;> omega

namespace I2c

/-- A write to the data register starts a transmission. -/
def writesData (q : MemRequest) : Bool := q.selects 0b10#2 && q.wren

/-- With the write in clock 0, a START condition is on the lines behind clock `t`, and clock `d` is the
first one that drives a data bit. -/
structure SendsStart (x : ℕ → I2c) (t d : ℕ) : Prop where
  before : (x t).sclOut = true ∧ (x t).sdaOut = true
  lt : t < d
  after : ∀ u, t < u → u ≤ d → (x u).sclOut = true ∧ (x u).sdaOut = false
  /-- Nothing else is sent first. -/
  first : ∀ u, 1 < u → u < d → (x u).state ≠ .idle ∧ (x u).state ≠ .sendDataFirst
  data : (x d).state = .sendDataFirst

/-- No transaction is in progress, so that SCL is released, and no STOP is requested. -/
def BusFree (s : I2c) : Prop := s.status.trans = false ∧ s.ctrl.hardstop = false

instance (s : I2c) : Decidable (BusFree s) := inferInstanceAs (Decidable (_ ∧ _))

variable {g : I2cGenerics} {s : I2c} {i : I2cInput}

theorem clock_of_not_sreset (hr : i.sreset = false) :
    s.clock g i = s.transmit g (s.synchronize (s.access i.request) i.scl i.sda) := by
  rw [clock, hr, if_neg Bool.false_ne_true]

theorem state_access (q : MemRequest) : (s.access q).state = s.state := by
  rw [access]
  repeat' split
  all_goals rfl

/-! ## One clock -/

/-- The write to the data register. -/
theorem written (hs : s.state = .idle) (hst : s.starttransmission = false)
    (hr : i.sreset = false) (hw : writesData i.request = true) :
    (s.clock g i).starttransmission = true ∧ (s.clock g i).sdaOut = true ∧
      (s.clock g i).ctrl = s.ctrl ∧ (s.clock g i).status.trans = s.status.trans ∧
      (s.clock g i).state = if s.ctrl.hardstop then .sendStopbitFirst else .idle := by
  rw [writesData, Bool.and_eq_true] at hw
  have haccess : s.access i.request = { s with
      response := .clock i.request (s.readData i.request) false
      status := s.status.acknowledged
      txbuffer := s.ctrl.latched i.request.data
      starttransmission := true } := by
    rw [access, MemRequest.selects_of_ne hw.1 (by decide),
      MemRequest.selects_of_ne hw.1 (by decide),
      hw.1, hw.2]
    rfl
  rw [clock_of_not_sreset hr, haccess, transmit, hs]
  simp only [hst, Bool.false_eq_true, if_false]
  split_ifs <;> simp [synchronize, I2cStatus.acknowledged]

/-- The unit leaves the idle state for the START. -/
theorem begins (hs : s.state = .idle) (hst : s.starttransmission = true)
    (hstart : s.ctrl.start = true) (hr : i.sreset = false) :
    (s.clock g i).state = .sendStartbit ∧ (s.clock g i).bittimer = s.ctrl.lowBit ∧
      (s.clock g i).sclOut = !s.status.trans ∧ (s.clock g i).sdaOut = true := by
  rw [clock_of_not_sreset hr, transmit, hs]
  simp only [hst, hstart, if_true]
  exact ⟨trivial, trivial, trivial, trivial⟩

/-- A clock of the START. -/
theorem sends (hs : s.state = .sendStartbit) (hr : i.sreset = false) :
    (s.clock g i).sclOut = true ∧ (s.clock g i).sdaOut = false ∧
      (s.clock g i).state = (if 0 < s.bittimer then .sendStartbit else .sendDataFirst) ∧
      (0 < s.bittimer → (s.clock g i).bittimer = s.bittimer - 1) := by
  have hstate : (s.synchronize (s.access i.request) i.scl i.sda).state = .sendStartbit :=
    (state_access i.request).trans hs
  rw [clock_of_not_sreset hr, transmit, hs]
  simp only
  split_ifs with ht
  · simp [hstate]
  · exact ⟨rfl, rfl, rfl, fun h => absurd h ht⟩

/-- The states of a STOP condition. -/
def stopping : I2cState → Bool
  | .sendStopbitFirst | .sendStopbitSecond | .sendStopbitThird => true
  | _ => false

/-- A STOP ends in the idle state. -/
theorem stops (hs : stopping s.state = true) (hr : i.sreset = false) :
    stopping (s.clock g i).state = true ∨ (s.clock g i).state = .idle := by
  have hstate : (s.synchronize (s.access i.request) i.scl i.sda).state = s.state :=
    state_access i.request
  rw [clock_of_not_sreset hr, transmit]
  cases h : s.state <;> simp only [h, stopping, Bool.false_eq_true] at hs ⊢ <;> split_ifs <;>
    simp [hstate, h, complete]

/-! ## The run behind a write -/

variable {x : ℕ → I2c} {i : ℕ → I2cInput} {t d : ℕ}

/-- The run of a data register write with the start bit set, from the idle state on. -/
structure WritesStart (g : I2cGenerics) (x : ℕ → I2c) (i : ℕ → I2cInput) : Prop where
  next : ∀ t, x (t + 1) = (x t).clock g (i t)
  sreset : ∀ t, (i t).sreset = false
  idle : (x 0).state = .idle ∧ (x 0).starttransmission = false
  start : (x 0).ctrl.start = true
  writes : writesData (i 0).request = true

/-- Clock by clock, as long as no STOP is requested. -/
theorem WritesStart.sending (h : WritesStart g x i) (hstop : (x 0).ctrl.hardstop = false) :
    (x 2).state = .sendStartbit ∧ (x 2).bittimer = (x 0).ctrl.lowBit ∧
      (x 2).sclOut = !(x 0).status.trans ∧ (x 2).sdaOut = true := by
  obtain ⟨hst, -, hctrl, htrans, hstate⟩ := written (g := g) h.idle.1 h.idle.2 (h.sreset 0) h.writes
  rw [hstop, if_neg Bool.false_ne_true] at hstate
  rw [← h.next 0] at hst hctrl htrans hstate
  have hbegins := begins (g := g) hstate hst (by rw [hctrl, h.start]) (h.sreset 1)
  rw [← h.next 1, hctrl, htrans] at hbegins
  exact hbegins

/-- The START without a transaction in progress. -/
theorem WritesStart.sends_start (h : WritesStart g x i) (hfree : BusFree (x 0)) :
    ∃ d, SendsStart x 2 d := by
  obtain ⟨hstate, htimer, hscl, hsda⟩ := h.sending hfree.2
  rw [hfree.1] at hscl
  have hnonneg := (x 0).ctrl.lowBit_nonneg
  let n := (x 0).ctrl.lowBit.toNat
  have hrun : ∀ k, k ≤ n → (x (2 + k)).state = .sendStartbit ∧ (x (2 + k)).bittimer = n - k := by
    intro k
    induction k with
    | zero => exact fun _ => ⟨hstate, by rw [htimer]; omega⟩
    | succ k ih =>
      intro hk
      obtain ⟨hs, ht⟩ := ih (by omega)
      obtain ⟨-, -, hnext, hcount⟩ := sends (g := g) hs (h.sreset (2 + k))
      rw [← h.next] at hnext hcount
      have hpos : 0 < (x (2 + k)).bittimer := by omega
      rw [if_pos hpos] at hnext
      exact ⟨hnext, by rw [← Nat.add_assoc, hcount hpos]; omega⟩
  have hlines : ∀ u, 2 < u → u ≤ 3 + n → (x u).sclOut = true ∧ (x u).sdaOut = false := by
    intro u hu hle
    obtain ⟨k, rfl⟩ := Nat.exists_eq_add_of_lt hu
    obtain ⟨hscl, hsda, -, -⟩ := sends (g := g) (hrun k (by omega)).1 (h.sreset (2 + k))
    rw [h.next]
    exact ⟨hscl, hsda⟩
  refine ⟨3 + n, ⟨hscl, hsda⟩, by omega, hlines, fun u hu hlt => ?_, ?_⟩
  · obtain ⟨k, rfl⟩ := Nat.exists_eq_add_of_le hu
    rw [(hrun k (by omega)).1]
    exact ⟨nofun, nofun⟩
  · obtain ⟨hs, ht⟩ := hrun n le_rfl
    have hnext := (sends (g := g) hs (h.sreset (2 + n))).2.2.1
    rw [← h.next, if_neg (by omega)] at hnext
    rw [show 3 + n = 2 + n + 1 by omega]
    exact hnext

/-- A requested STOP comes first. -/
theorem WritesStart.hardstop_eq_false (h : WritesStart g x i) (hx : SendsStart x t d) :
    (x 0).ctrl.hardstop = false := by
  by_contra hstop
  rw [Bool.not_eq_false] at hstop
  obtain ⟨-, -, -, -, hstate⟩ := written (g := g) h.idle.1 h.idle.2 (h.sreset 0) h.writes
  rw [hstop, if_pos rfl, ← h.next 0] at hstate
  have hrun : ∀ k, 1 + k ≤ d → stopping (x (1 + k)).state = true ∨ (x (1 + k)).state = .idle := by
    intro k
    induction k with
    | zero => exact fun _ => .inl (by rw [hstate]; rfl)
    | succ k ih =>
      intro hk
      rw [← Nat.add_assoc, h.next]
      rcases ih (by omega) with hs | hs
      · exact stops hs (h.sreset _)
      · rcases Nat.eq_zero_or_pos k with rfl | hpos
        · rw [hstate] at hs
          cases hs
        · exact absurd hs (hx.first (1 + k) (by omega) (by omega)).1
  have hpos : 1 ≤ d := by
    have hlt := hx.lt
    omega
  obtain ⟨k, rfl⟩ := Nat.exists_eq_add_of_le hpos
  rcases hrun k le_rfl with hs | hs <;> rw [hx.data] at hs <;> cases hs

/-- SDA falls in the clock in which SCL is released. -/
theorem WritesStart.trans_eq_false (h : WritesStart g x i) (hx : SendsStart x t d) :
    (x 0).status.trans = false := by
  obtain ⟨hstate, -, hscl, hsda⟩ := h.sending (h.hardstop_eq_false hx)
  obtain ⟨-, hsda1, -, -, hstate1⟩ := written (g := g) h.idle.1 h.idle.2 (h.sreset 0) h.writes
  rw [h.hardstop_eq_false hx, if_neg Bool.false_ne_true, ← h.next 0] at hstate1
  rw [← h.next 0] at hsda1
  have hlow := (hx.after (t + 1) (by omega) hx.lt).2
  have hd : 2 < d := by
    by_contra hle
    have hlt := hx.lt
    obtain rfl | rfl : d = 1 ∨ d = 2 := by omega
    · have hdata := hx.data
      rw [hstate1] at hdata
      cases hdata
    · have hdata := hx.data
      rw [hstate] at hdata
      cases hdata
  have hrun : ∀ k, 2 + k < d → (x (2 + k)).state = .sendStartbit := by
    intro k
    induction k with
    | zero => exact fun _ => hstate
    | succ k ih =>
      intro hk
      have hnext := (sends (g := g) (ih (by omega)) (h.sreset (2 + k))).2.2.1
      rw [← h.next] at hnext
      have hne := (hx.first (2 + k + 1) (by omega) hk).2
      split_ifs at hnext
      · exact hnext
      · exact absurd hnext hne
  have htwo : t = 2 := by
    by_contra hne
    rcases Nat.lt_or_ge 2 t with hlt | hge
    · obtain ⟨k, rfl⟩ := Nat.exists_eq_add_of_lt hlt
      have hlt' := hx.lt
      have hfall := (sends (g := g) (hrun k (by omega)) (h.sreset (2 + k))).2.1
      rw [← h.next, hx.before.2] at hfall
      cases hfall
    · obtain rfl | rfl : t = 0 ∨ t = 1 := by omega
      · rw [hsda1] at hlow
        cases hlow
      · rw [hsda] at hlow
        cases hlow
  have hbefore := hx.before.1
  rw [htwo, hscl] at hbefore
  simpa using hbefore

/-- From any idle state of the unit, a data register write with the start bit set gives a START
condition before the first data bit if and only if no transaction is in progress and no STOP is
requested. -/
theorem start_condition_iff (g : I2cGenerics) {s : I2c}
    (hidle : s.state = .idle ∧ s.starttransmission = false) (hstart : s.ctrl.start = true)
    {i : ℕ → I2cInput} (hw : writesData (i 0).request = true)
    (hr : ∀ t, (i t).sreset = false) :
    (∃ t d, SendsStart ((machine g).trace s i) t d) ↔ BusFree s := by
  have h : WritesStart g ((machine g).trace s i) i := ⟨fun _ => rfl, hr, hidle, hstart, hw⟩
  constructor
  · rintro ⟨t, d, hx⟩
    exact ⟨h.trans_eq_false hx, h.hardstop_eq_false hx⟩
  · intro hfree
    exact ⟨2, h.sends_start hfree⟩

/-- A clock without an access, in which no device holds a line low. -/
def pause : I2cInput := ⟨⟨false, .word, 0, 0, false⟩, false, true, true⟩

/-- A clock with a store to the register at `addr`. -/
def storing (addr data : DataType) : I2cInput := ⟨⟨true, .word, addr, data, true⟩,
  false, true, true⟩

/-- An address is written, and nothing else. -/
def sendingAddress : ℕ → I2cInput
  | 0 => storing 8 0xa0
  | _ + 1 => pause

theorem sendingAddress_sreset (t : ℕ) : (sendingAddress t).sreset = false := by
  cases t <;> rfl

/-- The start bit is set after reset. -/
theorem first_start_is_sent : ∃ t d, SendsStart
    ((machine ⟨50000000⟩).trace ((machine ⟨50000000⟩).run [storing 0 0x200]) sendingAddress) t d :=
  (start_condition_iff ⟨50000000⟩ (s := (machine ⟨50000000⟩).run [storing 0 0x200]) (by decide)
    (by decide) (i := sendingAddress) rfl sendingAddress_sreset).mpr (by decide)

/-- The start bit is set, an address is sent, and the start bit is set again. -/
def betweenBytes : I2c :=
  (machine ⟨50000000⟩).run
    ([storing 0 0x200, storing 8 0xa0] ++ List.replicate 24 pause ++ [storing 0 0x200])

theorem repeated_start_is_lost : ¬ ∀ s, (machine ⟨50000000⟩).Reachable Machine.free s →
    s.state = .idle ∧ s.starttransmission = false → s.ctrl.start = true →
      ∀ i : ℕ → I2cInput, writesData (i 0).request = true → (∀ t, (i t).sreset = false) →
        ∃ t d, SendsStart ((machine ⟨50000000⟩).trace s i) t d := by
  intro h
  have hidle : betweenBytes.state = .idle ∧ betweenBytes.starttransmission = false := by
    decide +kernel
  have hstart : betweenBytes.ctrl.start = true := by decide +kernel
  have hx := h betweenBytes (Machine.reachable_run _) hidle hstart sendingAddress rfl
    sendingAddress_sreset
  obtain ⟨t, d, hx⟩ := hx
  have hwrites : WritesStart ⟨50000000⟩ ((machine ⟨50000000⟩).trace betweenBytes sendingAddress)
    sendingAddress := ⟨fun _ => rfl, sendingAddress_sreset, hidle, hstart, rfl⟩
  have htrans : betweenBytes.status.trans = false := hwrites.trans_eq_false hx
  revert htrans
  decide +kernel

end I2c

end ThuasRiscv
