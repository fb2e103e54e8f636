import ThuasRiscv.Io.Spi
import ThuasRiscv.Waveform

/-!
# Transfers of the SPI

Every bit takes two halves of the prescaled clock. The level of the clock, the
bit on MOSI and the number of sampled bits follow from the number of the half,
in all four modes. Only the end differs: the last half is there for a high idle
clock, but needed if the last bit is sampled on the trailing edge.
-/

namespace ThuasRiscv

open Transition

namespace SpiControl

variable (c : SpiControl)

/-- The size of a transfer. -/
def bits : ℕ :=
  if c.size = 0b00 then 8 else if c.size = 0b01 then 16 else if c.size = 0b10 then 24 else 32

/-- The clocks of half a bit. -/
def half : ℕ := c.spiprescaler.toNat + 1

/-- The bits of a word in the order in which they are sent. -/
def bitsOf (word : DataType) : List Bool :=
  (List.range c.bits).map fun k => word.getLsbD (c.bits - 1 - k)

/-- The level that the clock line gets in a sampling edge. -/
def samplingLevel : Bool := if c.cpha then c.cpol else !c.cpol

end SpiControl

namespace Spi

/-- A transfer is requested or in progress. -/
def busy (s : Spi) : Bool := s.start || s.state ≠ .idle

def writesControl (q : MemRequest) : Bool := q.selects 0b00#2 && q.wren

/-- No reset, and no write to the control register or the data register. -/
def Quiet (i : SpiInput) : Prop :=
  i.sreset = false ∧ writesControl i.request = false ∧ writesData i.request = false

instance (i : SpiInput) : Decidable (Quiet i) := inferInstanceAs (Decidable (_ ∧ _ ∧ _))

/-- No control or data register is written during a transfer. -/
def Undisturbed (s : Spi) (i : SpiInput) : Prop := s.busy = true → i.sreset = true ∨ Quiet i

instance (s : Spi) (i : SpiInput) : Decidable (Undisturbed s i) :=
  inferInstanceAs (Decidable (_ → _))

/-! ## A correct transfer -/

variable (c : SpiControl) (word : DataType) (x : ℕ → Spi) (i : ℕ → SpiInput) (n : ℕ)

/-- The clocks up to the end of the transfer behind which a sampling edge is on the clock line. -/
def samplings : List ℕ := Waveform.edges (fun t => (x t).sck) c.samplingLevel (n + 1)

/-- The states `x` are a correct transfer of the word that is written in clock 0, up to clock `n`. -/
structure Transfers : Prop where
  busy : ∀ t, 0 < t → t ≤ n → (x t).busy = true
  done : (x (n + 1)).busy = false
  /-- Every pulse leaves the idle level and comes back. -/
  leading : (Waveform.edges (fun t => (x t).sck) (!c.cpol) (n + 1)).length = c.bits
  trailing : (Waveform.edges (fun t => (x t).sck) c.cpol (n + 1)).length = c.bits
  /-- MOSI has the bit before and after the sampling edge. -/
  mosi : (samplings c x n).map (fun t => (x t).mosi) = c.bitsOf word
  stable : (samplings c x n).map (fun t => (x (t + 1)).mosi) = c.bitsOf word
  data : (x (n + 1)).data =
    (BitVec.ofBoolListBE ((samplings c x n).map fun t => (i t).miso)).setWidth 32
  /-- Transfer complete is cleared by the write; in every later clock it is what the bus leaves,
  but for the last one, which sets it. -/
  cleared : (x 1).tc = false
  complete : ∀ t, 0 < t → t ≤ n →
    (x (t + 1)).tc = (decide (t = n) || ((x t).access (i t).request).tc)
  idle : (x 0).sck = c.cpol ∧ (x 1).sck = c.cpol ∧ (x (n + 1)).sck = c.cpol

/-- The last bit is sampled while the transfer is in progress, or it makes no difference: it is what
MOSI gets when idle, and nothing but zero bits arrive. -/
def Held : Prop :=
  c.cpha = false ∨ c.cpol = true ∨ word.getLsbD 0 = true ∧
    ∀ k, k < c.bits → (i (1 + c.half * (2 * k + 1))).miso = false

end Spi

/-! ## The halves of a transfer -/

namespace SpiControl

variable (c : SpiControl)

theorem bits_cases : c.bits = 8 ∨ c.bits = 16 ∨ c.bits = 24 ∨ c.bits = 32 := by
  rw [bits]
  split_ifs <;> simp

theorem lastBit_eq : c.lastBit = c.bits - 1 := by
  rw [lastBit, bits]
  split_ifs <;> rfl

theorem spiprescaler_eq : c.spiprescaler = c.half - 1 := by
  have hnonneg : 0 ≤ c.spiprescaler := by
    rw [spiprescaler]
    split_ifs <;> decide
  rw [half]
  omega

theorem half_pos : 0 < c.half := Nat.succ_pos _

theorem getLsbD_left (word : DataType) {n m k : ℕ} (hn : 31 = n - 1 + m) (hk : k < n) :
    (word.extractLsb' 0 n ++ 0#m).getLsbD (31 - k) = word.getLsbD (n - 1 - k) := by
  rw [BitVec.getLsbD_append, if_neg (by omega), BitVec.getLsbD_extractLsb',
    show 31 - k - m = n - 1 - k by omega, decide_eq_true (by omega), Bool.true_and, Nat.zero_add]

/-- The bits of the transmit buffer, the first one on the left. -/
theorem getLsbD_transferred (word : DataType) {k : ℕ} (hk : k < c.bits) :
    (c.transferred word).getLsbD (31 - k) = word.getLsbD (c.bits - 1 - k) := by
  rw [transferred, bits] at *
  split_ifs at hk ⊢
  · exact getLsbD_left word rfl hk
  · exact getLsbD_left word rfl hk
  · exact getLsbD_left word rfl hk
  · rfl

/-- Half `h` is the second one of a bit: the clock is not at its idle level. -/
def inSecond (h : ℕ) : Bool := decide (h % 2 = 1) != c.cpha

/-- The number of halves. -/
def halves : ℕ := 2 * c.bits + c.cpol.toNat - c.cpha.toNat

def stateIn (h : ℕ) : SpiState :=
  if c.inSecond h then .second else if h + c.cpha.toNat < 2 * c.bits then .first else .leadout

theorem inSecond_iff (h : ℕ) : c.inSecond h = true ↔ (h + c.cpha.toNat) % 2 = 1 := by
  rw [inSecond]
  cases c.cpha
  · simp
  · simp
    omega

theorem inSecond_succ (h : ℕ) : c.inSecond (h + 1) = !c.inSecond h := by
  rw [inSecond, inSecond, show (decide ((h + 1) % 2 = 1)) = !decide (h % 2 = 1) by grind]
  cases c.cpha <;> simp

theorem halves_pos : 0 < c.halves := by
  have hbits := c.bits_cases
  rw [halves]
  cases c.cpha <;> simp <;> omega

/-- The lead-out is the last half. -/
theorem halves_le_of_leadout {h : ℕ} (hs : c.stateIn h = .leadout) : c.halves ≤ h + 1 := by
  rw [stateIn] at hs
  split_ifs at hs with h1 h2
  rw [halves]
  cases hcpha : c.cpha <;> cases hcpol : c.cpol <;> simp [hcpha] at h2 ⊢ <;> omega

theorem stateIn_ne_idle (h : ℕ) : c.stateIn h ≠ .idle := by
  intro hs
  rw [stateIn] at hs
  split_ifs at hs

theorem inSecond_of_first {h : ℕ} (hs : c.stateIn h = .first) : c.inSecond h = false := by
  rw [stateIn] at hs
  split_ifs at hs with h
  simpa using h

theorem inSecond_of_second {h : ℕ} (hs : c.stateIn h = .second) : c.inSecond h = true := by
  rw [stateIn] at hs
  split_ifs at hs with h
  exact h

theorem lt_of_first {h : ℕ} (hs : c.stateIn h = .first) : h + c.cpha.toNat < 2 * c.bits := by
  rw [stateIn] at hs
  split_ifs at hs with h h'
  exact h'

end SpiControl

namespace Spi

/-- The transfer of `w` is in clock `j` of half `h`; `r m` are the first `m` samples. -/
structure InHalf (c : SpiControl) (w : DataType) (r : ℕ → DataType) (h j : ℕ) (s : Spi) : Prop where
  ctrl : s.ctrl = c
  start : s.start = false
  state : s.state = c.stateIn h
  txbuffer : s.txbuffer = w <<< (h / 2 + c.cpha.toNat)
  rxbuffer : s.rxbuffer = r ((h + 1) / 2)
  bittimer : s.bittimer = c.spiprescaler - j
  shiftcounter : h + c.cpha.toNat < 2 * c.bits →
    s.shiftcounter = c.bits - 1 - ((h + c.cpha.toNat) / 2 : ℕ)
  mosi : s.mosi = (w <<< (h / 2)).getLsbD 31
  sck : s.sck = (c.cpol ^^ c.inSecond h)

variable {c : SpiControl} {w : DataType} {r : ℕ → DataType} {h j : ℕ} {s : Spi} {i : SpiInput}

/-- Without a write the bus leaves the signals of the transfer. -/
theorem access_of_quiet (hq : Quiet i) : s.access i.request =
    { s with
      start := false
      response := (s.access i.request).response
      tc := (s.access i.request).tc } := by
  obtain ⟨-, hctrl, hdata⟩ := hq
  rw [writesControl] at hctrl
  rw [writesData] at hdata
  rw [access]
  repeat' split
  all_goals simp_all

theorem clock_of_quiet (hq : Quiet i) : s.clock i = s.transfer i.miso
    { s with
      start := false
      response := (s.access i.request).response
      tc := (s.access i.request).tc } := by
  rw [clock, if_neg (by simp [hq.1]), ← access_of_quiet hq]

theorem shiftOut_eq {k : ℕ} (ht : s.txbuffer = w <<< k) : s.shiftOut = w <<< (k + 1) := by
  rw [shiftOut, ht]
  apply BitVec.eq_of_getLsbD_eq
  intro b hb
  rw [BitVec.getLsbD_append, BitVec.getLsbD_extractLsb', BitVec.getLsbD_shiftLeft,
    BitVec.getLsbD_shiftLeft]
  grind

theorem getLsbD_shiftLeft_succ (k : ℕ) : (w <<< k).getLsbD 30 = (w <<< (k + 1)).getLsbD 31 := by
  rw [BitVec.getLsbD_shiftLeft, BitVec.getLsbD_shiftLeft]
  grind

/-- One more clock of a half. -/
theorem InHalf.next (hx : InHalf c w r h j s) (hq : Quiet i) (hj : j + 1 < c.half) :
    InHalf c w r h (j + 1) (s.clock i) := by
  have ht : 0 < s.bittimer := by
    rw [hx.bittimer, c.spiprescaler_eq]
    omega
  have hb : s.bittimer - 1 = c.spiprescaler - (j + 1 : ℕ) := by
    rw [hx.bittimer]
    omega
  rw [clock_of_quiet hq, transfer]
  cases hs : c.stateIn h with
  | idle => exact absurd hs (c.stateIn_ne_idle h)
  | first | second =>
    simp only [hx.state, hs, ht, if_true]
    exact ⟨hx.ctrl, rfl, hs.symm, hx.txbuffer, hx.rxbuffer, hb, hx.shiftcounter, hx.mosi, hx.sck⟩
  | leadout =>
    simp only [hx.state, hs, ht, if_true]
    exact ⟨hx.ctrl, rfl, hs.symm, hx.txbuffer, hx.rxbuffer, hb, hx.shiftcounter, hx.mosi, hx.sck⟩

/-- The edge into the second half of a bit. -/
theorem InHalf.edge_of_first (hx : InHalf c w r h j s) (hq : Quiet i) (hj : j + 1 = c.half)
    (hs : c.stateIn h = .first)
    (hr : h % 2 = 0 → r (h / 2 + 1) = (r (h / 2)).extractLsb' 0 31 ++ BitVec.ofBool i.miso) :
    InHalf c w r (h + 1) 0 (s.clock i) := by
  have ht : ¬ 0 < s.bittimer := by
    rw [hx.bittimer, c.spiprescaler_eq]
    omega
  have hcount := hx.shiftcounter
  have htx := hx.txbuffer
  have hrx := hx.rxbuffer
  have hmosi := hx.mosi
  have hlt := c.lt_of_first hs
  have hin : c.inSecond (h + 1) = true := by
    rw [c.inSecond_succ, c.inSecond_of_first hs]
    rfl
  have hstate : SpiState.second = c.stateIn (h + 1) := by
    rw [SpiControl.stateIn, hin, if_pos rfl]
  rw [clock_of_quiet hq, transfer]
  simp only [hx.state, hs, ht, if_false, hx.ctrl]
  have hin' := c.inSecond_of_first hs
  rw [SpiControl.inSecond] at hin'
  cases hcpha : c.cpha with
  | false =>
    -- The first half of the bit samples MISO.
    rw [if_neg Bool.false_ne_true]
    simp only [hcpha, Bool.toNat_false, Nat.add_zero] at htx hcount hlt
    have heven : h % 2 = 0 := by
      rw [hcpha] at hin'
      simpa using hin'
    have hh : (h + 1) / 2 = h / 2 := by omega
    refine ⟨rfl, rfl, hstate, ?_, ?_, by simp, fun _ => ?_, ?_, by simp [hin]⟩
    · rw [hcpha, hh]
      exact htx
    · rw [show (h + 1 + 1) / 2 = h / 2 + 1 by omega, hr heven]
      simp only [shiftIn, hrx, hh]
    · rw [hcpha, Bool.toNat_false, Nat.add_zero, hh]
      exact hcount hlt
    · rw [hh]
      exact hmosi
  | true =>
    -- The first half of the next bit drives MOSI.
    rw [if_pos rfl]
    simp only [hcpha, Bool.toNat_true] at htx hcount hlt
    have hodd : h % 2 = 1 := by
      rw [hcpha] at hin'
      simpa using hin'
    have hh : (h + 1) / 2 = h / 2 + 1 := by omega
    refine ⟨rfl, rfl, hstate, ?_, ?_, by simp, fun _ => ?_, ?_, by simp [hin]⟩
    · rw [hcpha, hh]
      exact shiftOut_eq htx
    · rw [show (h + 1 + 1) / 2 = (h + 1) / 2 by omega]
      exact hrx
    · rw [hcpha, Bool.toNat_true, show (h + 1 + 1) / 2 = (h + 1) / 2 by omega]
      exact hcount hlt
    · rw [hh, ← htx]

/-- The count of the bits left, in the second half of a bit. -/
theorem InHalf.count (hx : InHalf c w r h j s) (hs : c.stateIn h = .second)
    (hlt : h + c.cpha.toNat < 2 * c.bits) :
    0 < s.shiftcounter ↔ h + 1 + c.cpha.toNat < 2 * c.bits := by
  have hin := c.inSecond_of_second hs
  rw [SpiControl.inSecond] at hin
  rw [hx.shiftcounter hlt]
  cases hcpha : c.cpha with
  | false =>
    have hodd : h % 2 = 1 := by
      rw [hcpha] at hin
      simpa using hin
    simp only [Bool.toNat_false]
    omega
  | true =>
    have heven : h % 2 = 0 := by
      rw [hcpha] at hin
      simpa using hin
    simp only [Bool.toNat_true]
    omega

/-- The edge behind the second half of a bit, but for the last one of the transfer. -/
theorem InHalf.edge_of_second (hx : InHalf c w r h j s) (hq : Quiet i) (hj : j + 1 = c.half)
    (hs : c.stateIn h = .second) (hh : h + 1 < c.halves)
    (hr : h % 2 = 0 → r (h / 2 + 1) = (r (h / 2)).extractLsb' 0 31 ++ BitVec.ofBool i.miso) :
    InHalf c w r (h + 1) 0 (s.clock i) := by
  have ht : ¬ 0 < s.bittimer := by
    rw [hx.bittimer, c.spiprescaler_eq]
    omega
  have hbits := c.bits_cases
  have htx := hx.txbuffer
  have hrx := hx.rxbuffer
  have hmosi := hx.mosi
  have hin := c.inSecond_of_second hs
  have hnext : c.inSecond (h + 1) = false := by
    rw [c.inSecond_succ, hin]
    rfl
  rw [SpiControl.inSecond] at hin
  have hlt : h + c.cpha.toNat < 2 * c.bits := by
    rw [SpiControl.halves] at hh
    cases hcpha : c.cpha <;> cases hcpol : c.cpol <;> simp [hcpha, hcpol] at hh hin ⊢ <;> omega
  have hcount := hx.count hs hlt
  have hcpol : ¬ 0 < s.shiftcounter → c.cpol = true := by
    intro hno
    rw [hcount] at hno
    rw [SpiControl.halves] at hh
    by_contra hcpol
    simp only [Bool.not_eq_true] at hcpol
    rw [hcpol, Bool.toNat_false] at hh
    omega
  have hleft := hx.shiftcounter hlt
  have hstate : (if 0 < s.shiftcounter then SpiState.first else .leadout) = c.stateIn (h + 1) := by
    rw [SpiControl.stateIn, hnext, if_neg Bool.false_ne_true]
    exact if_congr hcount rfl rfl
  have hclock : s.clock i =
      { s with
        start := false
        response := (s.access i.request).response
        tc := (s.access i.request).tc
        state := c.stateIn (h + 1)
        bittimer := c.spiprescaler
        sck := c.cpol
        txbuffer := if c.cpha then s.txbuffer else s.shiftOut
        rxbuffer := if c.cpha then s.shiftIn i.miso else s.rxbuffer
        mosi := if c.cpha then s.mosi else s.txbuffer.getLsbD 30
        shiftcounter := if 0 < s.shiftcounter then s.shiftcounter - 1 else s.shiftcounter } := by
    rw [clock_of_quiet hq, transfer, ← hstate]
    simp only [hx.state, hs, ht, if_false, hx.ctrl]
    by_cases hpos : 0 < s.shiftcounter
    · cases c.cpha <;> simp [hpos]
    · cases c.cpha <;> simp [hpos, hcpol hpos]
  rw [hclock]
  cases hcpha : c.cpha with
  | false =>
    simp only [hcpha, Bool.toNat_false, Nat.add_zero] at htx hcount hlt hleft
    have hodd : h % 2 = 1 := by
      rw [hcpha] at hin
      simpa using hin
    have hh' : (h + 1) / 2 = h / 2 + 1 := by omega
    refine ⟨hx.ctrl, rfl, rfl, ?_, ?_, by simp, fun hlt' => ?_, ?_, by simp [hnext]⟩
    · rw [hcpha, hh']
      exact shiftOut_eq htx
    · rw [show (h + 1 + 1) / 2 = (h + 1) / 2 by omega]
      exact hrx
    · rw [hcpha] at hlt' ⊢
      simp only [Bool.toNat_false, Nat.add_zero] at hlt' ⊢
      rw [if_pos (hcount.mpr hlt'), hleft]
      omega
    · rw [hh', ← getLsbD_shiftLeft_succ, ← htx]
      rfl
  | true =>
    simp only [hcpha, Bool.toNat_true] at htx hcount hlt hleft
    have heven : h % 2 = 0 := by
      rw [hcpha] at hin
      simpa using hin
    have hh' : (h + 1) / 2 = h / 2 := by omega
    refine ⟨hx.ctrl, rfl, rfl, ?_, ?_, by simp, fun hlt' => ?_, ?_, by simp [hnext]⟩
    · rw [hcpha, hh']
      exact htx
    · rw [show (h + 1 + 1) / 2 = h / 2 + 1 by omega, hr heven]
      simp only [if_true, shiftIn, hrx, hh']
    · rw [hcpha] at hlt' ⊢
      simp only [Bool.toNat_true] at hlt' ⊢
      rw [if_pos (hcount.mpr hlt'), hleft]
      omega
    · rw [hh']
      exact hmosi

/-- What is left of the transfer `w` when it is over. -/
structure Ended (c : SpiControl) (r : ℕ → DataType) (s : Spi) : Prop where
  ctrl : s.ctrl = c
  start : s.start = false
  state : s.state = .idle
  data : s.data = r (c.halves / 2)
  mosi : s.mosi = spimosidefault
  sck : s.sck = c.cpol
  tc : s.tc = true

/-- The end of the last half. -/
theorem InHalf.finish (hx : InHalf c w r h j s) (hq : Quiet i) (hj : j + 1 = c.half)
    (hh : h + 1 = c.halves) : Ended c r (s.clock i) := by
  have ht : ¬ 0 < s.bittimer := by
    rw [hx.bittimer, c.spiprescaler_eq]
    omega
  have hbits := c.bits_cases
  have hrx := hx.rxbuffer
  rw [hh] at hrx
  rw [SpiControl.halves] at hh
  rw [clock_of_quiet hq, transfer]
  cases hs : c.stateIn h with
  | idle => exact absurd hs (c.stateIn_ne_idle h)
  | first =>
    have hlt := c.lt_of_first hs
    have hin := c.inSecond_of_first hs
    rw [SpiControl.inSecond] at hin
    cases hcpha : c.cpha <;> cases hcpol : c.cpol <;>
      simp [hcpha, hcpol] at hh hin hlt <;> omega
  | second =>
    have hin := c.inSecond_of_second hs
    rw [SpiControl.inSecond] at hin
    have hcpol : c.cpol = false := by
      cases hcpha : c.cpha <;> cases hcpol : c.cpol <;> simp [hcpha, hcpol] at hh hin ⊢ <;> omega
    have hcount : ¬ 0 < s.shiftcounter := by
      rw [hcpol, Bool.toNat_false] at hh
      rw [hx.count hs (by omega)]
      omega
    simp only [hx.state, hs, ht, if_false, hx.ctrl, hcount, hcpol, Bool.false_eq_true, Spi.finish]
    cases c.cpha <;> exact ⟨rfl, rfl, rfl, hrx, rfl, hcpol.symm, rfl⟩
  | leadout =>
    simp only [hx.state, hs, ht, if_false, Spi.finish]
    exact ⟨hx.ctrl, rfl, rfl, hrx, rfl, congrArg SpiControl.cpol hx.ctrl, rfl⟩

/-! ## The clock line of an idle unit -/

theorem state_clock_of_idle (hs : s.state = .idle) (hr : i.sreset = false) :
    (s.clock i).state = if s.start then if s.ctrl.cpha then .second else .first else .idle := by
  have hstate : (s.access i.request).state = .idle := by
    rw [access]
    repeat' split
    all_goals exact hs
  rw [clock, hr, if_neg Bool.false_ne_true, transfer, hs]
  dsimp only
  split_ifs <;> first | rfl | exact hstate

theorem sck_access (q : MemRequest) (h : s.sck = s.ctrl.cpol) :
    (s.access q).sck = (s.access q).ctrl.cpol := by
  rw [access]
  repeat' split
  all_goals first | rfl | exact h

/-- The clock line is at its idle level whenever the unit is idle. -/
theorem sck_of_reachable (h : machine.Reachable Undisturbed s) (hs : s.state = .idle) :
    s.sck = s.ctrl.cpol := by
  induction h with
  | init => rfl
  | @step s i _ hsafe ih =>
    change (s.clock i).sck = (s.clock i).ctrl.cpol
    change (s.clock i).state = .idle at hs
    cases hr : i.sreset with
    | true =>
      rw [clock, hr, if_pos rfl]
      rfl
    | false =>
      by_cases hidle : s.state = .idle
      · rw [state_clock_of_idle hidle hr] at hs
        have hstart : s.start = false := by
          by_contra h
          rw [Bool.not_eq_false] at h
          rw [h, if_pos rfl] at hs
          split_ifs at hs
        rw [clock, hr, if_neg Bool.false_ne_true, transfer, hidle]
        simp only [hstart, Bool.false_eq_true, if_false]
        exact sck_access i.request (ih hidle)
      · have hq : Quiet i := by
          refine (hsafe ?_).resolve_left (by simp [hr])
          simp [busy, hidle]
        rw [clock_of_quiet hq, transfer] at hs ⊢
        cases hst : s.state with
        | idle => exact absurd hst hidle
        | first =>
          simp only [hst] at hs
          split_ifs at hs
        | second =>
          simp only [hst] at hs ⊢
          split_ifs at hs ⊢ <;> rfl
        | leadout =>
          simp only [hst] at hs ⊢
          split_ifs at hs ⊢
          rfl

/-- Transfer complete is what the bus leaves, or set at the end of a transfer. -/
theorem tc_clock (hr : i.sreset = false) : (s.clock i).tc =
    (decide (s.state ≠ .idle ∧ (s.clock i).state = .idle) || (s.access i.request).tc) := by
  have hstate : (s.access i.request).state = s.state := by
    rw [access]
    repeat' split
    all_goals rfl
  rw [clock, hr, if_neg Bool.false_ne_true, transfer]
  cases hst : s.state with
  | idle =>
    dsimp only
    split_ifs <;> simp
  | first | second | leadout =>
    dsimp only
    split_ifs <;> simp [hstate, hst, Spi.finish]

/-! ## The run of a transfer -/

/-- The first `m` samples, shifted in. -/
def received (c : SpiControl) (i : ℕ → SpiInput) : ℕ → DataType
  | 0 => 0
  | m + 1 => (received c i m).extractLsb' 0 31 ++
      BitVec.ofBool (i (1 + c.half * (2 * m + 1))).miso

/-- A word is written to an idle unit in clock 0, and then the unit is left alone until it is idle
again. -/
structure Starts (c : SpiControl) (word : DataType) (x : ℕ → Spi) (i : ℕ → SpiInput) : Prop where
  next : ∀ t, x (t + 1) = (x t).clock (i t)
  ctrl : (x 0).ctrl = c
  idle : (x 0).busy = false
  sck : (x 0).sck = c.cpol
  sreset : (i 0).sreset = false
  writes : writesData (i 0).request = true
  data : (i 0).request.data = word
  quiet : ∀ t, (x (t + 1)).busy = true → Quiet (i (t + 1))

variable {word : DataType} {x : ℕ → Spi} {i : ℕ → SpiInput}

/-- The unit in the clock after the write. -/
structure Loaded (c : SpiControl) (word : DataType) (s : Spi) : Prop where
  ctrl : s.ctrl = c
  start : s.start = true
  state : s.state = .idle
  txbuffer : s.txbuffer = c.transferred word
  shiftcounter : s.shiftcounter = c.lastBit
  sck : s.sck = c.cpol
  tc : s.tc = false

theorem Starts.loaded (h : Starts c word x i) : Loaded c word (x 1) := by
  have hidle := h.idle
  simp only [busy, Bool.or_eq_false_iff, decide_eq_false_iff_not, not_not] at hidle
  have hw := h.writes
  rw [writesData, Bool.and_eq_true] at hw
  have haccess : (x 0).access (i 0).request = { x 0 with
      start := true
      response := .clock (i 0).request ((x 0).readData (i 0).request) false
      txbuffer := (x 0).ctrl.transferred (i 0).request.data
      data := 0
      shiftcounter := (x 0).ctrl.lastBit
      tc := false } := by
    rw [access, MemRequest.selects_of_ne hw.1 (by decide),
      MemRequest.selects_of_ne hw.1 (by decide),
      hw.1, hw.2]
    rfl
  have hx : x 1 = (x 0).transfer (i 0).miso ((x 0).access (i 0).request) := by
    rw [h.next 0, clock, h.sreset, if_neg Bool.false_ne_true]
  rw [hx, haccess, transfer, hidle.2]
  simp only [hidle.1, Bool.false_eq_true, if_false, h.ctrl, h.data]
  exact ⟨rfl, rfl, rfl, rfl, rfl, h.sck, rfl⟩

/-- The first half begins. -/
theorem Loaded.begins {s : Spi} {i : SpiInput} (h : Loaded c word s) (hq : Quiet i)
    (hr : r 0 = 0) : InHalf c (c.transferred word) r 0 0 (s.clock i) := by
  have hlast := c.lastBit_eq
  have hbits := c.bits_cases
  rw [clock_of_quiet hq, transfer]
  simp only [h.state, h.start, if_true, h.ctrl]
  have htx : s.txbuffer = c.transferred word <<< 0 :=
    h.txbuffer.trans (BitVec.shiftLeft_zero _).symm
  cases hcpha : c.cpha with
  | false =>
    rw [if_neg Bool.false_ne_true]
    refine ⟨rfl, rfl, ?_, ?_, hr.symm, by simp, fun _ => ?_, ?_, ?_⟩
    · rw [SpiControl.stateIn, SpiControl.inSecond, hcpha, if_neg (by simp), if_pos ?_]
      simp only [Bool.toNat_false]
      omega
    · rw [hcpha]
      exact htx
    · rw [hcpha]
      simp only [h.shiftcounter, hlast]
      simp
    · rw [htx]
    · simp [SpiControl.inSecond, hcpha]
  | true =>
    rw [if_pos rfl]
    refine ⟨rfl, rfl, ?_, ?_, hr.symm, by simp, fun _ => ?_, ?_, ?_⟩
    · rw [SpiControl.stateIn, SpiControl.inSecond, hcpha, if_pos (by simp)]
    · rw [hcpha]
      exact shiftOut_eq htx
    · rw [hcpha]
      simp only [h.shiftcounter, hlast]
      simp
    · rw [htx]
    · simp [SpiControl.inSecond, hcpha]

theorem InHalf.busy {s : Spi} (hx : InHalf c w r h j s) : s.busy = true := by
  simp [Spi.busy, hx.state, c.stateIn_ne_idle h]

theorem Starts.quiet_of_busy (h : Starts c word x i) {t : ℕ} (ht : 0 < t)
    (hb : (x t).busy = true) : Quiet (i t) := by
  obtain ⟨t, rfl⟩ := Nat.exists_eq_succ_of_ne_zero (Nat.ne_of_gt ht)
  exact h.quiet t hb

/-- One half after its first clock. -/
theorem Starts.inHalf_of_first (h : Starts c word x i) {k j : ℕ}
    (hx : InHalf c w r k 0 (x (2 + c.half * k))) (hj : j < c.half) :
    InHalf c w r k j (x (2 + c.half * k + j)) := by
  induction j with
  | zero => exact hx
  | succ j ih =>
    have hlast := ih (by omega)
    rw [← Nat.add_assoc, h.next]
    exact hlast.next (h.quiet_of_busy (by omega) hlast.busy) hj

theorem Starts.samples (h : ℕ) (hh : h % 2 = 0) :
    received c i (h / 2 + 1) = (received c i (h / 2)).extractLsb' 0 31 ++
      BitVec.ofBool (i (2 + c.half * h + (c.half - 1))).miso := by
  have hpos := c.half_pos
  rw [received, show 1 + c.half * (2 * (h / 2) + 1) = 2 + c.half * h + (c.half - 1) by
    rw [show 2 * (h / 2) = h by omega, Nat.mul_add]
    omega]

/-- Where the transfer is, clock by clock. -/
theorem Starts.inHalf (h : Starts c word x i) {k j : ℕ} (hk : k < c.halves) (hj : j < c.half) :
    InHalf c (c.transferred word) (received c i) k j (x (2 + c.half * k + j)) := by
  have hpos := c.half_pos
  refine h.inHalf_of_first ?_ hj
  clear hj
  induction k with
  | zero =>
    have hloaded := h.loaded
    rw [show 2 + c.half * 0 = 1 + 1 by omega, h.next]
    exact hloaded.begins (h.quiet 0 (by simp [busy, hloaded.start])) rfl
  | succ k ih =>
    have hlast := h.inHalf_of_first (j := c.half - 1) (ih (by omega)) (by omega)
    have hq := h.quiet_of_busy (by omega) hlast.busy
    have hstep : 2 + c.half * (k + 1) = 2 + c.half * k + (c.half - 1) + 1 := by
      rw [Nat.mul_add]
      omega
    rw [hstep, h.next]
    cases hs : c.stateIn k with
    | idle => exact absurd hs (c.stateIn_ne_idle k)
    | first => exact hlast.edge_of_first hq (by omega) hs (Starts.samples k)
    | second => exact hlast.edge_of_second hq (by omega) hs hk (Starts.samples k)
    | leadout => exact absurd hk (Nat.not_lt.mpr (c.halves_le_of_leadout hs))

/-- The last clock of the transfer. -/
def lastClock (c : SpiControl) : ℕ := 1 + c.half * c.halves

theorem Starts.ended (h : Starts c word x i) :
    Ended c (received c i) (x (lastClock c + 1)) := by
  have hpos := c.half_pos
  have hh := c.halves_pos
  have hlast := h.inHalf (k := c.halves - 1) (j := c.half - 1) (by omega) (by omega)
  have hstep : lastClock c = 2 + c.half * (c.halves - 1) + (c.half - 1) := by
    rw [lastClock, Nat.mul_sub, Nat.mul_one]
    have hle := Nat.le_mul_of_pos_right c.half hh
    omega
  rw [h.next, hstep]
  exact hlast.finish (h.quiet_of_busy (by omega) hlast.busy) (by omega) (by omega)

/-! ## The clock line -/

/-- The level behind the edge into half `k`, or behind the last half. -/
theorem Starts.sck_after (h : Starts c word x i) {k : ℕ} (hk : k ≤ c.halves) :
    (x (1 + c.half * k + 1)).sck ≠ c.cpol ↔ k < c.halves ∧ (k + c.cpha.toNat) % 2 = 1 := by
  rw [← c.inSecond_iff]
  rcases Nat.lt_or_ge k c.halves with hlt | hge
  · have hx := (h.inHalf (j := 0) hlt c.half_pos).sck
    rw [show 1 + c.half * k + 1 = 2 + c.half * k + 0 by omega, hx]
    cases c.cpol <;> simp [hlt]
  · obtain rfl : k = c.halves := by omega
    have hended := h.ended.sck
    rw [lastClock] at hended
    simp [hended]

/-- The level in front of the edge into half `k`. -/
theorem Starts.sck_before (h : Starts c word x i) {k : ℕ} (hk : k ≤ c.halves) :
    (x (1 + c.half * k)).sck ≠ c.cpol ↔ 0 < k ∧ (k + c.cpha.toNat) % 2 = 0 := by
  have hpos := c.half_pos
  cases k with
  | zero => simp [h.loaded.sck]
  | succ k =>
    have hx := (h.inHalf (k := k) (j := c.half - 1) (by omega) (by omega)).sck
    have hodd : (k + 1 + c.cpha.toNat) % 2 = 0 ↔ (k + c.cpha.toNat) % 2 = 1 := by omega
    rw [show 1 + c.half * (k + 1) = 2 + c.half * k + (c.half - 1) by rw [Nat.mul_add]; omega, hx,
      hodd, ← c.inSecond_iff]
    cases c.cpol <;> simp

theorem lastClock_cases {t : ℕ} (ht : t ≤ lastClock c) : t = 0 ∨ t = 1 ∨
    ∃ k j, k < c.halves ∧ j < c.half ∧ t = 2 + c.half * k + j := by
  rw [lastClock] at ht
  rcases Nat.lt_or_ge t 2 with hlt | hge
  · omega
  · refine .inr (.inr ⟨(t - 2) / c.half, (t - 2) % c.half, ?_, Nat.mod_lt _ c.half_pos, ?_⟩)
    · rw [Nat.div_lt_iff_lt_mul c.half_pos, Nat.mul_comm]
      omega
    · have hdiv := Nat.div_add_mod (t - 2) c.half
      omega

/-- The clock line changes between two halves only. -/
theorem Starts.clock_of_edge (h : Starts c word x i) {v : Bool} {t : ℕ} (ht : t ≤ lastClock c)
    (he : Waveform.edge (fun t => (x t).sck) v t = true) :
    ∃ k, k ≤ c.halves ∧ t = 1 + c.half * k := by
  have hkeeps (hsame : (x (t + 1)).sck = (x t).sck) : False := by
    rw [Waveform.edge_of_eq hsame] at he
    cases he
  rcases lastClock_cases ht with rfl | rfl | ⟨k, j, hk, hj, rfl⟩
  · exact absurd (h.loaded.sck.trans h.sck.symm) hkeeps
  · exact ⟨0, by omega, rfl⟩
  · rcases Nat.lt_or_ge (j + 1) c.half with hlt | hge
    · have hnext := (h.inHalf (j := j + 1) hk hlt).sck
      exact absurd (hnext.trans (h.inHalf hk hj).sck.symm) hkeeps
    · refine ⟨k + 1, hk, ?_⟩
      rw [Nat.mul_add]
      omega

/-- Edges at the beginning of the halves that have the property `p`, which are every second one. -/
theorem Starts.edges_eq (h : Starts c word x i) {v : Bool} {a : ℕ} (ha : 0 < a)
    (hp : ∀ k, k ≤ c.halves →
      (Waveform.edge (fun t => (x t).sck) v (1 + c.half * k) = true ↔
        ∃ m, m < c.bits ∧ 2 * m + a - c.cpha.toNat = k))
    (hle : ∀ m, m < c.bits → 2 * m + a - c.cpha.toNat ≤ c.halves) :
    Waveform.edges (fun t => (x t).sck) v (lastClock c + 1) =
      (List.range c.bits).map fun k => 1 + c.half * (2 * k + a - c.cpha.toNat) := by
  have hpos := c.half_pos
  have hcpha := c.cpha.toNat_le
  refine Waveform.filter_range_eq_map (fun k k' hk => ?_) (fun t ht => ?_) fun m hm => ?_
  · exact Nat.add_lt_add_left (Nat.mul_lt_mul_of_pos_left (by omega) hpos) 1
  · constructor
    · intro he
      obtain ⟨k, hk, rfl⟩ := h.clock_of_edge (by omega) he
      obtain ⟨m, hm, rfl⟩ := (hp k hk).mp he
      exact ⟨m, hm, rfl⟩
    · rintro ⟨m, hm, rfl⟩
      exact (hp _ (hle m hm)).mpr ⟨m, hm, rfl⟩
  · rw [lastClock]
    have hmul := Nat.mul_le_mul_left c.half (hle m hm)
    omega

/-- The leading edge of each pulse. -/
theorem Starts.leading_eq (h : Starts c word x i) :
    Waveform.edges (fun t => (x t).sck) (!c.cpol) (lastClock c + 1) =
      (List.range c.bits).map fun k => 1 + c.half * (2 * k + 1 - c.cpha.toNat) := by
  have hbits := c.bits_cases
  have hcpha := c.cpha.toNat_le
  have hcpol := c.cpol.toNat_le
  have hhalves : c.halves = 2 * c.bits + c.cpol.toNat - c.cpha.toNat := rfl
  refine h.edges_eq Nat.one_pos (fun k hk => ?_) fun m hm => by omega
  have hne (b : Bool) : b = !c.cpol ↔ b ≠ c.cpol := by
    cases b <;> cases c.cpol <;> decide
  rw [Waveform.edge_iff, Ne, hne, hne, h.sck_after hk, h.sck_before hk]
  constructor
  · intro hedge
    exact ⟨(k + c.cpha.toNat) / 2, by omega, by omega⟩
  · rintro ⟨m, hm, rfl⟩
    omega

/-- The trailing edge of each pulse. -/
theorem Starts.trailing_eq (h : Starts c word x i) :
    Waveform.edges (fun t => (x t).sck) c.cpol (lastClock c + 1) =
      (List.range c.bits).map fun k => 1 + c.half * (2 * k + 2 - c.cpha.toNat) := by
  have hbits := c.bits_cases
  have hcpha := c.cpha.toNat_le
  have hcpol := c.cpol.toNat_le
  have hhalves : c.halves = 2 * c.bits + c.cpol.toNat - c.cpha.toNat := rfl
  refine h.edges_eq Nat.two_pos (fun k hk => ?_) fun m hm => by omega
  rw [Waveform.edge_iff, ← not_ne_iff (a := (x (1 + c.half * k + 1)).sck), h.sck_after hk,
    h.sck_before hk]
  constructor
  · intro hedge
    exact ⟨(k + c.cpha.toNat) / 2 - 1, by omega, by omega⟩
  · rintro ⟨m, hm, rfl⟩
    omega

/-- MISO is sampled in the middle of every bit. -/
theorem Starts.samplings_eq (h : Starts c word x i) : samplings c x (lastClock c) =
    (List.range c.bits).map fun k => 1 + c.half * (2 * k + 1) := by
  rw [samplings, SpiControl.samplingLevel]
  cases hcpha : c.cpha with
  | false => simpa [hcpha] using h.leading_eq
  | true => simpa [hcpha] using h.trailing_eq

/-! ## The data -/

theorem getLsbD_received (m : ℕ) {b : ℕ} (hb : b < 32) : (received c i m).getLsbD b =
    (decide (b < m) && (i (1 + c.half * (2 * (m - 1 - b) + 1))).miso) := by
  induction m generalizing b with
  | zero => simp [received]
  | succ m ih =>
    rw [received, BitVec.getLsbD_append, BitVec.getLsbD_extractLsb']
    cases b with
    | zero => simp
    | succ b =>
      rw [if_neg (by omega), Nat.zero_add, Nat.add_sub_cancel, ih (by omega),
        show m + 1 - 1 - (b + 1) = m - 1 - b by omega]
      simp
      omega

/-- The samples as a word. -/
theorem received_eq (m : ℕ) : received c i m = (BitVec.ofBoolListBE ((List.range m).map fun k =>
    (i (1 + c.half * (2 * k + 1))).miso)).setWidth 32 := by
  apply BitVec.eq_of_getLsbD_eq
  intro b hb
  rw [getLsbD_received m hb, BitVec.getLsbD_setWidth, BitVec.getLsbD_ofBoolListBE]
  by_cases hlt : b < m
  · have hidx : m - 1 - b < m := by omega
    simp [hb, hlt, List.getD, hidx]
  · simp [hlt]

/-- Without its last sample a word is the same only if it is zero. -/
theorem received_pred_iff : received c i (c.bits - 1) = received c i c.bits ↔
    ∀ k, k < c.bits → (i (1 + c.half * (2 * k + 1))).miso = false := by
  have hbits := c.bits_cases
  constructor
  · intro heq k
    induction k with
    | zero =>
      intro hk
      have hbit := congrArg (fun w => w.getLsbD (c.bits - 1)) heq
      rw [getLsbD_received _ (by omega), getLsbD_received _ (by omega), decide_eq_false (by omega),
        decide_eq_true (by omega), Bool.false_and, Bool.true_and, Nat.sub_self] at hbit
      exact hbit.symm
    | succ k ih =>
      intro hk
      have hbit := congrArg (fun w => w.getLsbD (c.bits - 1 - (k + 1))) heq
      rw [getLsbD_received _ (by omega), getLsbD_received _ (by omega), decide_eq_true (by omega),
        decide_eq_true (by omega), Bool.true_and, Bool.true_and,
        show c.bits - 1 - 1 - (c.bits - 1 - (k + 1)) = k by omega,
        show c.bits - 1 - (c.bits - 1 - (k + 1)) = k + 1 by omega] at hbit
      rw [← hbit]
      exact ih (by omega)
  · intro hzero
    apply BitVec.eq_of_getLsbD_eq
    intro b hb
    rw [getLsbD_received _ hb, getLsbD_received _ hb]
    by_cases hlt : b < c.bits
    · rw [hzero _ (by omega), hzero _ (by omega), Bool.and_false, Bool.and_false]
    · rw [decide_eq_false (by omega), decide_eq_false (by omega), Bool.false_and, Bool.false_and]

/-- There is a half behind every sampling edge. -/
def Covered (c : SpiControl) : Prop := c.cpha = false ∨ c.cpol = true

instance : Decidable (Covered c) := inferInstanceAs (Decidable (_ ∨ _))

theorem covered_iff : Covered c ↔ 2 * c.bits ≤ c.halves := by
  have hbits := c.bits_cases
  rw [Covered, SpiControl.halves]
  cases c.cpha <;> cases c.cpol <;> simp
  omega

theorem Starts.data_iff (h : Starts c word x i) : (x (lastClock c + 1)).data =
    (BitVec.ofBoolListBE ((samplings c x (lastClock c)).map fun t => (i t).miso)).setWidth 32 ↔
      (Covered c ∨ ∀ k, k < c.bits → (i (1 + c.half * (2 * k + 1))).miso = false) := by
  have hbits := c.bits_cases
  have hcpha := c.cpha.toNat_le
  have hcpol := c.cpol.toNat_le
  have hhalves : c.halves = 2 * c.bits + c.cpol.toNat - c.cpha.toNat := rfl
  rw [h.ended.data, h.samplings_eq, List.map_map]
  change _ = (BitVec.ofBoolListBE ((List.range c.bits).map fun k =>
    (i (1 + c.half * (2 * k + 1))).miso)).setWidth 32 ↔ _
  rw [← received_eq, covered_iff]
  by_cases hcov : 2 * c.bits ≤ c.halves
  · rw [show c.halves / 2 = c.bits by omega]
    exact iff_of_true rfl (.inl hcov)
  · rw [show c.halves / 2 = c.bits - 1 by omega, received_pred_iff]
    exact (or_iff_right hcov).symm

theorem getLsbD_transferred_shiftLeft {k : ℕ} (hk : k < c.bits) :
    (c.transferred word <<< k).getLsbD 31 = word.getLsbD (c.bits - 1 - k) := by
  have hbits := c.bits_cases
  rw [BitVec.getLsbD_shiftLeft, decide_eq_true (by omega), decide_eq_false (by omega),
    c.getLsbD_transferred word hk]
  rfl

/-- MOSI in front of the sampling edges. -/
theorem Starts.mosi_eq (h : Starts c word x i) :
    (samplings c x (lastClock c)).map (fun t => (x t).mosi) = c.bitsOf word := by
  have hbits := c.bits_cases
  have hpos := c.half_pos
  have hcpha := c.cpha.toNat_le
  have hhalves : c.halves = 2 * c.bits + c.cpol.toNat - c.cpha.toNat := rfl
  rw [h.samplings_eq, List.map_map, SpiControl.bitsOf]
  refine List.map_congr_left fun k hk => ?_
  rw [List.mem_range] at hk
  have hx := (h.inHalf (k := 2 * k) (j := c.half - 1) (by omega) (by omega)).mosi
  rw [show 2 * k / 2 = k by omega, getLsbD_transferred_shiftLeft hk] at hx
  have hclock : 1 + c.half * (2 * k + 1) = 2 + c.half * (2 * k) + (c.half - 1) := by
    rw [Nat.mul_add]
    omega
  rw [← hx, Function.comp_apply, hclock]

/-- MOSI behind a sampling edge, unless it is the end of the transfer. -/
theorem Starts.mosi_behind (h : Starts c word x i) {k : ℕ} (hk : k < c.bits)
    (hlt : 2 * k + 1 < c.halves) :
    (x (1 + c.half * (2 * k + 1) + 1)).mosi = word.getLsbD (c.bits - 1 - k) := by
  have hx := (h.inHalf (j := 0) hlt c.half_pos).mosi
  rw [show (2 * k + 1) / 2 = k by omega, getLsbD_transferred_shiftLeft hk] at hx
  rw [← hx, show 1 + c.half * (2 * k + 1) + 1 = 2 + c.half * (2 * k + 1) + 0 by omega]

theorem Starts.stable_iff (h : Starts c word x i) :
    (samplings c x (lastClock c)).map (fun t => (x (t + 1)).mosi) = c.bitsOf word ↔
      Covered c ∨ word.getLsbD 0 = true := by
  have hbits := c.bits_cases
  have hcpha := c.cpha.toNat_le
  have hhalves : c.halves = 2 * c.bits + c.cpol.toNat - c.cpha.toNat := rfl
  rw [h.samplings_eq, List.map_map, SpiControl.bitsOf, List.map_inj_left, covered_iff]
  simp only [List.mem_range, Function.comp_apply]
  by_cases hcov : 2 * c.bits ≤ c.halves
  · exact iff_of_true (fun k hk => h.mosi_behind hk (by omega)) (.inl hcov)
  · have hend : (x (1 + c.half * (2 * (c.bits - 1) + 1) + 1)).mosi = true := by
      have hmosi := h.ended.mosi
      rw [lastClock, show c.halves = 2 * (c.bits - 1) + 1 by omega] at hmosi
      exact hmosi
    rw [or_iff_right hcov]
    constructor
    · intro hall
      have hlast := hall (c.bits - 1) (by omega)
      rw [hend, Nat.sub_self] at hlast
      exact hlast.symm
    · intro hword k hk
      rcases Nat.lt_or_ge (k + 1) c.bits with hlt | hge
      · exact h.mosi_behind hk (by omega)
      · obtain rfl : k = c.bits - 1 := by omega
        rw [hend, Nat.sub_self, hword]

/-! ## Correctness -/

theorem Starts.busy (h : Starts c word x i) {t : ℕ} (ht : 0 < t) (hle : t ≤ lastClock c) :
    (x t).busy = true := by
  rcases lastClock_cases hle with rfl | rfl | ⟨k, j, hk, hj, rfl⟩
  · exact absurd ht (lt_irrefl 0)
  · simp [Spi.busy, h.loaded.start]
  · exact (h.inHalf hk hj).busy

theorem Ended.busy {s : Spi} (h : Ended c r s) : s.busy = false := by
  simp [Spi.busy, h.start, h.state]

theorem Starts.state_ne_idle (h : Starts c word x i) {t : ℕ} (ht : 1 < t)
    (hle : t ≤ lastClock c) : (x t).state ≠ .idle := by
  rcases lastClock_cases hle with rfl | rfl | ⟨k, j, hk, hj, rfl⟩
  · exact absurd ht (by decide)
  · exact absurd ht (by decide)
  · rw [(h.inHalf hk hj).state]
    exact c.stateIn_ne_idle k

theorem Starts.complete (h : Starts c word x i) {t : ℕ} (ht : 0 < t) (hle : t ≤ lastClock c) :
    (x (t + 1)).tc = (decide (t = lastClock c) || ((x t).access (i t).request).tc) := by
  rw [h.next, tc_clock (h.quiet_of_busy ht (h.busy ht hle)).1, ← h.next]
  congr 1
  rw [decide_eq_decide]
  constructor
  · rintro ⟨-, hidle⟩
    by_contra hlt
    exact h.state_ne_idle (by omega) (by omega) hidle
  · rintro rfl
    have hpos := Nat.mul_pos c.half_pos c.halves_pos
    exact ⟨h.state_ne_idle (by rw [lastClock]; omega) le_rfl, h.ended.state⟩

theorem Starts.transfers_iff (h : Starts c word x i) :
    Transfers c word x i (lastClock c) ↔ Held c word i := by
  have hheld : Held c word i ↔ (Covered c ∨ word.getLsbD 0 = true) ∧
      (Covered c ∨ ∀ k, k < c.bits → (i (1 + c.half * (2 * k + 1))).miso = false) := by
    rw [Held, ← or_and_left, ← or_assoc]
    rfl
  rw [hheld, ← h.stable_iff, ← h.data_iff]
  constructor
  · intro ht
    exact ⟨ht.stable, ht.data⟩
  · rintro ⟨hstable, hdata⟩
    refine ⟨fun t => h.busy, h.ended.busy, ?_, ?_, h.mosi_eq, hstable, hdata, h.loaded.tc,
      fun t => h.complete, h.sck, h.loaded.sck, h.ended.sck⟩
    · rw [h.leading_eq, List.length_map, List.length_range]
    · rw [h.trailing_eq, List.length_map, List.length_range]

theorem Starts.exists_transfers_iff (h : Starts c word x i) :
    (∃ n, Transfers c word x i n) ↔ Held c word i := by
  rw [← h.transfers_iff]
  constructor
  · rintro ⟨n, hn⟩
    have hend : n = lastClock c := by
      rcases Nat.lt_trichotomy n (lastClock c) with hlt | heq | hlt
      · have hbusy := h.busy (t := n + 1) (by omega) hlt
        rw [hn.done] at hbusy
        cases hbusy
      · exact heq
      · have hbusy := hn.busy (lastClock c + 1) (by omega) hlt
        rw [h.ended.busy] at hbusy
        cases hbusy
    rw [← hend]
    exact hn
  · intro ht
    exact ⟨_, ht⟩

/-- In every run in which no control or data register is written during a transfer, the clock line
of an idle unit is at its idle level, and a transfer is correct if and only if its last bit is
sampled before the transfer ends, or is a one in a word for which nothing but zeros arrive. -/
theorem transfer_correct_iff {s : Spi} (h : machine.Reachable Undisturbed s)
    (hidle : s.busy = false) : s.sck = s.ctrl.cpol ∧ ∀ i : ℕ → SpiInput, (i 0).sreset = false →
      writesData (i 0).request = true →
      (∀ t, (machine.trace s i (t + 1)).busy = true → Quiet (i (t + 1))) →
      ((∃ n, Transfers s.ctrl (i 0).request.data (machine.trace s i) i n) ↔
        Held s.ctrl (i 0).request.data i) := by
  have hstate : s.state = .idle := by
    rw [Spi.busy, Bool.or_eq_false_iff] at hidle
    simpa using hidle.2
  have hsck := sck_of_reachable h hstate
  refine ⟨hsck, fun i hr hw hq => ?_⟩
  have hstarts : Starts s.ctrl (i 0).request.data (machine.trace s i) i :=
    ⟨fun _ => rfl, rfl, hidle, hsck, hr, hw, rfl, hq⟩
  exact hstarts.exists_transfers_iff

/-- A clock without an access, with a high level on MISO. -/
def pause : SpiInput := ⟨⟨false, .word, 0, 0, false⟩, false, true⟩

/-- A clock with a store to the register at `addr`. -/
def storing (addr data : DataType) : SpiInput := ⟨⟨true, .word, addr, data, true⟩, false, true⟩

/-- The word 0xa5 is written, and nothing else. -/
def sendingA5 : ℕ → SpiInput
  | 0 => storing 8 0xa5
  | _ + 1 => pause

theorem sendingA5_quiet (t : ℕ) : Quiet (sendingA5 (t + 1)) := by
  change Quiet pause
  decide

/-- In the mode after reset a byte is exchanged. -/
theorem byte_is_exchanged :
    ∃ n, Transfers SpiControl.reset 0xa5 (machine.trace reset sendingA5) sendingA5 n :=
  ((transfer_correct_iff (s := reset) .init rfl).2 sendingA5 rfl rfl
    fun t _ => sendingA5_quiet t).mpr (.inl rfl)

/-- With a low idle clock and the trailing edge as the sampling edge, the last bit does not arrive. -/
theorem last_bit_is_lost : ¬ ∀ s, machine.Reachable Undisturbed s → s.busy = false →
    ∀ i : ℕ → SpiInput, (i 0).sreset = false → writesData (i 0).request = true →
      (∀ t, (machine.trace s i (t + 1)).busy = true → Quiet (i (t + 1))) →
      ∃ n, Transfers s.ctrl (i 0).request.data (machine.trace s i) i n := by
  intro h
  let s : Spi := machine.run [storing 0 2]
  have hmeets : machine.Meets Undisturbed machine.init [storing 0 2] := ⟨by decide, trivial⟩
  have hreach : machine.Reachable Undisturbed s := Machine.Reachable.init.runFrom_of_meets hmeets
  have hidle : s.busy = false := by decide
  have hstarts : Starts s.ctrl 0xa5 (machine.trace s sendingA5) sendingA5 :=
    ⟨fun _ => rfl, rfl, hidle, by decide, rfl, rfl, rfl, fun t _ => sendingA5_quiet t⟩
  have hheld : Held s.ctrl 0xa5 sendingA5 :=
    hstarts.exists_transfers_iff.mp (h s hreach hidle sendingA5 rfl rfl fun t _ => sendingA5_quiet t)
  rcases hheld with hcpha | hcpol | ⟨-, hmiso⟩
  · revert hcpha
    decide
  · revert hcpol
    decide
  · have hfirst := hmiso 0 (by decide)
    revert hfirst
    decide

end Spi

end ThuasRiscv
