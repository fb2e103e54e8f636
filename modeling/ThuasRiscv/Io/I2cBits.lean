import ThuasRiscv.Io.I2cStart

/-!
# Bits on the I2C lines

A byte is nine bits, and each bit is a pulse of SCL in which SDA is held. The
target may hold SCL low behind the release of a pulse, as long as it likes. An
observer of the lines counts the releases of SCL and collects one sample of SDA
for each rising edge of a pulse, which the unit, behind its synchronizer, shifts
in one clock later.
-/

namespace ThuasRiscv

open Transition

/-- The states of the clock pulse of a bit. -/
def I2cState.pulse : I2cState → Bool
  | .sendDataSecond | .stretch => true
  | _ => false

/-- The states of a bit. -/
def I2cState.bit : I2cState → Bool
  | .sendDataFirst | .sendDataSecond | .stretch => true
  | _ => false

/-- What an observer saw on the lines. -/
structure I2cLog where
  /-- The level of SCL in the clock before. -/
  scl : Bool
  /-- The level of SDA in the clock before. -/
  sda : Bool
  /-- The releases of SCL for the bits of the last byte. -/
  releases : ℕ
  /-- The level of SDA in front of each rising edge of SCL in the pulses of the last byte. -/
  samples : List Bool
  /-- There was such an edge in the clock before. -/
  edge : Bool
  deriving DecidableEq

namespace I2c

variable (g : I2cGenerics) (s : I2c) (i : I2cInput) (o : I2cLog)

/-- A rising edge of the external SCL in a pulse. -/
def risesInPulse : Bool := s.state.pulse && !o.scl && i.scl

/-- One clock of the observer. A byte begins when a transmission starts. -/
def log : I2cLog :=
  if i.sreset then ⟨true, true, 0, [], false⟩
  else if s.state = .idle ∧ s.starttransmission = true then ⟨i.scl, i.sda, 0, [], false⟩
  else
    { scl := i.scl
      sda := i.sda
      releases :=
        if s.state.bit && !s.sclOut && (s.clock g i).sclOut then o.releases + 1 else o.releases
      samples := if s.risesInPulse i o then o.samples ++ [o.sda] else o.samples
      edge := s.risesInPulse i o }

/-- The device with the observer. -/
def logged : Machine (I2c × I2cLog) I2cInput :=
  (machine g).observe ⟨true, true, 0, [], false⟩ (log g)

def writesStatus (q : MemRequest) : Bool := q.selects 0b01#2 && q.wren

/-- Bytes are written while the unit is idle, and a transaction is not ended by hand. A transmission
has a baud setting above the rise time. SCL is low when the unit holds it low, and in a pulse the
target does not pull it low again. -/
def Orderly : Prop :=
  (writesData i.request = true → s.state = .idle) ∧
    (writesStatus i.request = true → s.state = .idle ∨ i.request.data.getLsbD 2 = true) ∧
    (s.state ≠ .idle ∨ s.starttransmission = true → s.crise g < s.ctrl.highBit) ∧
    (i.scl = true → s.sclOut = true) ∧
    (s.state.pulse = true → o.scl = true → s.sclOut = true → i.scl = true)

instance : Decidable (Orderly g s i o) := inferInstanceAs (Decidable (_ ∧ _ ∧ _ ∧ _ ∧ _))

/-- The sample that is shifted in. -/
def shifted (x : BitVec 9) (b : Bool) : BitVec 9 := x.extractLsb' 0 8 ++ BitVec.ofBool b

/-- The first eight samples are the data, the ninth is the acknowledge bit. -/
def Received (samples : List Bool) (data : BitVec 8) (af : Bool) : Prop :=
  ∃ bits, samples = bits ++ [af] ∧ bits.length = 8 ∧
    ∀ k, k < 8 → data.getLsbD (7 - k) = bits.getD k false

/-- A byte is complete, or there was none yet. -/
def Whole (o : I2cLog) : Prop := o.edge = false ∧ (o.samples = [] ∨ o.samples.length = 9)

/-- The low half of a bit, after `c` clocks. -/
structure LowHalf (c : ℕ) : Prop where
  edge : o.edge = false
  trans : s.status.trans = true
  range : 0 ≤ s.shiftcounter ∧ s.shiftcounter ≤ 8
  releases : (o.releases : ℤ) = 8 - s.shiftcounter
  samples : (o.samples.length : ℤ) = 8 - s.shiftcounter
  timer : 0 ≤ s.bittimer ∧ 3 ≤ s.bittimer + c
  driven : 0 < c → s.sclOut = false ∧ s.sdaOut = s.txbuffer.getLsbD 8
  low : 1 < c → o.scl = false
  seen : 2 < c → s.sclsync.getLsbD 1 = false

/-- The pulse of a bit, in front of the rising edge of the line and behind it. -/
structure Pulse : Prop where
  trans : s.status.trans = true
  sda : s.sdaOut = s.txbuffer.getLsbD 8
  range : 0 ≤ s.shiftcounter ∧ s.shiftcounter ≤ 8
  nonneg : 0 ≤ s.bittimer ∧ 0 ≤ s.trise
  /-- The rise time ends before the pulse does, unless SCL is seen high. -/
  timer : s.state = .sendDataSecond → s.sclsync.getLsbD 1 = false → s.trise < s.bittimer
  held : s.state = .stretch → s.sclOut = true
  edge : o.edge = (o.scl && !s.sclsync.getLsbD 1)
  phase : o.scl = false ∧ s.sclsync.getLsbD 1 = false ∧
      (o.samples.length : ℤ) = 8 - s.shiftcounter ∧
      (o.releases : ℤ) = 8 - s.shiftcounter + (if s.sclOut then 1 else 0) ∨
    o.scl = true ∧ s.sclOut = true ∧ (o.samples.length : ℤ) = 9 - s.shiftcounter ∧
      (o.releases : ℤ) = 9 - s.shiftcounter

inductive Stage : Prop
  | idle : s.state = .idle → Whole o → s.sdaOut = true ∨ s.status.trans = true → Stage
  | start : s.state = .sendStartbit → o.edge = false → o.samples = [] → o.releases = 0 →
    s.shiftcounter = 8 → s.status.trans = true → Stage
  | low (c : ℕ) : s.state = .sendDataFirst → LowHalf s o c → Stage
  | pulse : s.state.pulse = true → Pulse s o → Stage
  | stop : stopping s.state = true → Whole o →
    (s.state = .sendStopbitSecond → s.sdaOut = false) → Stage

structure LogInv : Prop where
  stage : Stage s o
  scl : s.sclsync.getLsbD 0 = o.scl
  sda : s.sdasync.getLsbD 0 = o.sda
  last : o.edge = true → o.samples ≠ [] ∧ o.samples.getLastD false = s.sdasync.getLsbD 1
  rxbuffer : ∃ r, s.rxbuffer = (if o.edge then o.samples.dropLast else o.samples).foldl shifted r

variable {g s i o}

/-- What the bus and the synchronizer leave. -/
theorem exists_bus (s : I2c) (i : I2cInput) : ∃ c st tx tr r,
    s.synchronize (s.access i.request) i.scl i.sda =
      { s with
        ctrl := c
        status := st
        txbuffer := tx
        starttransmission := tr
        response := r
        sdasync := s.sdasync.extractLsb' 0 1 ++ BitVec.ofBool i.sda
        sclsync := s.sclsync.extractLsb' 0 1 ++ BitVec.ofBool i.scl } ∧
      (writesData i.request = false → tx = s.txbuffer) ∧
      ((writesStatus i.request = true → i.request.data.getLsbD 2 = true) →
        s.status.trans = true → st.trans = true) := by
  refine ⟨(s.access i.request).ctrl, (s.synchronize (s.access i.request) i.scl i.sda).status,
    (s.access i.request).txbuffer, (s.access i.request).starttransmission,
    (s.access i.request).response, ?_, ?_, ?_⟩
  · rw [synchronize, access]
    repeat' split
    all_goals rfl
  · rw [writesData, access]
    repeat' split
    all_goals simp_all
  · rw [writesStatus, synchronize, access]
    repeat' split
    all_goals simp_all [I2cStatus.ofData, I2cStatus.acknowledged]

/-! ## What is the same in every state -/

theorem getLsbD_sync (x : BitVec 2) (b : Bool) :
    (x.extractLsb' 0 1 ++ BitVec.ofBool b).getLsbD 0 = b ∧
      (x.extractLsb' 0 1 ++ BitVec.ofBool b).getLsbD 1 = x.getLsbD 0 := by
  rw [BitVec.getLsbD_append, BitVec.getLsbD_append, BitVec.getLsbD_extractLsb']
  simp

theorem clock_sclsync (hr : i.sreset = false) : (s.clock g i).sclsync.getLsbD 0 = i.scl ∧
    (s.clock g i).sclsync.getLsbD 1 = s.sclsync.getLsbD 0 := by
  obtain ⟨c, st, tx, tr, r, hbus, -, -⟩ := exists_bus s i
  have hsync : (s.clock g i).sclsync = s.sclsync.extractLsb' 0 1 ++ BitVec.ofBool i.scl := by
    rw [clock_of_not_sreset hr, hbus, transmit]
    cases s.state <;> dsimp only <;> split_ifs <;> rfl
  rw [hsync]
  exact getLsbD_sync _ _

theorem clock_sdasync (hr : i.sreset = false) : (s.clock g i).sdasync.getLsbD 0 = i.sda ∧
    (s.clock g i).sdasync.getLsbD 1 = s.sdasync.getLsbD 0 := by
  obtain ⟨c, st, tx, tr, r, hbus, -, -⟩ := exists_bus s i
  have hsync : (s.clock g i).sdasync = s.sdasync.extractLsb' 0 1 ++ BitVec.ofBool i.sda := by
    rw [clock_of_not_sreset hr, hbus, transmit]
    cases s.state <;> dsimp only <;> split_ifs <;> rfl
  rw [hsync]
  exact getLsbD_sync _ _

theorem clock_rxbuffer (hr : i.sreset = false) :
    (s.clock g i).rxbuffer = if s.state.pulse then s.sample else s.rxbuffer := by
  obtain ⟨c, st, tx, tr, r, hbus, -, -⟩ := exists_bus s i
  rw [clock_of_not_sreset hr, hbus, transmit]
  cases s.state <;> dsimp only <;> split_ifs <;> first | rfl | simp_all [I2cState.pulse]

theorem LogInv.edge_eq (h : LogInv s o) :
    o.edge = (s.state.pulse && s.sclRises) := by
  have hquiet (hedge : o.edge = false) (hpulse : s.state.pulse = false) :
      o.edge = (s.state.pulse && s.sclRises) := by
    rw [hedge, hpulse]
    rfl
  cases h.stage with
  | idle hs hw => exact hquiet hw.1 (by rw [hs]; rfl)
  | start hs hedge => exact hquiet hedge (by rw [hs]; rfl)
  | low c hs hl => exact hquiet hl.edge (by rw [hs]; rfl)
  | pulse hp hpulse =>
    rw [hpulse.edge, hp, sclRises, h.scl, Bool.true_and, Bool.and_comm]
  | stop hs hw =>
    refine hquiet hw.1 ?_
    cases hst : s.state <;> simp [hst, stopping, I2cState.pulse] at hs ⊢

/-- One sample is shifted in for an edge. -/
theorem LogInv.shift (h : LogInv s o) (hr : i.sreset = false) : (s.clock g i).rxbuffer =
    if o.edge then shifted s.rxbuffer (o.samples.getLastD false) else s.rxbuffer := by
  rw [clock_rxbuffer hr]
  cases hedge : o.edge with
  | true =>
    have hrise := h.edge_eq
    rw [hedge, Eq.comm, Bool.and_eq_true] at hrise
    rw [if_pos hrise.1, sample, if_pos hrise.2, if_pos rfl, (h.last hedge).2]
    rfl
  | false =>
    have hrise := h.edge_eq
    rw [hedge, Eq.comm, Bool.and_eq_false_iff] at hrise
    rw [if_neg Bool.false_ne_true]
    split_ifs with hp
    · rw [sample, hrise.resolve_left (by simp [hp]), if_neg Bool.false_ne_true]
    · rfl

theorem LogInv.samples_foldl (h : LogInv s o) (hr : i.sreset = false) :
    ∃ r, (s.clock g i).rxbuffer = o.samples.foldl shifted r := by
  obtain ⟨r, hrx⟩ := h.rxbuffer
  refine ⟨r, ?_⟩
  rw [h.shift hr, hrx]
  cases hedge : o.edge with
  | true =>
    obtain ⟨hne, -⟩ := h.last hedge
    rw [if_pos rfl, if_pos rfl]
    conv_rhs => rw [← List.dropLast_append_getLast hne]
    rw [List.foldl_append, List.getLastD_eq_getLast?, List.getLast?_eq_some_getLast hne]
    rfl
  | false => rfl

/-- The parts of the invariant that are about the registers. -/
theorem LogInv.next_of_stage (h : LogInv s o) (hr : i.sreset = false)
    (hstage : Stage (s.clock g i) (s.log g i o)) : LogInv (s.clock g i) (s.log g i o) := by
  obtain ⟨hscl, hscl1⟩ := clock_sclsync (g := g) (s := s) hr
  obtain ⟨hsda, hsda1⟩ := clock_sdasync (g := g) (s := s) hr
  obtain ⟨r, hrx⟩ := h.samples_foldl (g := g) hr
  by_cases hbegin : s.state = .idle ∧ s.starttransmission = true
  · rw [log, if_neg (by simp [hr]), if_pos hbegin] at hstage ⊢
    exact ⟨hstage, hscl, hsda, nofun, ⟨(s.clock g i).rxbuffer, rfl⟩⟩
  · rw [log, if_neg (by simp [hr]), if_neg hbegin] at hstage ⊢
    refine ⟨hstage, hscl, hsda, ?_, r, ?_⟩
    · intro hedge
      simp only at hedge ⊢
      rw [if_pos hedge, hsda1, h.sda]
      exact ⟨by simp, by simp⟩
    · simp only
      rw [hrx]
      split_ifs <;> simp

/-! ## One clock in each state -/

/-- In a transmission the bus leaves what is sent. -/
theorem exists_bus_of_orderly (hsafe : Orderly g s i o) (hs : s.state ≠ .idle) : ∃ c st tr r,
    s.synchronize (s.access i.request) i.scl i.sda =
      { s with
        ctrl := c
        status := st
        starttransmission := tr
        response := r
        sdasync := s.sdasync.extractLsb' 0 1 ++ BitVec.ofBool i.sda
        sclsync := s.sclsync.extractLsb' 0 1 ++ BitVec.ofBool i.scl } ∧
      (s.status.trans = true → st.trans = true) := by
  obtain ⟨c, st, tx, tr, r, hbus, htx, hst⟩ := exists_bus s i
  have hw : writesData i.request = false := by
    by_contra h
    exact hs (hsafe.1 (by simpa using h))
  rw [htx hw] at hbus
  exact ⟨c, st, tr, r, hbus, hst fun h => (hsafe.2.1 h).resolve_left hs⟩

theorem log_of_not_begin (hr : i.sreset = false)
    (hb : ¬ (s.state = .idle ∧ s.starttransmission = true)) : s.log g i o =
      { scl := i.scl
        sda := i.sda
        releases :=
          if s.state.bit && !s.sclOut && (s.clock g i).sclOut then o.releases + 1 else o.releases
        samples := if s.risesInPulse i o then o.samples ++ [o.sda] else o.samples
        edge := s.risesInPulse i o } := by
  rw [log, if_neg (by simp [hr]), if_neg hb]

/-- Outside of the bits the observer only looks at the lines. -/
theorem log_of_not_bit (hr : i.sreset = false)
    (hb : ¬ (s.state = .idle ∧ s.starttransmission = true)) (hbit : s.state.bit = false) :
    s.log g i o = { o with scl := i.scl, sda := i.sda, edge := false } := by
  have hpulse : s.state.pulse = false := by
    cases hs : s.state <;> simp [hs, I2cState.bit, I2cState.pulse] at hbit ⊢
  rw [log_of_not_begin hr hb]
  simp [risesInPulse, hbit, hpulse]

theorem lowBit_ge (hsafe : Orderly g s i o) (hs : s.state ≠ .idle ∨ s.starttransmission = true) :
    3 ≤ s.ctrl.lowBit ∧ 3 ≤ s.ctrl.highBit ∧ s.crise g < s.ctrl.highBit ∧ 0 ≤ s.crise g := by
  have hbaud := hsafe.2.2.1 hs
  have hrise : 2 ≤ s.crise g := by
    rw [crise, I2cGenerics.criseSm, I2cGenerics.criseFm]
    split_ifs <;> omega
  have hlow : s.ctrl.highBit ≤ s.ctrl.lowBit := by
    rw [I2cControl.lowBit, I2cControl.highBit]
    split_ifs <;> omega
  exact ⟨by omega, by omega, hbaud, by omega⟩

theorem stage_of_idle (hsafe : Orderly g s i o) (hr : i.sreset = false) (hs : s.state = .idle)
    (hw : Whole o) : Stage (s.clock g i) (s.log g i o) := by
  obtain ⟨c, st, tx, tr, r, hbus, -, -⟩ := exists_bus s i
  by_cases hst : s.starttransmission = true
  · have hlow := lowBit_ge hsafe (.inr hst)
    have hlog : s.log g i o = ⟨i.scl, i.sda, 0, [], false⟩ := by
      rw [log, if_neg (by simp [hr]), if_pos ⟨hs, hst⟩]
    rw [hlog, clock_of_not_sreset hr, hbus, transmit, hs]
    simp only [hst, if_true]
    split_ifs
    · exact .start rfl rfl rfl rfl rfl rfl
    · exact .low 0 rfl ⟨rfl, rfl, by simp, rfl, rfl, by simp; omega, by simp, by simp, by simp⟩
  · rw [log_of_not_bit hr (fun h => hst h.2) (by rw [hs]; rfl), clock_of_not_sreset hr, hbus,
      transmit, hs]
    simp only [hst, if_false, Bool.false_eq_true]
    split_ifs
    · exact .stop rfl ⟨rfl, hw.2⟩ (by simp)
    · exact .idle rfl ⟨rfl, hw.2⟩ (.inl rfl)

theorem stage_of_start (hsafe : Orderly g s i o) (hr : i.sreset = false)
    (hs : s.state = .sendStartbit) (hsamples : o.samples = []) (hrel : o.releases = 0)
    (hcount : s.shiftcounter = 8) (htrans : s.status.trans = true) :
    Stage (s.clock g i) (s.log g i o) := by
  have hne : s.state ≠ .idle := by simp [hs]
  obtain ⟨c, st, tr, r, hbus, hst⟩ := exists_bus_of_orderly hsafe hne
  have hlow := lowBit_ge hsafe (.inl hne)
  rw [log_of_not_bit hr (fun h => hne h.1) (by rw [hs]; rfl), clock_of_not_sreset hr, hbus,
    transmit, hs]
  simp only
  split_ifs
  · exact .start rfl rfl hsamples hrel hcount (hst htrans)
  · refine .low 0 rfl ⟨rfl, hst htrans, by simp [hcount], by simp [hcount, hrel],
      by simp [hcount, hsamples], by simp; omega, by simp, by simp, by simp⟩

theorem stage_of_low {c : ℕ} (hsafe : Orderly g s i o) (hr : i.sreset = false)
    (hscl : s.sclsync.getLsbD 0 = o.scl) (hs : s.state = .sendDataFirst) (h : LowHalf s o c) :
    Stage (s.clock g i) (s.log g i o) := by
  have hne : s.state ≠ .idle := by simp [hs]
  obtain ⟨ctrl, st, tr, r, hbus, hst⟩ := exists_bus_of_orderly hsafe hne
  have hlow := lowBit_ge hsafe (.inl hne)
  have hline : 0 < c → i.scl = false := by
    intro hc
    by_contra hi
    have hrel := hsafe.2.2.2.1 (by simpa using hi)
    rw [(h.driven hc).1] at hrel
    cases hrel
  have hclock : s.clock g i =
      { s with
        ctrl := ctrl
        status := st
        starttransmission := tr
        response := r
        sdasync := s.sdasync.extractLsb' 0 1 ++ BitVec.ofBool i.sda
        sclsync := s.sclsync.extractLsb' 0 1 ++ BitVec.ofBool i.scl
        sclOut := false
        sdaOut := s.txbuffer.getLsbD 8
        bittimer := if 0 < s.bittimer then s.bittimer - 1 else s.ctrl.highBit
        state := if 0 < s.bittimer then .sendDataFirst else .sendDataSecond
        trise := if 0 < s.bittimer then s.trise else s.crise g } := by
    rw [clock_of_not_sreset hr, hbus, transmit, hs]
    simp only
    split_ifs <;> simp
  have hlog : s.log g i o = { o with scl := i.scl, sda := i.sda, edge := false } := by
    rw [log_of_not_begin hr fun h => hne h.1, hclock]
    simp [risesInPulse, hs, I2cState.pulse]
  rw [hlog, hclock]
  have hsync := getLsbD_sync s.sclsync i.scl
  by_cases hpos : 0 < s.bittimer
  · simp only [hpos, if_true]
    refine .low (c + 1) rfl ⟨rfl, hst h.trans, h.range, h.releases, h.samples, ?_,
      fun _ => ⟨rfl, rfl⟩, fun hc => hline (by omega), fun hc => ?_⟩
    · have ht := h.timer
      simp only
      omega
    · simp only
      rw [hsync.2, hscl]
      exact h.low (by omega)
  · have ht := h.timer
    have hc : 2 < c := by omega
    simp only [hpos, if_false]
    refine .pulse rfl ⟨hst h.trans, rfl, h.range, by simp; omega, fun _ _ => hlow.2.2.1, by simp, ?_,
      .inl ⟨hline (by omega), ?_, h.samples, ?_⟩⟩
    · simp [hline (show 0 < c by omega)]
    · simp only
      rw [hsync.2, hscl]
      exact h.low (by omega)
    · simpa using h.releases

/-- Once SCL is high in a pulse it stays high. -/
theorem Pulse.line (h : Pulse s o) (hsafe : Orderly g s i o) (hp : s.state.pulse = true) :
    (i.scl = true → s.sclOut = true) ∧ (o.scl = true → i.scl = true) := by
  refine ⟨hsafe.2.2.2.1, fun ho => ?_⟩
  rcases h.phase with ⟨hlow, -⟩ | ⟨-, hout, -⟩
  · rw [hlow] at ho
    cases ho
  · exact hsafe.2.2.2.2 hp ho hout

/-- The observer in a pulse. -/
theorem log_of_pulse (hr : i.sreset = false) (hp : s.state.pulse = true)
    (hout : (s.clock g i).sclOut = true) : s.log g i o =
      { scl := i.scl
        sda := i.sda
        releases := if s.sclOut then o.releases else o.releases + 1
        samples := if !o.scl && i.scl then o.samples ++ [o.sda] else o.samples
        edge := !o.scl && i.scl } := by
  have hbit : s.state.bit = true := by
    cases hs : s.state <;> simp [hs, I2cState.bit, I2cState.pulse] at hp ⊢
  have hne : s.state ≠ .idle := by
    intro hs
    rw [hs] at hp
    cases hp
  rw [log_of_not_begin hr fun h => hne h.1, risesInPulse, hp, hbit, hout]
  cases s.sclOut <;> simp

/-- A clock inside of a pulse. -/
theorem Pulse.next (h : Pulse s o) (hsafe : Orderly g s i o) (hr : i.sreset = false)
    (hscl : s.sclsync.getLsbD 0 = o.scl) (hp : s.state.pulse = true)
    (htrans : (s.clock g i).status.trans = true)
    (hsda : (s.clock g i).sdaOut = (s.clock g i).txbuffer.getLsbD 8)
    (hcount : (s.clock g i).shiftcounter = s.shiftcounter)
    (hnonneg : 0 ≤ (s.clock g i).bittimer ∧ 0 ≤ (s.clock g i).trise)
    (htimer : (s.clock g i).state = .sendDataSecond → o.scl = false →
      (s.clock g i).trise < (s.clock g i).bittimer)
    (hout : (s.clock g i).sclOut = true) : Pulse (s.clock g i) (s.log g i o) := by
  obtain ⟨-, hsync⟩ := clock_sclsync (g := g) (s := s) hr
  obtain ⟨hdriven, hstays⟩ := h.line hsafe hp
  rw [hscl] at hsync
  rw [log_of_pulse hr hp hout]
  refine ⟨htrans, hsda, by rw [hcount]; exact h.range, hnonneg, fun hs hlow => ?_, fun _ => hout,
    ?_, ?_⟩
  · exact htimer hs (hsync.symm.trans hlow)
  · rw [hsync, Bool.and_comm]
  · simp only
    rw [hsync, hcount, hout]
    rcases h.phase with ⟨ho, -, hsamples, hreleases⟩ | ⟨ho, hs, hsamples, hreleases⟩
    · cases hi : i.scl with
      | true =>
        rw [hdriven hi, if_pos rfl] at hreleases
        rw [ho, hdriven hi]
        refine .inr ⟨rfl, rfl, ?_, ?_⟩
        · simp only [Bool.not_false, Bool.and_self, if_true, List.length_append,
            List.length_singleton]
          omega
        · simp only [if_true]
          omega
      | false =>
        rw [ho]
        refine .inl ⟨rfl, rfl, hsamples, ?_⟩
        cases hs : s.sclOut <;> simp [hs] at hreleases ⊢ <;> omega
    · rw [hstays ho, ho, hs]
      exact .inr ⟨rfl, rfl, hsamples, hreleases⟩

/-- The end of a pulse: SCL was seen high. -/
theorem Pulse.last (h : Pulse s o) (hs : s.state = .sendDataSecond) (ht : ¬ 0 < s.bittimer) :
    s.sclsync.getLsbD 1 = true ∧ o.scl = true ∧ s.sclOut = true ∧ o.edge = false ∧
      (o.samples.length : ℤ) = 9 - s.shiftcounter ∧ (o.releases : ℤ) = 9 - s.shiftcounter := by
  have hsync : s.sclsync.getLsbD 1 = true := by
    by_contra hlow
    have htimer := h.timer hs (by simpa using hlow)
    have hnonneg := h.nonneg
    omega
  have hedge := h.edge
  rw [hsync, Bool.not_true, Bool.and_false] at hedge
  rcases h.phase with ⟨-, hlow, -⟩ | ⟨ho, hout, hsamples, hreleases⟩
  · rw [hsync] at hlow
    cases hlow
  · exact ⟨hsync, ho, hout, hedge, hsamples, hreleases⟩

theorem stage_of_second (hsafe : Orderly g s i o) (hr : i.sreset = false)
    (hscl : s.sclsync.getLsbD 0 = o.scl) (hs : s.state = .sendDataSecond) (h : Pulse s o) :
    Stage (s.clock g i) (s.log g i o) := by
  have hne : s.state ≠ .idle := by simp [hs]
  have hp : s.state.pulse = true := by rw [hs]; rfl
  obtain ⟨ctrl, st, tr, r, hbus, hst⟩ := exists_bus_of_orderly hsafe hne
  have hlow := lowBit_ge hsafe (.inl hne)
  by_cases ht : 0 < s.bittimer
  · have hclock : (s.clock g i).status = st ∧ (s.clock g i).sclOut = true ∧
        (s.clock g i).sdaOut = s.txbuffer.getLsbD 8 ∧ (s.clock g i).txbuffer = s.txbuffer ∧
        (s.clock g i).shiftcounter = s.shiftcounter ∧
        (s.clock g i).bittimer = s.bittimer - 1 ∧
        (s.clock g i).trise = (if 0 < s.trise then s.trise - 1 else s.trise) ∧
        (s.clock g i).state =
          if ¬ 0 < s.trise ∧ s.sclsync.getLsbD 1 = false then .stretch else .sendDataSecond := by
      rw [clock_of_not_sreset hr, hbus, transmit, hs]
      simp only [ht, if_true]
      split_ifs <;> simp_all
    obtain ⟨hst', hout, hsda, htx, hcount, htimer, htrise, hstate⟩ := hclock
    have hnonneg := h.nonneg
    refine .pulse ?_ (h.next hsafe hr hscl hp (by rw [hst']; exact hst h.trans)
      (by rw [hsda, htx]) hcount ?_ (fun hs' ho => ?_) hout)
    · rw [hstate]
      split_ifs <;> rfl
    · rw [htimer, htrise]
      split_ifs <;> omega
    · have hsync : s.sclsync.getLsbD 1 = false := by
        rcases h.phase with ⟨-, hlow, -⟩ | ⟨hhigh, -⟩
        · exact hlow
        · rw [ho] at hhigh
          cases hhigh
      have hpos : 0 < s.trise := by
        by_contra hzero
        rw [hstate, if_pos ⟨hzero, hsync⟩] at hs'
        cases hs'
      have hlt := h.timer hs hsync
      rw [htimer, htrise, if_pos hpos]
      omega
  · obtain ⟨hsync, ho, hout, hedge, hsamples, hreleases⟩ := h.last hs ht
    have hrange := h.range
    have hclock : (s.clock g i).sclOut = true := by
      rw [clock_of_not_sreset hr, hbus, transmit, hs]
      simp only [ht, if_false]
      split_ifs <;> rfl
    have hlog : s.log g i o = { o with scl := i.scl, sda := i.sda, edge := false } := by
      rw [log_of_pulse hr hp hclock]
      simp [ho, hout]
    rw [hlog, clock_of_not_sreset hr, hbus, transmit, hs]
    simp only [ht, hsync, if_false, Bool.not_true, Bool.false_eq_true]
    by_cases hcount : 0 < s.shiftcounter
    · have htimer : 0 ≤ s.ctrl.lowBit ∧ 3 ≤ s.ctrl.lowBit + (0 : ℕ) := by omega
      simp only [hcount, if_true]
      split_ifs <;>
        exact .low 0 rfl ⟨rfl, hst h.trans, by simp only; omega, by simp only; omega,
          by simp only; omega, htimer, by simp, by simp, by simp⟩
    · have hwhole : Whole { o with scl := i.scl, sda := i.sda, edge := false } :=
        ⟨rfl, .inr (by simp only; omega)⟩
      have hidle : s.txbuffer.getLsbD 8 = true ∨ st.trans = true := .inr (hst h.trans)
      simp only [hcount, if_false]
      cases s.ctrl.stop with
      | true =>
        simp only [if_true]
        split_ifs <;> exact .stop rfl hwhole (by simp)
      | false =>
        simp only [Bool.false_eq_true, if_false]
        split_ifs <;> exact .idle rfl hwhole hidle

theorem stage_of_stretch (hsafe : Orderly g s i o) (hr : i.sreset = false)
    (hscl : s.sclsync.getLsbD 0 = o.scl) (hs : s.state = .stretch) (h : Pulse s o) :
    Stage (s.clock g i) (s.log g i o) := by
  have hne : s.state ≠ .idle := by simp [hs]
  have hp : s.state.pulse = true := by rw [hs]; rfl
  obtain ⟨ctrl, st, tr, r, hbus, hst⟩ := exists_bus_of_orderly hsafe hne
  have hlow := lowBit_ge hsafe (.inl hne)
  have hclock : s.clock g i =
      { s with
        ctrl := ctrl
        status := st
        starttransmission := tr
        response := r
        sdasync := s.sdasync.extractLsb' 0 1 ++ BitVec.ofBool i.sda
        sclsync := s.sclsync.extractLsb' 0 1 ++ BitVec.ofBool i.scl
        rxbuffer := s.sample
        bittimer := s.ctrl.highBit
        trise := s.crise g
        state := if s.sclsync.getLsbD 1 then .sendDataSecond else .stretch } := by
    rw [clock_of_not_sreset hr, hbus, transmit, hs]
    simp only
    split_ifs <;> simp
  refine .pulse ?_ (h.next hsafe hr hscl hp ?_ ?_ ?_ ?_ (fun _ _ => ?_) ?_) <;> rw [hclock]
  · simp only
    split_ifs <;> rfl
  · exact hst h.trans
  · exact h.sda
  · exact ⟨by simp only; omega, hlow.2.2.2⟩
  · exact hlow.2.2.1
  · exact h.held hs

theorem stage_of_stop (hsafe : Orderly g s i o) (hr : i.sreset = false)
    (hs : stopping s.state = true) (hw : Whole o) : Stage (s.clock g i) (s.log g i o) := by
  have hne : s.state ≠ .idle := by
    intro h
    rw [h] at hs
    cases hs
  have hbit : s.state.bit = false := by
    cases h : s.state <;> simp [h, stopping, I2cState.bit] at hs ⊢
  obtain ⟨ctrl, st, tr, r, hbus, -⟩ := exists_bus_of_orderly hsafe hne
  rw [log_of_not_bit hr (fun h => hne h.1) hbit, clock_of_not_sreset hr, hbus, transmit]
  have hwhole : Whole { o with scl := i.scl, sda := i.sda, edge := false } := ⟨rfl, hw.2⟩
  cases h : s.state <;> simp only [h, stopping, Bool.false_eq_true] at hs ⊢
  case sendStopbitFirst =>
    split_ifs
    · exact .stop rfl hwhole (by simp)
    · exact .stop rfl hwhole (fun _ => rfl)
  case sendStopbitSecond =>
    split_ifs
    · exact .stop rfl hwhole (fun _ => rfl)
    · exact .stop rfl hwhole (by simp)
  case sendStopbitThird =>
    split_ifs
    · exact .stop rfl hwhole (by simp)
    · exact .idle rfl hwhole (.inl rfl)

/-! ## Runs -/

theorem logInv_initial : LogInv reset ⟨true, true, 0, [], false⟩ :=
  ⟨.idle rfl ⟨rfl, .inl rfl⟩ (.inl rfl), rfl, rfl, nofun, ⟨_, rfl⟩⟩

theorem LogInv.next (h : LogInv s o) (hsafe : Orderly g s i o) :
    LogInv (s.clock g i) (s.log g i o) := by
  cases hr : i.sreset with
  | true =>
    rw [clock, log, hr, if_pos rfl, if_pos rfl]
    exact logInv_initial
  | false =>
    refine h.next_of_stage hr ?_
    cases h.stage with
    | idle hs hw _ => exact stage_of_idle hsafe hr hs hw
    | start hs _ hsamples hrel hcount htrans =>
      exact stage_of_start hsafe hr hs hsamples hrel hcount htrans
    | low c hs hl => exact stage_of_low hsafe hr h.scl hs hl
    | pulse hp hpulse =>
      cases hs : s.state <;> simp only [hs, I2cState.pulse, Bool.false_eq_true] at hp
      case sendDataSecond => exact stage_of_second hsafe hr h.scl hs hpulse
      case stretch => exact stage_of_stretch hsafe hr h.scl hs hpulse
    | stop hs hw _ => exact stage_of_stop hsafe hr hs hw

theorem getLsbD_shifted (x : BitVec 9) (b : Bool) (k : ℕ) :
    (shifted x b).getLsbD (k + 1) = (decide (k < 8) && x.getLsbD k) ∧
      (shifted x b).getLsbD 0 = b := by
  rw [shifted, BitVec.getLsbD_append, BitVec.getLsbD_append, BitVec.getLsbD_extractLsb']
  constructor <;> simp

/-- The last samples stand in the register, the first one on the left. -/
theorem getLsbD_foldl_shifted (r : BitVec 9) (l : List Bool) {k : ℕ} (hk : k < l.length)
    (h9 : k < 9) : (l.foldl shifted r).getLsbD k = l.reverse.getD k false := by
  induction l using List.reverseRecOn generalizing k with
  | nil => cases hk
  | append_singleton l b ih =>
    rw [List.foldl_append, List.reverse_append]
    cases k with
    | zero => exact (getLsbD_shifted _ b 0).2
    | succ k =>
      rw [List.length_append, List.length_singleton] at hk
      have hbit := (getLsbD_shifted (l.foldl shifted r) b k).1
      rw [decide_eq_true (by omega), Bool.true_and, ih (by omega) (by omega)] at hbit
      exact hbit

theorem LogInv.received (h : LogInv s o) (hedge : o.edge = false) (hlen : o.samples.length = 9) :
    Received o.samples (s.rxbuffer.extractLsb' 1 8) (s.rxbuffer.getLsbD 0) := by
  obtain ⟨r, hrx⟩ := h.rxbuffer
  rw [hedge, if_neg Bool.false_ne_true] at hrx
  have hbit {k : ℕ} (hk : k < 9) : s.rxbuffer.getLsbD k = o.samples.getD (8 - k) false := by
    rw [hrx, getLsbD_foldl_shifted r _ (by omega) hk, List.getD_eq_getElem?_getD,
      List.getElem?_reverse (by omega), List.getD_eq_getElem?_getD, hlen]
  have hsplit : o.samples = o.samples.take 8 ++ [s.rxbuffer.getLsbD 0] := by
    rw [hbit (by omega)]
    apply List.ext_getElem
    · simp [hlen]
    · intro k hk _
      rcases Nat.lt_or_ge k 8 with hlt | hge
      · rw [List.getElem_append_left (by simp [hlen, hlt]), List.getElem_take]
      · obtain rfl : k = 8 := by omega
        rw [List.getElem_append_right (by simp [hlen])]
        simp [List.getD_eq_getElem?_getD, List.getElem?_eq_getElem hk]
  refine ⟨o.samples.take 8, hsplit, by simp [hlen], fun k hk => ?_⟩
  rw [BitVec.getLsbD_extractLsb', decide_eq_true (by omega), Bool.true_and, hbit (by omega),
    show 8 - (1 + (7 - k)) = k by omega, List.getD_eq_getElem?_getD, List.getD_eq_getElem?_getD,
    List.getElem?_take_of_lt hk]

/-- The unit becomes idle behind the last bit or behind a STOP. -/
theorem completes (hr : i.sreset = false) (hne : s.state ≠ .idle)
    (hidle : (s.clock g i).state = .idle) :
    (s.state.pulse = true ∨ stopping s.state = true) ∧ (s.clock g i).status.tc = true ∧
      (s.clock g i).data = s.rxbuffer.extractLsb' 1 8 ∧
      (s.clock g i).status.af = s.rxbuffer.getLsbD 0 := by
  obtain ⟨c, st, tx, tr, r, hbus, -, -⟩ := exists_bus s i
  rw [clock_of_not_sreset hr, hbus, transmit] at hidle ⊢
  cases hs : s.state <;> simp only [hs] at hidle hne ⊢
  case idle => exact absurd rfl hne
  case sendDataSecond =>
    split_ifs at hidle ⊢ <;> exact ⟨.inl rfl, rfl, rfl, rfl⟩
  case sendStopbitThird =>
    split_ifs at hidle ⊢
    exact ⟨.inr rfl, rfl, rfl, rfl⟩
  all_goals split_ifs at hidle

/-- The clocks of a target that acknowledges, and holds SCL low in the given clocks. -/
def attend (g : I2cGenerics) : I2c × I2cLog → List Bool → List I2cInput
  | _, [] => []
  | p, hold :: holds =>
    let i := ⟨pause.request, false, p.1.sclOut && !hold, p.1.sdaOut⟩
    i :: attend g ((logged g).next p i) holds

/-- The clocks of a byte, with a low SCL in its third pulse. -/
def holds : List Bool :=
  List.replicate 27 false ++ List.replicate 12 true ++ List.replicate 67 false

def sendingByte : List I2cInput :=
  let start := [storing 0 0x40000, storing 8 0xa4]
  start ++ attend ⟨1000000⟩ ((logged ⟨1000000⟩).run start) holds

/-- The end of the ninth bit. -/
def lastBit : I2c × I2cLog := (logged ⟨1000000⟩).run sendingByte

end I2c

end ThuasRiscv
