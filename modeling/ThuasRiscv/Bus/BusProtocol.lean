import ThuasRiscv.Bus.DataBus
import ThuasRiscv.Bus.MemRefinement

/-!
# One access on the data bus

What the bus answers to an access that is strobed for one clock and then held,
and in which clock. In the clocks between the strobe and the answer the access
is in the delayed strobe of a memory, in `ready` of a device or in the buffer of
the I/O bus switch; after the answer the bus is idle again.
-/

namespace ThuasRiscv

/-! ## Answers -/

/-- The control lines of a response. -/
structure Lines where
  ready : Bool
  loadAccessError : Bool
  storeAccessError : Bool
  loadMisalignedError : Bool
  storeMisalignedError : Bool
  deriving DecidableEq

namespace Lines

def silent : Lines := ⟨false, false, false, false, false⟩

end Lines

def MemResponse.lines (r : MemResponse) : Lines :=
  ⟨r.ready, r.loadAccessError, r.storeAccessError, r.loadMisalignedError, r.storeMisalignedError⟩

def BusResponse.lines (r : BusResponse) : Lines :=
  ⟨r.ready, r.loadAccessError, r.storeAccessError, r.loadMisalignedError, r.storeMisalignedError⟩

/-- The answer to an access. -/
inductive Verdict where
  | ready | accessError | misalignedError
  deriving DecidableEq

/-- An answer to a load or a store: exactly one of the four errors, or `ready` without any error. -/
def Lines.Shows (l : Lines) (acc : MemAccess) : Verdict → Prop
  | .ready => l = ⟨true, false, false, false, false⟩
  | .accessError => ∃ r, l = ⟨r, acc = .read, acc = .write, false, false⟩
  | .misalignedError => ∃ r, l = ⟨r, false, false, acc = .read, acc = .write⟩

/-- The memory behind a slave can be written. -/
def BusGenerics.useWrite (g : BusGenerics) : Slave → Bool
  | .rom => g.rom.useWrite
  | .boot => g.boot.useWrite
  | .ram => g.ram.useWrite
  | .io => true

/-- The access is not supported where it goes to: nothing is there, a device that answers words only,
or a memory that is not writable. -/
def BusGenerics.refuses (g : BusGenerics) (q : BusRequest) : Bool :=
  match g.map.select q.addr with
  | none => true
  | some .io => q.size ≠ .word
  | some slave => q.acc = .write && !g.useWrite slave

def BusGenerics.verdict (g : BusGenerics) (q : BusRequest) : Verdict :=
  if g.refuses q then .accessError
  else if NaturallyAligned q.size q.addr then .ready
  else .misalignedError

/-- The clocks between the strobe and the answer. -/
def BusGenerics.latency (g : BusGenerics) (q : BusRequest) : ℕ :=
  match g.map.select q.addr with
  | none => 0
  | some .io => (if g.verdict q = .ready then 1 else 0) + if g.bufferIoResponse then 1 else 0
  | some _ => if q.acc = .write then 0 else 1

theorem BusGenerics.latency_le_two (g : BusGenerics) (q : BusRequest) : g.latency q ≤ 2 := by
  unfold latency
  split <;> (try split_ifs) <;> omega

/-- The lines that the core sees `age` clocks after the strobe of an access. -/
def BusGenerics.Answers (g : BusGenerics) (q : BusRequest) (age : ℕ) (l : Lines) : Prop :=
  if age = g.latency q then l.Shows q.acc (g.verdict q) else l = .silent

/-- The request reaches the bus: as a strobe, or as an access to unimplemented memory, which is
answered without one. -/
def BusGenerics.Active (g : BusGenerics) (q : BusRequest) : Prop :=
  q.acc ≠ .nop ∧ (q.stb = true ∨ g.map.select q.addr = none)

/-! ## The slaves -/

/-- The lines of a memory. -/
def Mem.lines (stbDly useWrite : Bool) (q : MemRequest) : Lines :=
  let misaligned : Bool := q.size ≠ .unknown && !decide (NaturallyAligned q.size q.addr)
  { ready := stbDly || q.stb && q.wren
    loadAccessError := false
    storeAccessError := !useWrite && (q.stb && q.wren)
    loadMisalignedError := stbDly && misaligned
    storeMisalignedError := useWrite && (q.stb && q.wren && misaligned) }

theorem Mem.recodeRead_misaligned {x : DataType} {q : MemRequest} {dataread : DataType} :
    (recodeRead x q dataread).2 =
      (q.size ≠ .unknown && !decide (NaturallyAligned q.size q.addr)) := by
  unfold recodeRead
  simp only [naturallyAligned_iff]
  generalize q.addr.extractLsb' 0 2 = o
  cases q.size <;> match o with
    | 0b00 | 0b01 | 0b10 | 0b11 => rfl

theorem Mem.recodeWrite_misaligned_eq {x : DataType} {q : MemRequest} :
    (recodeWrite x q).misaligned =
      (q.stb && q.wren && (q.size ≠ .unknown && !decide (NaturallyAligned q.size q.addr))) := by
  cases hq : q.stb && q.wren with
  | false => rw [recodeWrite_idle hq, Bool.false_and]
  | true =>
    by_cases hs : q.size = .unknown
    · rw [recodeWrite_unknown hs]
      simp [hs]
    · by_cases ha : NaturallyAligned q.size q.addr
      · rw [(recodeWrite_aligned hq ha).misaligned]
        simp [ha]
      · rw [recodeWrite_misaligned hq hs ha]
        simp [ha, hs]

theorem Mem.lines_response {n : ℕ} (g : MemGenerics) (m : Mem n) (x : DataType) (q : MemRequest) :
    (m.response g x q).lines = Mem.lines m.stbDly g.useWrite q := by
  simp only [MemResponse.lines, response, Mem.lines, recodeRead_misaligned,
    recodeWrite_misaligned_eq]

namespace IoBusSwitch

variable (b : IoBusSwitch) (q : MemRequest)

/-- The errors of the device that is strobed. -/
def errors : Lines where
  ready := false
  loadAccessError := q.stb && !q.wren && q.size ≠ .word
  storeAccessError := q.stb && q.wren && q.size ≠ .word
  loadMisalignedError := q.stb && !q.wren && q.size = .word && q.addr.extractLsb' 0 2 ≠ 0
  storeMisalignedError := q.stb && q.wren && q.size = .word && q.addr.extractLsb' 0 2 ≠ 0

/-- A line that only the strobed device can raise. -/
theorem any_devRequest (c : Bool) :
    ((List.finRange 16).any fun k => (devRequest q k).stb && c) = (q.stb && c) := by
  rw [Bool.eq_iff_iff, List.any_eq_true]
  constructor
  · rintro ⟨k, -, hk⟩
    simp only [devRequest, Bool.and_eq_true] at hk
    simp [hk]
  · intro h
    rw [Bool.and_eq_true] at h
    exact ⟨deviceOf q.addr, List.mem_finRange _, by simp [devRequest, h]⟩

theorem lines_fused : (b.fused q).lines =
    { errors q with ready := (List.finRange 16).any fun k => (b.devices k).ready } := by
  have h := any_devRequest q
  simp only [MemResponse.lines, fused, devResponse, IoDevice.response, errors, Bool.and_assoc]
  simp only [show ∀ k, (devRequest q k).wren = q.wren from fun _ => rfl,
    show ∀ k, (devRequest q k).size = q.size from fun _ => rfl,
    show ∀ k, (devRequest q k).addr = q.addr from fun _ => rfl, h]

end IoBusSwitch

/-! ## The address decoder -/

namespace AddressMap

variable {map : AddressMap} {q : BusRequest} {resp : Slave → MemResponse}

/-- Only the selected slave answers: its lines reach the core. -/
theorem lines_busResponse {slave : Slave} (h : map.select q.addr = some slave)
    (hs : ∀ s, s ≠ slave → (resp s).lines = .silent) :
    (map.busResponse q resp).lines = (resp slave).lines := by
  have hq (s : Slave) (hne : s ≠ slave) := hs s hne
  simp only [MemResponse.lines, Lines.silent, Lines.mk.injEq] at hq
  cases slave <;>
    simp [BusResponse.lines, MemResponse.lines, busResponse, h, hq]

/-- Nothing is there: the decoder answers itself. -/
theorem lines_busResponse_none (h : map.select q.addr = none)
    (hs : ∀ s, (resp s).lines = .silent) : (map.busResponse q resp).lines =
      ⟨q.acc = .read || q.acc = .write, q.acc = .read, q.acc = .write, false, false⟩ := by
  simp only [MemResponse.lines, Lines.silent, Lines.mk.injEq] at hs
  simp [BusResponse.lines, busResponse, h, hs]

theorem lines_busResponse_silent (h : map.select q.addr = none → q.acc = .nop)
    (hs : ∀ s, (resp s).lines = .silent) : (map.busResponse q resp).lines = .silent := by
  cases hsel : map.select q.addr with
  | none =>
    rw [lines_busResponse_none hsel hs, h hsel]
    rfl
  | some slave => rw [lines_busResponse hsel fun s _ => hs s, hs]

end AddressMap

namespace DataBus

variable {nRom nBoot nRam : ℕ} {g : BusGenerics} {b : DataBus nRom nBoot nRam} {q : BusRequest}
  {x : BusInput} {f : InstrRequest}

/-- The delayed strobe of a memory. -/
def stbDly (b : DataBus nRom nBoot nRam) : Slave → Bool
  | .rom => b.rom.stbDly
  | .boot => b.boot.stbDly
  | .ram => b.ram.stbDly
  | .io => false

theorem lines_slaveResponse {slave : Slave} (h : slave ≠ .io) :
    (b.slaveResponse g q x slave).lines =
      Mem.lines (b.stbDly slave) (g.useWrite slave) (g.map.memRequest q slave) := by
  cases slave with
  | rom | boot | ram => exact Mem.lines_response ..
  | io => exact absurd rfl h

theorem lines_slaveResponse_io : (b.slaveResponse g q x .io).lines =
    if g.bufferIoResponse then b.io.buffer.lines
    else { IoBusSwitch.errors (g.map.memRequestIo q) with
      ready := (List.finRange 16).any fun k => (b.io.devices k).ready } := by
  rw [slaveResponse, IoBusSwitch.response, ← IoBusSwitch.lines_fused, apply_ite MemResponse.lines]

/-! ## Between the strobe and the answer -/

/-- Nothing waits in a memory or in a device. -/
structure Drained (b : DataBus nRom nBoot nRam) : Prop where
  mem : ∀ slave, b.stbDly slave = false
  io : ∀ k, (b.io.devices k).ready = false

/-- Nothing waits anywhere. -/
structure Idle (g : BusGenerics) (b : DataBus nRom nBoot nRam) : Prop extends Drained b where
  buffer : g.bufferIoResponse = true → b.io.buffer.lines = .silent

/-- What waits `age` clocks after the strobe of an access to an idle bus. -/
structure Waits (g : BusGenerics) (b : DataBus nRom nBoot nRam) (q : BusRequest)
    (age : ℕ) : Prop where
  mem : ∀ slave, slave ≠ .io → b.stbDly slave =
    (decide (age = 1) && ((g.map.memRequest q slave).stb && !(g.map.memRequest q slave).wren))
  io : ∀ k, (b.io.devices k).ready =
    (decide (age = 1) && ((IoBusSwitch.devRequest (g.map.memRequestIo q) k).stb &&
      (g.map.memRequestIo q).isword))
  buffer : b.io.buffer.lines =
    if age = 1 then IoBusSwitch.errors (g.map.memRequestIo q)
    else { Lines.silent with
      ready := decide (age = 2) && ((g.map.memRequestIo q).stb && (g.map.memRequestIo q).isword) }

theorem stbDly_clock {slave : Slave} (h : slave ≠ .io) : (b.clock g q x f false).stbDly slave =
    ((g.map.memRequest q slave).stb && !(g.map.memRequest q slave).wren) := by
  cases slave with
  | rom | boot | ram => exact Bool.true_and _
  | io => exact absurd rfl h

theorem ready_clock (k : Fin 16) : ((b.clock g q x f false).io.devices k).ready =
    ((IoBusSwitch.devRequest (g.map.memRequestIo q) k).stb && (g.map.memRequestIo q).isword) := rfl

theorem buffer_clock : (b.clock g q x f false).io.buffer.lines =
    { IoBusSwitch.errors (g.map.memRequestIo q) with
      ready := (List.finRange 16).any fun k => (b.io.devices k).ready } :=
  IoBusSwitch.lines_fused _ _

/-- A strobe to a bus on which nothing waits. -/
theorem waits_one (h : ∀ k, (b.io.devices k).ready = false) :
    Waits g (b.clock g q x f false) q 1 where
  mem _ hs := stbDly_clock hs
  io k := ready_clock k
  buffer := by
    rw [buffer_clock]
    simp [h, IoBusSwitch.errors]

theorem errors_of_not_stb {r : MemRequest} (h : r.stb = false) :
    IoBusSwitch.errors r = .silent := by
  simp [IoBusSwitch.errors, h, Lines.silent]

/-- One more clock without a strobe. -/
theorem waits_succ {age : ℕ} {q' : BusRequest} (h : Waits g b q age) (hage : 0 < age)
    (hstb : ∀ slave, (g.map.memRequest q' slave).stb = false) :
    Waits g (b.clock g q' x f false) q (age + 1) where
  mem slave hs := by
    rw [stbDly_clock hs, hstb, decide_eq_false (by omega)]
    rfl
  io k := by
    have hk : (IoBusSwitch.devRequest (g.map.memRequestIo q') k).stb = false := by
      simp [IoBusSwitch.devRequest, AddressMap.memRequestIo, hstb]
    rw [ready_clock, hk, decide_eq_false (by omega)]
    rfl
  buffer := by
    have hstb' : (g.map.memRequestIo q').stb = false := hstb .io
    rw [buffer_clock, errors_of_not_stb hstb', if_neg (by omega)]
    simp only [h.io, Nat.reduceEqDiff]
    by_cases hone : age = 1
    · simp only [hone, decide_true, Bool.true_and, IoBusSwitch.any_devRequest]
    · simp [hone]

theorem naturallyAligned_word {addr : DataType} :
    NaturallyAligned .word addr ↔ addr.extractLsb' 0 2 = 0 := by
  rw [Mem.naturallyAligned_iff]
  generalize addr.extractLsb' 0 2 = o
  match o with
  | 0b00 | 0b01 | 0b10 | 0b11 => simp [MemSize.bytes]

theorem isword_iff : (g.map.memRequestIo q).isword = true ↔
    q.size = .word ∧ NaturallyAligned q.size q.addr := by
  rw [MemRequest.isword, Bool.and_eq_true, decide_eq_true_eq, decide_eq_true_eq]
  refine and_congr_right fun hsize => ?_
  change q.size = .word at hsize
  rw [hsize, naturallyAligned_word]
  rfl

theorem verdict_io (hsel : g.map.select q.addr = some .io) :
    g.verdict q = .ready ↔ (g.map.memRequestIo q).isword = true := by
  rw [isword_iff]
  by_cases hw : q.size = .word <;> by_cases ha : NaturallyAligned q.size q.addr <;>
    simp [BusGenerics.verdict, BusGenerics.refuses, hsel, hw, ha]

theorem stb_memRequest {slave : Slave} (hsel : g.map.select q.addr ≠ some slave) :
    (g.map.memRequest q slave).stb = false := by
  simp [AddressMap.memRequest, hsel]

/-- After the answer the bus is idle. -/
theorem idle_of_waits {age : ℕ} (h : Waits g b q age) (hage : g.latency q < age) : Idle g b := by
  have hmem (slave : Slave) : b.stbDly slave = false := by
    by_cases hs : slave = .io
    · rw [hs]
      rfl
    rw [h.mem slave hs]
    by_cases hsel : g.map.select q.addr = some slave
    · by_cases hone : age = 1
      · have hw : q.acc = .write := by
          by_contra hw
          cases slave <;> simp_all [BusGenerics.latency]
        simp [AddressMap.memRequest, hsel, hw]
      · simp [hone]
    · rw [stb_memRequest hsel, Bool.false_and, Bool.and_false]
  by_cases hsel : g.map.select q.addr = some .io
  · rw [BusGenerics.latency, hsel] at hage
    simp only [verdict_io hsel] at hage
    cases hword : (g.map.memRequestIo q).isword with
    | true =>
      have hone : age ≠ 1 := by
        rw [hword, if_pos rfl] at hage
        omega
      refine ⟨⟨hmem, fun k => by simp [h.io, hone]⟩, fun hb => ?_⟩
      have htwo : age ≠ 2 := by
        rw [hword, if_pos rfl, if_pos hb] at hage
        omega
      simp [h.buffer, hone, htwo, Lines.silent]
    | false =>
      refine ⟨⟨hmem, fun k => by simp [h.io, hword]⟩, fun hb => ?_⟩
      have hone : age ≠ 1 := by
        rw [if_pos hb] at hage
        omega
      simp [h.buffer, hone, hword, Lines.silent]
  · have hstb : (g.map.memRequestIo q).stb = false := stb_memRequest hsel
    refine ⟨⟨hmem, fun k => ?_⟩, fun _ => ?_⟩
    · rw [h.io]
      simp [IoBusSwitch.devRequest, hstb]
    · rw [h.buffer, errors_of_not_stb hstb, hstb]
      simp [Lines.silent]

theorem drained_clock (hstb : ∀ slave, (g.map.memRequest q slave).stb = false) :
    Drained (b.clock g q x f false) where
  mem slave := by
    by_cases hs : slave = .io
    · rw [hs]
      rfl
    · rw [stbDly_clock hs, hstb, Bool.false_and]
  io k := by
    have hk : (IoBusSwitch.devRequest (g.map.memRequestIo q) k).stb = false := by
      simp [IoBusSwitch.devRequest, AddressMap.memRequestIo, hstb]
    rw [ready_clock, hk, Bool.false_and]

/-- Without a strobe no error is buffered. -/
theorem buffer_clock_of_not_stb (hstb : ∀ slave, (g.map.memRequest q slave).stb = false) :
    ∃ r, (b.clock g q x f false).io.buffer.lines = { Lines.silent with ready := r } := by
  rw [buffer_clock, errors_of_not_stb (r := g.map.memRequestIo q) (hstb .io)]
  exact ⟨_, rfl⟩

theorem idle_clock (h : Drained b) (hstb : ∀ slave, (g.map.memRequest q slave).stb = false) :
    Idle g (b.clock g q x f false) where
  toDrained := drained_clock hstb
  buffer _ := by
    rw [buffer_clock, errors_of_not_stb (r := g.map.memRequestIo q) (hstb .io)]
    simp [h.io, Lines.silent]

/-! ## Answers -/

theorem lines_slaveResponse_silent {slave : Slave} (h : Idle g b)
    (hstb : (g.map.memRequest q slave).stb = false) :
    (b.slaveResponse g q x slave).lines = .silent := by
  by_cases hs : slave = .io
  · subst hs
    rw [lines_slaveResponse_io, errors_of_not_stb (r := g.map.memRequestIo q) hstb]
    by_cases hb : g.bufferIoResponse = true
    · rw [if_pos hb, h.buffer hb]
    · simp [hb, h.io, Lines.silent]
  · rw [lines_slaveResponse hs, h.mem]
    simp [Mem.lines, hstb, Lines.silent]

theorem stb_of_not_active (h : ¬ g.Active q) (slave : Slave) :
    (g.map.memRequest q slave).stb = false := by
  by_contra hstb
  simp only [AddressMap.memRequest, Bool.not_eq_false, Bool.and_eq_true, decide_eq_true_eq] at hstb
  exact h ⟨hstb.1.2, .inl hstb.2⟩

/-- On an idle bus nothing answers before there is an access. -/
theorem lines_idle (h : Idle g b) (hq : ¬ g.Active q) : (b.response g q x).lines = .silent :=
  AddressMap.lines_busResponse_silent
    (fun hsel => by_contra fun hacc => hq ⟨hacc, .inr hsel⟩)
    (fun slave => lines_slaveResponse_silent h (stb_of_not_active hq slave))

/-- What is left of an older access is at most a buffered `ready`. -/
theorem error_of_drained (h : Drained b)
    (hbuffer : ∃ r, b.io.buffer.lines = { Lines.silent with ready := r }) (hq : ¬ g.Active q) :
    (b.response g q x).error = false := by
  have hstb := stb_of_not_active hq
  have hslave (slave : Slave) : (b.slaveResponse g q x slave).error = false := by
    by_cases hio : slave = .io
    · subst hio
      have hlines := lines_slaveResponse_io (g := g) (b := b) (q := q) (x := x)
      obtain ⟨r, hr⟩ := hbuffer
      rw [errors_of_not_stb (r := g.map.memRequestIo q) (hstb .io), hr] at hlines
      split_ifs at hlines <;> simp_all [MemResponse.lines, MemResponse.error, Lines.silent]
    · have hlines := lines_slaveResponse (g := g) (b := b) (q := q) (x := x) hio
      rw [h.mem] at hlines
      simp_all [MemResponse.lines, MemResponse.error, Mem.lines]
  have hnone : g.map.select q.addr = none → q.acc = .nop := fun hsel =>
    by_contra fun hacc => hq ⟨hacc, .inr hsel⟩
  simp only [MemResponse.error, Bool.or_eq_false_iff] at hslave
  cases hsel : g.map.select q.addr <;>
    simp_all [response, AddressMap.busResponse, BusResponse.error]

theorem memRequest_of_strobe {slave : Slave} (hstb : q.stb = true) (hacc : q.acc ≠ .nop)
    (hsel : g.map.select q.addr = some slave) :
    g.map.memRequest q slave = ⟨true, q.size, q.addr, q.data, q.acc = .write⟩ := by
  simp [AddressMap.memRequest, hsel, hstb, hacc]

theorem refuses_memory {slave : Slave} (hsel : g.map.select q.addr = some slave)
    (hio : slave ≠ .io) : g.refuses q = (q.acc = .write && !g.useWrite slave) := by
  cases slave <;> simp_all [BusGenerics.refuses]

theorem latency_memory {slave : Slave} (hsel : g.map.select q.addr = some slave)
    (hio : slave ≠ .io) : g.latency q = if q.acc = .write then 0 else 1 := by
  cases slave <;> simp_all [BusGenerics.latency]

/-- The error lines of the strobed device. -/
theorem errors_strobe (hstb : q.stb = true) (hacc : q.acc ≠ .nop)
    (hsel : g.map.select q.addr = some .io) :
    if g.verdict q = .ready then IoBusSwitch.errors (g.map.memRequestIo q) = .silent
    else (IoBusSwitch.errors (g.map.memRequestIo q)).Shows q.acc (g.verdict q) := by
  have hread : q.acc = .read ∨ q.acc = .write := by
    cases hq : q.acc <;> simp_all
  rw [AddressMap.memRequestIo, memRequest_of_strobe hstb hacc hsel, BusGenerics.verdict,
    BusGenerics.refuses, hsel]
  by_cases hw : q.size = .word
  · rw [hw]
    by_cases ha : NaturallyAligned .word q.addr
    · have ho := naturallyAligned_word.mp ha
      rcases hread with h | h <;> simp [h, ha, ho, IoBusSwitch.errors, Lines.silent]
    · have ho : ¬ q.addr.extractLsb' 0 2 = 0#2 := mt naturallyAligned_word.mpr ha
      rcases hread with h | h <;> simp [h, ha, ho, IoBusSwitch.errors, Lines.Shows]
  · rcases hread with h | h <;> simp [h, hw, IoBusSwitch.errors, Lines.Shows]

/-- The clock of the strobe. -/
theorem answers_strobe (h : Idle g b) (hstb : q.stb = true) (hacc : q.acc ≠ .nop)
    (hsize : q.size ≠ .unknown) : g.Answers q 0 (b.response g q x).lines := by
  have hread : q.acc = .read ∨ q.acc = .write := by
    cases hq : q.acc <;> simp_all
  unfold BusGenerics.Answers
  cases hsel : g.map.select q.addr with
  | none =>
    rw [response, AddressMap.lines_busResponse_none hsel fun slave =>
      lines_slaveResponse_silent h (stb_memRequest (by simp [hsel]))]
    rw [BusGenerics.latency, hsel, if_pos rfl, BusGenerics.verdict, BusGenerics.refuses, hsel]
    exact ⟨_, rfl⟩
  | some slave =>
    rw [response, AddressMap.lines_busResponse hsel fun s hs => lines_slaveResponse_silent h
      (stb_memRequest (by simpa [hsel] using Ne.symm hs))]
    by_cases hio : slave = .io
    · subst hio
      have herrors := errors_strobe hstb hacc hsel
      have hready : ((List.finRange 16).any fun k => (b.io.devices k).ready) = false := by
        simp [h.io]
      rw [lines_slaveResponse_io, hready, BusGenerics.latency, hsel]
      cases hb : g.bufferIoResponse with
      | true => simpa using h.buffer hb
      | false =>
        by_cases hv : g.verdict q = .ready
        · rw [if_pos hv] at herrors
          simp only [hv, herrors]
          rfl
        · rw [if_neg hv] at herrors
          simp only [hv]
          exact herrors
    · rw [lines_slaveResponse hio, memRequest_of_strobe hstb hacc hsel, h.mem,
        latency_memory hsel hio, BusGenerics.verdict, refuses_memory hsel hio]
      rcases hread with hr | hw
      · simp [hr, Mem.lines, Lines.silent]
      · cases g.useWrite slave with
        | false => simp [hw, Mem.lines, Lines.Shows]
        | true =>
          by_cases ha : NaturallyAligned q.size q.addr <;>
            simp [hw, ha, hsize, Mem.lines, Lines.Shows]

/-- The access is at another slave. -/
theorem lines_elsewhere {age : ℕ} {q' : BusRequest} {slave : Slave} (h : Waits g b q age)
    (hstb : (g.map.memRequest q slave).stb = false)
    (hstb' : (g.map.memRequest q' slave).stb = false) :
    (b.slaveResponse g q' x slave).lines = .silent := by
  by_cases hio : slave = .io
  · subst hio
    have hq : (g.map.memRequestIo q).stb = false := hstb
    have hready : ((List.finRange 16).any fun k => (b.io.devices k).ready) = false := by
      simp [h.io, IoBusSwitch.devRequest, hq]
    rw [lines_slaveResponse_io, errors_of_not_stb (r := g.map.memRequestIo q') hstb', hready,
      h.buffer, errors_of_not_stb hq, hq]
    simp [Lines.silent]
  · rw [lines_slaveResponse hio, h.mem slave hio, hstb]
    simp [Mem.lines, hstb', Lines.silent]

/-- The clocks after the strobe, while the core holds the address and the size. -/
theorem answers_wait {age : ℕ} {q' : BusRequest} (h : Waits g b q age) (hpos : 0 < age)
    (hage : age ≤ g.latency q) (hstb : q.stb = true) (hacc : q.acc ≠ .nop)
    (hsize : q.size ≠ .unknown) (hstb' : q'.stb = false) (haddr : q'.addr = q.addr)
    (hsize' : q'.size = q.size) : g.Answers q age (b.response g q' x).lines := by
  have hread : q.acc = .read ∨ q.acc = .write := by
    cases hq : q.acc <;> simp_all
  have hstbs (slave : Slave) : (g.map.memRequest q' slave).stb = false := by
    rw [AddressMap.memRequest, hstb', Bool.and_false]
  unfold BusGenerics.Answers
  cases hsel : g.map.select q.addr with
  | none =>
    have hzero : g.latency q = 0 := by simp [BusGenerics.latency, hsel]
    omega
  | some slave =>
    rw [response, AddressMap.lines_busResponse (haddr ▸ hsel) fun s hs => lines_elsewhere h
      (stb_memRequest (by simpa [hsel] using Ne.symm hs)) (hstbs s)]
    by_cases hio : slave = .io
    · subst hio
      have herrors := errors_strobe hstb hacc hsel
      have hq : (g.map.memRequestIo q).stb = true := by
        rw [AddressMap.memRequestIo, memRequest_of_strobe hstb hacc hsel]
      have hlatency : g.latency q =
          (if g.verdict q = .ready then 1 else 0) + if g.bufferIoResponse then 1 else 0 := by
        rw [BusGenerics.latency, hsel]
      have hv := verdict_io hsel
      have hready : ((List.finRange 16).any fun k => (b.io.devices k).ready) =
          (decide (age = 1) && (g.map.memRequestIo q).isword) := by
        simp only [h.io]
        by_cases hone : age = 1
        · simp only [hone, decide_true, Bool.true_and, IoBusSwitch.any_devRequest, hq]
        · simp [hone]
      rw [lines_slaveResponse_io, errors_of_not_stb (r := g.map.memRequestIo q') (hstbs .io),
        hready, h.buffer, hq]
      rw [hlatency] at hage ⊢
      by_cases hready : g.verdict q = .ready
      · rw [if_pos hready] at herrors hage ⊢
        rw [hv.mp hready, herrors, hready]
        cases hb : g.bufferIoResponse with
        | false =>
          obtain rfl : age = 1 := by
            simp [hb] at hage
            omega
          simp [Lines.Shows, Lines.silent]
        | true =>
          obtain rfl | rfl : age = 1 ∨ age = 2 := by
            simp [hb] at hage
            omega
          · simp
          · simp [Lines.Shows, Lines.silent]
      · rw [if_neg hready] at herrors hage ⊢
        obtain ⟨hb, rfl⟩ : g.bufferIoResponse = true ∧ age = 1 := by
          cases hb : g.bufferIoResponse <;> simp [hb] at hage ⊢ <;> omega
        simpa [hb] using herrors
    · rw [latency_memory hsel hio] at hage ⊢
      have hr : q.acc = .read := by
        by_contra hr
        rw [if_pos (hread.resolve_left hr)] at hage
        omega
      obtain rfl : age = 1 := by
        rw [hr] at hage
        simp at hage
        omega
      rw [lines_slaveResponse hio, h.mem slave hio, memRequest_of_strobe hstb hacc hsel,
        BusGenerics.verdict, refuses_memory hsel hio, Mem.lines, hstbs]
      have hm : NaturallyAligned (g.map.memRequest q' slave).size (g.map.memRequest q' slave).addr ↔
          NaturallyAligned q.size q.addr := by
        rw [← haddr, ← hsize']
        rfl
      have hs : (g.map.memRequest q' slave).size ≠ .unknown := hsize'.trans_ne hsize
      by_cases ha : NaturallyAligned q.size q.addr <;> simp [hm, hs, ha, hr, Lines.Shows]

/-- An error that arrives when the request has gone is the buffered answer of a device. -/
theorem answers_of_error {age : ℕ} {q' : BusRequest} (h : Waits g b q age) (hstb : q.stb = true)
    (hacc : q.acc ≠ .nop) (hq : ¬ g.Active q') (haddr : q'.addr = q.addr)
    (hsize : q'.size = .unknown) (he : (b.response g q' x).error = true) :
    g.Answers q age (b.response g q' x).lines := by
  have hstbs := stb_of_not_active hq
  cases hsel : g.map.select q.addr with
  | none =>
    have hnop : q'.acc = .nop := by
      by_contra hne
      exact hq ⟨hne, .inr (haddr ▸ hsel)⟩
    have hsilent : (b.response g q' x).lines = .silent :=
      AddressMap.lines_busResponse_silent (fun _ => hnop) fun slave => lines_elsewhere h
        (stb_memRequest (by simp [hsel])) (hstbs slave)
    simp only [BusResponse.lines, Lines.silent, Lines.mk.injEq] at hsilent
    simp [BusResponse.error, hsilent] at he
  | some slave =>
    have hlines : (b.response g q' x).lines = (b.slaveResponse g q' x slave).lines :=
      AddressMap.lines_busResponse (haddr ▸ hsel) fun s hs => lines_elsewhere h
        (stb_memRequest (by simpa [hsel] using Ne.symm hs)) (hstbs s)
    by_cases hio : slave = .io
    · subst hio
      have herrors := errors_strobe hstb hacc hsel
      rw [lines_slaveResponse_io, errors_of_not_stb (r := g.map.memRequestIo q') (hstbs .io),
        h.buffer] at hlines
      have hage : g.bufferIoResponse = true ∧ age = 1 := by
        by_contra hno
        have hquiet : (b.response g q' x).error = false := by
          cases hb : g.bufferIoResponse <;> by_cases hone : age = 1 <;>
            simp_all [BusResponse.lines, BusResponse.error, Lines.silent]
        simp [hquiet] at he
      rw [if_pos hage.1, if_pos hage.2] at hlines
      have hv : g.verdict q ≠ .ready := by
        intro hv
        rw [if_pos hv] at herrors
        rw [herrors] at hlines
        simp only [BusResponse.lines, Lines.silent, Lines.mk.injEq] at hlines
        simp [BusResponse.error, hlines] at he
      rw [if_neg hv] at herrors
      have hlatency : g.latency q = 1 := by
        rw [BusGenerics.latency, hsel]
        simp [hv, hage.1]
      rw [BusGenerics.Answers, hlatency, if_pos hage.2, hlines]
      exact herrors
    · have hsize' : (g.map.memRequest q' slave).size = .unknown := hsize
      rw [lines_slaveResponse hio, Mem.lines, hstbs, hsize'] at hlines
      simp only [BusResponse.lines, Lines.mk.injEq] at hlines
      simp [BusResponse.error, hlines] at he

end DataBus

end ThuasRiscv
