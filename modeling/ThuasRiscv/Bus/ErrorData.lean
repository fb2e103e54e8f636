import ThuasRiscv.Bus.BusProtocol

/-!
# The data lines with an error

A load that ends in an error puts something on the data lines too: a memory
leaves them open, everything else shows zeros.
-/

namespace ThuasRiscv

/-- The data lines while a load from `addr` is answered with an error; `x` are the bits that a memory
leaves open. -/
def BusGenerics.errorData (g : BusGenerics) (addr x : DataType) : DataType :=
  match g.map.select addr with
  | none | some .io => 0
  | some .rom | some .boot | some .ram => x

theorem BusGenerics.errorData_memory {g : BusGenerics} {addr x : DataType} {slave : Slave}
    (hsel : g.map.select addr = some slave) (hio : slave ≠ .io) : g.errorData addr x = x := by
  rw [errorData, hsel]
  cases slave <;> first | rfl | exact absurd rfl hio

theorem Mem.recodeRead_of_misaligned {x : DataType} {q : MemRequest} {w : DataType}
    (h : (recodeRead x q w).2 = true) : (recodeRead x q w).1 = x := by
  unfold recodeRead at h ⊢
  cases hs : q.size <;> simp only [hs] at h ⊢
  case byte =>
    generalize q.addr.extractLsb' 0 2 = o at h ⊢
    match o with
    | 0b00 | 0b01 | 0b10 | 0b11 => simp at h
  case halfword =>
    split_ifs at h ⊢
    rfl
  case word =>
    split_ifs at h ⊢
    rfl

/-- Devices that have no data put zeros on the lines. -/
theorem IoBusSwitch.data_fused {b : IoBusSwitch} {q : MemRequest}
    (h : ∀ k, (b.devices k).data = 0) : (b.fused q).data = 0 := by
  simp [fused, devResponse, IoDevice.response, h]

namespace DataBus

variable {nRom nBoot nRam : ℕ} {g : BusGenerics} {b : DataBus nRom nBoot nRam} {q : BusRequest}
  {x : BusInput} {f : InstrRequest}

/-- A device has data only when it is ready. -/
def Settled (b : DataBus nRom nBoot nRam) : Prop :=
  ∀ k, (b.io.devices k).ready = false → (b.io.devices k).data = 0

theorem settled_initial (g : BusGenerics) (nRom nBoot nRam : ℕ) (le se : Bool) :
    (initial g nRom nBoot nRam le se).Settled := fun _ _ => rfl

theorem settled_clock (r : Bool) : (b.clock g q x f r).Settled := by
  intro k hready
  change (IoDevice.clock _ _ r).ready = false at hready
  change (IoDevice.clock _ _ r).data = 0
  unfold IoDevice.clock at hready ⊢
  split_ifs at hready ⊢ with hr hd
  · rfl
  · simp_all
  · rfl

theorem data_response {slave : Slave} (hsel : g.map.select q.addr = some slave) :
    (b.response g q x).data = (b.slaveResponse g q x slave).data := by
  simp [response, AddressMap.busResponse, hsel]

/-- The data lines of a memory that has no word for them. -/
theorem data_slaveResponse {slave : Slave} (hio : slave ≠ .io)
    (h : b.stbDly slave = true → (b.slaveResponse g q x slave).loadMisalignedError = true) :
    (b.slaveResponse g q x slave).data = x.openBits := by
  cases slave with
  | io => exact absurd rfl hio
  | rom | boot | ram =>
    simp only [slaveResponse, stbDly, Mem.response, Bool.and_eq_true] at h ⊢
    split_ifs with hd
    · exact Mem.recodeRead_of_misaligned (h hd).2
    · rfl

/-- On an idle bus the devices have no data. -/
theorem Idle.data_fused {r : MemRequest} (h : Idle g b) (hs : b.Settled) :
    (b.io.fused r).data = 0 :=
  IoBusSwitch.data_fused fun k => hs k (h.io k)

/-- An error in the clock of the strobe. -/
theorem data_strobe (h : Idle g b) (hs : b.Settled) (he : (b.response g q x).error = true) :
    (b.response g q x).data = g.errorData q.addr x.openBits := by
  cases hsel : g.map.select q.addr with
  | none => simp [response, AddressMap.busResponse, BusGenerics.errorData, hsel]
  | some slave =>
    rw [data_response hsel]
    by_cases hio : slave = .io
    · subst hio
      rw [BusGenerics.errorData, hsel]
      cases hb : g.bufferIoResponse with
      | true =>
        have hlines : (b.response g q x).lines = (b.slaveResponse g q x .io).lines :=
          AddressMap.lines_busResponse hsel fun s hne => lines_slaveResponse_silent h
            (stb_memRequest (by simpa [hsel] using Ne.symm hne))
        rw [lines_slaveResponse_io, if_pos hb, h.buffer hb] at hlines
        simp only [BusResponse.lines, Lines.silent, Lines.mk.injEq] at hlines
        simp [BusResponse.error, hlines] at he
      | false =>
        rw [slaveResponse, IoBusSwitch.response, hb, if_neg Bool.false_ne_true, h.data_fused hs]
    · rw [BusGenerics.errorData_memory hsel hio]
      refine data_slaveResponse hio fun hd => ?_
      rw [h.mem] at hd
      cases hd

/-- An error in a clock after the strobe, while the core holds the address and the size. -/
theorem data_wait {age : ℕ} {q' : BusRequest} (h : Waits g b q age)
    (hbuffer : age = 1 → b.io.buffer.data = 0) (hstb' : q'.stb = false) (haddr : q'.addr = q.addr)
    (he : (b.response g q' x).error = true) :
    (b.response g q' x).data = g.errorData q.addr x.openBits := by
  have hstbs (slave : Slave) : (g.map.memRequest q' slave).stb = false := by
    rw [AddressMap.memRequest, hstb', Bool.and_false]
  cases hsel : g.map.select q.addr with
  | none => simp [response, AddressMap.busResponse, BusGenerics.errorData, hsel, haddr]
  | some slave =>
    have hlines : (b.response g q' x).lines = (b.slaveResponse g q' x slave).lines :=
      AddressMap.lines_busResponse (haddr ▸ hsel) fun s hs => lines_elsewhere h
        (stb_memRequest (by simpa [hsel] using Ne.symm hs)) (hstbs s)
    rw [data_response (haddr ▸ hsel)]
    by_cases hio : slave = .io
    · subst hio
      rw [BusGenerics.errorData, hsel]
      rw [lines_slaveResponse_io, errors_of_not_stb (r := g.map.memRequestIo q') (hstbs .io),
        h.buffer] at hlines
      have hage : g.bufferIoResponse = true ∧ age = 1 := by
        by_contra hno
        have hquiet : (b.response g q' x).error = false := by
          cases hb : g.bufferIoResponse <;> by_cases hone : age = 1 <;>
            simp_all [BusResponse.lines, BusResponse.error, Lines.silent]
        simp [hquiet] at he
      rw [slaveResponse, IoBusSwitch.response, if_pos hage.1, hbuffer hage.2]
    · rw [BusGenerics.errorData_memory hsel hio]
      refine data_slaveResponse hio fun _ => ?_
      have hmis : (b.response g q' x).loadMisalignedError =
          (b.slaveResponse g q' x slave).loadMisalignedError :=
        congrArg Lines.loadMisalignedError hlines
      rw [lines_slaveResponse hio, Mem.lines, hstbs] at hlines
      simp only [BusResponse.lines, Bool.false_and, Bool.and_false, Lines.mk.injEq] at hlines
      rw [← hmis]
      simpa [BusResponse.error, hlines.2.1, hlines.2.2.1, hlines.2.2.2.2] using he

end DataBus

end ThuasRiscv
