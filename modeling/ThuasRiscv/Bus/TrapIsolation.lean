import ThuasRiscv.Bus.BusTermination

/-!
# Traps without effects

An instruction that is in the execute stage when a synchronous exception is
taken wrote nothing: no byte of a memory, no register of a device, no register
of its own and no CSR. An observer keeps whether the instruction in the execute
stage was there before, and whether it wrote something.
-/

namespace ThuasRiscv

open Transition

/-! ## Slots of the execute stage -/

theorem IdEx.Shape.quiet_of_ismem {cfg : Generics} {pc instr : DataType} {d : IdEx}
    (h : IdEx.Shape cfg pc instr d) (hm : d.ismem = true) : d.Quiet := by
  cases h <;> first | exact ⟨rfl, rfl, rfl, rfl⟩ | cases hm

theorem IdEx.Shape.memaccess_of_mdStart {cfg : Generics} {pc instr : DataType} {d : IdEx}
    (h : IdEx.Shape cfg pc instr d) (hm : d.mdStart = true) : d.memaccess = .nop := by
  cases h <;> first | rfl | cases hm

/-! ## Writes on the bus -/

namespace Mem

/-- The arrays that a store enables. -/
theorem byteena_ne_zero_iff {x : DataType} {q : MemRequest} : (recodeWrite x q).byteena ≠ 0 ↔
    (q.stb && q.wren) = true ∧ NaturallyAligned q.size q.addr := by
  constructor
  · intro h
    cases hq : q.stb && q.wren with
    | false => simp [recodeWrite_idle hq] at h
    | true =>
      refine ⟨rfl, by_contra fun ha => h ?_⟩
      by_cases hs : q.size = .unknown
      · rw [recodeWrite_unknown hs]
      · rw [recodeWrite_misaligned hq hs ha]
  · rintro ⟨hq, ha⟩ h
    have henable := (recodeWrite_aligned (x := x) hq ha).enable (q.addr.extractLsb' 0 2)
    have hbytes : 0 < q.size.bytes := by
      cases hs : q.size <;> simp [MemSize.bytes, NaturallyAligned, hs] at ha ⊢
    rw [h] at henable
    simp [hbytes] at henable

end Mem

/-- A byte of a memory or a register of a device is written in this clock; `x` are the bits that the
memories leave open. -/
def BusGenerics.writes (g : BusGenerics) (q : BusRequest) (x : DataType) (sreset : Bool) : Bool :=
  let writesMem (slave : Slave) (m : MemGenerics) : Bool :=
    m.useWrite && (Mem.recodeWrite x (g.map.memRequest q slave)).byteena ≠ 0
  writesMem .rom g.rom || writesMem .boot g.boot || writesMem .ram g.ram ||
    (List.finRange 16).any fun k =>
      IoDevice.writes (IoBusSwitch.devRequest (g.map.memRequestIo q) k) sreset

namespace DataBus

variable {nRom nBoot nRam : ℕ} {g : BusGenerics} {b : DataBus nRom nBoot nRam} {q : BusRequest}
  {x : BusInput} {f : InstrRequest}

theorem verdict_memory {slave : Slave} (hsel : g.map.select q.addr = some slave)
    (hio : slave ≠ .io) (hw : q.acc = .write) :
    g.verdict q = .ready ↔ g.useWrite slave = true ∧ NaturallyAligned q.size q.addr := by
  rw [BusGenerics.verdict, refuses_memory hsel hio, hw]
  cases g.useWrite slave <;> by_cases ha : NaturallyAligned q.size q.addr <;> simp [ha]

/-- A strobed store reaches the slave that its address selects. -/
theorem stores_memRequest (slave : Slave) : ((g.map.memRequest q slave).stb &&
    (g.map.memRequest q slave).wren) = true ↔
      g.map.select q.addr = some slave ∧ q.stb = true ∧ q.acc = .write := by
  by_cases hw : q.acc = .write <;> simp [AddressMap.memRequest, hw]
  tauto

theorem writesDevice_iff : ((List.finRange 16).any fun k =>
    IoDevice.writes (IoBusSwitch.devRequest (g.map.memRequestIo q) k) false) = true ↔
      (g.map.select q.addr = some .io ∧ q.stb = true ∧ q.acc = .write) ∧
        (g.map.memRequestIo q).isword = true := by
  have hany := IoBusSwitch.any_devRequest (g.map.memRequestIo q)
    ((g.map.memRequestIo q).isword && (g.map.memRequestIo q).wren)
  rw [← stores_memRequest, ← AddressMap.memRequestIo, ← Bool.and_eq_true, Bool.and_right_comm,
    Bool.and_assoc, ← hany]
  simp only [IoDevice.writes, Bool.not_false, Bool.true_and, Bool.and_assoc]
  exact Iff.rfl

theorem writesMemory_iff {slave : Slave} {m : MemGenerics} {y : DataType} :
    (m.useWrite && (Mem.recodeWrite y (g.map.memRequest q slave)).byteena ≠ 0) = true ↔
      (g.map.select q.addr = some slave ∧ q.stb = true ∧ q.acc = .write) ∧
        m.useWrite = true ∧ NaturallyAligned q.size q.addr := by
  rw [Bool.and_eq_true, decide_eq_true_eq, Mem.byteena_ne_zero_iff, stores_memRequest]
  exact and_left_comm

/-- The bus writes the stores that it answers with `ready`, in the clock of their strobe. -/
theorem writes_iff {y : DataType} : g.writes q y false = true ↔
    q.stb = true ∧ q.acc = .write ∧ g.verdict q = .ready := by
  simp only [BusGenerics.writes, Bool.or_eq_true, writesMemory_iff, writesDevice_iff]
  cases hsel : g.map.select q.addr with
  | none => simp [BusGenerics.verdict, BusGenerics.refuses, hsel]
  | some slave =>
    by_cases hw : q.acc = .write
    · cases slave with
      | io => simp [verdict_io hsel, hw]
      | rom | boot | ram => simp [verdict_memory hsel, hw, BusGenerics.useWrite]
    · simp [hw]

end DataBus

/-- A clock that enables no array keeps the bytes. -/
theorem Mem.bytes_clock_of_not_writes {n : ℕ} {g : MemGenerics} {m : Mem n} {x : DataType}
    {q : MemRequest} {f : InstrRequest} (r : Bool)
    (h : (g.useWrite && (recodeWrite x q).byteena ≠ 0) = false) :
    (m.clock g x q f r).bytes = m.bytes := by
  rw [Bool.and_eq_false_iff, decide_eq_false_iff_not, not_not] at h
  rcases h with h | h
  · funext a
    rw [bytes, lane_clock, h, Bool.false_and, if_neg Bool.false_ne_true]
    rfl
  · exact bytes_clock_idle r h

/-- Without a write every memory keeps its bytes. -/
theorem DataBus.bytes_clock_of_not_writes {nRom nBoot nRam : ℕ} {g : BusGenerics}
    {b : DataBus nRom nBoot nRam} {q : BusRequest} {x : BusInput} {f : InstrRequest} (r : Bool)
    (h : g.writes q x.openBits r = false) :
    (b.clock g q x f r).rom.bytes = b.rom.bytes ∧ (b.clock g q x f r).boot.bytes = b.boot.bytes ∧
      (b.clock g q x f r).ram.bytes = b.ram.bytes := by
  simp only [BusGenerics.writes, Bool.or_eq_false_iff] at h
  obtain ⟨⟨⟨hrom, hboot⟩, hram⟩, -⟩ := h
  exact ⟨Mem.bytes_clock_of_not_writes r hrom, Mem.bytes_clock_of_not_writes r hboot,
    Mem.bytes_clock_of_not_writes r hram⟩

namespace System

variable {nRom nBoot nRam : ℕ} (g : SystemGenerics) (io : Peripherals)
  (s : System nRom nBoot nRam) (i : SystemInput)

/-! ## What an instruction writes -/

/-- Something that only an instruction or the Debug Module writes is written in this clock: a byte
of a memory, a register of a device, a CSR or a register. -/
def writes : Bool :=
  g.bus.writes (s.request g i) i.bus.openBits i.core.sreset ||
    s.core.writesCsr g.core (s.coreInput g i) ||
    (s.core.regWrite g.core io (s.coreInput g i)).isSome

/-- A synchronous exception is taken for the instruction in the execute stage. -/
def takesException : Bool :=
  s.core.advance g.core (s.coreInput g i) = .trap && (s.core.interrupt (s.coreInput g i)).isNone

end System

/-- An instruction in the execute stage. -/
structure Resident where
  /-- It was in the execute stage in the clock before. -/
  stayed : Bool
  /-- It wrote something in an earlier clock. -/
  wrote : Bool
  deriving DecidableEq

namespace System

variable {nRom nBoot nRam : ℕ} (g : SystemGenerics) (io : Peripherals)
  (s : System nRom nBoot nRam) (i : SystemInput)

/-- The instruction in the execute stage after one clock. -/
def nextResident (r : Option Resident) : Option Resident :=
  if i.core.sreset then none
  else match s.core.advance g.core (s.coreInput g i) with
    | .stall => r.map fun x => ⟨true, x.wrote || s.writes g io i⟩
    | .decode => some ⟨false, false⟩
    | .trigger | .trap | .bubble => none

/-- The system with an observer of the instruction in the execute stage. -/
def attended (nRom nBoot nRam : ℕ) (loadAccessError storeAccessError : Bool) :
    Machine ((System nRom nBoot nRam × Option Flight) × Option Resident) SystemInput :=
  (tracked g io nRom nBoot nRam loadAccessError storeAccessError).observe none
    fun p i r => p.1.nextResident g io i r

/-- A synchronous exception finds an instruction that wrote nothing, and nothing of it is left. -/
structure TrapsWithoutEffect (r : Option Resident) : Prop where
  before : ∀ x ∈ r, s.takesException g i = true → x.wrote = false
  now : ∀ x ∈ r, s.takesException g i = true → s.writes g io i = false
  /-- The slot has no access, no result and no CSR operation, and no access is registered. -/
  after : ∀ x ∈ r, s.takesException g i = true →
    (s.step g io i).core.idEx.ismem = false ∧ (s.step g io i).core.idEx.rdEn = false ∧
      (s.step g io i).core.idEx.csrOp = .nop ∧
      (g.core.fastMem = false → (s.step g io i).core.bus.strobes = false)

/-- The bus accepts the instruction in the execute stage as a store. -/
def AcceptsStore : Prop :=
  s.core.idEx.memaccess = .write ∧ g.bus.verdict ⟨true, .write, s.core.idEx.memsize,
    s.core.operandA + s.core.idEx.imm, s.core.operandB⟩ = .ready

instance : Decidable (s.AcceptsStore g) := inferInstanceAs (Decidable (_ ∧ _))

/-- The fetch of an instruction failed: an access error, or a misaligned address. -/
def fetchFault : Bool := s.core.instrAccessError.getLsbD 1 || s.core.instructionMisaligned

/-- No exception is taken for a store that is on the bus already: with the registered interface a
store that was in the execute stage before, with the unregistered one any store. Exceptions of the
fetch can be taken for such a store, and all exceptions while the core sleeps. While it sleeps no
exception is taken for a CSR instruction that was in the execute stage before. -/
structure FetchSafe (r : Option Resident) : Prop where
  store : ∀ x ∈ r, s.takesException g i = true →
    s.fetchFault = true ∨ s.core.control.state = .wfi → s.AcceptsStore g →
      g.core.fastMem = false ∧ x.stayed = false
  csr : ∀ x ∈ r, s.takesException g i = true → s.core.control.state = .wfi →
    s.core.idEx.csrOp ≠ .nop → x.stayed = false

instance (r : Option Resident) : Decidable (FetchSafe g s i r) :=
  decidable_of_iff
    ((∀ x ∈ r, s.takesException g i = true → s.fetchFault = true ∨ s.core.control.state = .wfi →
        s.AcceptsStore g → g.core.fastMem = false ∧ x.stayed = false) ∧
      ∀ x ∈ r, s.takesException g i = true → s.core.control.state = .wfi →
        s.core.idEx.csrOp ≠ .nop → x.stayed = false)
    ⟨fun h => ⟨h.1, h.2⟩, fun h => ⟨h.1, h.2⟩⟩

/-! ## The access of the execute stage -/

section Access
variable {g io s i} {last : Option Flight}

/-- The answer to an access depends on its type, size and address only. -/
theorem verdict_ready_congr {gb : BusGenerics} {q q' : BusRequest} (hacc : q.acc = q'.acc)
    (hsize : q.size = q'.size) (haddr : q.addr = q'.addr) :
    gb.verdict q = .ready ↔ gb.verdict q' = .ready := by
  cases q
  cases q'
  subst hacc hsize haddr
  exact Iff.rfl

/-- The states in which an instruction is in the execute stage. -/
def executes : StateType → Bool
  | .exec | .mem | .md | .md2 | .wfi => true
  | _ => false

theorem indebug_of_executes (hs : executes s.core.control.state = true) :
    s.core.indebug = false := by
  rw [Core.indebug, decide_eq_false_iff_not]
  intro h
  simp [executes, h] at hs

/-- The Debug Module makes no strobe while the core executes an instruction. -/
theorem dm_stb_eq_false (hinv : BusInv g s last) (hsafe : DmChecks s i)
    (hs : executes s.core.control.state = true) : i.core.dm.stb = false := by
  by_contra h
  have hack := hinv.ack2 (hsafe (by simpa using h))
  rcases hack with h | h | h | h | h <;> simp [h, executes] at hs

/-- A store of the unregistered interface is written in the clock of its strobe. -/
theorem writes_fast {y : DataType} (hf : g.core.fastMem = true) (hd : s.core.indebug = false)
    (hdm : i.core.dm.stb = false)
    (hdis : s.core.idEx.memaccess = .write → s.core.fastDisable g.core i.core = false) :
    g.bus.writes (s.request g i) y false = true ↔
      s.core.idEx.ismem = true ∧ s.AcceptsStore g := by
  have hreq : s.request g i =
      s.core.busAccess g.core i.core (s.core.fastDisable g.core i.core) := by
    rw [request, Core.busRequest, if_pos hf]
  rw [DataBus.writes_iff, hreq, AcceptsStore, Core.busAccess_acc hd]
  by_cases hw : s.core.idEx.memaccess = .write
  · rw [hdis hw, busAccess_enabled hd, hdm, hw]
    simp only [Bool.false_and, Bool.or_false, Bool.false_eq_true, if_false, true_and]
    exact and_congr_right fun hmem => by rw [hmem]
  · cases s.core.fastDisable g.core i.core <;> simp [hw]

/-- A store of the registered interface is written while it is on the bus. -/
theorem writes_slow {y : DataType} (hf : g.core.fastMem = false)
    (hport : s.core.bus.stb = true → s.core.bus.acc = s.core.idEx.memaccess ∧
      s.core.bus.size = s.core.idEx.memsize ∧ s.core.bus.addr = s.core.operandA + s.core.idEx.imm) :
    g.bus.writes (s.request g i) y false = true ↔
      s.core.bus.stb = true ∧ s.AcceptsStore g := by
  have hreq : s.request g i = s.core.bus := by
    rw [request, Core.busRequest, hf, if_neg Bool.false_ne_true]
  rw [DataBus.writes_iff, hreq, AcceptsStore]
  refine and_congr_right fun hstb => ?_
  obtain ⟨hacc, hsize, haddr⟩ := hport hstb
  rw [hacc]
  exact and_congr_right fun hw => verdict_ready_congr (hacc.trans hw) hsize haddr

/-- Without the strobe of the execute stage the unregistered interface writes nothing. -/
theorem writes_of_not_ismem {y : DataType} (hf : g.core.fastMem = true)
    (hdm : i.core.dm.stb = false) (hmem : s.core.idEx.ismem = false) :
    g.bus.writes (s.request g i) y false = false := by
  have hstb : (s.request g i).stb = false := by
    rw [request, Core.busRequest, if_pos hf, Core.busAccess, hmem, hdm]
    rfl
  by_contra h
  rw [Bool.not_eq_false, DataBus.writes_iff, hstb] at h
  exact Bool.false_ne_true h.1

theorem writes_of_portQuiet {y : DataType} (hf : g.core.fastMem = false) (hport : PortQuiet g s) :
    g.bus.writes (s.request g i) y false = false := by
  have hreq : s.request g i = s.core.bus := by
    rw [request, Core.busRequest, hf, if_neg Bool.false_ne_true]
  by_contra h
  rw [Bool.not_eq_false, DataBus.writes_iff, hreq] at h
  exact hport hf ⟨by simp [h.2.1], .inl h.1⟩

/-- In a stall the bus accepts the same store as before. -/
theorem acceptsStore_of_stall (hr : i.core.sreset = false)
    (ha : s.core.advance g.core (s.coreInput g i) = .stall) :
    (s.step g io i).AcceptsStore g ↔ s.AcceptsStore g := by
  have hid : (s.step g io i).core.idEx = s.core.nextIdEx g.core (s.coreInput g i) := step_idEx hr
  rw [Core.nextIdEx_eq, ha] at hid
  have hop : (s.step g io i).core.operandA = s.core.operandA := operandA_of_stall hr ha
  rw [AcceptsStore, AcceptsStore, hop, hid]
  exact and_congr_right fun _ => verdict_ready_congr rfl rfl rfl

/-- What is written in a stall: by the access of the execute stage, or by its CSR operation. -/
theorem writes_of_stall (hr : i.core.sreset = false) (hd : s.core.indebug = false)
    (ha : s.core.advance g.core (s.coreInput g i) = .stall) : s.writes g io i = true ↔
      g.bus.writes (s.request g i) i.bus.openBits false = true ∨ s.core.idEx.csrOp ≠ .nop := by
  obtain ⟨htrig, htrap, hstall⟩ := Core.advance_eq_stall_iff.mp ha
  have hreg : s.core.regWrite g.core io (s.coreInput g i) = none := by
    simp [Core.regWrite, hstall, hd]
  simp [writes, hr, hreg, Core.writesCsr, CsrSignals.writes, Core.csrSignals, htrap, htrig, hd]

/-- In the clock in which an exception is taken only the bus can be written. -/
theorem writes_of_trap (hr : i.core.sreset = false) (hd : s.core.indebug = false)
    (ht : s.core.trapRequest g.core (s.coreInput g i) = true) : s.writes g io i =
      g.bus.writes (s.request g i) i.bus.openBits false := by
  have hreg : s.core.regWrite g.core io (s.coreInput g i) = none := by
    simp [Core.regWrite, ht, hd]
  simp [writes, hr, hreg, Core.writesCsr, CsrSignals.writes, Core.csrSignals, ht]

end Access

/-! ## The invariant -/

/-- An instruction that has been decoded in the clock before. -/
structure Enters (r : Resident) : Prop where
  wrote : r.wrote = false
  state : s.core.control.state = .exec ∨ s.core.control.state = .wfi
  port : PortQuiet g s
  shape : ∃ pc instr, IdEx.Shape g.core pc instr s.core.idEx

/-- An instruction that was in the execute stage before. -/
structure Stays (r : Resident) : Prop where
  ismem : s.core.idEx.ismem = false
  state : s.core.control.state = .mem ∧ s.core.idEx.Quiet ∨
    (s.core.control.state = .md ∨ s.core.control.state = .md2) ∧ s.core.idEx.csrOp = .nop ∧
      s.core.idEx.memaccess = .nop ∨ s.core.control.state = .wfi
  port : g.core.fastMem = false → s.core.bus.stb = true →
    s.core.bus.acc = s.core.idEx.memaccess ∧ s.core.bus.size = s.core.idEx.memsize ∧
      s.core.bus.addr = s.core.operandA + s.core.idEx.imm
  wrote : r.wrote = true ↔ s.core.idEx.csrOp ≠ .nop ∨
    s.AcceptsStore g ∧ (g.core.fastMem = true ∨ s.core.bus.stb = false)

/-- What is known about the instruction in the execute stage. A halt request that ends a WFI leaves
it there for one clock of debug mode. -/
structure ResidentInv (r : Option Resident) : Prop where
  enters : ∀ x ∈ r, x.stayed = false → Enters g s x
  stays : ∀ x ∈ r, x.stayed = true → s.core.control.state ≠ .debug → Stays g s x

section Invariant
variable {g io s i} {last : Option Flight} {r : Option Resident} {x : Resident}

theorem Stays.executes (h : Stays g s x) : executes s.core.control.state = true := by
  rcases h.state with ⟨hs, -⟩ | ⟨hs | hs, -⟩ | hs <;> rw [hs] <;> rfl

theorem Enters.executes (h : Enters g s x) : executes s.core.control.state = true := by
  rcases h.state with hs | hs <;> rw [hs] <;> rfl

/-- A store makes no request besides its access. -/
theorem shape_of_store {cfg : Generics} {pc instr : DataType} {d : IdEx}
    (h : IdEx.Shape cfg pc instr d) (hw : d.memaccess = .write) :
    d.ismem = true ∧ d.Quiet ∧ d.aluOp.plain = true ∧ d.memsize ≠ .unknown := by
  cases h with
  | store op size hop hsize => exact ⟨rfl, ⟨rfl, rfl, rfl, rfl⟩, hop, hsize⟩
  | mulDiv => cases hw
  | _ => cases hw

theorem haveOcd_of_busInv (hinv : BusInv g s last) (hs : s.core.control.state = .debug) :
    g.core.haveOcd = true := by
  cases hinv.stage with
  | halted _ ho => exact ho
  | resting h => simp [hs, atRest] at h
  | booting h | executing h | waiting _ _ h | sleeping h | trapping h | trapped h | resuming h
  | resuming2 h | resuming3 h => rw [hs] at h; cases h

/-- No exception is taken in debug mode. -/
theorem state_ne_debug_of_trap (hinv : BusInv g s last)
    (ha : s.core.advance g.core (s.coreInput g i) = .trap) : s.core.control.state ≠ .debug := by
  intro hs
  have htrig := (Core.advance_eq_trap_iff.mp ha).1
  rw [Core.stallOnTrigger_eq, hs, haveOcd_of_busInv hinv hs] at htrig
  cases htrig

/-- An access that is answered with `ready` has no error. -/
theorem error_of_answers {gb : BusGenerics} {q : BusRequest} {age : ℕ} {p : BusResponse}
    (h : gb.Answers q age p.lines) (hv : gb.verdict q = .ready) : p.error = false := by
  rw [BusGenerics.Answers, hv] at h
  split_ifs at h <;> simp_all [Lines.Shows, Lines.silent, BusResponse.lines, BusResponse.error]

/-- Without an error on the bus, only a fault of the fetch is left as the cause of an exception. -/
theorem fetchFault_of_exception (hq : s.core.idEx.Quiet) (hd : s.core.indebug = false)
    (he : (s.response g i).error = false)
    (hx : (s.core.exception g.core (s.coreInput g i)).isSome = true) : s.fetchFault = true := by
  by_contra hfault
  have hstray : s.core.strayException (s.coreInput g i) = false := by
    rw [Core.strayException, show (s.coreInput g i).bus = s.response g i from rfl, he,
      Bool.or_false]
    exact Bool.eq_false_of_not_eq_true hfault
  simp [Core.exception_eq_none hq hd hstray] at hx

theorem exception_of_takes (ht : s.takesException g i = true) :
    s.core.stallOnTrigger g.core (s.coreInput g i) = false ∧
      s.core.interrupt (s.coreInput g i) = none ∧
      (s.core.exception g.core (s.coreInput g i)).isSome = true := by
  rw [takesException, Bool.and_eq_true, decide_eq_true_eq, Core.advance_eq_trap_iff,
    Option.isNone_iff_eq_none] at ht
  obtain ⟨⟨htrig, htrap⟩, hint⟩ := ht
  exact ⟨htrig, hint, by simpa [Core.trapRequest, hint] using htrap⟩

/-- The access is enabled on the unregistered interface. -/
theorem fastDisable_of_store (hs : executes s.core.control.state = true)
    (hplain : s.core.idEx.aluOp.plain = true)
    (htrig : s.core.stallOnTrigger g.core (s.coreInput g i) = false)
    (hint : s.core.interrupt (s.coreInput g i) = none) :
    s.core.fastDisable g.core i.core = false := by
  have hflush : s.core.flush = false := by
    rw [Core.flush_eq]
    cases h : s.core.control.state <;> simp [h, executes] at hs <;>
      exact Core.penalty_plain hplain
  have htrig' : s.core.stallOnTrigger g.core i.core = false := htrig
  have hint' : s.core.interrupt i.core = none := hint
  rw [Core.fastDisable, hflush, htrig', hint']
  rfl

/-- An accepted store in the clock of its strobe. -/
theorem fetchFault_of_executing (hinv : BusInv g s last)
    (hs : s.core.control.state = .exec) (hx : Enters g s x) (hf : g.core.fastMem = true)
    (ht : s.takesException g i = true) (hacc : s.AcceptsStore g) : s.fetchFault = true := by
  obtain ⟨htrig, hint, hexc⟩ := exception_of_takes ht
  obtain ⟨pc, instr, hshape⟩ := hx.shape
  obtain ⟨hmem, hq, hplain, hsize⟩ := shape_of_store hshape hacc.1
  have hd := indebug_of_executes hx.executes
  have hreq : s.request g i = ⟨true, s.core.idEx.memaccess, s.core.idEx.memsize,
      s.core.operandA + s.core.idEx.imm, s.core.operandB⟩ := by
    rw [request, Core.busRequest, if_pos hf, fastDisable_of_store hx.executes hplain htrig hint,
      busAccess_enabled hd, hmem, Bool.true_or]
  cases hinv.stage with
  | executing _ _ _ hb =>
    have hans : g.bus.Answers (s.request g i) 0 (s.response g i).lines :=
      answers_executing hb hreq ⟨hmem, by simp [hacc.1], hsize⟩
    have hv : g.bus.verdict (s.request g i) = .ready := by
      rw [hreq, hacc.1]
      exact hacc.2
    exact fetchFault_of_exception hq hd (error_of_answers hans hv) hexc
  | resting h => simp [hs, atRest] at h
  | booting h | waiting _ _ h | sleeping h | trapping h | trapped h | halted h | resuming h
  | resuming2 h | resuming3 h => rw [hs] at h; cases h

/-- An accepted store that the core waits for. -/
theorem fetchFault_of_waiting (hinv : BusInv g s last) (hsafe : DmChecks s i)
    (hs : s.core.control.state = .mem) (hq : s.core.idEx.Quiet)
    (ht : s.takesException g i = true) (hacc : s.AcceptsStore g) : s.fetchFault = true := by
  obtain ⟨-, -, hexc⟩ := exception_of_takes ht
  have hexec : executes s.core.control.state = true := by rw [hs]; rfl
  cases hinv.stage with
  | waiting q age _ hw =>
    have hv : g.bus.verdict q = .ready :=
      (verdict_ready_congr (hw.acc.trans hacc.1) hw.size hw.addr).mpr hacc.2
    exact fetchFault_of_exception hq (indebug_of_executes hexec)
      (error_of_answers (answers_waiting hs (dm_stb_eq_false hinv hsafe hexec) hw) hv) hexc
  | resting h => simp [hs, atRest] at h
  | booting h | executing h | sleeping h | trapping h | trapped h | halted h | resuming h
  | resuming2 h | resuming3 h => rw [hs] at h; cases h

/-! ## The clock of the trap -/

/-- The bus in a clock with an instruction that was in the execute stage before. -/
theorem Stays.writes_iff (hx : Stays g s x) (hdm : i.core.dm.stb = false) {y : DataType} :
    g.bus.writes (s.request g i) y false = true ↔
      g.core.fastMem = false ∧ s.core.bus.stb = true ∧ s.AcceptsStore g := by
  cases hf : g.core.fastMem with
  | true => simp [writes_of_not_ismem hf hdm hx.ismem]
  | false => simp [writes_slow hf (hx.port hf)]

/-- The bus in the first clock of an instruction in the execute stage. -/
theorem Enters.writes_iff (hx : Enters g s x) (hdm : i.core.dm.stb = false)
    (htrig : s.core.stallOnTrigger g.core (s.coreInput g i) = false)
    (hint : s.core.interrupt (s.coreInput g i) = none) {y : DataType} :
    g.bus.writes (s.request g i) y false = true ↔
      g.core.fastMem = true ∧ s.AcceptsStore g := by
  obtain ⟨pc, instr, hshape⟩ := hx.shape
  cases hf : g.core.fastMem with
  | true =>
    have hdis (hw : s.core.idEx.memaccess = .write) : s.core.fastDisable g.core i.core = false :=
      fastDisable_of_store hx.executes (shape_of_store hshape hw).2.2.1 htrig hint
    rw [writes_fast hf (indebug_of_executes hx.executes) hdm hdis]
    simp only [true_and, and_iff_right_iff_imp]
    exact fun hacc => (shape_of_store hshape hacc.1).1
  | false => simp [writes_of_portQuiet hf hx.port]

/-- The instruction writes nothing up to and including the clock of the trap. -/
theorem Enters.wrote_nothing_iff (hinv : BusInv g s last) (hsafe : DmChecks s i)
    (hr : i.core.sreset = false) (hx : Enters g s x) (hstayed : x.stayed = false)
    (ht : s.takesException g i = true) : x.wrote = false ∧ s.writes g io i = false ↔
      (s.fetchFault = true ∨ s.core.control.state = .wfi → s.AcceptsStore g →
        g.core.fastMem = false ∧ x.stayed = false) ∧
      (s.core.control.state = .wfi → s.core.idEx.csrOp ≠ .nop → x.stayed = false) := by
  obtain ⟨htrig, hint, hexc⟩ := exception_of_takes ht
  have hwrites : s.writes g io i = true ↔ g.core.fastMem = true ∧ s.AcceptsStore g := by
    rw [writes_of_trap hr (indebug_of_executes hx.executes) (by simp [Core.trapRequest, hexc])]
    exact hx.writes_iff (dm_stb_eq_false hinv hsafe hx.executes) htrig hint
  rw [← Bool.not_eq_true, ← Bool.not_eq_true, hwrites]
  simp only [hx.wrote, hstayed, Bool.false_eq_true, not_false_eq_true, true_and, and_true,
    implies_true]
  constructor
  · intro h _ hacc
    exact Bool.eq_false_of_not_eq_true fun hf => h ⟨hf, hacc⟩
  · rintro h ⟨hf, hacc⟩
    rcases hx.state with hs | hs
    · simp [hf] at h
      exact (h (.inl (fetchFault_of_executing hinv hs hx hf ht hacc))) hacc
    · simp [hf, hs] at h
      exact h hacc

theorem Stays.wrote_nothing_iff (hinv : BusInv g s last) (hsafe : DmChecks s i)
    (hr : i.core.sreset = false) (hx : Stays g s x) (hstayed : x.stayed = true)
    (ht : s.takesException g i = true) : x.wrote = false ∧ s.writes g io i = false ↔
      (s.fetchFault = true ∨ s.core.control.state = .wfi → s.AcceptsStore g →
        g.core.fastMem = false ∧ x.stayed = false) ∧
      (s.core.control.state = .wfi → s.core.idEx.csrOp ≠ .nop → x.stayed = false) := by
  obtain ⟨htrig, hint, hexc⟩ := exception_of_takes ht
  have hwrites : s.writes g io i = true ↔
      g.core.fastMem = false ∧ s.core.bus.stb = true ∧ s.AcceptsStore g := by
    rw [writes_of_trap hr (indebug_of_executes hx.executes) (by simp [Core.trapRequest, hexc])]
    exact hx.writes_iff (dm_stb_eq_false hinv hsafe hx.executes)
  have hnothing : x.wrote = false ∧ s.writes g io i = false ↔
      s.core.idEx.csrOp = .nop ∧ ¬ s.AcceptsStore g := by
    rw [← Bool.not_eq_true, ← Bool.not_eq_true, hwrites, hx.wrote]
    cases g.core.fastMem <;> cases s.core.bus.stb <;> simp
  rw [hnothing]
  simp only [hstayed, Bool.true_eq_false, and_false, imp_false]
  rcases hx.state with ⟨hs, hq⟩ | ⟨hs, hcsr, hmem⟩ | hs
  · have hfault := fetchFault_of_waiting hinv hsafe hs hq ht
    simp only [hq.csrOp, hs, reduceCtorEq, or_false, false_imp_iff, and_true, true_and]
    exact ⟨fun h _ => h, fun h hacc => h (hfault hacc) hacc⟩
  · have hno : ¬ s.AcceptsStore g := by
      intro h
      cases hmem.symm.trans h.1
    rcases hs with hs | hs <;> simp [hcsr, hno, hs]
  · simp [hs, and_comm]

theorem after_of_trap (hr : i.core.sreset = false) (hd : s.core.indebug = false)
    (ht : s.takesException g i = true) :
    (s.step g io i).core.idEx.ismem = false ∧ (s.step g io i).core.idEx.rdEn = false ∧
      (s.step g io i).core.idEx.csrOp = .nop ∧
      (g.core.fastMem = false → (s.step g io i).core.bus.strobes = false) := by
  obtain ⟨htrig, -, hexc⟩ := exception_of_takes ht
  have htrap : s.core.trapRequest g.core (s.coreInput g i) = true := by
    simp [Core.trapRequest, hexc]
  have ha : s.core.advance g.core (s.coreInput g i) = .trap :=
    Core.advance_eq_trap_iff.mpr ⟨htrig, htrap⟩
  have hid : (s.step g io i).core.idEx = s.core.idEx.trapped := by
    rw [step_idEx hr, Core.nextIdEx_eq, ha]
  rw [hid]
  refine ⟨rfl, rfl, rfl, fun hf => ?_⟩
  have hacc := Core.nextBus_acc hd hf (.inr (slowDisable_of_trapRequest htrap))
  rw [step_core hr, Core.clock_bus, BusRequest.strobes, hacc]
  simp

theorem trapsWithoutEffect_iff (hinv : BusInv g s last) (hres : ResidentInv g s r)
    (hsafe : DmChecks s i) (hr : i.core.sreset = false) :
    TrapsWithoutEffect g io s i r ↔ FetchSafe g s i r := by
  have hcase {x : Resident} (hx : x ∈ r) (ht : s.takesException g i = true) :
      x.wrote = false ∧ s.writes g io i = false ↔
        (s.fetchFault = true ∨ s.core.control.state = .wfi → s.AcceptsStore g →
          g.core.fastMem = false ∧ x.stayed = false) ∧
        (s.core.control.state = .wfi → s.core.idEx.csrOp ≠ .nop → x.stayed = false) := by
    rcases Bool.eq_false_or_eq_true x.stayed with hstayed | hstayed
    · have hne : s.core.control.state ≠ .debug := by
        rw [takesException, Bool.and_eq_true, decide_eq_true_eq] at ht
        exact state_ne_debug_of_trap hinv ht.1
      exact (hres.stays x hx hstayed hne).wrote_nothing_iff hinv hsafe hr hstayed ht
    · exact (hres.enters x hx hstayed).wrote_nothing_iff hinv hsafe hr hstayed ht
  have hdebug (ht : s.takesException g i = true) : s.core.indebug = false := by
    rw [takesException, Bool.and_eq_true, decide_eq_true_eq] at ht
    simpa [Core.indebug] using state_ne_debug_of_trap hinv ht.1
  constructor
  · intro h
    exact ⟨fun x hx ht => ((hcase hx ht).mp ⟨h.before x hx ht, h.now x hx ht⟩).1,
      fun x hx ht => ((hcase hx ht).mp ⟨h.before x hx ht, h.now x hx ht⟩).2⟩
  · intro h
    exact ⟨fun x hx ht => ((hcase hx ht).mpr ⟨h.store x hx ht, h.csr x hx ht⟩).1,
      fun x hx ht => ((hcase hx ht).mpr ⟨h.store x hx ht, h.csr x hx ht⟩).2,
      fun x _ ht => after_of_trap hr (hdebug ht) ht⟩

/-! ## One clock -/

/-- Nothing is left on the registered interface when an instruction is decoded. -/
theorem enters_of_decode (hinv : BusInv g s last) (hsafe : DmChecks s i)
    (hr : i.core.sreset = false) (ha : s.core.advance g.core (s.coreInput g i) = .decode) :
    Enters g (s.step g io i) ⟨false, false⟩ := by
  have hexec (hs : s.core.control.state = .exec) : s.core.idEx.Ready := by
    cases hinv.stage with
    | executing _ h => exact h
    | resting h => simp [hs, atRest] at h
    | booting h | waiting _ _ h | sleeping h | trapping h | trapped h | halted h | resuming h
    | resuming2 h | resuming3 h => rw [hs] at h; cases h
  have hmret (hs : s.core.control.state = .exec) (hm : s.core.idEx.mretRequest = true) :
      s.core.idEx.aluOp = .mret := by
    cases hexec hs with
    | free h => simp [h.mret] at hm
    | mret _ _ h => exact h
    | access h => simp [(hinv.coherent.mem h.ismem).2.2.1] at hm
  have hshape : ∃ pc instr, IdEx.Shape g.core pc instr (s.step g io i).core.idEx := by
    refine ⟨s.core.ifIdPc, (s.coreInput g i).instr.instr, ?_⟩
    rw [step_idEx hr, Core.nextIdEx_eq, ha]
    exact decode_shape _ _ _ _ _
  rcases Core.stateNext_of_decode_cases (haveOcd_of_busInv hinv) hmret ha with
    hn | ⟨hs, hwfi, hn⟩
  · have hstate : (s.step g io i).core.control.state = .exec := (step_state hr).trans hn
    refine ⟨rfl, .inl hstate, ?_, hshape⟩
    cases (busInv_step hinv hsafe : BusInv g (s.step g io i) _).stage with
    | executing _ _ hport => exact hport
    | resting h => simp [hstate, atRest] at h
    | booting h | waiting _ _ h | sleeping h | trapping h | trapped h | halted h | resuming h
    | resuming2 h | resuming3 h => rw [hstate] at h; cases h
  · refine ⟨rfl, .inr ((step_state hr).trans hn), ?_, hshape⟩
    have hnop : s.core.idEx.memaccess = .nop := by
      cases hexec hs with
      | free h => exact h.memaccess
      | mret h => exact h
      | access h => simp [(hinv.coherent.mem h.ismem).2.1] at hwfi
    exact port_step hr (by simp [Core.indebug, hs]) (.inl hnop)

theorem nextBus_stb (hf : g.core.fastMem = false) (hdm : i.core.dm.stb = false) :
    (s.core.nextBus g.core (s.coreInput g i)).stb = s.core.idEx.ismem := by
  have hdm' : (s.coreInput g i).dm.stb = false := hdm
  simp [Core.nextBus, hf, Core.busAccess, hdm']

/-- The registered interface takes the access of the execute stage. -/
theorem nextBus_of_stall (hf : g.core.fastMem = false) (hc : s.core.idEx.Coherent)
    (hs : executes s.core.control.state = true)
    (ha : s.core.advance g.core (s.coreInput g i) = .stall) (hmem : s.core.idEx.ismem = true) :
    s.core.nextBus g.core (s.coreInput g i) = ⟨true, s.core.idEx.memaccess, s.core.idEx.memsize,
      s.core.operandA + s.core.idEx.imm, s.core.operandB⟩ := by
  obtain ⟨htrig, htrap, -⟩ := Core.advance_eq_stall_iff.mp ha
  have hflush : s.core.flush = false := by
    rw [Core.flush_eq]
    cases h : s.core.control.state <;> simp [h, executes] at hs <;>
      exact Core.penalty_plain (hc.mem hmem).2.2.2
  have hdis : s.core.slowDisable g.core (s.coreInput g i) = false := by
    rw [Core.slowDisable, hflush, htrap, htrig]
    rfl
  rw [Core.nextBus, hf, if_neg Bool.false_ne_true, hdis, busAccess_enabled (indebug_of_executes hs),
    hmem, Bool.true_or]

/-- An instruction that stays, from one clock to the next, in the states of its wait. -/
theorem stays_of_stall (hinv : BusInv g s last) (hsafe : DmChecks s i)
    (hr : i.core.sreset = false) (hs : executes s.core.control.state = true)
    (ha : s.core.advance g.core (s.coreInput g i) = .stall) {y : Resident}
    (hstate : s.core.stateNext g.core (s.coreInput g i) = .mem ∧ s.core.idEx.Quiet ∨
      (s.core.stateNext g.core (s.coreInput g i) = .md ∨
        s.core.stateNext g.core (s.coreInput g i) = .md2) ∧ s.core.idEx.csrOp = .nop ∧
          s.core.idEx.memaccess = .nop ∨ s.core.stateNext g.core (s.coreInput g i) = .wfi)
    (hwrote : y.wrote = true ↔ s.core.idEx.csrOp ≠ .nop ∨
      s.AcceptsStore g ∧ (g.core.fastMem = true ∨ s.core.idEx.ismem = false)) :
    Stays g (s.step g io i) y := by
  have hid : (s.step g io i).core.idEx = s.core.idEx.stalled (s.core.mdReady g.core) := by
    rw [step_idEx hr, Core.nextIdEx_eq, ha]
  have hop : (s.step g io i).core.operandA = s.core.operandA := operandA_of_stall hr ha
  have hdm : i.core.dm.stb = false := dm_stb_eq_false hinv hsafe hs
  have hbus : (s.step g io i).core.bus = s.core.nextBus g.core (s.coreInput g i) := by
    rw [step_core hr, Core.clock_bus]
  refine ⟨by rw [hid]; rfl, ?_, fun hf hstb => ?_, ?_⟩
  · rw [step_state hr, hid]
    exact hstate.imp (fun h => ⟨h.1, h.2.stalled _⟩) id
  · rw [hbus, nextBus_stb hf hdm] at hstb
    rw [hbus, nextBus_of_stall hf hinv.coherent hs ha hstb, hid, hop]
    exact ⟨rfl, rfl, rfl⟩
  · rw [hwrote, acceptsStore_of_stall hr ha, hid, hbus]
    refine or_congr Iff.rfl (and_congr_right fun _ => ?_)
    cases hf : g.core.fastMem with
    | true => simp
    | false => rw [nextBus_stb hf hdm]

theorem Enters.next (hinv : BusInv g s last) (hsafe : DmChecks s i) (hr : i.core.sreset = false)
    (hx : Enters g s x) (ha : s.core.advance g.core (s.coreInput g i) = .stall)
    (hne : s.core.stateNext g.core (s.coreInput g i) ≠ .debug) :
    Stays g (s.step g io i) ⟨true, x.wrote || s.writes g io i⟩ := by
  obtain ⟨pc, instr, hshape⟩ := hx.shape
  obtain ⟨htrig, htrap, -⟩ := Core.advance_eq_stall_iff.mp ha
  have hint : s.core.interrupt (s.coreInput g i) = none := by
    simp only [Core.trapRequest, Bool.or_eq_false_iff] at htrap
    simpa using htrap.1
  refine stays_of_stall hinv hsafe hr hx.executes ha ?_ ?_
  · rcases Core.stall_cases hinv.coherent ha with
      ⟨-, hmem, -, hn⟩ | ⟨-, hmd, hn⟩ | ⟨hs, -⟩ | ⟨hs, -⟩ | ⟨hs, hn⟩
    · exact .inl ⟨hn, hshape.quiet_of_ismem hmem⟩
    · exact .inr (.inl ⟨.inl hn, (hshape.quiet_of_mdStart hmd).csrOp,
        hshape.memaccess_of_mdStart hmd⟩)
    · rcases hx.state with h | h <;> simp [h] at hs
    · rcases hx.state with h | h <;> simp [h] at hs
    · split_ifs at hn with hh
      · exact absurd hn hne
      · exact .inr (.inr hn)
  · simp only [hx.wrote, Bool.false_or]
    rw [writes_of_stall hr (indebug_of_executes hx.executes) ha,
      hx.writes_iff (dm_stb_eq_false hinv hsafe hx.executes) htrig hint, or_comm]
    refine or_congr Iff.rfl ?_
    constructor
    · exact fun h => ⟨h.2, .inl h.1⟩
    · rintro ⟨hacc, hf | hmem⟩
      · exact ⟨hf, hacc⟩
      · simp [(shape_of_store hshape hacc.1).1] at hmem

theorem Stays.next (hinv : BusInv g s last) (hsafe : DmChecks s i) (hr : i.core.sreset = false)
    (hx : Stays g s x) (ha : s.core.advance g.core (s.coreInput g i) = .stall)
    (hne : s.core.stateNext g.core (s.coreInput g i) ≠ .debug) :
    Stays g (s.step g io i) ⟨true, x.wrote || s.writes g io i⟩ := by
  refine stays_of_stall hinv hsafe hr hx.executes ha ?_ ?_
  · rcases Core.stall_cases hinv.coherent ha with
      ⟨-, hmem, -⟩ | ⟨hs, -⟩ | ⟨hs, -, hn⟩ | ⟨hs, hn⟩ | ⟨hs, hn⟩
    · simp [hx.ismem] at hmem
    · rcases hx.state with ⟨h, -⟩ | ⟨h | h, -⟩ | h <;> simp [h] at hs
    · rcases hx.state with h | ⟨h | h, -⟩ | h
      · exact .inl ⟨hn, h.2⟩
      all_goals simp [h] at hs
    · rcases hx.state with ⟨h, -⟩ | h | h
      · simp [h] at hs
      · refine .inr (.inl ⟨?_, h.2⟩)
        rw [hn]
        cases s.core.mdReady g.core <;> simp
      · simp [h] at hs
    · split_ifs at hn with hh
      · exact absurd hn hne
      · exact .inr (.inr hn)
  · rw [Bool.or_eq_true, hx.wrote, writes_of_stall hr (indebug_of_executes hx.executes) ha,
      hx.writes_iff (dm_stb_eq_false hinv hsafe hx.executes), hx.ismem]
    cases g.core.fastMem <;> cases s.core.bus.stb <;> simp <;> tauto

theorem residentInv_step (hinv : BusInv g s last) (hres : ResidentInv g s r)
    (hsafe : DmChecks s i) : ResidentInv g (s.step g io i) (s.nextResident g io i r) := by
  unfold nextResident
  cases hr : i.core.sreset with
  | true => exact ⟨nofun, nofun⟩
  | false =>
    rw [if_neg Bool.false_ne_true]
    cases ha : s.core.advance g.core (s.coreInput g i) with
    | trigger | trap | bubble => exact ⟨nofun, nofun⟩
    | decode =>
      refine ⟨fun x hx _ => ?_, fun x hx h => ?_⟩
      · obtain rfl := Option.mem_some_iff.mp hx
        exact enters_of_decode hinv hsafe hr ha
      · obtain rfl := Option.mem_some_iff.mp hx
        cases h
    | stall =>
      refine ⟨fun x hx h => ?_, fun x hx _ hne => ?_⟩
      · obtain ⟨y, -, rfl⟩ := Option.mem_map.mp hx
        cases h
      · obtain ⟨y, hy, rfl⟩ := Option.mem_map.mp hx
        rw [step_state hr] at hne
        rcases Bool.eq_false_or_eq_true y.stayed with hstayed | hstayed
        · refine (hres.stays y hy hstayed fun hs => ?_).next hinv hsafe hr ha hne
          have htrig := (Core.advance_eq_stall_iff.mp ha).1
          rw [Core.stallOnTrigger_eq, hs, haveOcd_of_busInv hinv hs] at htrig
          cases htrig
        · exact (hres.enters y hy hstayed).next hinv hsafe hr ha hne

theorem busInv_of_attended {le se : Bool}
    {p : (System nRom nBoot nRam × Option Flight) × Option Resident}
    (h : (attended g io nRom nBoot nRam le se).Reachable (fun p i => DmChecks p.1.1 i) p) :
    BusInv g p.1.1 p.1.2 := by
  have htracked : (tracked g io nRom nBoot nRam le se).Reachable (fun p i => DmChecks p.1 i) p.1 :=
    Machine.Reachable.forget (M := tracked g io nRom nBoot nRam le se) (fun _ _ h => h) h
  exact busInv_of_reachable htracked

theorem residentInv_of_reachable {le se : Bool}
    {p : (System nRom nBoot nRam × Option Flight) × Option Resident}
    (h : (attended g io nRom nBoot nRam le se).Reachable (fun p i => DmChecks p.1.1 i) p) :
    ResidentInv g p.1.1 p.2 := by
  induction h with
  | init => exact ⟨nofun, nofun⟩
  | step i hp hsafe ih =>
    exact residentInv_step (busInv_of_attended hp) ih hsafe

end Invariant

/-- In every run in which the Debug Module accesses a halted core only, an instruction for which a
synchronous exception is taken has no effect if and only if it is no store that is on the bus
already, when its fetch or the fetch of a following word failed or the core sleeps, and no CSR
instruction that the core slept on. -/
theorem trapped_instruction_has_no_effect (g : SystemGenerics) (io : Peripherals)
    {nRom nBoot nRam : ℕ} {le se : Bool} {s : System nRom nBoot nRam} {last : Option Flight}
    {r : Option Resident} (h : (attended g io nRom nBoot nRam le se).Reachable
      (fun p i => DmChecks p.1.1 i) ((s, last), r)) {i : SystemInput} (hsafe : DmChecks s i)
    (hr : i.core.sreset = false) : TrapsWithoutEffect g io s i r ↔ FetchSafe g s i r :=
  trapsWithoutEffect_iff (busInv_of_attended h) (residentInv_of_reachable h) hsafe hr

/-- `lui x9, 0x20000; sw x0, 10(x9)`, in the clock in which the store is on the bus. -/
def storingMisaligned : (System 2 2 2 × Option Flight) × Option Resident :=
  (attended bufferedIo .none 2 2 2 false false).run
    ([0, 0x200004b7, 0x0004a523, 0x00000013].map fetched)

theorem storingMisaligned_reachable : (attended bufferedIo .none 2 2 2 false false).Reachable
    (fun p i => DmChecks p.1.1 i) storingMisaligned :=
  Machine.Reachable.init.runFrom_of_meets (by decide +kernel)

theorem misaligned_store_has_no_effect :
    storingMisaligned.1.1.takesException bufferedIo (fetched 0x00000013) = true ∧
      storingMisaligned.2 = some ⟨true, false⟩ ∧ TrapsWithoutEffect bufferedIo .none
        storingMisaligned.1.1 (fetched 0x00000013) storingMisaligned.2 :=
  ⟨by decide +kernel, by decide +kernel,
    (trapped_instruction_has_no_effect bufferedIo .none (s := storingMisaligned.1.1)
      storingMisaligned_reachable (by decide +kernel) rfl).mpr (by decide +kernel)⟩

/-- The same with the unregistered interface. -/
def fastSystem : SystemGenerics where
  core := { Generics.plain with fastMem := true }
  bus := { bufferedIo.bus with bufferIoResponse := false }
  buffer := rfl

/-- `lui x9, 0x20000; jalr x0, 10(x0); sw x0, 8(x9)`: the fetch at the misaligned target delivers
the store. -/
def misalignedStore : (System 2 2 2 × Option Flight) × Option Resident :=
  (attended fastSystem .none 2 2 2 false false).run
    ([0, 0x200004b7, 0x00a00067, 0x0004a423, 0x00000013, 0x0004a423].map fetched)

theorem misalignedStore_reachable : (attended fastSystem .none 2 2 2 false false).Reachable
    (fun p i => DmChecks p.1.1 i) misalignedStore :=
  Machine.Reachable.init.runFrom_of_meets (by decide +kernel)

/-- The store is written in the clock in which its misaligned fetch traps. -/
theorem misaligned_fetch_writes_memory : ¬ ∀ p, (attended fastSystem .none 2 2 2 false
    false).Reachable (fun p i => DmChecks p.1.1 i) p → ∀ i, DmChecks p.1.1 i →
      i.core.sreset = false → TrapsWithoutEffect fastSystem .none p.1.1 i p.2 := by
  intro h
  have hp : TrapsWithoutEffect fastSystem .none misalignedStore.1.1 (fetched 0x00000013)
      misalignedStore.2 := h _ misalignedStore_reachable _ (by decide +kernel) rfl
  have hr : misalignedStore.2 = some ⟨false, false⟩ := by decide +kernel
  have hwrites := hp.now ⟨false, false⟩ hr (by decide +kernel)
  revert hwrites
  decide +kernel

end System

end ThuasRiscv
