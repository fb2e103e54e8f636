import ThuasRiscv.Core.Alu
import ThuasRiscv.Core.Csr
import ThuasRiscv.Core.Decode
import ThuasRiscv.Core.MulDiv

/-!
# Control signals

The combinational signals of the core: functions of the clocked signals and of
the input port in one clock cycle. The local interrupt controller decides
whether a trap is requested and for which cause.
-/

namespace ThuasRiscv

namespace Core

variable (cfg : Generics) (io : Peripherals) (s : Core) (i : CoreInput)

/-! ## Operands -/

/-- RS1 must be forwarded. -/
def forwarda : Bool := s.exWb.rdEn && s.exWb.rd == s.idEx.rs1

/-- RS2 must be forwarded. -/
def forwardb : Bool := s.exWb.rdEn && s.exWb.rd == s.idEx.rs2

def operandA : DataType := if s.forwarda then s.exWb.rddata else s.regs.rs1data

def operandB : DataType := if s.forwardb then s.exWb.rddata else s.regs.rs2data

/-- The second operand of the ALU. -/
def aluOperandB : DataType := if s.idEx.isimm then s.idEx.imm else s.operandB

/-! ## State of the controller -/

/-- Jump or branch request. -/
def penalty : Bool := aluPenalty s.idEx.aluOp s.idEx.isunsigned s.operandA s.aluOperandB

/-- Hardware breakpoint match. -/
def bpmatch : Bool :=
  s.idEx.pc == s.csr.tdata2 && s.csr.tdata1.getLsbD 6 && s.csr.tdata1.getLsbD 2 &&
    s.csr.tdata1.extractLsb' 12 4 == 0b0001 && s.csr.tdata1.extractLsb' 7 4 == 0b0000

def isstepping : Bool := s.csr.dcsr.getLsbD 2

/-- `dcsr.ebreakm`: EBREAK enters debug mode. -/
def ebreakm : Bool := s.csr.dcsr.getLsbD 15

def indebug : Bool := s.control.state = .debug

/-- May the core be interrupted (only for interrupts, not exceptions)? -/
def mayInterrupt : Bool := s.control.state = .exec || s.control.state = .wfi

/-- One-shot: the PC is incremented by 4, so all pipeline PCs after a misaligned one are misaligned
too. -/
def instructionMisaligned : Bool :=
  s.idEx.pc.extractLsb' 0 2 != 0 && !s.instrMisalignedFf

/-- The MD unit signals that an operation is ready. -/
def mdReady : Bool := s.md.ready cfg

def stall : Bool :=
  s.control.state = .exec && s.idEx.ismem && !i.bus.ready || s.control.state = .md ||
    s.control.state = .wfi || s.control.state = .mem && !i.bus.ready ||
    s.control.state = .exec && s.idEx.mdStart

/-- A trigger: halt request, breakpoint (hardware or software) or step. -/
def stallOnTrigger : Bool :=
  s.control.state = .exec && i.haltReq && cfg.haveOcd ||
    s.control.state = .exec && s.bpmatch && !s.control.skipMatch && cfg.haveOcd ||
    s.control.state = .exec && s.idEx.ebreakRequest && s.ebreakm && cfg.haveOcd ||
    s.control.state = .debug && cfg.haveOcd ||
    s.control.state = .exec && s.isstepping && !s.control.step && cfg.haveOcd

/-- Flush when jumping/branching or servicing interrupts. -/
def flush : Bool :=
  s.penalty || s.control.state = .flush || s.control.state = .debugflush ||
    s.control.state = .trap || s.control.state = .trap2 || s.control.state = .mret ||
    s.control.state = .boot0

/-! ## Access to the CSRs -/

/-- Address of the accessed CSR. -/
def csrAddrV : CsrAddr := if s.indebug then i.dm.address.extractLsb' 0 12 else s.idEx.csrAddr

/-- Check for correct access. -/
def illegalInstructionCsr : Bool :=
  if !s.indebug && s.idEx.csrOp = .nop then false
  else if !s.indebug && s.idEx.csrAddr.extractLsb' 10 2 == 0b11 &&
      (s.idEx.csrOp = .rw || s.idEx.csrOp = .rwi || s.idEx.csrImmrs1 != 0) then true
  else if s.indebug && (!i.dm.writecsr && !i.dm.readcsr || cfg.ocdCsrCheckDisable) then false
  else !implementedCsr cfg s.indebug (s.csrAddrV i)

/-! ## Local interrupt controller -/

/-- Interrupts can be served: the core can be interrupted and is not stepping. -/
def interruptible : Bool := s.mayInterrupt && !s.isstepping

/-- Local hardware interrupts, highest number first. -/
def localInterrupt : Option ℕ :=
  [30, 29, 28, 27, 26, 25, 24, 23, 22, 21, 20, 19, 18, 17, 16].find? fun n =>
    i.intrio.getLsbD n && s.csr.mstatus.getLsbD 3 && s.interruptible

/-- The interrupt that is served. The NMI cannot be blocked, except by stepping. -/
def interrupt : Option ℕ :=
  if i.intrio.getLsbD 31 && s.mayInterrupt && !s.nmiLockout && !s.isstepping then some 31
  else if let some n := s.localInterrupt i then some n
  else if i.intrio.getLsbD 3 && s.csr.mstatus.getLsbD 3 && s.csr.mie.getLsbD 3 &&
      s.interruptible then some 3
  else if i.intrio.getLsbD 7 && s.csr.mstatus.getLsbD 3 && s.csr.mie.getLsbD 7 &&
      s.interruptible then some 7
  else none

/-- The exception that is served. Exceptions can always start a trap. -/
def exception : Option ℕ :=
  if s.instrAccessError.getLsbD 1 then some 1
  else if s.idEx.illegalInstructionDecode || s.illegalInstructionCsr cfg i then some 2
  else if s.instructionMisaligned then some 0
  else if s.idEx.ecallRequest then some 11
  else if s.idEx.ebreakRequest && !s.ebreakm then some 3
  else if i.bus.loadAccessError then some 5
  else if i.bus.storeAccessError then some 7
  else if i.bus.loadMisalignedError then some 4
  else if i.bus.storeMisalignedError then some 6
  else none

def trapRequest : Bool := (s.interrupt i).isSome || (s.exception cfg i).isSome

def trapMcause : DataType :=
  match s.interrupt i with
  | some n => 0x80000000 ||| BitVec.ofNat 32 n
  | none => match s.exception cfg i with
    | some n => BitVec.ofNat 32 n
    | none => 0

/-- Signal interrupt release. -/
def trapRelease : Bool := s.control.state = .mret2

/-! ## Results -/

def wires : CsrWires := ⟨i.intrio, i.mtime, i.mtimeh⟩

def csrData : DataType := s.csr.read cfg io (wires i) (s.csrAddrV i)

/-- Without an MD unit its outputs are zero. -/
def aluSources : AluSources where
  pc := s.idEx.pc
  busData := i.bus.data
  csrData := s.csrData cfg io i
  mul := if cfg.haveMuldiv then s.md.mul s.idEx.mdOp else 0
  div := if cfg.haveMuldiv then s.md.div s.idEx.mdOp else 0

/-- The result of the execute stage. -/
def result : DataType :=
  aluResult cfg s.idEx.aluOp s.idEx.isunsigned (s.aluSources cfg io i) s.operandA s.aluOperandB

/-- Instructions retired -- not exact. -/
def instret : Bool :=
  s.control.state = .exec && !s.trapRequest cfg i && !s.idEx.ismem && !s.idEx.mdStart &&
      !s.penalty && !s.idEx.mretRequest && !i.haltReq && !s.bpmatch && !s.idEx.ebreakRequest &&
      !s.stallOnTrigger cfg i ||
    s.control.state = .mem && i.bus.ready || s.control.state = .md2 ||
    s.control.state = .flush2 || s.control.state = .mret2

/-- The events that `mhpmevent` bits 0 to 6 select. -/
def eventSources : List Bool :=
  [s.penalty, s.stall i, s.idEx.memaccess = .write && i.bus.ready,
    s.idEx.memaccess = .read && i.bus.ready, s.idEx.ecallRequest, s.idEx.ebreakRequest,
    s.mdReady cfg]

def event (k : Fin 7) : Bool :=
  cfg.haveZihpm && (s.eventSources cfg i).zipIdx.any fun (e, j) => (s.csr.mhpmevent k).getLsbD j && e

/-! ## Memory interface -/

/-- Address of a data access, which is also recorded for `mtval`. -/
def addressV : DataType := if s.indebug then i.dm.address else s.operandA + s.idEx.imm

/-- Size of an access of the Debug Module. -/
def dmMemSize (dm : DmCoreDataRequest) : MemSize :=
  if !(dm.readmem || dm.writemem) then .unknown
  else if dm.size = 0b00 then .byte
  else if dm.size = 0b01 then .halfword
  else if dm.size = 0b10 then .word
  else .unknown

def dmMemAccess (dm : DmCoreDataRequest) : MemAccess :=
  if dm.readmem then .read else if dm.writemem then .write else .nop

/-- The access of this cycle, from the execute stage or from the Debug Module. `disable` is the
condition under which the bus is disabled. -/
def busAccess (disable : Bool) : BusRequest where
  stb := s.idEx.ismem || i.dm.stb && cfg.haveOcd
  acc :=
    if s.indebug && cfg.haveOcd then dmMemAccess i.dm
    else if disable then .nop else s.idEx.memaccess
  size :=
    if s.indebug && cfg.haveOcd then dmMemSize i.dm
    else if disable then .unknown else s.idEx.memsize
  addr := s.addressV i
  data := if s.indebug then i.dm.data else s.operandB

/-- The registered interface is also disabled on an exception. -/
def slowDisable : Bool := s.flush || s.trapRequest cfg i || s.stallOnTrigger cfg i

/-- The unregistered interface checks for an interrupt only, otherwise there would be combinational
loops. -/
def fastDisable : Bool := s.flush || (s.interrupt i).isSome || s.stallOnTrigger cfg i

/-- The access on the data bus. -/
def busRequest : BusRequest :=
  if cfg.fastMem then s.busAccess cfg i (s.fastDisable cfg i) else s.bus

/-- The address that a trap entry saves in `mtval`. -/
def addressToMtval : DataType := if cfg.fastMem then s.addressV i else s.bus.addr

/-- The request for the instruction fetch. -/
def instrRequest : InstrRequest := ⟨s.pc, s.stall i || s.stallOnTrigger cfg i⟩

/-- The response to the Debug Module. -/
def dmResponse : DmCoreDataResponse where
  data :=
    if i.dm.readcsr then s.csrData cfg io i
    else if i.dm.readgpr then s.regs.dataFromGpr
    else if i.dm.readmem then i.bus.data
    else 0
  ack := i.bus.ready || s.indebug && i.bus.error
  buserr := s.indebug && i.bus.error
  excep := s.indebug && (s.illegalInstructionCsr cfg i || s.idEx.illegalInstructionDecode)

/-- What the CSR process reads in this cycle. -/
def csrSignals : CsrSignals where
  op := s.idEx.csrOp
  addr := s.csrAddrV i
  dataout := s.operandA
  immrs1 := s.idEx.csrImmrs1
  dontCare := i.csrDontCare
  instret := s.instret cfg i
  event := s.event cfg i
  trapRequest := s.trapRequest cfg i
  trapRelease := s.trapRelease
  stallOnTrigger := s.stallOnTrigger cfg i
  indebug := s.indebug
  dcsrCause := s.control.dcsrCause
  loadDpc := s.control.loadDpc
  writecsr := i.dm.writecsr
  debugData := i.dm.data
  trap := ⟨s.trapMcause cfg i, s.idEx.pc, s.addressToMtval cfg i⟩

/-! ## Exceptions -/

/-- None of the sources of an exception is there. -/
structure NoException : Prop where
  fetch : s.instrAccessError.getLsbD 1 = false
  illegal : s.idEx.illegalInstructionDecode = false
  csr : s.illegalInstructionCsr cfg i = false
  misaligned : s.instructionMisaligned = false
  ecall : s.idEx.ecallRequest = false
  ebreak : (s.idEx.ebreakRequest && !s.ebreakm) = false
  bus : i.bus.error = false

variable {cfg s i}

theorem ite_some_eq_none {α : Type*} {c : Prop} [Decidable c] {x : α} {rest : Option α} :
    (if c then some x else rest) = none ↔ ¬ c ∧ rest = none := by
  by_cases h : c <;> simp [h]

theorem ite_some_eq_some {α : Type*} {c : Prop} [Decidable c] {x y : α} {rest : Option α}
    (h : (if c then some x else rest) = some y) : x = y ∧ c ∨ rest = some y := by
  by_cases hc : c
  · rw [if_pos hc] at h
    exact .inl ⟨Option.some_injective _ h, hc⟩
  · rw [if_neg hc] at h
    exact .inr h

/-- An exception with the cause of a fault on the data bus comes with an error of the bus. -/
theorem cause_of_exception {cause : ℕ} (h : s.exception cfg i = some cause) :
    cause ∈ [0, 1, 2, 3, 11] ∨ cause ∈ [4, 5, 6, 7] ∧ i.bus.error = true := by
  rw [exception] at h
  rcases ite_some_eq_some h with ⟨rfl, -⟩ | h
  · exact .inl (by decide)
  rcases ite_some_eq_some h with ⟨rfl, -⟩ | h
  · exact .inl (by decide)
  rcases ite_some_eq_some h with ⟨rfl, -⟩ | h
  · exact .inl (by decide)
  rcases ite_some_eq_some h with ⟨rfl, -⟩ | h
  · exact .inl (by decide)
  rcases ite_some_eq_some h with ⟨rfl, -⟩ | h
  · exact .inl (by decide)
  refine .inr ?_
  rw [BusResponse.error]
  rcases ite_some_eq_some h with ⟨rfl, h5⟩ | h
  · exact ⟨by decide, by simp [h5]⟩
  rcases ite_some_eq_some h with ⟨rfl, h7⟩ | h
  · exact ⟨by decide, by simp [h7]⟩
  rcases ite_some_eq_some h with ⟨rfl, h4⟩ | h
  · exact ⟨by decide, by simp [h4]⟩
  rcases ite_some_eq_some h with ⟨rfl, h6⟩ | h
  · exact ⟨by decide, by simp [h6]⟩
  · cases h

theorem exception_eq_none_iff : s.exception cfg i = none ↔ s.NoException cfg i := by
  simp only [exception, ite_some_eq_none, Bool.not_eq_true, Bool.or_eq_false_iff, and_true]
  constructor
  · rintro ⟨hfetch, ⟨hillegal, hcsr⟩, hmisaligned, hecall, hebreak, h5, h7, h4, h6⟩
    exact ⟨hfetch, hillegal, hcsr, hmisaligned, hecall, hebreak,
      by simp [BusResponse.error, h5, h7, h4, h6]⟩
  · intro h
    have hbus := h.bus
    simp only [BusResponse.error, Bool.or_eq_false_iff] at hbus
    obtain ⟨⟨⟨h5, h7⟩, h4⟩, h6⟩ := hbus
    exact ⟨h.fetch, ⟨h.illegal, h.csr⟩, h.misaligned, h.ecall, h.ebreak, h5, h7, h4, h6⟩

theorem noException_of_trapRequest (h : s.trapRequest cfg i = false) : s.NoException cfg i := by
  simp only [trapRequest, Bool.or_eq_false_iff, Option.isSome_eq_false_iff] at h
  exact exception_eq_none_iff.mp (Option.isNone_iff_eq_none.mp h.2)

end Core

end ThuasRiscv
