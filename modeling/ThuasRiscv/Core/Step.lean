import ThuasRiscv.Core.Control
import ThuasRiscv.Transition

/-!
# One clock of the core

Every clocked process computes its next registers from the same old state and
inputs, so a clock cycle is one record of their results.
-/

namespace ThuasRiscv

/-- Enter debug mode: signal halt and load `dpc` in the next cycle. -/
def Control.halted (c : Control) (cause : BitVec 4) : Control :=
  { c with haltAck := true, step := false, state := .debug, loadDpc := true, dcsrCause := cause }

/-- Leave debug mode and flush the pipeline; `dcsr.cause` is cleared and the PC loaded from
`dpc`. -/
def Control.resumed (c : Control) (isstepping bpmatch : Bool) : Control :=
  { c with
    state := .debugflush, step := isstepping, dcsrCause := 0b1000, loadPc := true
    haltAck := false, resumeAck := false, skipMatch := bpmatch }

/-- The slot after a trigger: its PC stays. -/
def IdEx.triggered (d : IdEx) (instr : DataType) : IdEx :=
  { IdEx.bubble d.pc instr with rd := 0, rs1 := 0, rs2 := 0 }

/-- The slot after a trap request: the instruction is made harmless and the PC is loaded with
MTVEC. The other fields stay. -/
def IdEx.trapped (d : IdEx) : IdEx :=
  { d with
    ismem := false
    aluOp := .nop
    rd := 0
    rdEn := false
    pcOp := .loadMtvec
    csrOp := .nop
    mdStart := false
    ecallRequest := false
    ebreakRequest := false
    wfiRequest := false
    illegalInstructionDecode := false }

/-- The slot in a stall. If the MD unit is ready, load the data in the selected register. -/
def IdEx.stalled (d : IdEx) (mdReady : Bool) : IdEx :=
  { d with
    ismem := false
    mdStart := false
    pcOp := if mdReady then .incr else d.pcOp
    rdEn := d.rdEn || mdReady
    wfiRequest := false }

namespace Core

variable (cfg : Generics) (io : Peripherals) (s : Core) (i : CoreInput)

/-! ## Processor state control -/

/-- What holds for every state of the controller. -/
def idleControl : Control :=
  { s.control with
    loadPc := false, loadDpc := false, resetAck := s.control.resetAck && !i.ackhavereset }

/-- The executing state, can be interrupted. -/
def execControl : Control :=
  let c := { s.idleControl i with resumeAck := true, haltAck := false, step := false }
  if i.haltReq && cfg.haveOcd then c.halted 0b1011
  else if s.bpmatch && !s.control.skipMatch && cfg.haveOcd then c.halted 0b1010
  else if s.idEx.ebreakRequest && s.ebreakm && cfg.haveOcd then c.halted 0b1001
  else if s.isstepping && !s.control.step && cfg.haveOcd then c.halted 0b1100
  else if s.trapRequest cfg i then { c with state := .trap }
  else if s.idEx.wfiRequest then { c with state := .wfi }
  else if s.idEx.mretRequest then { c with state := .mret }
  else if s.penalty then { c with state := .flush }
  else if s.idEx.ismem && !i.bus.ready then { c with state := .mem }
  else if s.idEx.mdStart then { c with state := .md }
  else c

def nextControl : Control :=
  let c := s.idleControl i
  match s.control.state with
  | .boot0 =>
    { c with
      state := .boot1, skipMatch := false, step := false, haltAck := false, resetAck := false
      resumeAck := false, dcsrCause := 0 }
  | .boot1 => { c with state := .exec, resetAck := true }
  | .exec => s.execControl cfg i
  -- A trap here is a load/store error, never an interrupt.
  | .mem =>
    if s.trapRequest cfg i then { c with state := .trap }
    else if i.bus.ready then { c with state := .exec } else c
  | .flush => { c with state := .flush2 }
  | .flush2 => { c with state := .exec }
  | .debugflush => { c with state := .debugflush2 }
  | .debugflush2 => { c with state := .debugflush3 }
  | .debugflush3 => { c with state := .exec }
  | .md => if s.mdReady cfg then { c with state := .md2 } else c
  | .md2 => { c with state := .exec }
  | .trap => { c with state := .trap2 }
  -- Stepping needs an extra state to load the correct PC in `dpc`.
  | .trap2 => if s.isstepping then { c with state := .trap3 } else { c with state := .exec }
  | .trap3 => { c with state := .exec }
  | .mret => { c with state := .mret2 }
  | .mret2 => { c with state := .exec }
  | .wfi =>
    if i.haltReq && cfg.haveOcd then c.halted 0b1011
    else if s.trapRequest cfg i then { c with state := .trap } else c
  | .debug =>
    if i.resumeReq then c.resumed s.isstepping s.bpmatch
    else { c with dcsrCause := 0, haltAck := true }

/-! ## Instruction fetch -/

/-- The PC, when it is neither loaded from `dpc` nor stalled. -/
def pcOpNext : DataType :=
  match s.idEx.pcOp with
  | .hold => s.pc
  | .incr => s.pc + 4
  | .loadoffset => s.idEx.pc + s.idEx.imm
  | .loadoffsetregister => setBit (s.operandA + s.idEx.imm) 0 false
  | .branch => if s.penalty then s.idEx.pc + s.idEx.imm else s.pc + 4
  | .loadMtvec => s.csr.mtvecToPc cfg
  | .loadMepc => s.csr.mepc

def nextPc : DataType :=
  if s.control.loadPc then s.csr.dpc
  else if s.stall i || s.stallOnTrigger cfg i then s.pc
  else s.pcOpNext cfg

/-- The PC at the fetched instruction. -/
def nextIfIdPc : DataType :=
  if s.stall i || s.stallOnTrigger cfg i || s.idEx.pcOp = .hold then s.ifIdPc else s.pc

/-! ## Decode -/

/-- If the pipeline is flushed, the fetched instruction is not executed. -/
def flushDecode : Bool :=
  s.flush || s.control.state = .debugflush || s.control.state = .debugflush2

def nextIdEx : IdEx :=
  if s.stallOnTrigger cfg i then s.idEx.triggered i.instr.instr
  else if s.trapRequest cfg i then s.idEx.trapped
  else if s.stall i then s.idEx.stalled (s.mdReady cfg)
  else if s.flushDecode then IdEx.bubble s.ifIdPc i.instr.instr
  else decode cfg s.ebreakm s.isstepping s.ifIdPc i.instr.instr

def nextInstrMisalignedFf : Bool := s.idEx.pc.extractLsb' 0 2 != 0

/-- Delay the instruction access error until the faulted instruction is in the execute stage. -/
def nextInstrAccessError : BitVec 2 :=
  if s.control.state = .trap then 0
  else s.instrAccessError.extractLsb' 0 1 ++ BitVec.ofBool i.instr.instrAccessError

/-! ## Registers -/

/-- The write port of the register file: by the instruction or by the Debug Module. -/
def regWrite : Option (RegType × DataType) :=
  if !s.indebug && !s.stall i && !s.stallOnTrigger cfg i && s.idEx.rdEn && !s.trapRequest cfg i then
    some (s.idEx.rd, s.result cfg io i)
  else if s.indebug && i.dm.writegpr then some (i.dm.address.extractLsb' 0 5, i.dm.data)
  else none

/-- The operands hold their values. -/
def holdOperands : Bool := s.stallOnTrigger cfg i || s.stall i || s.trapRequest cfg i

/-- The register that the debug read selects. -/
def debugSelect : RegType := if s.indebug then i.dm.address.extractLsb' 0 5 else s.idEx.rd

/-- One clock of an array with a write port. -/
def writeRegs (regs : RegType → DataType) : Option (RegType × DataType) → RegType → DataType
  | some (rd, v) => Function.update regs rd v
  | none => regs

/-- Registers in onboard RAM blocks: a read returns the content before a write in the same clock,
and there is no reset. -/
def ramRegs : RegisterFile :=
  let w := s.regWrite cfg io i
  { regsRs1 := writeRegs s.regs.regsRs1 w
    regsRs2 := writeRegs s.regs.regsRs2 w
    regsDebug := if cfg.haveOcd then writeRegs s.regs.regsDebug w else s.regs.regsDebug
    rs1data := if s.holdOperands cfg i then s.regs.rs1data
      else s.regs.regsRs1 (rs1Field i.instr.instr)
    rs2data := if s.holdOperands cfg i then s.regs.rs2data
      else s.regs.regsRs2 (rs2Field i.instr.instr)
    dataFromGpr := if cfg.haveOcd then s.regs.regsDebug (s.debugSelect i) else 0 }

/-- Registers in flip-flops, in one array; `x0` is hard wired. -/
def flopRegs : RegisterFile :=
  { s.regs with
    regsDebug := Function.update (writeRegs s.regs.regsDebug (s.regWrite cfg io i)) 0 0
    rs1data := if s.holdOperands cfg i then s.regs.rs1data
      else s.regs.regsDebug (rs1Field i.instr.instr)
    rs2data := if s.holdOperands cfg i then s.regs.rs2data
      else s.regs.regsDebug (rs2Field i.instr.instr)
    dataFromGpr := s.regs.regsDebug (s.debugSelect i) }

def nextRegs : RegisterFile :=
  if cfg.haveRegistersInRam then s.ramRegs cfg io i
  else if i.sreset then
    { s.regs with regsDebug := fun _ => 0, rs1data := 0, rs2data := 0, dataFromGpr := 0 }
  else s.flopRegs cfg io i

/-! ## Execute -/

/-- Save a copy of the result for data forwarding. -/
def nextExWb : ExWb :=
  if s.stall i || s.stallOnTrigger cfg i then s.exWb
  else if s.idEx.rdEn && !s.trapRequest cfg i then
    ⟨s.idEx.rd, true, s.result cfg io i, s.idEx.pc⟩
  else { s.exWb with rdEn := s.idEx.rdEn, pc := s.idEx.pc }

def mdGate : MulDiv.Gate := ⟨s.idEx.mdStart, s.trapRequest cfg i, s.stallOnTrigger cfg i⟩

/-- The MD unit reads `operandB` and never the immediate. -/
def nextMd : MulDiv := s.md.next cfg (s.mdGate cfg i) s.idEx.mdOp s.operandA s.operandB

/-! ## Memory interface and CSRs -/

/-- The registered interface; with `FAST_MEM` it does not exist. -/
def nextBus : BusRequest :=
  if cfg.fastMem then s.bus else s.busAccess cfg i (s.slowDisable cfg i)

def nextCsr : CsrReg := s.csr.next cfg (s.csrSignals cfg i)

/-- Lock out further NMIs until a trap release. -/
def nextNmiLockout : Bool :=
  if (s.csrSignals cfg i).entersTrap then s.nmiLockout || i.intrio.getLsbD 31
  else s.nmiLockout && !s.trapRelease

/-! ## The core -/

/-- A clock without reset. -/
def clock : Core where
  control := s.nextControl cfg i
  instrMisalignedFf := s.nextInstrMisalignedFf
  instrAccessError := s.nextInstrAccessError i
  pc := s.nextPc cfg i
  ifIdPc := s.nextIfIdPc cfg i
  idEx := s.nextIdEx cfg i
  regs := s.nextRegs cfg io i
  exWb := s.nextExWb cfg io i
  md := s.nextMd cfg i
  csr := s.nextCsr cfg i
  nmiLockout := s.nextNmiLockout cfg i
  bus := s.nextBus cfg i

section Clock
variable {cfg : Generics} {io : Peripherals} {s : Core} {i : CoreInput}

@[simp] theorem clock_control : (s.clock cfg io i).control = s.nextControl cfg i := rfl
@[simp] theorem clock_pc : (s.clock cfg io i).pc = s.nextPc cfg i := rfl
@[simp] theorem clock_ifIdPc : (s.clock cfg io i).ifIdPc = s.nextIfIdPc cfg i := rfl
@[simp] theorem clock_idEx : (s.clock cfg io i).idEx = s.nextIdEx cfg i := rfl
@[simp] theorem clock_regs : (s.clock cfg io i).regs = s.nextRegs cfg io i := rfl
@[simp] theorem clock_exWb : (s.clock cfg io i).exWb = s.nextExWb cfg io i := rfl
@[simp] theorem clock_md : (s.clock cfg io i).md = s.nextMd cfg i := rfl
@[simp] theorem clock_csr : (s.clock cfg io i).csr = s.nextCsr cfg i := rfl
@[simp] theorem clock_bus : (s.clock cfg io i).bus = s.nextBus cfg i := rfl

end Clock

/-- One clock: a synchronous reset reaches everything but registers in RAM blocks. -/
def step : Core :=
  if i.sreset then { Core.initial cfg with regs := s.nextRegs cfg io i } else s.clock cfg io i

theorem step_reset (h : i.sreset = true) :
    s.step cfg io i = { Core.initial cfg with regs := s.nextRegs cfg io i } := by
  rw [step, if_pos h]

theorem step_clock (h : i.sreset = false) : s.step cfg io i = s.clock cfg io i := by
  rw [step, if_neg (by simp [h])]

/-- The core as a clocked machine; its input port is arbitrary in every clock. -/
def machine : Transition.Machine Core CoreInput := ⟨Core.initial cfg, Core.step cfg io⟩

end Core

end ThuasRiscv
