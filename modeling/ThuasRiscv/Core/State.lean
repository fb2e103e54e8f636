import ThuasRiscv.ProcessorCommon

/-!
# Registers and inputs of the core

The generics of `core.vhd`, its clocked signals grouped by the process that
drives them, and the input port sampled in one clock cycle.
-/

namespace ThuasRiscv

/-- The generics of the core that change its behaviour. -/
structure Generics where
  systemFrequency : DataType
  hwVersion : DataType
  haveOcd : Bool
  haveBootloaderRom : Bool
  ocdCsrCheckDisable : Bool
  haveRiscvE : Bool
  haveMuldiv : Bool
  fastDivide : Bool
  haveZba : Bool
  haveZbb : Bool
  haveZbs : Bool
  haveZicond : Bool
  haveZimop : Bool
  haveZbkb : Bool
  haveZihpm : Bool
  vectoredMtvec : Bool
  haveRegistersInRam : Bool
  romHighNibble : MemoryHighNibble
  bootHighNibble : MemoryHighNibble
  bufferIoResponse : Bool
  fastMem : Bool

/-- 16 for E, 32 for I. -/
def Generics.numberOfRegisters (cfg : Generics) : ℕ := if cfg.haveRiscvE then 16 else 32

/-- Behavior of the Program Counter. -/
inductive PcOp where
  | incr | hold | loadoffset | loadoffsetregister | branch | loadMepc | loadMtvec
  deriving DecidableEq, Repr

/-- States of the controller. -/
inductive StateType where
  | boot0 | boot1 | exec | mem | flush | flush2 | md | md2
  | trap | trap2 | trap3 | mret | mret2 | wfi
  | debug | debugflush | debugflush2 | debugflush3
  deriving DecidableEq, Repr

/-- What the processor state control process registers. -/
structure Control where
  state : StateType
  step : Bool
  haltAck : Bool
  resetAck : Bool
  resumeAck : Bool
  loadPc : Bool
  loadDpc : Bool
  skipMatch : Bool
  dcsrCause : BitVec 4
  deriving DecidableEq

/-- What the decode process registers for the execute stage: `id_ex`, and the requests in
`control` that travel with the instruction. -/
structure IdEx where
  aluOp : AluOp
  rd : RegType
  rdEn : Bool
  rs1 : RegType
  rs2 : RegType
  imm : DataType
  isimm : Bool
  isunsigned : Bool
  ismem : Bool
  mdOp : BitVec 3
  mdStart : Bool
  memaccess : MemAccess
  memsize : MemSize
  pcOp : PcOp
  pc : DataType
  csrOp : CsrOp
  csrAddr : BitVec 12
  csrImmrs1 : BitVec 5
  ecallRequest : Bool
  ebreakRequest : Bool
  mretRequest : Bool
  wfiRequest : Bool
  illegalInstructionDecode : Bool
  deriving DecidableEq

/-- The register file processes: the arrays, and the operands and the debug read that they
clock out of them. -/
structure RegisterFile where
  regsRs1 : RegType → DataType
  regsRs2 : RegType → DataType
  regsDebug : RegType → DataType
  rs1data : DataType
  rs2data : DataType
  dataFromGpr : DataType

/-- EX/WB, the latest result kept for forwarding. -/
structure ExWb where
  rd : RegType
  rdEn : Bool
  rddata : DataType
  pc : DataType
  deriving DecidableEq

/-- Registers of the multiplier and of the divider. `count` and `divRunning` are the variables of
the divider process; `divisor` belongs to the radix-2 unit and `divisor1` to `divisor3` to the
radix-4 unit. -/
structure MulDiv where
  rdataA : BitVec 33
  rdataB : BitVec 33
  mulRdInt : BitVec 66
  mulRunning : Bool
  buf : BitVec 64
  divisor : BitVec 32
  divisor1 : BitVec 34
  divisor2 : BitVec 34
  divisor3 : BitVec 34
  outsign : Bool
  divReady : Bool
  divRunning : Bool
  count : ℕ
  deriving DecidableEq

/-- The writable control and status registers. The performance counters 3 to 9 and their event
selectors are indexed by their number less 3. -/
structure CsrReg where
  mstatus : DataType
  mie : DataType
  mtvec : DataType
  mcountinhibit : DataType
  mscratch : DataType
  mepc : DataType
  mcause : DataType
  mtval : DataType
  mcycle : DataType
  mcycleh : DataType
  minstret : DataType
  minstreth : DataType
  mhpmcounter : Fin 7 → DataType
  mhpmcounterh : Fin 7 → DataType
  mhpmevent : Fin 7 → DataType
  dcsr : DataType
  dpc : DataType
  tselect : DataType
  tdata1 : DataType
  tdata2 : DataType

/-- All clocked signals of the core. `bus` is the registered memory interface that the core has
without `FAST_MEM`; its address is `csr_transfer.address_to_mtval`. -/
structure Core where
  control : Control
  instrMisalignedFf : Bool
  instrAccessError : BitVec 2
  pc : DataType
  ifIdPc : DataType
  idEx : IdEx
  regs : RegisterFile
  exWb : ExWb
  md : MulDiv
  csr : CsrReg
  nmiLockout : Bool
  bus : BusRequest

/-- The input port of the core in one clock cycle. `csrDontCare` stands for the bits that the CSR
process leaves at `'-'`. -/
structure CoreInput where
  sreset : Bool
  instr : InstrResponse
  bus : BusResponse
  intrio : DataType
  mtime : DataType
  mtimeh : DataType
  dm : DmCoreDataRequest
  haltReq : Bool
  resumeReq : Bool
  ackhavereset : Bool
  csrDontCare : DataType

/-! ## Reset values -/

def Control.reset : Control where
  state := .boot0
  step := false
  haltAck := false
  resetAck := false
  resumeAck := false
  loadPc := false
  loadDpc := false
  skipMatch := false
  dcsrCause := 0

def IdEx.reset : IdEx where
  aluOp := .unknown
  rd := 0
  rdEn := true
  rs1 := 0
  rs2 := 0
  imm := 0
  isimm := false
  isunsigned := false
  ismem := false
  mdOp := 0
  mdStart := false
  memaccess := .nop
  memsize := .unknown
  pcOp := .incr
  pc := 0
  csrOp := .nop
  csrAddr := 0
  csrImmrs1 := 0
  ecallRequest := false
  ebreakRequest := false
  mretRequest := false
  wfiRequest := false
  illegalInstructionDecode := false

def ExWb.reset : ExWb := ⟨0, false, 0, 0⟩

def MulDiv.reset : MulDiv where
  rdataA := 0
  rdataB := 0
  mulRdInt := 0
  mulRunning := false
  buf := 0
  divisor := 0
  divisor1 := 0
  divisor2 := 0
  divisor3 := 0
  outsign := false
  divReady := false
  divRunning := false
  count := 0

def CsrReg.reset : CsrReg where
  mstatus := 0
  mie := 0
  mtvec := 0
  mcountinhibit := 0
  mscratch := 0
  mepc := 0
  mcause := 0
  mtval := 0
  mcycle := 0
  mcycleh := 0
  minstret := 0
  minstreth := 0
  mhpmcounter := fun _ => 0
  mhpmcounterh := fun _ => 0
  mhpmevent := fun _ => 0
  dcsr := 0
  dpc := 0
  tselect := 0
  tdata1 := 0
  tdata2 := 0

def BusRequest.reset : BusRequest := ⟨false, .nop, .unknown, 0, 0⟩

/-- The first instruction address: the boot ROM when there is one, else the ROM. -/
def Generics.resetPc (cfg : Generics) : DataType :=
  (if cfg.haveBootloaderRom then cfg.bootHighNibble else cfg.romHighNibble) ++ 0#28

/-- All registers hold null-bits after reconfiguration. -/
def RegisterFile.initial : RegisterFile where
  regsRs1 := fun _ => 0
  regsRs2 := fun _ => 0
  regsDebug := fun _ => 0
  rs1data := 0
  rs2data := 0
  dataFromGpr := 0

/-- The core after reconfiguration and the first reset. -/
def Core.initial (cfg : Generics) : Core where
  control := .reset
  instrMisalignedFf := false
  instrAccessError := 0
  pc := cfg.resetPc
  ifIdPc := 0
  idEx := .reset
  regs := .initial
  exWb := .reset
  md := .reset
  csr := .reset
  nmiLockout := false
  bus := .reset

end ThuasRiscv
