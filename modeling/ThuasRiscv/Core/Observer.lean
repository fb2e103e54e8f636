import ThuasRiscv.Core.Program
import ThuasRiscv.Core.Transitions

/-!
# What the core has executed

An observer follows the instructions through the execute stage and keeps what a
machine that executes one instruction at a time would keep: the address of the
next instruction and the registers. It also keeps which instruction started the
operations of the MD unit, whether the instruction in the execute stage had an
effect already, and what the last trap entry saved.
-/

namespace ThuasRiscv

open Transition

/-- An instruction in the execute stage: its number in the order of decoding, and the fields with
which it was decoded. -/
structure Instr where
  seq : ℕ
  decoded : IdEx

/-- It multiplies or divides. -/
def Instr.isMd (x : Instr) : Prop := x.decoded.mdStart = true

/-- It writes a register: the MD unit enables the write of its instructions later. -/
def IdEx.writesRd (d : IdEx) : Bool := (d.rdEn || d.mdStart) && d.rd ≠ 0

theorem IdEx.writesRd_of_zero {d : IdEx} (h : d.rd = 0) : d.writesRd = false := by
  rw [writesRd, h]
  simp

theorem IdEx.writesRd_of_ne_zero {d : IdEx} (h : d.rd ≠ 0) :
    d.writesRd = (d.rdEn || d.mdStart) := by
  rw [writesRd, decide_eq_true h, Bool.and_true]

/-- The address of the next instruction. -/
def IdEx.successor (d : IdEx) (a : DataType) (taken : Bool) (mepc : DataType) : DataType :=
  match d.pcOp with
  | .loadoffset => d.pc + d.imm
  | .loadoffsetregister => setBit (a + d.imm) 0 false
  | .branch => if taken then d.pc + d.imm else d.pc + 4
  | .loadMepc => mepc
  | .incr | .hold | .loadMtvec => d.pc + 4

/-- What a trap entry saves for the MRET of its handler. -/
structure TrapFrame where
  mie : Bool
  mepc : DataType
  deriving DecidableEq

structure Observer where
  /-- The number of the next decoded instruction. -/
  seq : ℕ
  /-- The instruction in the execute stage, if there is one. -/
  slot : Option Instr
  /-- The address of the oldest instruction that is not committed. -/
  npc : DataType
  /-- The registers after the committed instructions. -/
  regs : RegType → DataType
  /-- The instruction in the execute stage accessed the bus or wrote a CSR. -/
  issued : Bool
  /-- The last trap entry, until its MRET or until software changes what it saved. -/
  frame : Option TrapFrame
  /-- The instructions that started the latest multiplication and division. -/
  mulOwner : Option ℕ
  divOwner : Option ℕ

namespace Core

variable (cfg : Generics) (io : Peripherals) (s : Core) (i : CoreInput)

/-! ## Events -/

/-- The access of the execute stage reaches the bus. -/
def accessesBus : Bool :=
  s.idEx.ismem && s.idEx.memaccess ≠ .nop &&
    !(if cfg.fastMem then s.fastDisable cfg i else s.slowDisable cfg i)

def writesCsr : Bool := (s.csrSignals cfg i).writes

/-- The execute stage starts an operation of the MD unit. -/
def startsMd : Bool := s.idEx.mdStart && !s.trapRequest cfg i && !s.stallOnTrigger cfg i

/-- The decode process enables the write of the execute stage because the MD unit is ready. -/
def mdCompletes : Bool := s.advance cfg i = .stall && s.mdReady cfg

/-- Software changes what the last trap entry saved. -/
def clobbersFrame : Bool :=
  (s.writesCsr cfg i || s.indebug && i.dm.writecsr && cfg.haveOcd) &&
    (s.csrAddrV i = mstatusAddr || s.csrAddrV i = mepcAddr)

end Core

namespace RegisterFile

/-- The array that the first operand is read from. -/
def port1 (cfg : Generics) (r : RegisterFile) : RegType → DataType :=
  if cfg.haveRegistersInRam then r.regsRs1 else r.regsDebug

/-- The array that the second operand is read from. -/
def port2 (cfg : Generics) (r : RegisterFile) : RegType → DataType :=
  if cfg.haveRegistersInRam then r.regsRs2 else r.regsDebug

end RegisterFile

namespace Observer

variable (cfg : Generics) (io : Peripherals) (s : Core) (i : CoreInput) (o : Observer)

def initial (cfg : Generics) : Observer where
  seq := 0
  slot := none
  npc := cfg.resetPc
  regs := fun _ => 0
  issued := false
  frame := none
  mulOwner := none
  divOwner := none

/-- The instruction that commits in this clock. -/
def commits : Option Instr := if s.leaves cfg i then o.slot else none

def nextSlot : Option Instr :=
  match s.advance cfg i with
  | .stall => o.slot
  | .decode => some ⟨o.seq, decode cfg s.ebreakm s.isstepping s.ifIdPc i.instr.instr⟩
  | .trigger | .trap | .bubble => none

def nextNpc : DataType :=
  if s.stateNext cfg i = .trap then (s.nextCsr cfg i).mtvecToPc cfg
  else if s.control.loadPc then s.csr.dpc
  else match o.commits cfg s i with
    | some x => x.decoded.successor s.operandA s.penalty s.csr.mepc
    | none => o.npc

/-- The registers are written by the committed instructions and by the Debug Module. -/
def nextRegs : RegType → DataType :=
  if s.indebug then
    if i.dm.writegpr then Function.update o.regs (i.dm.address.extractLsb' 0 5) i.dm.data
    else o.regs
  else match o.commits cfg s i with
    | some x =>
      if x.decoded.writesRd then Function.update o.regs x.decoded.rd (s.result cfg io i)
      else o.regs
    | none => o.regs

def nextIssued : Bool :=
  s.advance cfg i = .stall && (o.issued || s.accessesBus cfg i || s.writesCsr cfg i)

def nextFrame : Option TrapFrame :=
  if s.stateNext cfg i = .trap then some ⟨s.csr.mstatus.getLsbD 3, mepcOf s.idEx.pc⟩
  else if s.trapRelease || s.clobbersFrame cfg i then none
  else o.frame

/-- One clock without reset. -/
def clock : Observer where
  seq := if s.advance cfg i = .decode then o.seq + 1 else o.seq
  slot := o.nextSlot cfg s i
  npc := o.nextNpc cfg s i
  regs := o.nextRegs cfg io s i
  issued := o.nextIssued cfg s i
  frame := o.nextFrame cfg s i
  mulOwner := if s.startsMd cfg i && !s.idEx.mdOp.getLsbD 2 then o.slot.map Instr.seq
    else o.mulOwner
  divOwner := if s.startsMd cfg i && s.idEx.mdOp.getLsbD 2 then o.slot.map Instr.seq
    else o.divOwner

/-- One clock; after a reset the registers hold what the register file holds. -/
def next : Observer :=
  if i.sreset then
    { Observer.initial cfg with regs := (s.nextRegs cfg io i).port1 cfg }
  else o.clock cfg io s i

end Observer

namespace Core

/-- The core with its observer. -/
def observed (cfg : Generics) (io : Peripherals) : Machine (Core × Observer) CoreInput :=
  (machine cfg io).observe (Observer.initial cfg) (fun s i o => o.next cfg io s i)

/-- The observed state after a run of a program from reset. -/
def observeProgram (cfg : Generics) (io : Peripherals) (words : List DataType)
    (xs : List Stimulus) : Core × Observer :=
  (observed cfg io).run (programInputs cfg io words xs)

theorem observeProgram_reachable (cfg : Generics) (io : Peripherals) (words : List DataType)
    (xs : List Stimulus) :
    (observed cfg io).Reachable Machine.free (observeProgram cfg io words xs) :=
  Machine.reachable_run _

end Core

end ThuasRiscv
