import ThuasRiscv.Debug.HaltedHart
import ThuasRiscv.Debug.RunControl

/-!
# The command Access Register

A command is followed from the DMI write through the Debug Module into the hart.
The Debug Module looks at bit 12 of the register number and the hart at its lowest
5 or 12 bits, so that a number outside of the two ranges reaches a register too.
-/

namespace ThuasRiscv

open Transition

/-! ## Fields of the command -/

/-- What a register number names. -/
inductive RegTarget where
  | csr (a : CsrAddr)
  | gpr (r : RegType)
  deriving DecidableEq

/-- Numbers 0x0000 to 0x0fff are CSRs, 0x1000 to 0x101f are general purpose registers. -/
def regnoTarget (regno : BitVec 16) : Option RegTarget :=
  if regno < 0x1000 then some (.csr (regno.extractLsb' 0 12))
  else if regno < 0x1020 then some (.gpr (regno.extractLsb' 0 5))
  else none

namespace RegCommand

variable (cfg : Generics) (cmd : DataType)

def target : Option RegTarget := regnoTarget (cmd.extractLsb' 0 16)

def write : Bool := cmd.getLsbD 16

/-- The Debug Module performs the command. -/
def performed : Bool := { Dm.reset with command := cmd }.isAccessRegister

/-- The command names no implemented register, or asks for a size, a post-increment or a program
buffer that do not exist. -/
def mustFail : Bool :=
  cmd.extractLsb' 20 3 ≠ 0b010 || cmd.getLsbD 19 || cmd.getLsbD 18 ||
    match target cmd with
    | none => true
    | some (.csr a) => !implementedCsr cfg true a
    | some (.gpr _) => false

/-- The hart raises an exception on the address that it sees. -/
def faults : Bool := !cmd.getLsbD 12 && !implementedCsr cfg true (cmd.extractLsb' 0 12)

/-- A command that must fail is not performed, or it faults and has no data to return. -/
def Confined (data0 : DataType) : Prop :=
  mustFail cfg cmd = true → performed cmd = true →
    faults cfg cmd = true ∧ (write cmd = true ∨ data0 = 0)

instance (data0 : DataType) : Decidable (Confined cfg cmd data0) :=
  inferInstanceAs (Decidable (_ → _))

end RegCommand

namespace DebugSystem

variable (aam : Bool) (cfg : Generics) (io : Peripherals)

/-! ## Changes of the hart -/

/-- The hart after a clock in which the Debug Module drives no line. -/
def undriven (s : DebugSystem) (i : DebugInput) : Core :=
  s.core.step cfg io { s.coreInput i with dm := .idle }

/-- The hart after a clock. -/
def driven (s : DebugSystem) (i : DebugInput) : Core := s.core.step cfg io (s.coreInput i)

/-- The Debug Module changes no register of the hart in this clock. -/
structure Undisturbed (s : DebugSystem) (i : DebugInput) : Prop where
  csr : (s.driven cfg io i).csr = (s.undriven cfg io i).csr
  gpr : ∀ p r, (s.driven cfg io i).regs.copy cfg p r = (s.undriven cfg io i).regs.copy cfg p r

/-- The Debug Module writes the CSR at `a` and nothing else. -/
structure WritesCsr (s : DebugSystem) (i : DebugInput) (a : CsrAddr) (v : DataType) : Prop where
  written : ∃ n, (s.undriven cfg io i).csr = CsrReg.settle cfg n ∧
    (s.driven cfg io i).csr = CsrReg.settle cfg (n.debugWrite a v)
  others : CsrReg.SameExcept a (s.undriven cfg io i).csr (s.driven cfg io i).csr
  gpr : ∀ p r, (s.driven cfg io i).regs.copy cfg p r = (s.undriven cfg io i).regs.copy cfg p r

/-- The Debug Module writes the register `rd`, if it is not `x0`, and nothing else but `x0`. -/
structure WritesGpr (s : DebugSystem) (i : DebugInput) (rd : RegType) (v : DataType) : Prop where
  csr : (s.driven cfg io i).csr = (s.undriven cfg io i).csr
  gpr : ∀ p r, r ≠ 0 → (s.driven cfg io i).regs.copy cfg p r =
    if r = rd then v else (s.undriven cfg io i).regs.copy cfg p r

/-! ## The command -/

/-- The Debug Module is active and idle, it has no error, and the hart is halted. -/
structure AtRest (s : DebugSystem) : Prop where
  halted : s.core.indebug = true
  active : s.dm.dmActive = true
  state : s.dm.state = .idle
  request : s.dm.request = .idle
  cmderr : s.dm.cmderr = 0
  noFault : s.dm.readAccFault = false ∧ s.dm.writeAccFault = false
  noError : s.dm.raises = false
  running : s.dm.resumeReq = false ∧ s.dm.ndmreset = false

/-- The DMI writes the command, and there is no other DMI operation, reset or bus error until the
command is finished. -/
structure Issues (i : ℕ → DebugInput) (cmd : DataType) : Prop where
  command : (i 0).dmi = ⟨addrCommand, cmd, dmiReqWr⟩
  quiet : ∀ n, 0 < n → n < 6 → (i n).dmi.op = 0
  clocked : ∀ n < 6, (i n).sreset = false ∧ (i n).core.sreset = false
  silent : ∀ n < 6, (i n).core.bus.error = false

/-- The state `n` clocks after the DMI write of the command. -/
def after (s : DebugSystem) (i : ℕ → DebugInput) (n : ℕ) : DebugSystem :=
  (machine aam cfg io).trace s i n

/-- A command that changes nothing. -/
structure ChangesNothing (s : DebugSystem) (i : ℕ → DebugInput) : Prop where
  data0 : (after aam cfg io s i 6).dm.data0 = s.dm.data0
  hart : ∀ n, 0 < n → n < 6 → Undisturbed cfg io (after aam cfg io s i n) (i n)

/-- What the command has to do. A CSR is read in the fourth clock after the DMI write, and a
register in the third; both are written in the third. -/
structure AccessesNamed (s : DebugSystem) (i : ℕ → DebugInput) (cmd : DataType) : Prop where
  fails : RegCommand.mustFail cfg cmd = true →
    (after aam cfg io s i 6).dm.cmderr ≠ 0 ∧ ChangesNothing aam cfg io s i
  unperformed : RegCommand.mustFail cfg cmd = false → RegCommand.performed cmd = false →
    ChangesNothing aam cfg io s i
  succeeds : RegCommand.mustFail cfg cmd = false → RegCommand.performed cmd = true →
    (after aam cfg io s i 6).dm.cmderr = 0
  readsCsr : ∀ a, RegCommand.target cmd = some (.csr a) → RegCommand.mustFail cfg cmd = false →
    RegCommand.performed cmd = true → RegCommand.write cmd = false →
    (after aam cfg io s i 6).dm.data0 =
        (after aam cfg io s i 4).core.csr.read cfg io (Core.wires (i 4).core) a ∧
      ∀ n, 0 < n → n < 6 → Undisturbed cfg io (after aam cfg io s i n) (i n)
  readsGpr : ∀ r, RegCommand.target cmd = some (.gpr r) → RegCommand.mustFail cfg cmd = false →
    RegCommand.performed cmd = true → RegCommand.write cmd = false →
    (after aam cfg io s i 6).dm.data0 = (after aam cfg io s i 3).core.regs.copy cfg .debug r ∧
      ∀ n, 0 < n → n < 6 → Undisturbed cfg io (after aam cfg io s i n) (i n)
  writesCsr : ∀ a, RegCommand.target cmd = some (.csr a) → RegCommand.mustFail cfg cmd = false →
    RegCommand.performed cmd = true → RegCommand.write cmd = true →
    (after aam cfg io s i 6).dm.data0 = s.dm.data0 ∧
      WritesCsr cfg io (after aam cfg io s i 3) (i 3) a s.dm.data0 ∧
      ∀ n, 0 < n → n < 6 → n ≠ 3 → Undisturbed cfg io (after aam cfg io s i n) (i n)
  writesGpr : ∀ r, RegCommand.target cmd = some (.gpr r) → RegCommand.mustFail cfg cmd = false →
    RegCommand.performed cmd = true → RegCommand.write cmd = true →
    (after aam cfg io s i 6).dm.data0 = s.dm.data0 ∧
      WritesGpr cfg io (after aam cfg io s i 3) (i 3) r s.dm.data0 ∧
      WritesGpr cfg io (after aam cfg io s i 4) (i 4) 0 0 ∧
      (∀ n, 0 < n → n < 6 → n ≠ 3 → n ≠ 4 → Undisturbed cfg io (after aam cfg io s i n) (i n)) ∧
      ∀ p, (after aam cfg io s i 6).core.regs.copy cfg p 0 = 0

end DebugSystem

/-! ## The Debug Module during the command -/

namespace Dm

variable (aam : Bool) {d : Dm} {i : DmInput} {st : DmState} {q : DmCoreDataRequest}
  {cmd v : DataType}

/-- An active Debug Module with a command, and with no access fault and no request pending. -/
structure Serves (d : Dm) (st : DmState) (q : DmCoreDataRequest) (cmd v : DataType) : Prop where
  active : d.dmActive = true
  state : d.state = st
  request : d.request = q
  command : d.command = cmd
  data0 : d.data0 = v
  noFault : d.readAccFault = false ∧ d.writeAccFault = false
  running : d.resumeReq = false ∧ d.ndmreset = false
  noClear : d.clrerr = false

/-- A clock without reset and without a DMI operation. -/
def Quiet (i : DmInput) : Prop := i.sreset = false ∧ i.dmi.op = 0

theorem Quiet.writes (hi : Quiet i) (addr : BitVec 7) : writes i addr = false := by
  simp [Dm.writes, wren, hi.2, dmiReqWr]

theorem Quiet.reads (hi : Quiet i) (addr : BitVec 7) : reads i addr = false := by
  simp [Dm.reads, rden, hi.2, dmiReqRd]

/-- A quiet clock only moves the state machine. -/
theorem Serves.step (h : d.Serves st q cmd v) (hi : Quiet i) :
    (d.step i aam).Serves (d.execute i aam).state (d.execute i aam).request cmd
      (if d.data0mustread i then i.core.data else v) := by
  rw [step_eq_clock hi.1]
  refine ⟨?_, rfl, rfl, ?_, ?_, ⟨?_, ?_⟩, ⟨?_, ?_⟩, ?_⟩
  · simp [clock, controlBit, hi.writes, h.active]
  · simp [clock, nextCommand, hi.writes, h.command]
  · simp [clock, nextData0, hi.writes, h.data0]
  · simp [clock, nextReadAccFault, hi.reads]
  · simp [clock, nextWriteAccFault, hi.writes]
  · simp [clock, nextResumeReq, controlBit, hi.writes]
  · simp [clock, controlBit, hi.writes, h.running.2]
  · simp [clock, nextClrerr, hi.writes]

/-- A quiet clock in which nothing is reported and the hart raises no error. -/
theorem Serves.cmderr (h : d.Serves st q cmd v) (hi : Quiet i) (hraise : d.raises = false)
    (hbus : i.core.buserr = false) : (d.step i aam).cmderr =
      if d.cmderr = 0 then if i.core.excep then 0b011 else 0 else d.cmderr := by
  simp only [raises, Bool.or_eq_false_iff] at hraise
  rw [step_eq_clock hi.1]
  simp [clock, nextCmderr, hraise, hbus, h.noFault, h.noClear]

/-- The clock of the DMI write. -/
theorem serves_of_write (hr : i.sreset = false) (hi : i.dmi = ⟨addrCommand, cmd, dmiReqWr⟩)
    (ha : d.dmActive = true) (hs : d.state = .idle) (he : d.cmderr = 0) (hn : d.ndmreset = false) :
    (d.step i aam).Serves .check .idle cmd d.data0 := by
  have hw : writes i addrCommand = true := by simp [writes, wren, hi]
  have hno : ∀ addr, addr ≠ addrCommand → writes i addr = false := by
    intro addr hne
    simp [writes, hi, Ne.symm hne]
  have hb : d.busy = false := by simp [busy, hs]
  have hc := hno addrDmcontrol (by decide)
  rw [step_eq_clock hr]
  refine ⟨?_, ?_, ?_, ?_, ?_, ⟨?_, ?_⟩, ⟨?_, ?_⟩, ?_⟩
  · simp [clock, controlBit, hc, ha]
  · exact (execute_state ha).trans (by simp [hs, hw, he])
  · exact (execute_request ha).trans (by simp [hs])
  · simp [clock, nextCommand, hw, hb, he, hi]
  · simp [clock, nextData0, data0mustread, hs, hno addrData0 (by decide)]
  · simp [clock, nextReadAccFault, hb]
  · simp [clock, nextWriteAccFault, hb]
  · simp [clock, nextResumeReq, controlBit, hc]
  · simp [clock, controlBit, hc, hn]
  · simp [clock, nextClrerr, hno addrAbstractcs (by decide)]

/-- The lines of a register command. -/
def registerLines (cmd v : DataType) : DmCoreDataRequest :=
  if cmd.getLsbD 16 then
    { DmCoreDataRequest.idle with
      address := 0x0000#16 ++ cmd.extractLsb' 0 16
      data := v
      writecsr := !cmd.getLsbD 12
      writegpr := cmd.getLsbD 12 }
  else
    { DmCoreDataRequest.idle with
      address := 0x0000#16 ++ cmd.extractLsb' 0 16
      readcsr := !cmd.getLsbD 12
      readgpr := cmd.getLsbD 12 }

theorem registerLines_of_read (hw : cmd.getLsbD 16 = false) : registerLines cmd v =
    { DmCoreDataRequest.idle with
      address := 0x0000#16 ++ cmd.extractLsb' 0 16
      readcsr := !cmd.getLsbD 12
      readgpr := cmd.getLsbD 12 } := by
  rw [registerLines, hw]
  rfl

theorem registerLines_of_write (hw : cmd.getLsbD 16 = true) : registerLines cmd v =
    { DmCoreDataRequest.idle with
      address := 0x0000#16 ++ cmd.extractLsb' 0 16
      data := v
      writecsr := !cmd.getLsbD 12
      writegpr := cmd.getLsbD 12 } := by
  rw [registerLines, hw]
  rfl

theorem registerLines_address (cmd v : DataType) :
    (registerLines cmd v).address.extractLsb' 0 12 = cmd.extractLsb' 0 12 := by
  have haddr : (registerLines cmd v).address = 0x0000#16 ++ cmd.extractLsb' 0 16 := by
    rw [registerLines]
    split_ifs <;> rfl
  rw [haddr]
  ext k hk
  have hlow := BitVec.getLsbD_append (x := 0x0000#16) (y := cmd.extractLsb' 0 16) (i := k)
  simpa [show k < 16 by omega] using hlow

theorem registerLines_gpr :
    (registerLines cmd v).address.extractLsb' 0 5 = cmd.extractLsb' 0 5 := by
  have haddr := registerLines_address cmd v
  ext k hk
  simpa [show k < 12 by omega] using congrArg (·.getLsbD k) haddr

/-- Bit 12 decides whether the hart looks for a CSR. -/
theorem registerLines_fault (cfg : Generics) (cmd v : DataType) :
    (((registerLines cmd v).readcsr || (registerLines cmd v).writecsr) &&
      !implementedCsr cfg true ((registerLines cmd v).address.extractLsb' 0 12)) =
      RegCommand.faults cfg cmd := by
  rw [registerLines_address, RegCommand.faults, registerLines]
  split_ifs <;> simp [DmCoreDataRequest.idle]

theorem Serves.isAccessRegister (h : d.Serves st q cmd v) :
    d.isAccessRegister = RegCommand.performed cmd := by
  simp [Dm.isAccessRegister, RegCommand.performed, h.command]

theorem Serves.not_isAccessMemory (h : d.Serves st q cmd v) (ht : cmd.extractLsb' 24 8 = 0x00) :
    d.isAccessMemory aam = false := by
  simp [isAccessMemory, h.command, ht]

/-- A check of a register command on a halted hart. -/
theorem Serves.check (h : d.Serves .check q cmd v) (hi : Quiet i) (hack : i.haltAck = true)
    (ht : cmd.extractLsb' 24 8 = 0x00) :
    (d.step i aam).Serves (if RegCommand.performed cmd then .preparegprcsr else .error) q cmd v ∧
      (d.step i aam).raises = !RegCommand.performed cmd := by
  have hreg : d.isAccessRegister = RegCommand.performed cmd := h.isAccessRegister
  have hacc : d.accepts aam i = RegCommand.performed cmd := by
    simp [accepts, hack, hreg, h.not_isAccessMemory aam ht]
  have hstep := h.step aam hi
  rw [execute_state h.active, execute_request h.active, h.state, h.request] at hstep
  simp only [hacc, hreg, data0mustread, h.state] at hstep
  refine ⟨?_, ?_⟩
  · cases hp : RegCommand.performed cmd <;> simpa [hp] using hstep
  · rw [step_raises hi.1, execute_raises h.active, h.state, ← hacc]

theorem performed_transfer (h : RegCommand.performed cmd = true) : cmd.getLsbD 17 = true := by
  simp only [RegCommand.performed, Dm.isAccessRegister, Bool.and_eq_true] at h
  exact h.2

theorem Serves.prepare (h : d.Serves .preparegprcsr .idle cmd v) (hi : Quiet i)
    (hp : RegCommand.performed cmd = true) :
    (d.step i aam).Serves (if cmd.getLsbD 16 then .writereg1 else .readreg1) (registerLines cmd v)
        cmd v ∧ (d.step i aam).raises = false := by
  have ht : cmd.getLsbD 17 = true := performed_transfer hp
  have hlines : d.prepareRegister.request = registerLines cmd v := by
    rw [prepareRegister, isWrite, h.command, if_pos ht, h.request, h.data0, registerLines]
    split_ifs <;> rfl
  have hstep := h.step aam hi
  rw [execute_state h.active, execute_request h.active, h.state] at hstep
  simp only [h.command, ht, if_true, isWrite, hlines, data0mustread, h.state] at hstep
  refine ⟨by simpa using hstep, ?_⟩
  rw [step_raises hi.1, execute_raises h.active, h.state]

theorem Serves.readreg1 (h : d.Serves .readreg1 q cmd v) (hi : Quiet i) :
    (d.step i aam).Serves .readreg2 q cmd v ∧ (d.step i aam).raises = false := by
  have hstep := h.step aam hi
  rw [execute_state h.active, execute_request h.active, h.state, h.request] at hstep
  refine ⟨by simpa [data0mustread, h.state] using hstep, ?_⟩
  rw [step_raises hi.1, execute_raises h.active, h.state]

theorem Serves.readreg2 (h : d.Serves .readreg2 q cmd v) (hi : Quiet i) :
    (d.step i aam).Serves .idle q cmd i.core.data ∧ (d.step i aam).raises = false := by
  have hstep := h.step aam hi
  rw [execute_state h.active, execute_request h.active, h.state, h.request] at hstep
  refine ⟨by simpa [data0mustread, h.state] using hstep, ?_⟩
  rw [step_raises hi.1, execute_raises h.active, h.state]

theorem Serves.writereg1 (h : d.Serves .writereg1 q cmd v) (hi : Quiet i) :
    (d.step i aam).Serves .idle { q with writecsr := false, address := 0, data := 0 } cmd v ∧
      (d.step i aam).raises = false := by
  have hstep := h.step aam hi
  rw [execute_state h.active, execute_request h.active, h.state, h.request] at hstep
  refine ⟨by simpa [data0mustread, h.state] using hstep, ?_⟩
  rw [step_raises hi.1, execute_raises h.active, h.state]

theorem Serves.error (h : d.Serves .error q cmd v) (hi : Quiet i) :
    (d.step i aam).Serves .idle q cmd v ∧ (d.step i aam).raises = false := by
  have hstep := h.step aam hi
  rw [execute_state h.active, execute_request h.active, h.state, h.request] at hstep
  refine ⟨by simpa [data0mustread, h.state] using hstep, ?_⟩
  rw [step_raises hi.1, execute_raises h.active, h.state]

theorem Serves.idle (h : d.Serves .idle q cmd v) (hi : Quiet i) :
    (d.step i aam).Serves .idle .idle cmd v ∧ (d.step i aam).raises = false := by
  have hstep := h.step aam hi
  rw [execute_state h.active, execute_request h.active, h.state] at hstep
  refine ⟨by simpa [data0mustread, h.state, hi.writes] using hstep, ?_⟩
  rw [step_raises hi.1, execute_raises h.active, h.state]

theorem running_of_quiet (hi : Quiet i) (hn : d.ndmreset = false) :
    (d.step i aam).resumeReq = false ∧ (d.step i aam).ndmreset = false := by
  rw [step_eq_clock hi.1]
  simp [clock, nextResumeReq, controlBit, hi.writes, hn]

end Dm

end ThuasRiscv
