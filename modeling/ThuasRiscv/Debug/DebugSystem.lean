import ThuasRiscv.Core.Program
import ThuasRiscv.Core.Transitions
import ThuasRiscv.Debug.DebugModule

/-!
# The core with its Debug Module

The Debug Module and the core in one machine. The instructions, the data bus, the
interrupts and the other sources of a system reset remain inputs. A system reset
reaches the core and not the Debug Module.
-/

namespace ThuasRiscv

open Transition

/-- What the Debug Module and the core read in one clock. The lines of `core` that the Debug Module
drives are not read; its `sreset` is a system reset from the watchdog or from a break. -/
structure DebugInput where
  sreset : Bool
  dmi : DmiRequest
  core : CoreInput

structure DebugSystem where
  dm : Dm
  core : Core

namespace DebugSystem

variable (aam : Bool) (cfg : Generics) (io : Peripherals) (s : DebugSystem) (i : DebugInput)

/-- System reset. -/
def sresetSys : Bool := i.sreset || i.core.sreset || s.dm.resetRequest

/-- The input port of the core. -/
def coreInput : CoreInput :=
  { i.core with
    sreset := s.sresetSys i
    dm := s.dm.request
    haltReq := s.dm.haltRequest
    resumeReq := s.dm.resumeRequest
    ackhavereset := s.dm.ackhavereset }

/-- The input port of the Debug Module. -/
def dmInput : DmInput where
  sreset := i.sreset
  dmi := i.dmi
  resetAck := s.core.control.resetAck
  haltAck := s.core.control.haltAck
  resumeAck := s.core.control.resumeAck
  core := s.core.dmResponse cfg io (s.coreInput i)

def step : DebugSystem where
  dm := s.dm.step (s.dmInput cfg io i) aam
  core := s.core.step cfg io (s.coreInput i)

def initial (cfg : Generics) : DebugSystem := ⟨.reset, Core.initial cfg⟩

/-- The core and its Debug Module as a clocked machine. -/
def machine : Machine DebugSystem DebugInput := ⟨initial cfg, step aam cfg io⟩

end DebugSystem

/-! ## Inputs -/

/-- The core fetches the word `instr`, and nothing else happens. -/
def DebugInput.quiet (instr : DataType) : DebugInput where
  sreset := false
  dmi := ⟨0, 0, 0⟩
  core :=
    { sreset := false
      instr := ⟨instr, false⟩
      bus := .silent
      intrio := 0
      mtime := 0
      mtimeh := 0
      dm := .idle
      haltReq := false
      resumeReq := false
      ackhavereset := false
      csrDontCare := 0 }

/-- A DMI write, while the core fetches `addi x0, x0, 0`. -/
def DebugInput.write (addr : BitVec 7) (data : DataType) : DebugInput :=
  { DebugInput.quiet 0x00000013 with dmi := ⟨addr, data, dmiReqWr⟩ }

/-- A clock without a DMI operation, while the core fetches `addi x0, x0, 0`. -/
def DebugInput.wait : DebugInput := .quiet 0x00000013

end ThuasRiscv
