import ThuasRiscv.Debug.DebugModule
import ThuasRiscv.ShiftRegister

/-!
# Debug Transport Module

The debugger reaches the Debug Module over JTAG. The pins are sampled with the
system clock, so that an edge of TCK is found two clocks late. The TAP controller
moves on the rising edges, and an update of the register DMI sends a request to
the Debug Module.
-/

namespace ThuasRiscv

open Transition ShiftRegister

/-- States of the TAP controller. -/
inductive TapState where
  | logicReset | drScan | drCapture | drShift | drExit1 | drPause | drExit2 | drUpdate
  | runIdle | irScan | irCapture | irShift | irExit1 | irPause | irExit2 | irUpdate
  deriving DecidableEq, Repr

/-- The JTAG state machine, on a rising edge of TCK. -/
def TapState.next (tms : Bool) : TapState → TapState
  | .logicReset => if tms = false then .runIdle else .logicReset
  | .runIdle => if tms = false then .runIdle else .drScan
  | .drScan => if tms = false then .drCapture else .irScan
  | .drCapture => if tms = false then .drShift else .drExit1
  | .drShift => if tms = false then .drShift else .drExit1
  | .drExit1 => if tms = false then .drPause else .drUpdate
  | .drPause => if tms = false then .drPause else .drExit2
  | .drExit2 => if tms = false then .drShift else .drUpdate
  | .drUpdate => if tms = false then .runIdle else .drScan
  | .irScan => if tms = false then .irCapture else .logicReset
  | .irCapture => if tms = false then .irShift else .irExit1
  | .irShift => if tms = false then .irShift else .irExit1
  | .irExit1 => if tms = false then .irPause else .irUpdate
  | .irPause => if tms = false then .irPause else .irExit2
  | .irExit2 => if tms = false then .irShift else .irUpdate
  | .irUpdate => if tms = false then .runIdle else .drScan

/-- TAP data registers; every other instruction selects the bypass register. -/
def addrIdcode : BitVec 5 := 0b00001
def addrDtmcs : BitVec 5 := 0b10000
def addrDmi : BitVec 5 := 0b10001

/-- Sizes of the data registers; `dmi` has an address, data and an operation or status. -/
def sizeIdcode : ℕ := 32
def sizeDtmcs : ℕ := 32
def sizeDmi : ℕ := 7 + 32 + 2
def sizeBypass : ℕ := 1

/-- The size of the data register that an instruction selects. -/
def registerSize (ireg : BitVec 5) : ℕ :=
  if ireg = addrIdcode then sizeIdcode
  else if ireg = addrDtmcs then sizeDtmcs
  else if ireg = addrDmi then sizeDmi
  else sizeBypass

/-- Generics of the Debug Transport Module. -/
structure DtmGenerics where
  version : BitVec 4
  partid : BitVec 16
  manid : BitVec 11
  deriving DecidableEq

/-- The identification of this processor. -/
def DtmGenerics.thuas : DtmGenerics := ⟨0b0000, 0xface, 0⟩

/-- The clocked signals of the Debug Transport Module; `tdo` and `dmi` are its output ports. -/
structure Dtm where
  tckFf : BitVec 3
  tdiFf : BitVec 2
  tmsFf : BitVec 2
  state : TapState
  state2 : TapState
  ireg : BitVec 5
  dreg : BitVec 41
  tdo : Bool
  err : Bool
  busy : Bool
  dmi : DmiRequest
  deriving DecidableEq

/-- What the Debug Transport Module reads in one clock. -/
structure DtmInput where
  sreset : Bool
  tck : Bool
  tdi : Bool
  tms : Bool
  response : DmiResponse
  deriving DecidableEq

def Dtm.reset : Dtm where
  tckFf := 0
  tdiFf := 0
  tmsFf := 0
  state := .logicReset
  state2 := .logicReset
  ireg := 0
  dreg := 0
  tdo := false
  err := false
  busy := false
  dmi := ⟨0, 0, 0⟩

namespace Dtm

variable (g : DtmGenerics) (s : Dtm) (i : DtmInput)

/-! ## JTAG input synchronizer -/

def tckRise : Bool := s.tckFf.extractLsb' 1 2 = 0b01

def tckFall : Bool := s.tckFf.extractLsb' 1 2 = 0b10

def tms : Bool := s.tmsFf.getLsbD 1

def tdi : Bool := s.tdiFf.getLsbD 1

/-! ## TAP control -/

def nextState : TapState := if s.tckRise then s.state.next s.tms else s.state

/-- Edge detector of the state `drUpdate`. -/
def update : Bool := s.state = .drUpdate && s.state2 ≠ .drUpdate

/-! ## TAP register access -/

def nextIreg : BitVec 5 :=
  if s.state = .logicReset || s.state = .irCapture then addrIdcode
  else if s.state = .irShift && s.tckRise then shiftIn s.tdi s.ireg
  else s.ireg

/-- What is captured; the data is aligned at the top and filled with zeros. -/
def captured : BitVec 41 :=
  if s.ireg = addrIdcode then
    g.version ++ g.partid ++ g.manid ++ BitVec.ofBool true ++ 0b000000000#9
  else if s.ireg = addrDtmcs then 0x00000071#32 ++ 0b000000000#9
  else if s.ireg = addrDmi then
    s.dmi.addr ++ s.dmi.data ++ BitVec.ofBool s.err ++ BitVec.ofBool s.err
  else 0

def nextDreg : BitVec 41 :=
  if s.state = .drCapture then s.captured g
  else if s.state = .drShift && s.tckRise then shiftIn s.tdi s.dreg
  else s.dreg

/-- The logical lowest bit of the data register. -/
def dregOut : Bool := s.dreg.getLsbD (40 - (registerSize s.ireg - 1))

/-- TDO changes on the falling edge of TCK. -/
def nextTdo : Bool :=
  if s.tckFall then
    if s.state = .irShift then s.ireg.getLsbD 0
    else if s.state = .drShift then s.dregOut
    else s.tdo
  else s.tdo

/-- An update of `dtmcs` with a bit of its word set. -/
def dtmcsBit (n : ℕ) : Bool :=
  s.update && s.ireg = addrDtmcs && s.dreg.getLsbD (40 - (sizeDtmcs - 1) + n)

def dmihardreset : Bool := s.dtmcsBit 17

def dmireset : Bool := s.dtmcsBit 16

/-! ## Debug Module Interface -/

/-- An update of `dmi`. -/
def updatesDmi : Bool := s.update && s.ireg = addrDmi

/-- Sticky error: an access attempt while the interface is busy. -/
def nextErr : Bool :=
  if s.dmireset || s.dmihardreset then false
  else if s.updatesDmi && s.busy then true
  else s.err

/-- The request that a word in the register `dmi` makes. -/
def dmiWord (w : BitVec 41) : DmiRequest where
  addr := w.extractLsb' 34 7
  data := w.extractLsb' 2 32
  op := w.extractLsb' 0 2

/-- Idle: waiting for a new request. Busy: waiting for the end of the access. -/
def nextDmi : DmiRequest :=
  if s.busy = false then
    if s.updatesDmi then dmiWord s.dreg else { s.dmi with op := 0 }
  else if i.response.ack || s.dmihardreset then { s.dmi with op := 0, data := i.response.data }
  else { s.dmi with op := 0 }

def nextBusy : Bool :=
  if s.busy = false then
    if s.updatesDmi then s.dreg.getLsbD 1 || s.dreg.getLsbD 0 else false
  else !(i.response.ack || s.dmihardreset)

/-! ## One clock -/

/-- A clock without reset. -/
def clock : Dtm where
  tckFf := s.tckFf.extractLsb' 0 2 ++ BitVec.ofBool i.tck
  tdiFf := s.tdiFf.extractLsb' 0 1 ++ BitVec.ofBool i.tdi
  tmsFf := s.tmsFf.extractLsb' 0 1 ++ BitVec.ofBool i.tms
  state := s.nextState
  state2 := s.state
  ireg := s.nextIreg
  dreg := s.nextDreg g
  tdo := s.nextTdo
  err := s.nextErr
  busy := s.nextBusy i
  dmi := s.nextDmi i

def step : Dtm := if i.sreset then .reset else s.clock g i

/-- The Debug Transport Module as a clocked machine. -/
def machine : Machine Dtm DtmInput := ⟨.reset, step g⟩

end Dtm

end ThuasRiscv
