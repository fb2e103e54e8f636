import ThuasRiscv.ProcessorCommon
import ThuasRiscv.Transition

/-!
# Debug Module

The Debug Module handles the abstract commands Access Register and Access Memory.
Three processes drive its registers: one reads and one writes them for the Debug
Module Interface, and one executes the command and collects its errors.
-/

namespace ThuasRiscv

open Transition

/-! ## Debug Module Interface -/

/-- DMI request. -/
structure DmiRequest where
  addr : BitVec 7
  data : DataType
  op : BitVec 2
  deriving DecidableEq

/-- DMI response. -/
structure DmiResponse where
  data : DataType
  ack : Bool
  deriving DecidableEq

def dmiReqRd : BitVec 2 := 0b01
def dmiReqWr : BitVec 2 := 0b10

/-- Available DMI registers. -/
def addrData0 : BitVec 7 := 0b0000100
def addrData1 : BitVec 7 := 0b0000101
def addrDmcontrol : BitVec 7 := 0b0010000
def addrDmstatus : BitVec 7 := 0b0010001
def addrAbstractcs : BitVec 7 := 0b0010110
def addrCommand : BitVec 7 := 0b0010111
def addrHaltsum0 : BitVec 7 := 0b1000000

/-- DM version. -/
def dmVersion : BitVec 4 := 0b0011

/-- Memory timeout in clock cycles. -/
def dmMemoryTimeout : ℕ := 256

/-! ## Registers -/

/-- States of the DM. -/
inductive DmState where
  | idle | check | preparegprcsr | preparemem | readreg1 | readreg2 | writereg1
  | readmem1 | writemem1 | error
  deriving DecidableEq, Repr

/-- The clocked signals of the Debug Module; `request` and `response` are its output ports. -/
structure Dm where
  dmActive : Bool
  ndmreset : Bool
  haltReq : Bool
  resumeReq : Bool
  resetAck : Bool
  readAccFault : Bool
  writeAccFault : Bool
  illegalState : Bool
  illegalCmd : Bool
  timeout : Bool
  clrerr : Bool
  data0 : DataType
  data1 : DataType
  command : DataType
  cmderr : BitVec 3
  state : DmState
  counter : ℕ
  request : DmCoreDataRequest
  response : DmiResponse
  deriving DecidableEq

/-- What the Debug Module reads in one clock. -/
structure DmInput where
  sreset : Bool
  dmi : DmiRequest
  resetAck : Bool
  haltAck : Bool
  resumeAck : Bool
  core : DmCoreDataResponse
  deriving DecidableEq

def Dm.reset : Dm where
  dmActive := false
  ndmreset := false
  haltReq := false
  resumeReq := false
  resetAck := false
  readAccFault := false
  writeAccFault := false
  illegalState := false
  illegalCmd := false
  timeout := false
  clrerr := false
  data0 := 0
  data1 := 0
  command := 0
  cmderr := 0
  state := .idle
  counter := 0
  request := .idle
  response := ⟨0, false⟩

namespace Dm

variable (d : Dm) (i : DmInput)

def wren : Bool := i.dmi.op = dmiReqWr

def rden : Bool := i.dmi.op = dmiReqRd

/-- A DMI write to the register at `addr`. -/
def writes (addr : BitVec 7) : Bool := wren i && i.dmi.addr = addr

/-- A DMI read of the register at `addr`. -/
def reads (addr : BitVec 7) : Bool := rden i && i.dmi.addr = addr

/-- Busy flag. -/
def busy : Bool := d.state ≠ .idle

/-- `data0` must read data from the bus. -/
def data0mustread : Bool := d.state = .readreg2 || d.state = .readmem1 && i.core.ack

/-- `data1` must increment or not. -/
def data1mustincrement (aampostincrement : Bool) : Bool :=
  aampostincrement && d.command.getLsbD 19 && (d.state = .writemem1 || d.state = .readmem1) &&
    i.core.ack

/-! ## Read process -/

/-- Status of the only hart. -/
def dmstatus : DataType :=
  0#12 ++ BitVec.ofBool i.resetAck ++ BitVec.ofBool i.resetAck ++ BitVec.ofBool i.resumeAck ++
    BitVec.ofBool i.resumeAck ++ 0#2 ++ BitVec.ofBool d.ndmreset ++ BitVec.ofBool d.ndmreset ++
    BitVec.ofBool (!i.haltAck) ++ BitVec.ofBool (!i.haltAck) ++ BitVec.ofBool i.haltAck ++
    BitVec.ofBool i.haltAck ++ 0b1000#4 ++ dmVersion

/-- Error and busy flags; there are two data registers. -/
def abstractcs : DataType :=
  0#19 ++ BitVec.ofBool d.busy ++ 0#1 ++ d.cmderr ++ 0#4 ++ 0b0010#4

def readData : DataType :=
  if reads i addrDmcontrol then 0#30 ++ BitVec.ofBool d.ndmreset ++ BitVec.ofBool d.dmActive
  else if reads i addrDmstatus then d.dmstatus i
  else if reads i addrAbstractcs then d.abstractcs
  else if reads i addrData0 then d.data0
  else if reads i addrData1 then d.data1
  else if reads i addrHaltsum0 then (BitVec.ofBool i.haltAck).setWidth 32
  else 0

/-- Read during abstract command executing. -/
def nextReadAccFault : Bool := d.busy && (reads i addrData0 || reads i addrData1)

/-! ## Write process -/

/-- A bit of a write to `dmcontrol`. -/
def controlBit (n : ℕ) (old : Bool) : Bool :=
  if writes i addrDmcontrol then i.dmi.data.getLsbD n else old

/-- Request resume, unless a halt is requested too; clears itself. -/
def nextResumeReq : Bool := controlBit i 30 false && !i.dmi.data.getLsbD 31

/-- Idle and no errors yet. -/
def nextCommand : DataType :=
  if writes i addrCommand && !d.busy && d.cmderr = 0 then i.dmi.data else d.command

/-- Write during abstract command executing. -/
def nextWriteAccFault : Bool :=
  d.busy && (writes i addrAbstractcs || writes i addrCommand || writes i addrData0 ||
    writes i addrData1)

def nextClrerr : Bool := writes i addrAbstractcs && i.dmi.data.extractLsb' 8 3 = 0b111

def nextData0 : DataType :=
  if d.data0mustread i then i.core.data
  else if writes i addrData0 && !d.busy then i.dmi.data
  else d.data0

/-- The size of the access in bytes. -/
def incrementSize : DataType :=
  if d.command.extractLsb' 20 3 = 0b000 then 1
  else if d.command.extractLsb' 20 3 = 0b001 then 2
  else if d.command.extractLsb' 20 3 = 0b010 then 4
  else 0

def nextData1 (aampostincrement : Bool) : DataType :=
  if d.data1mustincrement i aampostincrement then d.data1 + d.incrementSize
  else if writes i addrData1 && !d.busy then i.dmi.data
  else d.data1

/-! ## State machine -/

/-- Register access: 32 bits, no post-increment, transfer request. -/
def isAccessRegister : Bool :=
  d.command.extractLsb' 24 8 = 0x00 && !d.command.getLsbD 23 &&
    d.command.extractLsb' 20 3 = 0b010 && !d.command.getLsbD 19 && d.command.getLsbD 17

/-- Memory access: 8, 16 or 32 bits. -/
def isAccessMemory (aampostincrement : Bool) : Bool :=
  d.command.extractLsb' 24 8 = 0x02 && !d.command.getLsbD 23 &&
    (d.command.extractLsb' 20 3 = 0b000 || d.command.extractLsb' 20 3 = 0b001 ||
      d.command.extractLsb' 20 3 = 0b010) &&
    (!d.command.getLsbD 19 || aampostincrement) && !d.command.getLsbD 18 && !d.command.getLsbD 17

/-- The command writes. -/
def isWrite : Bool := d.command.getLsbD 16

/-- Check the command and dispatch. -/
def checkCommand (aampostincrement : Bool) : Dm :=
  if d.isAccessRegister then
    if i.haltAck then { d with state := .preparegprcsr }
    else { d with illegalState := true, state := .error }
  else if d.isAccessMemory aampostincrement then
    if i.haltAck then { d with state := .preparemem }
    else { d with illegalState := true, state := .error }
  else { d with illegalCmd := true, state := .error }

/-- Prepare for executing a GPR or CSR command; bit 12 selects the GPRs. -/
def prepareRegister : Dm :=
  if d.command.getLsbD 17 then
    if d.isWrite then
      { d with
        request :=
          { d.request with
            address := 0x0000#16 ++ d.command.extractLsb' 0 16
            data := d.data0
            writecsr := !d.command.getLsbD 12
            writegpr := d.command.getLsbD 12 }
        state := .writereg1 }
    else
      { d with
        request :=
          { d.request with
            address := 0x0000#16 ++ d.command.extractLsb' 0 16
            readcsr := !d.command.getLsbD 12
            readgpr := d.command.getLsbD 12 }
        state := .readreg1 }
  else { d with state := .idle }

/-- Prepare the DM for memory access. -/
def prepareMemory : Dm :=
  { d with
    request :=
      { d.request with
        stb := true
        address := d.data1
        data := d.data0
        size := d.command.extractLsb' 20 2
        writemem := d.isWrite
        readmem := !d.isWrite }
    counter := dmMemoryTimeout - 1
    state := if d.isWrite then .writemem1 else .readmem1 }

/-- Wait for the response of the memory; the timeout overrides it. -/
def awaitMemory : Dm :=
  if 0 < d.counter then
    { d with counter := d.counter - 1, state := if i.core.ack then .idle else d.state }
  else { d with timeout := true, state := .error }

/-- One clock of the state machine. -/
def execute (aampostincrement : Bool) : Dm :=
  let d := { d with illegalState := false, illegalCmd := false, timeout := false }
  if !d.dmActive then { d with state := .idle, counter := 0, request := .idle }
  else match d.state with
    | .idle =>
      { d with
        request := .idle
        state := if writes i addrCommand && d.cmderr = 0 then .check else .idle }
    | .check => d.checkCommand i aampostincrement
    | .preparegprcsr => d.prepareRegister
    | .readreg1 => { d with state := .readreg2 }
    -- In this cycle, data0 is loaded with external data.
    | .readreg2 => { d with state := .idle }
    -- Writes take 1 cycle for a CSR, 2 for a GPR, the second one with zero address and data.
    | .writereg1 =>
      { d with
        request := { d.request with writecsr := false, address := 0, data := 0 }
        state := .idle }
    | .preparemem => d.prepareMemory
    | .readmem1 => { d with request := { d.request with stb := false } }.awaitMemory i
    | .writemem1 =>
      { d with request := { d.request with stb := false, writemem := false } }.awaitMemory i
    | .error => { d with state := .idle }

/-- Command error processing: the first error stays until it is cleared. -/
def nextCmderr : BitVec 3 :=
  if d.cmderr = 0 then
    if d.illegalState then 0b100
    else if d.illegalCmd then 0b010
    else if d.timeout then 0b101
    else if i.core.excep then 0b011
    else if i.core.buserr then 0b101
    else if d.readAccFault || d.writeAccFault then 0b001
    else 0
  else if d.clrerr then 0
  else d.cmderr

/-! ## One clock -/

/-- A clock without reset. -/
def clock (aampostincrement : Bool) : Dm :=
  { d.execute i aampostincrement with
    dmActive := controlBit i 0 d.dmActive
    ndmreset := controlBit i 1 d.ndmreset
    haltReq := controlBit i 31 d.haltReq
    resumeReq := nextResumeReq i
    resetAck := controlBit i 28 d.resetAck
    readAccFault := d.nextReadAccFault i
    writeAccFault := d.nextWriteAccFault i
    clrerr := nextClrerr i
    data0 := d.nextData0 i
    data1 := d.nextData1 i aampostincrement
    command := d.nextCommand i
    cmderr := d.nextCmderr i
    response := ⟨d.readData i, wren i || rden i⟩ }

def step (aampostincrement : Bool) : Dm := if i.sreset then .reset else d.clock i aampostincrement

/-- The Debug Module as a clocked machine. -/
def machine (aampostincrement : Bool) : Machine Dm DmInput :=
  ⟨.reset, fun d i => d.step i aampostincrement⟩

/-! ## Requests to the hart -/

def haltRequest : Bool := d.haltReq && d.dmActive
def resumeRequest : Bool := d.resumeReq && d.dmActive
def resetRequest : Bool := d.ndmreset && d.dmActive
def ackhavereset : Bool := d.resetAck && d.dmActive

end Dm

end ThuasRiscv
