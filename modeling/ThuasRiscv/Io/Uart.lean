import ThuasRiscv.Bus.IoBusSwitch

/-!
# Universal asynchronous receiver and transmitter

UART with 7, 8 or 9 data bits, odd, even or no parity and one or two stop bits.
A transmission is started by a write to the data register; the receiver samples
the line in the middle of a bit. The registers of both sides, the status flags
and the bus are clocked together, and where several of them write a signal in
one clock the last one in the order bus, transmitter, receiver wins.
-/

namespace ThuasRiscv

inductive UartTxState where
  | txIdle | txIter | txReady
  deriving DecidableEq, Repr

inductive UartRxState where
  | rxIdle | rxWait | rxIter | rxParity | rxBreak | rxReady | rxFail
  deriving DecidableEq, Repr

structure UartGenerics where
  breakResets : Bool
  simple : Bool

/-- The fields of the control register. -/
structure UartControl where
  en : Bool
  size : BitVec 2
  rcie : Bool
  tcie : Bool
  brie : Bool
  paron : Bool
  parnevenodd : Bool
  sp2 : Bool
  deriving DecidableEq

/-- The fields of the status register. -/
structure UartStatus where
  fe : Bool
  rf : Bool
  pe : Bool
  rc : Bool
  tc : Bool
  br : Bool
  deriving DecidableEq

/-- Transmit signals. -/
structure UartTx where
  txbuffer : BitVec 11
  txstart : Bool
  txstate : UartTxState
  txbittimer : ℕ
  txshiftcounter : ℕ
  deriving DecidableEq

/-- Receive signals. -/
structure UartRx where
  rxbuffer : BitVec 9
  rxstate : UartRxState
  rxbittimer : ℕ
  rxshiftcounter : ℕ
  rxdSync : Bool
  deriving DecidableEq

structure Uart where
  ctrl : UartControl
  baud : BitVec 16
  status : UartStatus
  data : BitVec 12
  tx : UartTx
  rx : UartRx
  txd : Bool
  breakReceived : Bool
  response : IoDevice

namespace UartControl

variable (c : UartControl)

/-- Number of data bits of a character. -/
def dataBits : ℕ := if c.size = 0b10 then 9 else if c.size = 0b11 then 7 else 8

/-- The characters are as wide as the data bits. -/
def character (data : DataType) : BitVec 9 :=
  if c.size = 0b10 then data.extractLsb' 0 9
  else if c.size = 0b11 then (data.extractLsb' 0 7).setWidth 9
  else (data.extractLsb' 0 8).setWidth 9

/-- The transmit buffer: data bits, parity bit and start bit. Stop bits are added since the
remaining bits are ones. The right most bit is the start bit. -/
def frame (data : DataType) : BitVec 11 :=
  if c.size = 0b10 then
    let d := data.extractLsb' 0 9
    BitVec.ofBool (if c.paron then xorReduce (d ++ BitVec.ofBool c.parnevenodd) else true) ++
      d ++ 0#1
  else if c.size = 0b11 then
    let d := data.extractLsb' 0 7
    0b11#2 ++
      BitVec.ofBool (if c.paron then xorReduce (d ++ BitVec.ofBool c.parnevenodd) else true) ++
      d ++ 0#1
  else
    let d := data.extractLsb' 0 8
    1#1 ++ BitVec.ofBool (if c.paron then xorReduce (d ++ BitVec.ofBool c.parnevenodd) else true) ++
      d ++ 0#1

/-- What the shift counter of the transmitter is loaded with: the number of data bits and a start
bit, with a parity bit and a second stop bit added up. -/
def shiftCount : ℕ :=
  c.dataBits + 1 + (if c.paron then 1 else 0) + (if c.sp2 then 1 else 0)

/-- The sampled level is shifted in at the most significant data bit. -/
def shiftIn (rxd : Bool) (rxbuffer : BitVec 9) : BitVec 9 :=
  if c.size = 0b10 then BitVec.ofBool rxd ++ rxbuffer.extractLsb' 1 8
  else if c.size = 0b11 then
    rxbuffer.extractLsb' 7 2 ++ BitVec.ofBool rxd ++ rxbuffer.extractLsb' 1 6
  else rxbuffer.extractLsb' 8 1 ++ BitVec.ofBool rxd ++ rxbuffer.extractLsb' 1 7

/-- Size, parity and second stop bit disabled. -/
def simplified : UartControl :=
  { c with
    size := 0
    sp2 := false
    parnevenodd := false
    paron := false }

def reset : UartControl := ⟨false, 0, false, false, false, false, false, false⟩

def ofData (d : DataType) : UartControl where
  en := d.getLsbD 0
  size := d.extractLsb' 1 2
  rcie := d.getLsbD 3
  tcie := d.getLsbD 4
  brie := d.getLsbD 5
  sp2 := d.getLsbD 6
  parnevenodd := d.getLsbD 7
  paron := d.getLsbD 8

def toData : DataType :=
  0#23 ++ BitVec.ofBool c.paron ++ BitVec.ofBool c.parnevenodd ++ BitVec.ofBool c.sp2 ++
    BitVec.ofBool c.brie ++ BitVec.ofBool c.tcie ++ BitVec.ofBool c.rcie ++ c.size ++
    BitVec.ofBool c.en

end UartControl

namespace UartStatus

/-- No flag is set. -/
def clear : UartStatus := ⟨false, false, false, false, false, false⟩

def ofData (d : DataType) : UartStatus where
  fe := d.getLsbD 0
  rf := d.getLsbD 1
  pe := d.getLsbD 2
  rc := d.getLsbD 3
  tc := d.getLsbD 4
  br := d.getLsbD 5

def toData (s : UartStatus) : DataType :=
  0#26 ++ BitVec.ofBool s.br ++ BitVec.ofBool s.tc ++ BitVec.ofBool s.rc ++ BitVec.ofBool s.pe ++
    BitVec.ofBool s.rf ++ BitVec.ofBool s.fe

/-- A framing, parity, receive-failed or break flag. -/
def error (s : UartStatus) : Bool := s.fe || s.rf || s.pe || s.br

end UartStatus

namespace Uart

variable (g : UartGenerics) (u : Uart) (q : MemRequest)

def reset : Uart where
  ctrl := .reset
  baud := 0
  status := .clear
  data := 0
  tx := ⟨0, false, .txIdle, 0, 0⟩
  rx := ⟨0, .rxIdle, 0, 0, true⟩
  txd := true
  breakReceived := false
  response := .reset

/-! ## Bus accesses -/

/-- An access to register `r` of the device. -/
def selects (r : BitVec 2) : Bool := q.stb && q.isword && q.addr.extractLsb' 2 2 = r

def writesControl : Bool := selects q 0b00 && q.wren

def writesStatus : Bool := selects q 0b01 && q.wren

def writesBaud : Bool := selects q 0b11 && q.wren

/-- A write to the data register triggers a transmission. -/
def writesData : Bool := selects q 0b10 && q.wren

/-- A read from the data register clears the received status bits. -/
def readsData : Bool := selects q 0b10 && !q.wren

/-- The register that a read returns. -/
def readData : DataType :=
  if selects q 0b00 then u.ctrl.toData
  else if selects q 0b01 then u.status.toData
  else if selects q 0b11 then u.baud.setWidth 32
  else u.rx.rxbuffer.setWidth 32

def nextResponse : IoDevice := .clock q (u.readData q) false

def nextControl : UartControl :=
  let c := if writesControl q then .ofData q.data else u.ctrl
  if g.simple then c.simplified else c

def nextBaud : BitVec 16 := if writesBaud q then q.data.extractLsb' 0 16 else u.baud

/-- The status flags as the bus leaves them. -/
def busStatus : UartStatus :=
  if writesStatus q then .ofData q.data
  else if writesData q then { u.status with tc := false }
  else if readsData q then
    { u.status with
      br := false
      pe := false
      rc := false
      rf := false
      fe := false }
  else u.status

/-! ## Transmitter -/

/-- The transmit signals as the bus leaves them. -/
def busTx : UartTx :=
  { u.tx with
    txstart := writesData q
    txbuffer := if writesData q then u.ctrl.frame q.data else u.tx.txbuffer }

def nextTx : UartTx :=
  let n := u.busTx q
  match u.tx.txstate with
  | .txIdle =>
    if u.tx.txstart && u.ctrl.en then
      { n with
        txbittimer := u.baud.toNat
        txshiftcounter := u.ctrl.shiftCount
        txstate := .txIter }
    else n
  | .txIter =>
    if 0 < u.tx.txbittimer then { n with txbittimer := u.tx.txbittimer - 1 }
    else if 0 < u.tx.txshiftcounter then
      -- Shift in stop bit
      { n with
        txbittimer := u.baud.toNat
        txshiftcounter := u.tx.txshiftcounter - 1
        txbuffer := 1#1 ++ u.tx.txbuffer.extractLsb' 1 10 }
    else { n with txstate := .txReady }
  | .txReady => { n with txstate := .txIdle }

def nextTxd : Bool :=
  match u.tx.txstate with
  | .txIter => u.tx.txbuffer.getLsbD 0
  | _ => true

/-- The transmitter signals that a character is transmitted. -/
def transmitted (s : UartStatus) : UartStatus :=
  match u.tx.txstate with
  | .txReady => { s with tc := true }
  | _ => s

/-! ## Receiver -/

/-- The stop bit is low and all data bits are zeros. -/
def isBreak : Bool := !u.rx.rxdSync && u.rx.rxbuffer = 0

/-- The parity of the largest data block, the parity mode and the received parity bit. -/
def parityError : Bool :=
  xorReduce (u.rx.rxbuffer ++ BitVec.ofBool u.ctrl.parnevenodd ++ BitVec.ofBool u.rx.rxdSync)

def nextRx (rxd : Bool) : UartRx :=
  let n := { u.rx with rxdSync := rxd }
  match u.rx.rxstate with
  | .rxIdle =>
    if !u.rx.rxdSync && u.ctrl.en then
      -- Half bit time
      { n with
        rxbittimer := u.baud.toNat / 2
        rxstate := .rxWait }
    else n
  | .rxWait =>
    let n := { n with rxbuffer := 0 }
    if 0 < u.rx.rxbittimer then { n with rxbittimer := u.rx.rxbittimer - 1 }
    else if !u.rx.rxdSync then
      { n with
        rxbittimer := u.baud.toNat
        rxshiftcounter := u.ctrl.dataBits
        rxstate := .rxIter }
    else { n with rxstate := .rxFail }
  | .rxIter =>
    if 0 < u.rx.rxbittimer then { n with rxbittimer := u.rx.rxbittimer - 1 }
    else if 0 < u.rx.rxshiftcounter then
      { n with
        rxbittimer := u.baud.toNat
        rxshiftcounter := u.rx.rxshiftcounter - 1
        rxbuffer := u.ctrl.shiftIn u.rx.rxdSync u.rx.rxbuffer }
    else if u.ctrl.paron then
      { n with
        rxstate := .rxParity
        rxbittimer := u.baud.toNat }
    else { n with rxstate := .rxReady }
  | .rxParity =>
    if 0 < u.rx.rxbittimer then { n with rxbittimer := u.rx.rxbittimer - 1 }
    else { n with rxstate := .rxReady }
  | .rxReady => { n with rxstate := if u.isBreak then .rxBreak else .rxIdle }
  | .rxBreak => if u.rx.rxdSync then { n with rxstate := .rxIdle } else n
  | .rxFail => { n with rxstate := .rxIdle }

/-- The flags that the receiver writes over the ones of the bus and the transmitter. -/
def received (s : UartStatus) : UartStatus :=
  match u.rx.rxstate with
  | .rxIter =>
    if u.rx.rxbittimer = 0 ∧ u.rx.rxshiftcounter = 0 ∧ u.ctrl.paron = true then
      { s with pe := u.parityError }
    else s
  | .rxReady =>
    if u.isBreak then s
    else
      { s with
        fe := if u.rx.rxdSync then s.fe else true
        rc := true }
  | .rxBreak => if u.rx.rxdSync then { s with br := true } else s
  | .rxFail => { s with rf := true }
  | _ => s

/-- The received data is copied to the data register. -/
def nextData : BitVec 12 :=
  match u.rx.rxstate with
  | .rxReady => u.rx.rxbuffer.setWidth 12
  | _ => u.data

/-! ## One clock -/

def clock (sreset : Bool) (rxd : Bool) : Uart :=
  if sreset then .reset
  else
    { ctrl := u.nextControl g q
      baud := u.nextBaud q
      status := u.received (u.transmitted (u.busStatus q))
      data := u.nextData
      tx := u.nextTx q
      rx := u.nextRx rxd
      txd := u.nextTxd
      breakReceived := u.status.br && g.breakResets
      response := u.nextResponse q }

/-- The interrupt request. -/
def irq : Bool :=
  u.status.br && u.ctrl.brie || u.status.tc && u.ctrl.tcie || u.status.rc && u.ctrl.rcie

/-- The receiver completes a character: it is in the data register after the clock. -/
def completes : Bool := u.rx.rxstate = .rxReady && !u.isBreak

/-- The receiver raises an error flag in this clock. -/
def raisesError : Bool := (u.received .clear).error

end Uart

end ThuasRiscv
