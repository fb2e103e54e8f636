import ThuasRiscv.Bus.IoBusSwitch
import ThuasRiscv.Transition

/-!
# I2C master

I2C master in standard mode and fast mode, with START and STOP generation and
clock stretching. A transfer of eight bits and an acknowledge bit is started by
a write to the data register. The lines are pulled up, so an output that is
high releases its line; inputs are levels behind a synchronizer of two
registers. Where the bus and the state machine write a signal in one clock, the
state machine wins.
-/

namespace ThuasRiscv

inductive I2cState where
  | idle | sendStartbit | sendDataFirst | sendDataSecond
  | sendStopbitFirst | sendStopbitSecond | sendStopbitThird | stretch
  deriving DecidableEq, Repr

structure I2cGenerics where
  systemFrequency : ℕ

namespace I2cGenerics

variable (g : I2cGenerics)

/-- Maximum rise time in standard mode, with two clocks for the synchronizer. -/
def criseSm : ℤ := g.systemFrequency / 1000000 + 2

/-- Maximum rise time in fast mode. -/
def criseFm : ℤ := 300 * (g.systemFrequency / 1000000) / 1000 + 2

end I2cGenerics

/-- The fields of the control register. -/
structure I2cControl where
  fm : Bool
  tcie : Bool
  stop : Bool
  start : Bool
  hardstop : Bool
  mack : Bool
  baud : BitVec 16
  deriving DecidableEq

/-- The fields of the status register. -/
structure I2cStatus where
  trans : Bool
  tc : Bool
  af : Bool
  busy : Bool
  deriving DecidableEq

structure I2c where
  ctrl : I2cControl
  status : I2cStatus
  data : BitVec 8
  state : I2cState
  bittimer : ℤ
  shiftcounter : ℤ
  starttransmission : Bool
  txbuffer : BitVec 9
  rxbuffer : BitVec 9
  sdaOut : Bool
  sclOut : Bool
  sdasync : BitVec 2
  sclsync : BitVec 2
  trise : ℤ
  response : IoDevice
  deriving DecidableEq

/-- What the device reads in a clock; a line is `true` unless some device holds it low. -/
structure I2cInput where
  request : MemRequest
  sreset : Bool
  scl : Bool
  sda : Bool

namespace I2cControl

variable (c : I2cControl)

def reset : I2cControl := ⟨false, false, false, false, false, false, 0⟩

def ofData (d : DataType) : I2cControl where
  fm := d.getLsbD 2
  tcie := d.getLsbD 3
  stop := d.getLsbD 8
  start := d.getLsbD 9
  hardstop := d.getLsbD 10
  mack := d.getLsbD 11
  baud := d.extractLsb' 16 16

def toData : DataType :=
  c.baud ++ 0#4 ++ BitVec.ofBool c.mack ++ BitVec.ofBool c.hardstop ++ BitVec.ofBool c.start ++
    BitVec.ofBool c.stop ++ 0#4 ++ BitVec.ofBool c.tcie ++ BitVec.ofBool c.fm ++ 0#2

/-- The bit time of the high period. -/
def highBit : ℤ := c.baud.toNat

/-- The bit time of all other periods, twice as long in fast mode. -/
def lowBit : ℤ := if c.fm then c.baud.toNat * 2 else c.baud.toNat

/-- The latched data; with a START or STOP the master ends with a NACK. -/
def latched (data : DataType) : BitVec 9 :=
  data.extractLsb' 0 8 ++ BitVec.ofBool (c.start || c.stop || !c.mack)

end I2cControl

namespace I2cStatus

variable (t : I2cStatus)

def reset : I2cStatus := ⟨false, false, false, false⟩

def ofData (d : DataType) : I2cStatus where
  trans := d.getLsbD 2
  tc := d.getLsbD 3
  af := d.getLsbD 5
  busy := d.getLsbD 6

def toData : DataType :=
  0#25 ++ BitVec.ofBool t.busy ++ BitVec.ofBool t.af ++ 0#1 ++ BitVec.ofBool t.tc ++
    BitVec.ofBool t.trans ++ 0#2

/-- An access to the data register resets both Transmission Complete and Ack Failed. -/
def acknowledged : I2cStatus := { t with tc := false, af := false }

end I2cStatus

namespace I2c

variable (g : I2cGenerics) (s : I2c) (q : MemRequest)

def reset : I2c where
  ctrl := .reset
  status := .reset
  data := 0
  state := .idle
  bittimer := 0
  shiftcounter := 0
  starttransmission := false
  txbuffer := 0
  rxbuffer := 0
  sdaOut := true
  sclOut := true
  sdasync := 0b11
  sclsync := 0b11
  trise := 0
  response := .reset

/-! ## Bus accesses -/

/-- The register that a read returns. -/
def readData : DataType :=
  if q.selects 0b00#2 then s.ctrl.toData
  else if q.selects 0b01#2 then s.status.toData
  else if q.selects 0b10#2 then s.data.setWidth 32
  else 0

/-- The signals as the bus leaves them. -/
def access : I2c :=
  let n := { s with starttransmission := false, response := .clock q (s.readData q) false }
  if q.selects 0b00#2 then
    if q.wren then { n with ctrl := .ofData q.data } else n
  else if q.selects 0b01#2 then
    if q.wren then { n with status := .ofData q.data } else n
  else if q.selects 0b10#2 then
    let n := { n with status := s.status.acknowledged }
    if q.wren then
      { n with
        txbuffer := s.ctrl.latched q.data
        starttransmission := true }
    else n
  else n

/-! ## Lines -/

/-- The bus is busy when a line is low, until SDA rises while SCL is high, which signals a STOP. -/
def nextBusy (busy : Bool) : Bool :=
  if s.sclsync.getLsbD 0 && !s.sdasync.getLsbD 1 && s.sdasync.getLsbD 0 then false
  else if !s.sclsync.getLsbD 1 || !s.sdasync.getLsbD 1 then true
  else busy

/-- Rising edge on the external SCL. -/
def sclRises : Bool := !s.sclsync.getLsbD 1 && s.sclsync.getLsbD 0

/-- The signals as the synchronizer leaves them. -/
def synchronize (n : I2c) (scl sda : Bool) : I2c :=
  { n with
    status.busy := s.nextBusy n.status.busy
    sdasync := s.sdasync.extractLsb' 0 1 ++ BitVec.ofBool sda
    sclsync := s.sclsync.extractLsb' 0 1 ++ BitVec.ofBool scl }

/-- SDA is clocked in at a rising edge on SCL. -/
def sample : BitVec 9 :=
  if s.sclRises then s.rxbuffer.extractLsb' 0 8 ++ BitVec.ofBool (s.sdasync.getLsbD 1)
  else s.rxbuffer

/-! ## The state machine -/

/-- The rise time of SCL in clock pulses. -/
def crise : ℤ := if s.ctrl.fm then g.criseFm else g.criseSm

/-- Transmission complete: the received bits are copied to the data register. -/
def complete (n : I2c) : I2c :=
  { n with
    state := .idle
    status.tc := true
    data := s.rxbuffer.extractLsb' 1 8
    status.af := s.rxbuffer.getLsbD 0 }

/-- One clock of the state machine; `n` is what the bus and the synchronizer leave. -/
def transmit (n : I2c) : I2c :=
  match s.state with
  | .idle =>
    -- SCL is held low between START and STOP
    let n :=
      { n with
        sclOut := !s.status.trans
        sdaOut := true
        bittimer := s.ctrl.lowBit
        shiftcounter := 8 }
    if s.starttransmission then
      let n := { n with status.trans := true }
      if s.ctrl.start then { n with ctrl.start := false, state := .sendStartbit }
      else { n with state := .sendDataFirst }
    else if s.ctrl.hardstop then { n with state := .sendStopbitFirst }
    else n
  | .sendStartbit =>
    let n := { n with sclOut := true, sdaOut := false }
    if 0 < s.bittimer then { n with bittimer := s.bittimer - 1 }
    else { n with bittimer := s.ctrl.lowBit, state := .sendDataFirst }
  | .sendDataFirst =>
    let n := { n with sclOut := false, sdaOut := s.txbuffer.getLsbD 8 }
    if 0 < s.bittimer then { n with bittimer := s.bittimer - 1 }
    else
      { n with
        bittimer := s.ctrl.highBit
        state := .sendDataSecond
        trise := s.crise g }
  | .sendDataSecond =>
    let n := { n with sclOut := true, sdaOut := s.txbuffer.getLsbD 8, rxbuffer := s.sample }
    let n :=
      if 0 < s.trise then { n with trise := s.trise - 1 }
      -- SCL low: the clock is stretched
      else if !s.sclsync.getLsbD 1 then { n with state := .stretch }
      else n
    if 0 < s.bittimer then { n with bittimer := s.bittimer - 1 }
    else
      let n := { n with bittimer := s.ctrl.lowBit }
      if 0 < s.shiftcounter then
        { n with
          shiftcounter := s.shiftcounter - 1
          state := .sendDataFirst
          txbuffer := s.txbuffer.extractLsb' 0 8 ++ 1#1 }
      else if s.ctrl.stop then { n with state := .sendStopbitFirst }
      else s.complete n
  | .sendStopbitFirst =>
    let n := { n with sclOut := false, sdaOut := false }
    if 0 < s.bittimer then { n with bittimer := s.bittimer - 1 }
    else { n with bittimer := s.ctrl.highBit, state := .sendStopbitSecond }
  | .sendStopbitSecond =>
    let n := { n with sclOut := true, sdaOut := false }
    if 0 < s.bittimer then { n with bittimer := s.bittimer - 1 }
    else { n with bittimer := s.ctrl.lowBit, state := .sendStopbitThird }
  | .sendStopbitThird =>
    let n := { n with sclOut := true, sdaOut := true }
    if 0 < s.bittimer then { n with bittimer := s.bittimer - 1 }
    else
      { s.complete n with
        ctrl.stop := false
        ctrl.hardstop := false
        status.trans := false }
  | .stretch =>
    let n := { n with bittimer := s.ctrl.highBit, trise := s.crise g, rxbuffer := s.sample }
    if s.sclsync.getLsbD 1 then { n with state := .sendDataSecond } else n

/-! ## One clock -/

def clock (i : I2cInput) : I2c :=
  if i.sreset then .reset
  else s.transmit g (s.synchronize (s.access i.request) i.scl i.sda)

def irq : Bool := s.ctrl.tcie && s.status.tc

/-- The device from its reset on. -/
def machine : Transition.Machine I2c I2cInput := ⟨reset, clock g⟩

end I2c

end ThuasRiscv
