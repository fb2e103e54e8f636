import ThuasRiscv.Bus.IoBusSwitch
import ThuasRiscv.Transition

/-!
# Serial peripheral interface

Master-only SPI with all four versions of CPOL and CPHA and 8, 16, 24 or 32
bits. A transfer is started by a write to the data register. Each bit takes two
halves of the prescaled clock; with a high idle clock half a clock is added at
the end. The bus writes the registers before the transfer does, so where both
write a signal in one clock the transfer wins.
-/

namespace ThuasRiscv

inductive SpiState where
  | idle | first | second | leadout
  deriving DecidableEq, Repr

/-- The fields of the control register. -/
structure SpiControl where
  cpha : Bool
  cpol : Bool
  tcie : Bool
  size : BitVec 2
  prescaler : BitVec 3
  deriving DecidableEq

structure Spi where
  ctrl : SpiControl
  tc : Bool
  data : DataType
  start : Bool
  state : SpiState
  txbuffer : DataType
  rxbuffer : DataType
  bittimer : ℤ
  shiftcounter : ℤ
  mosi : Bool
  sck : Bool
  response : IoDevice
  deriving DecidableEq

/-- What the device reads in a clock. -/
structure SpiInput where
  request : MemRequest
  sreset : Bool
  miso : Bool

namespace SpiControl

variable (c : SpiControl)

def reset : SpiControl := ⟨false, false, false, 0, 0⟩

def ofData (d : DataType) : SpiControl where
  cpha := d.getLsbD 1
  cpol := d.getLsbD 2
  tcie := d.getLsbD 3
  size := d.extractLsb' 4 2
  prescaler := d.extractLsb' 8 3

def toData : DataType :=
  0#21 ++ c.prescaler ++ 0#2 ++ c.size ++ BitVec.ofBool c.tcie ++ BitVec.ofBool c.cpol ++
    BitVec.ofBool c.cpha ++ 0#1

/-- The desired bits to transfer, the first one on the left. -/
def transferred (data : DataType) : DataType :=
  if c.size = 0b00 then data.extractLsb' 0 8 ++ 0#24
  else if c.size = 0b01 then data.extractLsb' 0 16 ++ 0#16
  else if c.size = 0b10 then data.extractLsb' 0 24 ++ 0#8
  else data

/-- What the shift counter is loaded with. -/
def lastBit : ℤ :=
  if c.size = 0b00 then 7
  else if c.size = 0b01 then 15
  else if c.size = 0b10 then 23
  else 31

/-- The prescaler, 2 to 256 in powers of 2, as the bit timer counts it. -/
def spiprescaler : ℤ :=
  if c.prescaler = 0b000 then 0
  else if c.prescaler = 0b001 then 1
  else if c.prescaler = 0b010 then 3
  else if c.prescaler = 0b011 then 7
  else if c.prescaler = 0b100 then 15
  else if c.prescaler = 0b101 then 31
  else if c.prescaler = 0b110 then 63
  else 127

end SpiControl

namespace Spi

variable (s : Spi) (q : MemRequest) (miso : Bool)

/-- The level of an idle data line. -/
def spimosidefault : Bool := true

def reset : Spi where
  ctrl := .reset
  tc := false
  data := 0
  start := false
  state := .idle
  txbuffer := 0
  rxbuffer := 0
  bittimer := 0
  shiftcounter := 0
  mosi := spimosidefault
  sck := false
  response := .reset

/-! ## Bus accesses -/

/-- A write to the data register triggers a transmission. -/
def writesData : Bool := q.selects 0b10#2 && q.wren

/-- The register that a read returns. -/
def readData : DataType :=
  if q.selects 0b00#2 then s.ctrl.toData
  else if q.selects 0b01#2 then 0#28 ++ BitVec.ofBool s.tc ++ 0#3
  else if q.selects 0b10#2 then s.data
  else 0

/-- The signals as the bus leaves them. -/
def access : Spi :=
  let n := { s with start := false, response := .clock q (s.readData q) false }
  if q.selects 0b00#2 then
    -- Set clock polarity
    if q.wren then { n with ctrl := .ofData q.data, sck := q.data.getLsbD 2 } else n
  else if q.selects 0b01#2 then
    if q.wren then { n with tc := q.data.getLsbD 3 } else n
  else if q.selects 0b10#2 then
    if q.wren then
      { n with
        start := true
        txbuffer := s.ctrl.transferred q.data
        data := 0
        shiftcounter := s.ctrl.lastBit
        tc := false }
    else { n with tc := false }
  else n

/-! ## Transfer -/

/-- The transmit buffer after its first bit is out. -/
def shiftOut : DataType := s.txbuffer.extractLsb' 0 31 ++ 0#1

def shiftIn : DataType := s.rxbuffer.extractLsb' 0 31 ++ BitVec.ofBool miso

/-- The end of a transfer. -/
def finish (n : Spi) : Spi :=
  { n with
    sck := s.ctrl.cpol
    tc := true
    mosi := spimosidefault
    state := .idle }

/-- One clock of the transfer; `n` is what the bus leaves. -/
def transfer (n : Spi) : Spi :=
  match s.state with
  | .idle =>
    let n := { n with rxbuffer := 0, bittimer := s.ctrl.spiprescaler }
    if s.start then
      if s.ctrl.cpha then
        { n with
          txbuffer := s.shiftOut
          mosi := s.txbuffer.getLsbD 31
          sck := !s.ctrl.cpol
          state := .second }
      else
        { n with
          mosi := s.txbuffer.getLsbD 31
          sck := s.ctrl.cpol
          state := .first }
    else { n with mosi := spimosidefault }
  | .first =>
    if 0 < s.bittimer then { n with bittimer := s.bittimer - 1 }
    else
      let n :=
        { n with
          bittimer := s.ctrl.spiprescaler
          state := .second
          sck := !s.ctrl.cpol }
      if s.ctrl.cpha then { n with txbuffer := s.shiftOut, mosi := s.txbuffer.getLsbD 31 }
      else { n with rxbuffer := s.shiftIn miso }
  | .second =>
    if 0 < s.bittimer then { n with bittimer := s.bittimer - 1 }
    else
      let n := { n with bittimer := s.ctrl.spiprescaler, sck := s.ctrl.cpol }
      let n :=
        if s.ctrl.cpha then { n with rxbuffer := s.shiftIn miso }
        else
          -- The data is not yet shifted
          { n with txbuffer := s.shiftOut, mosi := s.txbuffer.getLsbD 30 }
      if 0 < s.shiftcounter then { n with shiftcounter := s.shiftcounter - 1, state := .first }
      else if s.ctrl.cpol then { n with state := .leadout }
      else { s.finish n with data := s.rxbuffer }
  | .leadout =>
    let n := { n with data := s.rxbuffer }
    if 0 < s.bittimer then { n with bittimer := s.bittimer - 1 }
    else s.finish n

/-! ## One clock -/

def clock (i : SpiInput) : Spi :=
  if i.sreset then .reset else s.transfer i.miso (s.access i.request)

def irq : Bool := s.ctrl.tcie && s.tc

/-- The device from its reset on. -/
def machine : Transition.Machine Spi SpiInput := ⟨reset, clock⟩

end Spi

end ThuasRiscv
