import ThuasRiscv.Bus.IoBusSwitch
import ThuasRiscv.Transition

/-!
# CRC unit

Galois type CRC generator for 8, 16, 24 or 32 bits, one bit in a clock. A write
to the data register starts the shift counter. Where the bus and the generator
write a signal in one clock, the generator wins.
-/

namespace ThuasRiscv

structure Crc where
  sreg : DataType
  poly : DataType
  size : BitVec 2
  tc : Bool
  data : BitVec 8
  counter : ℤ
  response : IoDevice
  deriving DecidableEq

/-- What the device reads in a clock. -/
structure CrcInput where
  request : MemRequest
  sreset : Bool

namespace Crc

variable (s : Crc) (q : MemRequest)

def reset : Crc where
  sreg := 0
  poly := 0
  size := 0b00
  tc := false
  data := 0
  counter := 0
  response := .reset

/-! ## Bus accesses -/

/-- A write to the data register starts the generator. -/
def writesData : Bool := q.selects 0b100#3 && q.wren

/-- The register that a read returns; the data register reads as zero. -/
def readData : DataType :=
  if q.selects 0b000#3 then 0#26 ++ s.size ++ 0#4
  else if q.selects 0b001#3 then 0#28 ++ BitVec.ofBool s.tc ++ 0#3
  else if q.selects 0b010#3 then s.poly
  else if q.selects 0b011#3 then s.sreg
  else 0

/-- The signals as the bus leaves them. -/
def access : Crc :=
  let n := { s with response := .clock q (s.readData q) false }
  if q.wren then
    if q.selects 0b000#3 then { n with size := q.data.extractLsb' 4 2 }
    else if q.selects 0b001#3 then { n with tc := q.data.getLsbD 3 }
    else if q.selects 0b010#3 then { n with poly := q.data }
    else if q.selects 0b011#3 then { n with sreg := q.data }
    else if q.selects 0b100#3 then
      { n with
        data := q.data.extractLsb' 0 8
        counter := 7
        tc := false }
    else n
  else if q.selects 0b100#3 then { n with tc := false }
  else n

/-! ## Generator -/

/-- The bit of the shift register that the size selects. -/
def msb : Bool :=
  if s.size = 0b00 then s.sreg.getLsbD 31
  else if s.size = 0b01 then s.sreg.getLsbD 23
  else if s.size = 0b10 then s.sreg.getLsbD 15
  else s.sreg.getLsbD 7

/-- The shift register after one more bit. -/
def nextSreg : DataType :=
  let shifted := s.sreg.extractLsb' 0 31 ++ 0#1
  if s.msb ≠ s.data.getLsbD 7 then shifted ^^^ s.poly else shifted

/-- One clock of the generator; `n` is what the bus leaves. -/
def generate (n : Crc) : Crc :=
  if 0 < s.counter then
    { n with
      sreg := s.nextSreg
      counter := s.counter - 1
      data := s.data.extractLsb' 0 7 ++ 0#1
      tc := false }
  else { n with tc := true }

/-! ## One clock -/

def clock (i : CrcInput) : Crc :=
  if i.sreset then .reset else s.generate (s.access i.request)

/-- The device from its reset on. -/
def machine : Transition.Machine Crc CrcInput := ⟨reset, clock⟩

end Crc

end ThuasRiscv
