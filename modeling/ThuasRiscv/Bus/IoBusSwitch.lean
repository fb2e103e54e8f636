import ThuasRiscv.ProcessorCommon

/-!
# I/O bus switch and the devices behind it

The I/O region is divided in groups of 256 bytes, one for each of 16 devices. A
strobe goes to one device only; the responses are fused. All devices, and the
stub that stands for an absent one, answer words only and have the same bus
front end: errors at once, `ready` and data one clock later. With
`BUFFER_IO_RESPONSE` the fused response arrives one more clock later.
-/

namespace ThuasRiscv

/-- Any of the four error lines of a memory or device. -/
def MemResponse.error (r : MemResponse) : Bool :=
  r.loadAccessError || r.storeAccessError || r.loadMisalignedError || r.storeMisalignedError

/-- A device that does not answer. -/
def MemResponse.silent : MemResponse where
  data := 0
  ready := false
  loadAccessError := false
  storeAccessError := false
  loadMisalignedError := false
  storeMisalignedError := false

/-- Correct size and address boundary. -/
def MemRequest.isword (q : MemRequest) : Bool := q.size = .word && q.addr.extractLsb' 0 2 = 0

/-- An access to register `r` of a device whose register number has `n` bits. -/
def MemRequest.selects {n : ℕ} (q : MemRequest) (r : BitVec n) : Bool :=
  q.stb && q.isword && q.addr.extractLsb' 2 n = r

/-- An access selects one register. -/
theorem MemRequest.selects_of_ne {n : ℕ} {q : MemRequest} {r r' : BitVec n}
    (h : q.selects r = true) (hne : r ≠ r') : q.selects r' = false := by
  simp only [selects, Bool.and_eq_true, decide_eq_true_eq] at h
  rw [selects, h.2, decide_eq_false hne, Bool.and_false]

/-- The registered part of the response of a device. -/
structure IoDevice where
  data : DataType
  ready : Bool
  deriving DecidableEq

namespace IoDevice

def reset : IoDevice := ⟨0, false⟩

/-- One clock of the bus front end; `value` is the register that the device reads. -/
def clock (q : MemRequest) (value : DataType) (sreset : Bool) : IoDevice :=
  if sreset then reset
  else
    { data := if q.stb && q.isword && !q.wren then value else 0
      ready := q.stb && q.isword }

/-- The errors are not registered. -/
def response (d : IoDevice) (q : MemRequest) : MemResponse where
  data := d.data
  ready := d.ready
  loadAccessError := q.stb && !q.wren && q.size ≠ .word
  storeAccessError := q.stb && q.wren && q.size ≠ .word
  loadMisalignedError := q.stb && !q.wren && q.size = .word && q.addr.extractLsb' 0 2 ≠ 0
  storeMisalignedError := q.stb && q.wren && q.size = .word && q.addr.extractLsb' 0 2 ≠ 0

/-- The device registers the data of a store in this clock. -/
def writes (q : MemRequest) (sreset : Bool) : Bool := !sreset && q.stb && q.isword && q.wren

end IoDevice

/-- The registers of the devices, and the fused response that is buffered. -/
structure IoBusSwitch where
  devices : Fin 16 → IoDevice
  buffer : MemResponse

namespace IoBusSwitch

/-- The device that an address selects: groups of `2 ** ADDRESS_SIZE_LOG2` bytes. -/
def deviceOf (addr : DataType) : Fin 16 := (addr.extractLsb' 8 4).toFin

/-- The request to one device: all lines but the strobe go to every device. -/
def devRequest (q : MemRequest) (k : Fin 16) : MemRequest :=
  { q with stb := q.stb && deviceOf q.addr = k }

variable (b : IoBusSwitch) (q : MemRequest)

def devResponse (k : Fin 16) : MemResponse := (b.devices k).response (devRequest q k)

/-- The fused response: all devices that do not respond send zero bits. -/
def fused : MemResponse :=
  let line (l : MemResponse → Bool) : Bool :=
    (List.finRange 16).any fun k => l (b.devResponse q k)
  { data := (List.finRange 16).foldl (fun v k => v ||| (b.devResponse q k).data) 0
    ready := line MemResponse.ready
    loadAccessError := line MemResponse.loadAccessError
    storeAccessError := line MemResponse.storeAccessError
    loadMisalignedError := line MemResponse.loadMisalignedError
    storeMisalignedError := line MemResponse.storeMisalignedError }

/-- After the asynchronous reset; it does not reach the two access errors in the buffer. -/
def reset (loadAccessError storeAccessError : Bool) : IoBusSwitch where
  devices _ := .reset
  buffer := { MemResponse.silent with loadAccessError, storeAccessError }

variable (bufferIoResponse : Bool)

def clock (values : Fin 16 → DataType) (sreset : Bool) : IoBusSwitch where
  devices k := IoDevice.clock (devRequest q k) (values k) sreset
  buffer := if sreset then .silent else b.fused q

def response : MemResponse := if bufferIoResponse then b.buffer else b.fused q

end IoBusSwitch

end ThuasRiscv
