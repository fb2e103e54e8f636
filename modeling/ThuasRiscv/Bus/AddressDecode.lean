import ThuasRiscv.ProcessorCommon

/-!
# Address decoder and data router

The four most significant address bits select the ROM, the boot ROM, the RAM or
the I/O. A selected slave gets the strobe of a read or a write and answers with
its data and `ready`; the error lines of all slaves are combined. An access to
unimplemented memory is answered by the decoder itself.
-/

namespace ThuasRiscv

/-- The slaves of the data bus. -/
inductive Slave where
  | rom | boot | ram | io
  deriving DecidableEq, Repr

/-- The generics of the address decoder. -/
structure AddressMap where
  haveBootloaderRom : Bool
  romHighNibble : MemoryHighNibble
  bootHighNibble : MemoryHighNibble
  ramHighNibble : MemoryHighNibble
  ioHighNibble : MemoryHighNibble

namespace AddressMap

variable (map : AddressMap) (q : BusRequest)

/-- The slave that an address selects. -/
def select (addr : DataType) : Option Slave :=
  let nibble := addr.extractLsb' 28 4
  if nibble = map.romHighNibble then some .rom
  else if nibble = map.bootHighNibble ∧ map.haveBootloaderRom then some .boot
  else if nibble = map.ramHighNibble then some .ram
  else if nibble = map.ioHighNibble then some .io
  else none

/-- The request to one slave. -/
def memRequest (slave : Slave) : MemRequest where
  stb := map.select q.addr = some slave && q.acc ≠ .nop && q.stb
  size := q.size
  addr := q.addr
  data := q.data
  wren := map.select q.addr = some slave && q.acc = .write

def memRequestRom : MemRequest := map.memRequest q .rom
def memRequestBoot : MemRequest := map.memRequest q .boot
def memRequestRam : MemRequest := map.memRequest q .ram
def memRequestIo : MemRequest := map.memRequest q .io

/-- The response to the core, from the responses of the slaves. -/
def busResponse (resp : Slave → MemResponse) : BusResponse :=
  let fused (line : MemResponse → Bool) : Bool :=
    line (resp .rom) || line (resp .boot) || line (resp .ram) || line (resp .io)
  let selected := map.select q.addr
  { data := match selected with
      | some slave => (resp slave).data
      | none => 0
    ready := match selected with
      | some slave => (resp slave).ready
      -- Signal ready anyway, otherwise the bus will hang.
      | none => q.acc = .read || q.acc = .write
    loadAccessError := fused MemResponse.loadAccessError || selected = none && q.acc = .read
    storeAccessError := fused MemResponse.storeAccessError || selected = none && q.acc = .write
    loadMisalignedError := fused MemResponse.loadMisalignedError
    storeMisalignedError := fused MemResponse.storeMisalignedError }

end AddressMap

end ThuasRiscv
