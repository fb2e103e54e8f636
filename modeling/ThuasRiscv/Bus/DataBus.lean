import ThuasRiscv.Bus.AddressDecode
import ThuasRiscv.Bus.IoBusSwitch
import ThuasRiscv.Bus.Mem

/-!
# The data bus

The address decoder with the ROM, the boot ROM, the RAM and the I/O bus switch
behind it, as they are connected at the top level.
-/

namespace ThuasRiscv

/-- The generics of the bus and of the memories on it; the sizes of the memories are in the type of
the bus. -/
structure BusGenerics where
  map : AddressMap
  bufferIoResponse : Bool
  rom : MemGenerics
  boot : MemGenerics
  ram : MemGenerics

/-- The clocked signals of everything behind the address decoder. -/
structure DataBus (nRom nBoot nRam : ℕ) where
  rom : Mem nRom
  boot : Mem nBoot
  ram : Mem nRam
  io : IoBusSwitch

/-- What the bus reads besides the requests of the core: the registers of the devices, and the bits
that a memory leaves open. -/
structure BusInput where
  values : Fin 16 → DataType
  openBits : DataType

namespace DataBus

variable {nRom nBoot nRam : ℕ} (g : BusGenerics) (b : DataBus nRom nBoot nRam) (q : BusRequest)
  (x : BusInput)

/-- After the configuration and the asynchronous reset. -/
def initial (nRom nBoot nRam : ℕ) (loadAccessError storeAccessError : Bool) :
    DataBus nRom nBoot nRam where
  rom := .initial g.rom nRom
  boot := .initial g.boot nBoot
  ram := .initial g.ram nRam
  io := .reset loadAccessError storeAccessError

/-- The responses of the slaves. -/
def slaveResponse : Slave → MemResponse
  | .rom => b.rom.response g.rom x.openBits (g.map.memRequestRom q)
  | .boot => b.boot.response g.boot x.openBits (g.map.memRequestBoot q)
  | .ram => b.ram.response g.ram x.openBits (g.map.memRequestRam q)
  | .io => b.io.response (g.map.memRequestIo q) g.bufferIoResponse

/-- The response to the core. -/
def response : BusResponse := g.map.busResponse q (b.slaveResponse g q x)

/-- One clock of everything behind the address decoder. -/
def clock (f : InstrRequest) (sreset : Bool) : DataBus nRom nBoot nRam where
  rom := b.rom.clock g.rom x.openBits (g.map.memRequestRom q) f sreset
  boot := b.boot.clock g.boot x.openBits (g.map.memRequestBoot q) f sreset
  ram := b.ram.clock g.ram x.openBits (g.map.memRequestRam q) f sreset
  io := b.io.clock (g.map.memRequestIo q) x.values sreset

end DataBus

end ThuasRiscv
