import ThuasRiscv.Bus.DataBus
import ThuasRiscv.Core.RegisterFile
import ThuasRiscv.Core.TrapEntry

/-!
# The core on its data bus

The core and the data bus in one machine: the core reads what the bus answers in
the same clock. The instruction memory, the interrupts, the Debug Module and the
registers of the devices remain inputs.
-/

namespace ThuasRiscv

open Transition

/-- The generics of the core and of the bus; both are configured with the same switches. -/
structure SystemGenerics where
  core : Generics
  bus : BusGenerics
  buffer : bus.bufferIoResponse = core.bufferIoResponse

/-- What the system reads in one clock. The bus lines of `core` are not read. -/
structure SystemInput where
  core : CoreInput
  bus : BusInput

/-- The core, the bus, and `halt_ack` as the Debug Module saw it in the last two clocks, the latest
first. -/
structure System (nRom nBoot nRam : ℕ) where
  core : Core
  bus : DataBus nRom nBoot nRam
  haltAcks : Bool × Bool

namespace System

variable {nRom nBoot nRam : ℕ} (g : SystemGenerics) (io : Peripherals)
  (s : System nRom nBoot nRam) (i : SystemInput)

/-- The access that the core has on the bus in this clock. -/
def request : BusRequest := s.core.busRequest g.core i.core

def response : BusResponse := s.bus.response g.bus (s.request g i) i.bus

/-- The input port of the core. -/
def coreInput : CoreInput := { i.core with bus := s.response g i }

def step : System nRom nBoot nRam where
  core := s.core.step g.core io (s.coreInput g i)
  bus := s.bus.clock g.bus (s.request g i) i.bus (s.core.instrRequest g.core (s.coreInput g i))
    i.core.sreset
  haltAcks := (s.core.control.haltAck, s.haltAcks.1)

/-- After the configuration and the asynchronous reset, which leaves two bits of the buffer open. -/
def initial (nRom nBoot nRam : ℕ) (loadAccessError storeAccessError : Bool) :
    System nRom nBoot nRam where
  core := Core.initial g.core
  bus := .initial g.bus nRom nBoot nRam loadAccessError storeAccessError
  haltAcks := (false, false)

/-- The system as a clocked machine. -/
def machine (nRom nBoot nRam : ℕ) (loadAccessError storeAccessError : Bool) :
    Machine (System nRom nBoot nRam) SystemInput :=
  ⟨initial g nRom nBoot nRam loadAccessError storeAccessError, step g io⟩

/-- The Debug Module strobes an access two clocks after it has seen the core halted: it checks
`halt_ack` in `cmd_check` and raises the strobe in `cmd_preparemem`. -/
def DmChecks (s : System nRom nBoot nRam) (i : SystemInput) : Prop :=
  i.core.dm.stb = true → s.haltAcks.2 = true

instance : Decidable (DmChecks s i) := inferInstanceAs (Decidable (_ → _))

variable {g io s i}

/-- The request of this clock does not depend on the response: there is no combinational loop. -/
theorem request_coreInput : s.core.busRequest g.core (s.coreInput g i) = s.request g i := rfl

end System

/-! ## The access in flight -/

/-- An access, and the clocks since it was strobed. -/
structure Flight where
  request : BusRequest
  age : ℕ
  deriving DecidableEq

/-- The request is a strobe of an access. -/
def BusRequest.strobes (q : BusRequest) : Bool := q.stb && q.acc ≠ .nop

/-- The latest strobed access, which may be the one of this clock. -/
def Flight.current (last : Option Flight) (q : BusRequest) : Option Flight :=
  if q.strobes then some ⟨q, 0⟩ else last

/-- One more clock. -/
def Flight.older (f : Flight) : Flight := ⟨f.request, f.age + 1⟩

namespace System

variable {nRom nBoot nRam : ℕ} (g : SystemGenerics) (io : Peripherals)

/-- The system with an observer of the latest strobed access. -/
def tracked (nRom nBoot nRam : ℕ) (loadAccessError storeAccessError : Bool) :
    Machine (System nRom nBoot nRam × Option Flight) SystemInput :=
  (machine g io nRom nBoot nRam loadAccessError storeAccessError).observe none
    fun s i last => (Flight.current last (s.request g i)).map Flight.older

end System

end ThuasRiscv
