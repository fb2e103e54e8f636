import ThuasRiscv.Bus.System
import ThuasRiscv.Core.NmiLockout

/-!
# Watchdog

The watchdog is device 8 of the I/O bus. A wrong password, a write to the locked
control register and a counter that has run down raise `mustreset` for the next
clock. It is the NMI line of the core or, without `nmi`, a system reset.
-/

namespace ThuasRiscv

open Transition

/-! ## The device -/

/-- The clocked signals of the watchdog. -/
structure Wdt where
  en : Bool
  nmi : Bool
  lock : Bool
  prescaler : BitVec 24
  counter : DataType
  mustreset : Bool
  mustrestart : Bool
  deriving DecidableEq

namespace Wdt

/-- Watchdog password. -/
def password : DataType := 0x5c93a0f1

def reset : Wdt where
  en := false
  nmi := false
  lock := false
  prescaler := 0
  counter := 0
  mustreset := false
  mustrestart := false

variable (w : Wdt) (q : MemRequest)

/-- A write to the control register. -/
def writesControl : Bool := q.stb && q.isword && q.wren && !q.addr.getLsbD 2

/-- A write to the reset (trigger) register. -/
def writesPassword : Bool := q.stb && q.isword && q.wren && q.addr.getLsbD 2

/-- The register that a read returns; the trigger register reads as zeros. -/
def readData : DataType :=
  if q.addr.getLsbD 2 then 0
  else w.prescaler ++ (BitVec.ofBool w.lock ++ 0#5 ++ BitVec.ofBool w.nmi ++ BitVec.ofBool w.en)

/-- The writes of one clock. -/
def written : Wdt :=
  let w := { w with mustreset := false, mustrestart := false }
  if writesControl q then
    if w.lock then { w with mustreset := true }
    else
      { w with
        en := q.data.getLsbD 0
        nmi := q.data.getLsbD 1
        lock := q.data.getLsbD 7
        prescaler := q.data.extractLsb' 8 24
        mustrestart := true }
  else if writesPassword q then
    if q.data = password then { w with mustrestart := true } else { w with mustreset := true }
  else w

/-- One clock. The counter looks at the registers before the writes of the clock. -/
def clock (sreset : Bool) : Wdt :=
  if sreset then .reset
  else if w.en then
    if w.mustrestart then { w.written q with counter := w.prescaler ++ 0xff#8 }
    else if w.counter = 0 then { w.written q with mustreset := true }
    else { w.written q with counter := w.counter - 1 }
  else w.written q

/-- The NMI line of the core. -/
def irq : Bool := w.mustreset && w.nmi

/-- A system reset. -/
def resets : Bool := w.mustreset && !w.nmi

/-! ## Violations -/

/-- A write to the locked control register, or a wrong password. -/
def badWrite : Bool := writesControl q && w.lock || writesPassword q && q.data ≠ password

/-- The counter has run down. -/
def expired : Bool := w.en && !w.mustrestart && w.counter = 0

/-- The NMI mode after a clock. -/
def keepsNmi : Bool := if writesControl q && !w.lock then q.data.getLsbD 1 else w.nmi

theorem mustreset_clock : (w.clock q false).mustreset = (w.badWrite q || w.expired) := by
  have hexcl : writesControl q = true → writesPassword q = false := by
    simp only [writesControl, writesPassword]
    cases q.addr.getLsbD 2 <;> simp
  have hwritten : (w.written q).mustreset = w.badWrite q := by
    unfold written badWrite
    cases hc : writesControl q with
    | true => cases hl : w.lock <;> simp [hexcl hc]
    | false =>
      cases writesPassword q <;> by_cases hp : q.data = password <;> simp [hp]
  rw [clock, if_neg Bool.false_ne_true, expired, ← hwritten]
  split_ifs with hen hrestart hzero
  · simp [hrestart]
  · simp [hen, hrestart, hzero]
  · have hno : decide (w.counter = 0) = false := decide_eq_false hzero
    rw [hno, Bool.and_false, Bool.or_false]
  · simp [hen]

theorem nmi_clock : (w.clock q false).nmi = w.keepsNmi q := by
  have hwritten : (w.written q).nmi = w.keepsNmi q := by
    unfold written keepsNmi
    cases writesControl q <;> cases w.lock <;> cases writesPassword q <;>
      by_cases hp : q.data = password <;> simp [hp]
  rw [clock, if_neg Bool.false_ne_true, ← hwritten]
  split_ifs <;> rfl

/-- The line in the next clock. -/
theorem irq_clock :
    (w.clock q false).irq = ((w.badWrite q || w.expired) && w.keepsNmi q) := by
  rw [irq, mustreset_clock, nmi_clock]

end Wdt

/-! ## The system with its watchdog -/

/-- The core, the data bus and the watchdog. -/
structure WdtSystem (nRom nBoot nRam : ℕ) where
  sys : System nRom nBoot nRam
  wdt : Wdt

namespace WdtSystem

variable {nRom nBoot nRam : ℕ} (g : SystemGenerics) (io : Peripherals)
  (s : WdtSystem nRom nBoot nRam) (i : SystemInput)

/-- System reset: by the watchdog, or from one of the sources outside of the system. -/
def sresetSys : Bool := i.core.sreset || s.wdt.resets

/-- The lines of the core that the watchdog drives: its interrupt is number 31. -/
def coreLines : CoreInput :=
  { i.core with
    sreset := s.sresetSys i
    intrio := setBit i.core.intrio 31 s.wdt.irq }

/-- The group of 256 bytes that belongs to the watchdog. -/
def wdtDevice : Fin 16 := 8

/-- The request to the watchdog. -/
def wdtRequest : MemRequest :=
  IoBusSwitch.devRequest (g.bus.map.memRequestIo (s.sys.core.busRequest g.core (s.coreLines i)))
    wdtDevice

/-- What the rest of the system reads. -/
def sysInput : SystemInput where
  core := s.coreLines i
  bus := { i.bus with
    values := Function.update i.bus.values wdtDevice (s.wdt.readData (s.wdtRequest g i)) }

/-- The input port of the core. -/
def coreInput : CoreInput := s.sys.coreInput g (s.sysInput g i)

def step : WdtSystem nRom nBoot nRam where
  sys := s.sys.step g io (s.sysInput g i)
  wdt := s.wdt.clock (s.wdtRequest g i) (s.sresetSys i)

def initial (nRom nBoot nRam : ℕ) (loadAccessError storeAccessError : Bool) :
    WdtSystem nRom nBoot nRam where
  sys := .initial g nRom nBoot nRam loadAccessError storeAccessError
  wdt := .reset

/-- The system with its watchdog as a clocked machine. -/
def machine (nRom nBoot nRam : ℕ) (loadAccessError storeAccessError : Bool) :
    Machine (WdtSystem nRom nBoot nRam) SystemInput :=
  ⟨initial g nRom nBoot nRam loadAccessError storeAccessError, step g io⟩

end WdtSystem

end ThuasRiscv
