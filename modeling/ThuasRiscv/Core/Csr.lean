import ThuasRiscv.Core.State

/-!
# Control and Status Registers

The CSR process: which addresses exist, what a read returns, how an instruction
or the Debug Module writes, which bits are hard wired, and what a trap entry
and a trap release do. One clock of the process is a chain of updates in which
a later one overrides an earlier one, while every read sees the old registers.
-/

namespace ThuasRiscv

/-- A word with one bit replaced. -/
def setBit (x : DataType) (i : ℕ) (b : Bool) : DataType :=
  if b then x ||| BitVec.twoPow 32 i else x &&& ~~~BitVec.twoPow 32 i

theorem getLsbD_setBit (x : DataType) {i : ℕ} (hi : i < 32) (b : Bool) (j : ℕ) :
    (setBit x i b).getLsbD j = if j = i then b else x.getLsbD j := by
  by_cases hj : j = i
  · subst hj
    cases b <;> simp [setBit, hi]
  · have hij : ¬ i = j := fun h => hj h.symm
    cases b <;> simp [setBit, hj, hij]
    intro h
    exact BitVec.lt_of_getLsbD h

/-! ## Addresses -/

abbrev CsrAddr := BitVec 12

def cycleAddr : CsrAddr := 0xc00
def timeAddr : CsrAddr := 0xc01
def instretAddr : CsrAddr := 0xc02
def cyclehAddr : CsrAddr := 0xc80
def timehAddr : CsrAddr := 0xc81
def instrethAddr : CsrAddr := 0xc82
def mvendoridAddr : CsrAddr := 0xf11
def marchidAddr : CsrAddr := 0xf12
def mimpidAddr : CsrAddr := 0xf13
def mhartidAddr : CsrAddr := 0xf14
def mconfigptrAddr : CsrAddr := 0xf15
def mstatusAddr : CsrAddr := 0x300
def misaAddr : CsrAddr := 0x301
def mieAddr : CsrAddr := 0x304
def mtvecAddr : CsrAddr := 0x305
def mcounterenAddr : CsrAddr := 0x306
def mstatushAddr : CsrAddr := 0x310
def mcountinhibitAddr : CsrAddr := 0x320
def mscratchAddr : CsrAddr := 0x340
def mepcAddr : CsrAddr := 0x341
def mcauseAddr : CsrAddr := 0x342
def mtvalAddr : CsrAddr := 0x343
def mipAddr : CsrAddr := 0x344
def mcycleAddr : CsrAddr := 0xb00
def minstretAddr : CsrAddr := 0xb02
def mcyclehAddr : CsrAddr := 0xb80
def minstrethAddr : CsrAddr := 0xb82
def dcsrAddr : CsrAddr := 0x7b0
def dpcAddr : CsrAddr := 0x7b1
def tselectAddr : CsrAddr := 0x7a0
def tdata1Addr : CsrAddr := 0x7a1
def tdata2Addr : CsrAddr := 0x7a2
def tdata3Addr : CsrAddr := 0x7a3
def tinfoAddr : CsrAddr := 0x7a4
def mxhwAddr : CsrAddr := 0xfc0
def mxspeedAddr : CsrAddr := 0xfc1

/-- Addresses of the performance counters and selectors 3, less 3. -/
def hpmcounterBase : CsrAddr := 0xc00
def hpmcounterhBase : CsrAddr := 0xc80
def mhpmcounterBase : CsrAddr := 0xb00
def mhpmcounterhBase : CsrAddr := 0xb80
def mhpmeventBase : CsrAddr := 0x320

/-- The counter, 3 to 31, that an address names in the bank that starts at `base`. -/
def hpmNumber (base addr : CsrAddr) : Option ℕ :=
  let n := (addr - base).toNat
  if 3 ≤ n ∧ n ≤ 31 then some n else none

/-- The index of one of the counters 3 to 9, the ones that have registers. -/
def hpmIndex (base addr : CsrAddr) : Option (Fin 7) :=
  let n := (addr - base).toNat
  if h : 3 ≤ n ∧ n ≤ 9 then some ⟨n - 3, by omega⟩ else none

/-- The addresses at which the process accepts an access. -/
def implementedCsr (cfg : Generics) (indebug : Bool) (addr : CsrAddr) : Bool :=
  addr ∈ [cycleAddr, timeAddr, instretAddr, cyclehAddr, timehAddr, instrethAddr] ||
  cfg.haveZihpm && ((hpmNumber hpmcounterBase addr).isSome ||
    (hpmNumber hpmcounterhBase addr).isSome) ||
  addr ∈ [mvendoridAddr, marchidAddr, mimpidAddr, mhartidAddr, mconfigptrAddr, mstatusAddr,
    misaAddr, mieAddr, mtvecAddr, mcounterenAddr, mstatushAddr, mcountinhibitAddr, mscratchAddr,
    mepcAddr, mcauseAddr, mtvalAddr, mipAddr, mcycleAddr, minstretAddr, mcyclehAddr,
    minstrethAddr] ||
  cfg.haveZihpm && ((hpmNumber mhpmcounterBase addr).isSome ||
    (hpmNumber mhpmcounterhBase addr).isSome || (hpmNumber mhpmeventBase addr).isSome) ||
  indebug && cfg.haveOcd && addr ∈ [dcsrAddr, dpcAddr] ||
  cfg.haveOcd && addr ∈ [tselectAddr, tdata1Addr, tdata2Addr, tdata3Addr, tinfoAddr] ||
  addr ∈ [mxhwAddr, mxspeedAddr]

/-! ## Reading -/

/-- Registers that the CSR process copies from the I/O. -/
structure CsrWires where
  mip : DataType
  mtime : DataType
  mtimeh : DataType

def misa (cfg : Generics) : DataType :=
  (0x4000#16 ++ 0b000#3) ++ BitVec.ofBool cfg.haveMuldiv ++
    (if cfg.haveRiscvE then 0x01#8 else 0x10#8) ++
    (if cfg.haveZba && cfg.haveZbb && cfg.haveZbs then 0x2#4 else 0x0#4)

/-- The peripherals that only `mxhw` reports. -/
structure Peripherals where
  haveUart1 : Bool
  haveUart2 : Bool
  haveI2c1 : Bool
  haveI2c2 : Bool
  haveSpi1 : Bool
  haveSpi2 : Bool
  haveTimer1 : Bool
  haveTimer2 : Bool
  uart1BreakResets : Bool
  haveWdt : Bool
  haveMsi : Bool
  haveCrc : Bool

/-- Custom read-only hardware description. -/
def mxhw (cfg : Generics) (io : Peripherals) : DataType :=
  (BitVec.ofBoolListLE
    [true, false, cfg.haveZbkb, cfg.fastMem, io.haveUart1, io.haveUart2, io.haveI2c1,
      io.haveI2c2, io.haveSpi1, io.haveSpi2, io.haveTimer1, io.haveTimer2, false, false, false,
      true, cfg.haveMuldiv, cfg.fastDivide && cfg.haveMuldiv, cfg.haveBootloaderRom,
      cfg.haveRegistersInRam, cfg.haveZba, cfg.haveZimop, cfg.haveZicond, cfg.haveZbs,
      io.uart1BreakResets, io.haveWdt, cfg.haveZihpm, cfg.haveOcd, io.haveMsi,
      cfg.bufferIoResponse, cfg.haveZbb, io.haveCrc]).setWidth 32

/-- The output to the ALU. Unused CSRs return all zero bits. -/
def CsrReg.read (cfg : Generics) (io : Peripherals) (w : CsrWires) (c : CsrReg)
    (addr : CsrAddr) : DataType :=
  if addr = cycleAddr ∨ addr = mcycleAddr then c.mcycle
  else if addr = timeAddr then w.mtime
  else if addr = instretAddr ∨ addr = minstretAddr then c.minstret
  else if addr = cyclehAddr ∨ addr = mcyclehAddr then c.mcycleh
  else if addr = timehAddr then w.mtimeh
  else if addr = instrethAddr ∨ addr = minstrethAddr then c.minstreth
  else if addr = mimpidAddr then cfg.hwVersion
  else if addr = mstatusAddr then c.mstatus
  else if addr = misaAddr then misa cfg
  else if addr = mieAddr then c.mie
  else if addr = mtvecAddr then c.mtvec
  else if addr = mcountinhibitAddr then c.mcountinhibit
  else if addr = mscratchAddr then c.mscratch
  else if addr = mepcAddr then c.mepc
  else if addr = mcauseAddr then c.mcause
  else if addr = mtvalAddr then c.mtval
  else if addr = mipAddr then w.mip
  else if addr = dcsrAddr then c.dcsr
  else if addr = dpcAddr then c.dpc
  else if addr = tselectAddr then c.tselect
  else if addr = tdata1Addr then c.tdata1
  else if addr = tdata2Addr then c.tdata2
  else if addr = tinfoAddr then if cfg.haveOcd then 0x01000040 else 0
  else if addr = mxhwAddr then mxhw cfg io
  else if addr = mxspeedAddr then cfg.systemFrequency
  else if let some k := hpmIndex hpmcounterBase addr then c.mhpmcounter k
  else if let some k := hpmIndex hpmcounterhBase addr then c.mhpmcounterh k
  else if let some k := hpmIndex mhpmcounterBase addr then c.mhpmcounter k
  else if let some k := hpmIndex mhpmcounterhBase addr then c.mhpmcounterh k
  else if let some k := hpmIndex mhpmeventBase addr then c.mhpmevent k
  else 0

/-! ## Writing -/

/-- The number of the selector 4, less 3. -/
abbrev CsrReg.selector4 : Fin 7 := 1

/-- The old content that a CSR instruction modifies. The selector 4 is missing in the source, so
that its old content is undefined. -/
def CsrReg.content (c : CsrReg) (dontCare : DataType) (addr : CsrAddr) : DataType :=
  if addr = mcycleAddr then c.mcycle
  else if addr = mcyclehAddr then c.mcycleh
  else if addr = minstretAddr then c.minstret
  else if addr = minstrethAddr then c.minstreth
  else if addr = mstatusAddr then c.mstatus
  else if addr = mieAddr then c.mie
  else if addr = mtvecAddr then c.mtvec
  else if addr = mcountinhibitAddr then c.mcountinhibit
  else if addr = mscratchAddr then c.mscratch
  else if addr = mepcAddr then c.mepc
  else if addr = mcauseAddr then c.mcause
  else if addr = mtvalAddr then c.mtval
  else if addr = tdata1Addr then c.tdata1
  else if addr = tdata2Addr then c.tdata2
  else if let some k := hpmIndex mhpmeventBase addr then
    if k = 1 then dontCare else c.mhpmevent k
  else if let some k := hpmIndex mhpmcounterBase addr then c.mhpmcounter k
  else if let some k := hpmIndex mhpmcounterhBase addr then c.mhpmcounterh k
  else dontCare

/-- The operation of a CSR instruction on the old content. -/
def csrOperate (op : CsrOp) (dataout : DataType) (immrs1 : BitVec 5) (content : DataType) :
    DataType :=
  match op with
  | .nop => content
  | .rw => dataout
  | .rs => content ||| dataout
  | .rc => content &&& ~~~dataout
  | .rwi => immrs1.setWidth 32
  | .rsi => content ||| immrs1.setWidth 32
  | .rci => content &&& ~~~(immrs1.setWidth 32)

/-- Write back to the registers that both an instruction and the Debug Module can write. -/
def CsrReg.writeBack (c : CsrReg) (addr : CsrAddr) (v : DataType) : CsrReg :=
  if addr = mcycleAddr then { c with mcycle := v }
  else if addr = mcyclehAddr then { c with mcycleh := v }
  else if addr = minstretAddr then { c with minstret := v }
  else if addr = minstrethAddr then { c with minstreth := v }
  else if addr = mstatusAddr then { c with mstatus := v }
  else if addr = mieAddr then { c with mie := v }
  else if addr = mtvecAddr then { c with mtvec := v }
  else if addr = mcountinhibitAddr then { c with mcountinhibit := v }
  else if addr = mscratchAddr then { c with mscratch := v }
  else if addr = mepcAddr then { c with mepc := v }
  else if addr = mcauseAddr then { c with mcause := v }
  else if addr = mtvalAddr then { c with mtval := v }
  else if addr = tdata1Addr then { c with tdata1 := v }
  else if addr = tdata2Addr then { c with tdata2 := v }
  else if let some k := hpmIndex mhpmeventBase addr then
    { c with mhpmevent := Function.update c.mhpmevent k v }
  else if let some k := hpmIndex mhpmcounterBase addr then
    { c with mhpmcounter := Function.update c.mhpmcounter k v }
  else if let some k := hpmIndex mhpmcounterhBase addr then
    { c with mhpmcounterh := Function.update c.mhpmcounterh k v }
  else c

/-- The Debug Module can also write the debug registers. -/
def CsrReg.debugWrite (c : CsrReg) (addr : CsrAddr) (v : DataType) : CsrReg :=
  if addr = dcsrAddr then { c with dcsr := v }
  else if addr = dpcAddr then { c with dpc := v }
  else c.writeBack addr v

/-! ## Counters -/

/-- A 64-bit counter in two words. -/
def bump (enable : Bool) (low high : DataType) : DataType × DataType :=
  if enable then (low + 1, if low = BitVec.allOnes 32 then high + 1 else high) else (low, high)

/-- Count cycles, retired instructions and events, unless inhibited. -/
def CsrReg.countUp (cfg : Generics) (c : CsrReg) (instret : Bool) (event : Fin 7 → Bool) :
    CsrReg :=
  let cycle := bump (!c.mcountinhibit.getLsbD 0) c.mcycle c.mcycleh
  let retired := bump (instret && !c.mcountinhibit.getLsbD 2) c.minstret c.minstreth
  let hpm k := bump (cfg.haveZihpm && event k && !c.mcountinhibit.getLsbD (k.val + 3))
    (c.mhpmcounter k) (c.mhpmcounterh k)
  { c with
    mcycle := cycle.1
    mcycleh := cycle.2
    minstret := retired.1
    minstreth := retired.2
    mhpmcounter := fun k => (hpm k).1
    mhpmcounterh := fun k => (hpm k).2 }

/-! ## Hard wired bits -/

def mieMask : DataType := 0x00000088
def mstatusMask : DataType := 0x000018e8
def mcauseMask : DataType := 0x8000001f

def mcountinhibitMask (cfg : Generics) : DataType :=
  if cfg.haveZihpm then 0x000003fd else 0x00000005

/-- Bits that can change in `dcsr`: ebreakm, cause and step; the rest reads as version 1.0, M mode. -/
def dcsrMask : DataType := 0x000081c4
def dcsrFixed : DataType := 0x40000003

/-- Bits that can change in `tdata1`; the rest reads as type 6. -/
def tdata1Mask : DataType := 0x0867ffc4
def tdata1Fixed : DataType := 0x60000000

def CsrReg.hardwire (cfg : Generics) (c : CsrReg) : CsrReg :=
  { c with
    mie := c.mie &&& mieMask
    mstatus := c.mstatus &&& mstatusMask
    mcountinhibit := c.mcountinhibit &&& mcountinhibitMask cfg
    mtvec := setBit c.mtvec 1 false
    mcause := c.mcause &&& mcauseMask
    mhpmcounter := fun k => if cfg.haveZihpm then c.mhpmcounter k else 0
    mhpmcounterh := fun k => if cfg.haveZihpm then c.mhpmcounterh k &&& 0xff else 0
    mhpmevent := fun k => if cfg.haveZihpm then c.mhpmevent k &&& 0x7f else 0
    dcsr := if cfg.haveOcd then c.dcsr &&& dcsrMask ||| dcsrFixed else 0
    tdata1 := if cfg.haveOcd then c.tdata1 &&& tdata1Mask ||| tdata1Fixed else 0
    tdata2 := if cfg.haveOcd then c.tdata2 else 0
    dpc := if cfg.haveOcd then setBit c.dpc 0 false else 0
    tselect := 0 }

/-! ## Debug entry, trap entry and trap release -/

/-- Set the cause for halting in DCSR. Bit 3 of the cause is the load flag. -/
def CsrReg.loadCause (cfg : Generics) (c : CsrReg) (cause : BitVec 4) : CsrReg :=
  if cause.getLsbD 3 && cfg.haveOcd then
    { c with
      dcsr := setBit (setBit (setBit c.dcsr 6 (cause.getLsbD 0)) 7 (cause.getLsbD 1)) 8
        (cause.getLsbD 2)
      tdata1 := if cause.extractLsb' 0 3 = 0b010 then setBit c.tdata1 22 true else c.tdata1 }
  else c

/-- The lowest two bits of mepc are always 0. -/
def mepcOf (pc : DataType) : DataType := setBit (setBit pc 0 false) 1 false

/-- Set M mode, and the two interrupt enable bits. -/
def mstatusWith (mstatus : DataType) (mpie mie : Bool) : DataType :=
  setBit (setBit (setBit (setBit mstatus 7 mpie) 12 true) 11 true) 3 mie

theorem mstatusWith_mie (mstatus : DataType) (mpie mie : Bool) :
    (mstatusWith mstatus mpie mie).getLsbD 3 = mie := by
  rw [mstatusWith, getLsbD_setBit _ (by decide), if_pos rfl]

theorem mstatusWith_mpie (mstatus : DataType) (mpie mie : Bool) :
    (mstatusWith mstatus mpie mie).getLsbD 7 = mpie := by
  rw [mstatusWith, getLsbD_setBit _ (by decide), if_neg (by decide),
    getLsbD_setBit _ (by decide), if_neg (by decide), getLsbD_setBit _ (by decide),
    if_neg (by decide), getLsbD_setBit _ (by decide), if_pos rfl]

/-- What a trap entry saves. -/
structure TrapInfo where
  mcause : DataType
  pc : DataType
  addressToMtval : DataType

/-- MTVAL is zero for the fetch, illegal instruction and breakpoint exceptions and the latched
data address otherwise. -/
def mtvalOf (t : TrapInfo) : DataType :=
  if t.mcause = 0 ∨ t.mcause = 1 ∨ t.mcause = 2 ∨ t.mcause = 3 then 0 else t.addressToMtval

/-- Trap entry on the registers `n` computed so far; `c` are the old registers. -/
def CsrReg.trapEntry (c n : CsrReg) (t : TrapInfo) : CsrReg :=
  { n with
    mstatus := mstatusWith n.mstatus (c.mstatus.getLsbD 3) false
    mcause := t.mcause
    mepc := t.pc
    mtval := mtvalOf t }

/-- Trap release: MPIE goes to MIE. -/
def CsrReg.trapRelease (c n : CsrReg) : CsrReg :=
  { n with mstatus := mstatusWith n.mstatus true (c.mstatus.getLsbD 7) }

/-! ## One clock of the process -/

/-- The signals that the CSR process reads in one clock cycle. -/
structure CsrSignals where
  op : CsrOp
  addr : CsrAddr
  dataout : DataType
  immrs1 : BitVec 5
  dontCare : DataType
  instret : Bool
  event : Fin 7 → Bool
  trapRequest : Bool
  trapRelease : Bool
  stallOnTrigger : Bool
  indebug : Bool
  dcsrCause : BitVec 4
  loadDpc : Bool
  writecsr : Bool
  debugData : DataType
  trap : TrapInfo

/-- A CSR instruction updates its register in this cycle: no trap is pending, because the
instruction is restarted after MRET. -/
def CsrSignals.writes (s : CsrSignals) : Bool :=
  s.op ≠ .nop && !s.trapRequest && !s.indebug && !s.stallOnTrigger

/-- The process performs a trap entry in this cycle. -/
def CsrSignals.entersTrap (s : CsrSignals) : Bool := s.trapRequest && !s.stallOnTrigger

def CsrReg.next (cfg : Generics) (c : CsrReg) (s : CsrSignals) : CsrReg :=
  let n := c.countUp cfg s.instret s.event
  let n := if s.writes then
      n.writeBack s.addr (csrOperate s.op s.dataout s.immrs1 (c.content s.dontCare s.addr))
    else n
  let n := n.loadCause cfg s.dcsrCause
  let n := if s.loadDpc && cfg.haveOcd then { n with dpc := s.trap.pc } else n
  let n := if s.indebug && s.writecsr && cfg.haveOcd then n.debugWrite s.addr s.debugData else n
  let n := n.hardwire cfg
  let n := if s.entersTrap then c.trapEntry n s.trap
    else if s.trapRelease then c.trapRelease n else n
  { n with mepc := mepcOf n.mepc }

/-- What a trap entry leaves in the registers: MPIE gets the old MIE. -/
structure CsrReg.HoldsTrap (c : CsrReg) (t : TrapInfo) (mie : Bool) : Prop where
  mepc : c.mepc = mepcOf t.pc
  mcause : c.mcause = t.mcause
  mtval : c.mtval = mtvalOf t
  mpie : c.mstatus.getLsbD 7 = mie
  mie : c.mstatus.getLsbD 3 = false

theorem CsrReg.next_holdsTrap (cfg : Generics) (c : CsrReg) {s : CsrSignals}
    (h : s.entersTrap = true) : (c.next cfg s).HoldsTrap s.trap (c.mstatus.getLsbD 3) := by
  constructor <;> simp only [next, h, if_true, trapEntry]
  · exact mstatusWith_mpie _ _ _
  · exact mstatusWith_mie _ _ _

/-- The trap vector, direct or vectored. -/
def CsrReg.mtvecToPc (cfg : Generics) (c : CsrReg) : DataType :=
  let base : BitVec 30 := c.mtvec.extractLsb' 2 30
  if cfg.vectoredMtvec && c.mtvec.getLsbD 0 && c.mcause.getLsbD 31 then
    (base + (c.mcause.extractLsb' 0 6).setWidth 30) ++ 0b00#2
  else base ++ 0b00#2

end ThuasRiscv
