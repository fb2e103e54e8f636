import ThuasRiscv.Core.CsrWarl
import ThuasRiscv.Core.RegisterFile
import ThuasRiscv.Core.TrapEntry

/-!
# The hart in debug mode

What the lines of the Debug Module do to a halted hart: they write a CSR or a
general purpose register, and everything else proceeds as without them.
-/

namespace ThuasRiscv

open Transition

/-! ## Writes of the CSRs by the debugger -/

/-- The address of one of the performance counters and selectors 3 to 9. -/
def hpmAddr (base : CsrAddr) (k : Fin 7) : CsrAddr := base + BitVec.ofNat 12 (k.val + 3)

theorem hpmAddr_of_hpmIndex {base addr : CsrAddr} {k : Fin 7} (h : hpmIndex base addr = some k) :
    addr = hpmAddr base k := by
  simp only [hpmIndex] at h
  split_ifs at h with hn
  cases h
  apply BitVec.eq_of_toNat_eq
  simp only [hpmAddr, BitVec.toNat_add, BitVec.toNat_ofNat, BitVec.toNat_sub] at hn ⊢
  omega

/-- All registers but the one at an address are the same. -/
structure CsrReg.SameExcept (a : CsrAddr) (n m : CsrReg) : Prop where
  mstatus : a ≠ mstatusAddr → m.mstatus = n.mstatus
  mie : a ≠ mieAddr → m.mie = n.mie
  mtvec : a ≠ mtvecAddr → m.mtvec = n.mtvec
  mcountinhibit : a ≠ mcountinhibitAddr → m.mcountinhibit = n.mcountinhibit
  mscratch : a ≠ mscratchAddr → m.mscratch = n.mscratch
  mepc : a ≠ mepcAddr → m.mepc = n.mepc
  mcause : a ≠ mcauseAddr → m.mcause = n.mcause
  mtval : a ≠ mtvalAddr → m.mtval = n.mtval
  mcycle : a ≠ mcycleAddr → m.mcycle = n.mcycle
  mcycleh : a ≠ mcyclehAddr → m.mcycleh = n.mcycleh
  minstret : a ≠ minstretAddr → m.minstret = n.minstret
  minstreth : a ≠ minstrethAddr → m.minstreth = n.minstreth
  mhpmcounter : ∀ k, a ≠ hpmAddr mhpmcounterBase k → m.mhpmcounter k = n.mhpmcounter k
  mhpmcounterh : ∀ k, a ≠ hpmAddr mhpmcounterhBase k → m.mhpmcounterh k = n.mhpmcounterh k
  mhpmevent : ∀ k, a ≠ hpmAddr mhpmeventBase k → m.mhpmevent k = n.mhpmevent k
  dcsr : a ≠ dcsrAddr → m.dcsr = n.dcsr
  dpc : a ≠ dpcAddr → m.dpc = n.dpc
  tselect : m.tselect = n.tselect
  tdata1 : a ≠ tdata1Addr → m.tdata1 = n.tdata1
  tdata2 : a ≠ tdata2Addr → m.tdata2 = n.tdata2

namespace CsrReg

variable {cfg : Generics}

/-- The end of the CSR process when there is neither a trap entry nor a trap release. -/
def settle (cfg : Generics) (n : CsrReg) : CsrReg :=
  { n.hardwire cfg with mepc := mepcOf n.mepc }

theorem update_of_hpm {base a : CsrAddr} {k k' : Fin 7} (h : a ≠ hpmAddr base k)
    (hk : hpmIndex base a = some k') (c : Fin 7 → DataType) (v : DataType) :
    Function.update c k' v k = c k := by
  apply Function.update_of_ne
  rintro rfl
  exact h (hpmAddr_of_hpmIndex hk)

theorem sameExcept_debugWrite (n : CsrReg) (a : CsrAddr) (v : DataType) :
    SameExcept a n (n.debugWrite a v) := by
  unfold debugWrite writeBack
  constructor
  case mhpmcounter =>
    intro k h
    repeat refine field_ite (fun c => c.mhpmcounter k) (fun _ => rfl) ?_
    split <;> (try split) <;> (try split) <;> first | rfl | exact update_of_hpm h ‹_› _ _
  case mhpmcounterh =>
    intro k h
    repeat refine field_ite (fun c => c.mhpmcounterh k) (fun _ => rfl) ?_
    split <;> (try split) <;> (try split) <;> first | rfl | exact update_of_hpm h ‹_› _ _
  case mhpmevent =>
    intro k h
    repeat refine field_ite (fun c => c.mhpmevent k) (fun _ => rfl) ?_
    split <;> (try split) <;> (try split) <;> first | rfl | exact update_of_hpm h ‹_› _ _
  case tselect =>
    repeat refine field_ite _ (fun _ => rfl) ?_
    split <;> (try split) <;> (try split) <;> rfl
  all_goals
    intro h
    repeat refine field_ite _ (fun h' => by first | rfl | exact absurd h' h) ?_
    split <;> (try split) <;> (try split) <;> rfl

/-- The hard wired bits belong to single registers. -/
theorem SameExcept.settle {a : CsrAddr} {n m : CsrReg} (h : SameExcept a n m) :
    SameExcept a (settle cfg n) (settle cfg m) where
  mstatus ha := congrArg (· &&& mstatusMask) (h.mstatus ha)
  mie ha := congrArg (· &&& mieMask) (h.mie ha)
  mtvec ha := congrArg (setBit · 1 false) (h.mtvec ha)
  mcountinhibit ha := congrArg (· &&& mcountinhibitMask cfg) (h.mcountinhibit ha)
  mscratch := h.mscratch
  mepc ha := congrArg mepcOf (h.mepc ha)
  mcause ha := congrArg (· &&& mcauseMask) (h.mcause ha)
  mtval := h.mtval
  mcycle := h.mcycle
  mcycleh := h.mcycleh
  minstret := h.minstret
  minstreth := h.minstreth
  mhpmcounter k ha := by simp only [CsrReg.settle, hardwire, h.mhpmcounter k ha]
  mhpmcounterh k ha := by simp only [CsrReg.settle, hardwire, h.mhpmcounterh k ha]
  mhpmevent k ha := by simp only [CsrReg.settle, hardwire, h.mhpmevent k ha]
  dcsr ha := by simp only [CsrReg.settle, hardwire, h.dcsr ha]
  dpc ha := by simp only [CsrReg.settle, hardwire, h.dpc ha]
  tselect := rfl
  tdata1 ha := by simp only [CsrReg.settle, hardwire, h.tdata1 ha]
  tdata2 ha := by simp only [CsrReg.settle, hardwire, h.tdata2 ha]

/-! ## A clock in debug mode -/

/-- The registers before the debugger writes one. -/
def halted (cfg : Generics) (c : CsrReg) (g : CsrSignals) : CsrReg :=
  let n := c.countUp cfg false g.event
  let n := n.loadCause cfg g.dcsrCause
  if g.loadDpc && cfg.haveOcd then { n with dpc := g.trap.pc } else n

theorem next_halted {c : CsrReg} {g : CsrSignals} (hi : g.indebug = true)
    (ht : g.stallOnTrigger = true) (hrel : g.trapRelease = false) (hret : g.instret = false) :
    c.next cfg g = settle cfg (if g.writecsr && cfg.haveOcd then
      (c.halted cfg g).debugWrite g.addr g.debugData else c.halted cfg g) := by
  have hw : g.writes = false := by simp [CsrSignals.writes, hi]
  have he : g.entersTrap = false := by simp [CsrSignals.entersTrap, ht]
  simp only [next_eq, written, hw, he, hrel, hret, hi, Bool.true_and, Bool.false_eq_true, if_false]
  rfl

/-! ## Unimplemented addresses -/

/-- The counters that are not configured hold zeros. -/
def CountersOff (cfg : Generics) (c : CsrReg) : Prop :=
  cfg.haveZihpm = false → ∀ k, c.mhpmcounter k = 0 ∧ c.mhpmcounterh k = 0 ∧ c.mhpmevent k = 0

theorem hpmNumber_of_hpmIndex {base addr : CsrAddr} {k : Fin 7} (h : hpmIndex base addr = some k) :
    (hpmNumber base addr).isSome = true := by
  simp only [hpmIndex, hpmNumber] at h ⊢
  split_ifs at h with hn
  rw [if_pos ⟨hn.1, hn.2.trans (by decide)⟩]
  rfl

/-- A bank of counters is addressed only when it is configured. -/
theorem hpmIndex_of_unimplemented {indebug : Bool} {a : CsrAddr}
    (h : implementedCsr cfg indebug a = false) (hz : cfg.haveZihpm = true) :
    hpmIndex hpmcounterBase a = none ∧ hpmIndex hpmcounterhBase a = none ∧
      hpmIndex mhpmcounterBase a = none ∧ hpmIndex mhpmcounterhBase a = none ∧
      hpmIndex mhpmeventBase a = none := by
  have hno : ∀ base, (hpmNumber base a).isSome = false → hpmIndex base a = none := by
    intro base hn
    cases hk : hpmIndex base a with
    | none => rfl
    | some k =>
      rw [hpmNumber_of_hpmIndex hk] at hn
      cases hn
  simp only [implementedCsr, hz, Bool.true_and, Bool.or_eq_false_iff] at h
  exact ⟨hno _ h.1.1.1.1.1.2.1, hno _ h.1.1.1.1.1.2.2, hno _ h.1.1.1.2.1.1, hno _ h.1.1.1.2.1.2,
    hno _ h.1.1.1.2.2⟩

/-- An unimplemented address has no register. -/
theorem read_unimplemented {io : Peripherals} {w : CsrWires} {c : CsrReg} {a : CsrAddr}
    (ho : cfg.haveOcd = true) (hc : CountersOff cfg c) (h : implementedCsr cfg true a = false) :
    c.read cfg io w a = 0 := by
  have hidx := hpmIndex_of_unimplemented h
  simp only [implementedCsr, ho, Bool.true_and, Bool.or_eq_false_iff, decide_eq_false_iff_not,
    List.mem_cons, List.not_mem_nil, or_false, not_or] at h
  simp only [read, h, or_false, if_false]
  cases hz : cfg.haveZihpm with
  | true => simp [hidx hz]
  | false =>
    have hoff := hc hz
    split <;> (try split) <;> (try split) <;> (try split) <;> (try split) <;> simp [hoff]

/-- Every address that the debugger can write is implemented. -/
theorem debugWrite_unimplemented {n : CsrReg} {a : CsrAddr} {v : DataType}
    (ho : cfg.haveOcd = true) (h : implementedCsr cfg true a = false) :
    settle cfg (n.debugWrite a v) = settle cfg n := by
  have hidx := hpmIndex_of_unimplemented h
  simp only [implementedCsr, ho, Bool.true_and, Bool.or_eq_false_iff, decide_eq_false_iff_not,
    List.mem_cons, List.not_mem_nil, or_false, not_or] at h
  simp only [debugWrite, writeBack, h, if_false]
  cases hz : cfg.haveZihpm with
  | true => simp [hidx hz]
  | false =>
    split <;> (try split) <;> (try split) <;> simp [settle, hardwire, hz]

end CsrReg

/-- The copies of the registers: one for each operand and one for the debug read. -/
inductive RegCopy where
  | rs1 | rs2 | debug
  deriving DecidableEq

def RegisterFile.copy (cfg : Generics) (r : RegisterFile) : RegCopy → RegType → DataType
  | .rs1 => r.port1 cfg
  | .rs2 => r.port2 cfg
  | .debug => r.regsDebug

namespace Core

variable {cfg : Generics} {io : Peripherals} {s : Core} {i : CoreInput}

/-! ## A clock in debug mode -/

/-- The CSRs of a halted hart before the debugger writes one. -/
def haltedCsr (cfg : Generics) (s : Core) (i : CoreInput) : CsrReg :=
  s.csr.halted cfg (s.csrSignals cfg { i with dm := .idle })

section Halted

variable (hd : s.indebug = true) (ho : cfg.haveOcd = true)
include hd ho

theorem stallOnTrigger_halted : s.stallOnTrigger cfg i = true := by
  have hs : s.control.state = .debug := by simpa [indebug] using hd
  rw [stallOnTrigger_eq, hs, ho]

theorem nextCsr_halted : s.nextCsr cfg i = CsrReg.settle cfg
    (if i.dm.writecsr then
      (s.haltedCsr cfg i).debugWrite (i.dm.address.extractLsb' 0 12) i.dm.data
    else s.haltedCsr cfg i) := by
  have hs : s.control.state = .debug := by simpa [indebug] using hd
  have htrig : s.stallOnTrigger cfg i = true := stallOnTrigger_halted hd ho
  have hret : s.instret cfg i = false := by simp [instret, hs]
  have hrel : s.trapRelease = false := by simp [trapRelease, hs]
  have haddr : s.csrAddrV i = i.dm.address.extractLsb' 0 12 := by simp [csrAddrV, hd]
  rw [nextCsr, CsrReg.next_halted hd htrig hrel hret, ho, Bool.and_true, ← haddr]
  rfl

theorem copy_halted (hr : i.sreset = false) (p : RegCopy) (r : RegType) :
    (s.nextRegs cfg io i).copy cfg p r =
      if cfg.haveRegistersInRam = false ∧ r = 0 then 0
      else if i.dm.writegpr = true ∧ r = i.dm.address.extractLsb' 0 5 then i.dm.data
      else s.regs.copy cfg p r := by
  have hw : ∀ regs : RegType → DataType, writeRegs regs (s.regWrite cfg io i) r =
      if i.dm.writegpr = true ∧ r = i.dm.address.extractLsb' 0 5 then i.dm.data else regs r := by
    intro regs
    rw [regWrite_indebug hd]
    cases i.dm.writegpr
    · simp
    · simp only [if_true, true_and]
      exact writeRegs_some _ _ _ _
  cases p with
  | rs1 => rw [RegisterFile.copy, port1_nextRegs (.inr hr), hw]; rfl
  | rs2 => rw [RegisterFile.copy, port2_nextRegs (.inr hr), hw]; rfl
  | debug =>
    rw [RegisterFile.copy, nextRegs]
    cases hram : cfg.haveRegistersInRam with
    | true => simp [ramRegs, ho, hw, RegisterFile.copy]
    | false => simp [hr, flopRegs, Function.update_apply, hw, RegisterFile.copy]

theorem dataFromGpr_halted (hr : i.sreset = false) :
    (s.nextRegs cfg io i).dataFromGpr = s.regs.regsDebug (i.dm.address.extractLsb' 0 5) := by
  have hsel : s.debugSelect i = i.dm.address.extractLsb' 0 5 := by simp [debugSelect, hd]
  rw [nextRegs]
  cases hram : cfg.haveRegistersInRam with
  | true => simp [ramRegs, ho, hsel]
  | false => simp [hr, flopRegs, hsel]

end Halted

section Undriven

variable (hd : s.indebug = true) (ho : cfg.haveOcd = true) (hr : i.sreset = false)
include hd ho hr

theorem step_csr_halted : (s.step cfg io i).csr = CsrReg.settle cfg
    (if i.dm.writecsr then
      (s.haltedCsr cfg i).debugWrite (i.dm.address.extractLsb' 0 12) i.dm.data
    else s.haltedCsr cfg i) := by
  rw [step_clock _ _ _ _ hr, clock_csr, nextCsr_halted hd ho]

theorem step_copy_halted (p : RegCopy) (r : RegType) : (s.step cfg io i).regs.copy cfg p r =
    if cfg.haveRegistersInRam = false ∧ r = 0 then 0
    else if i.dm.writegpr = true ∧ r = i.dm.address.extractLsb' 0 5 then i.dm.data
    else s.regs.copy cfg p r := by
  rw [step_clock _ _ _ _ hr, clock_regs, copy_halted hd ho hr]

/-- Without a write the CSRs are the same as without the Debug Module. -/
theorem csr_undriven (hw : i.dm.writecsr = false) :
    (s.step cfg io i).csr = (s.step cfg io { i with dm := .idle }).csr := by
  have hidle : (s.step cfg io { i with dm := .idle }).csr = CsrReg.settle cfg (s.haltedCsr cfg i) :=
    step_csr_halted (i := { i with dm := .idle }) hd ho hr
  rw [hidle, step_csr_halted hd ho hr, hw]
  rfl

/-- Without a write the registers are the same as without the Debug Module. -/
theorem copy_undriven (hw : i.dm.writegpr = false) (p : RegCopy) (r : RegType) :
    (s.step cfg io i).regs.copy cfg p r =
      (s.step cfg io { i with dm := .idle }).regs.copy cfg p r := by
  rw [step_copy_halted hd ho hr, step_copy_halted (i := { i with dm := .idle }) hd ho hr, hw]
  rfl

end Undriven

/-! ## Entering debug mode -/

/-- What holds of a halted hart in every run, and of the counters that are not configured. -/
structure HaltedInv (cfg : Generics) (s : Core) : Prop where
  haveOcd : s.indebug = true → cfg.haveOcd = true
  haltAck : s.indebug = true → s.control.haltAck = true
  legal : s.indebug = true → s.idEx.illegalInstructionDecode = false
  counters : s.csr.CountersOff cfg

/-- A hart that enters debug mode, or stays there, acknowledges the halt. -/
theorem haltAck_of_stateNext (h : s.stateNext cfg i = .debug) :
    (s.nextControl cfg i).haltAck = true := by
  unfold stateNext at h
  unfold nextControl
  cases hs : s.control.state <;> simp only [hs] at h ⊢
  case exec =>
    rw [execControl_haltAck]
    exact execNext_eq_debug_iff.mp h
  case wfi =>
    split_ifs at h ⊢
    rfl
  case debug =>
    split_ifs at h ⊢
    rfl
  all_goals first | cases h | (split_ifs at h)

theorem legal_of_no_trap (h : s.trapRequest cfg i = false) :
    s.idEx.illegalInstructionDecode = false := (noException_of_trapRequest h).illegal

theorem legal_of_stateNext (hdebug : s.indebug = true → cfg.haveOcd = true)
    (h : s.stateNext cfg i = .debug) : (s.nextIdEx cfg i).illegalInstructionDecode = false := by
  rw [nextIdEx_eq]
  cases ha : s.advance cfg i with
  | trigger => rfl
  | trap => rfl
  | stall => exact legal_of_no_trap (advance_eq_stall_iff.mp ha).2.1
  | bubble => rfl
  | decode =>
    exfalso
    have hl : s.leaves cfg i = true := (advance_eq_decode_iff.mp ha).1
    simp only [leaves, Bool.and_eq_true, Bool.not_eq_true'] at hl
    obtain ⟨⟨hstall, htrig⟩, -⟩ := hl
    rw [stallOnTrigger_eq] at htrig
    rw [stall_eq] at hstall
    unfold stateNext at h
    cases hs : s.control.state <;> simp only [hs] at h htrig hstall
    case exec =>
      rw [execNext_eq_debug_iff, htrig] at h
      cases h
    case debug =>
      rw [hdebug (by simp [indebug, hs])] at htrig
      cases htrig
    case wfi => cases hstall
    all_goals first | cases h | (split_ifs at h)

theorem countersOff_next {c : CsrReg} {g : CsrSignals} : (c.next cfg g).CountersOff cfg := by
  intro hz k
  apply CsrReg.next_cases fun n => n.mhpmcounter k = 0 ∧ n.mhpmcounterh k = 0 ∧ n.mhpmevent k = 0
  all_goals simp [CsrReg.trapEntry, CsrReg.trapRelease, CsrReg.hardwire, hz]

theorem haltedInv_booting (hs : s.indebug = false) (hc : s.csr.CountersOff cfg) :
    HaltedInv cfg s := by
  constructor
  case counters => exact hc
  all_goals simp [hs]

theorem haltedInv_step (h : HaltedInv cfg s) : HaltedInv cfg (s.step cfg io i) := by
  cases hr : i.sreset with
  | true =>
    rw [step_reset _ _ _ _ hr]
    exact haltedInv_booting rfl fun _ _ => ⟨rfl, rfl, rfl⟩
  | false =>
    rw [step_clock _ _ _ _ hr]
    have hnext : (s.clock cfg io i).indebug = true → s.stateNext cfg i = .debug := by
      intro hd
      simpa [indebug, clock_state] using hd
    have hdebug : s.control.state = .debug → cfg.haveOcd = true :=
      fun hs => h.haveOcd (by simp [indebug, hs])
    exact ⟨fun hd => haveOcd_of_stateNext hdebug (hnext hd),
      fun hd => haltAck_of_stateNext (hnext hd), fun hd => legal_of_stateNext h.haveOcd (hnext hd),
      countersOff_next⟩

theorem haltedInv_of_reachable (h : (machine cfg io).Reachable Machine.free s) :
    HaltedInv cfg s :=
  h.invariant (P := HaltedInv cfg)
    (haltedInv_booting rfl fun _ _ => ⟨rfl, rfl, rfl⟩) fun _ _ _ _ hinv => haltedInv_step hinv

end Core

end ThuasRiscv
