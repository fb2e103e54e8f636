import ThuasRiscv.Core.CsrFile
import ThuasRiscv.Core.IsaExecute
import ThuasRiscv.Core.PipelineInvariant

/-!
# The CSR instructions

An instruction that completes in the executing state does to the registers what the
instruction set says: it reads the old value, writes the bits of the mask, and leaves the other
registers alone. The selector 4 is missing in the list of old contents.
-/

namespace ThuasRiscv

open Transition
open Isa (Mnemonic)

/-! ## The registers after a plain clock -/

namespace CsrReg

variable {cfg : Generics} {c n : CsrReg} {g : CsrSignals} {r : CsrName}

/-- The hard wired bits are in place. -/
def Hardwired (cfg : Generics) (c : CsrReg) : Prop :=
  ∀ r, c.get r &&& r.mask cfg ||| r.fixed cfg = c.get r

theorem Hardwired.set (h : c.Hardwired cfg) {v : DataType}
    (hv : v &&& r.mask cfg ||| r.fixed cfg = v) : (c.set r v).Hardwired cfg := by
  intro r'
  rw [get_set]
  by_cases hr : r' = r
  · subst hr
    rw [Function.update_self, hv]
  · rw [Function.update_of_ne hr]
    exact h r'

theorem hardwired_hardwire (cfg : Generics) (n : CsrReg) :
    Hardwired cfg { n.hardwire cfg with mepc := mepcOf n.mepc } := by
  intro r
  rw [get_hardwire, BitVec.and_or_distrib_right, BitVec.and_assoc, BitVec.and_self,
    CsrName.fixed_and_mask, BitVec.or_assoc]
  exact congrArg _ BitVec.zero_or

theorem Hardwired.and_not_mask (h : c.Hardwired cfg) (r : CsrName) :
    c.get r &&& ~~~r.mask cfg = r.fixed cfg := by
  calc c.get r &&& ~~~r.mask cfg
      = (c.get r &&& r.mask cfg ||| r.fixed cfg) &&& ~~~r.mask cfg := by rw [h r]
    _ = r.fixed cfg := fixed_and_not _ _ (r.fixed_and_not_mask cfg)

theorem and_eq_self_of_and_not {x m : DataType} (h : x &&& ~~~m = 0) : x &&& m = x := by
  calc x &&& m = x &&& m ||| x &&& ~~~m := by rw [h]; exact BitVec.or_zero.symm
    _ = x := by rw [← BitVec.and_or_distrib_left, BitVec.or_not_self, BitVec.and_allOnes]

theorem mstatusWith_masked (x : DataType) (mpie mie : Bool) :
    mstatusWith (x &&& mstatusMask) mpie mie &&& mstatusMask =
      mstatusWith (x &&& mstatusMask) mpie mie := by
  apply and_eq_self_of_and_not
  rw [mstatusWith_and (by decide) (by decide) (by decide) (by decide)]
  exact and_and_not _ _

theorem mcause_masked {x : DataType} (h : x.extractLsb' 5 26 = 0) : x &&& mcauseMask = x := by
  apply BitVec.eq_of_getLsbD_eq
  intro j hj
  have hmask : ∀ j < 32, mcauseMask.getLsbD j = true ∨ 5 ≤ j ∧ j < 31 := by decide
  rw [BitVec.getLsbD_and]
  rcases hmask j hj with hm | ⟨hlo, hhi⟩
  · rw [hm, Bool.and_true]
  · have hbit : (x.extractLsb' 5 26).getLsbD (j - 5) = false := by rw [h]; simp
    rw [BitVec.getLsbD_extractLsb', Nat.add_sub_cancel' hlo] at hbit
    have hx : x.getLsbD j = false := by simpa [show j - 5 < 26 by omega] using hbit
    rw [hx, Bool.false_and]

/-- Every clock ends with the hard wired bits. -/
theorem hardwired_next (ht : g.trap.mcause.extractLsb' 5 26 = 0) :
    (c.next cfg g).Hardwired cfg := by
  have hmask : ∀ x : DataType, x ||| 0 = x := fun x => BitVec.or_zero
  have h := hardwired_hardwire cfg (c.written cfg g)
  have hmepc : ∀ x : DataType, mepcOf x &&& 0xfffffffc ||| 0 = mepcOf x := by
    intro x
    have heq : ∀ y : DataType, mepcOf y = y &&& 0xfffffffc := by
      intro y
      rw [mepcOf, setBit_false, setBit_false, BitVec.and_assoc]
      rfl
    rw [hmask, heq, BitVec.and_assoc]
    rfl
  apply next_cases (Hardwired cfg)
  · have hstatus := h.set (r := .mstatus) ((hmask _).trans (mstatusWith_masked
      (c.written cfg g).mstatus (c.mstatus.getLsbD 3) false))
    have hcause := hstatus.set (r := .mcause) ((hmask _).trans (mcause_masked ht))
    have htval := hcause.set (r := .mtval) (v := mtvalOf g.trap)
      ((hmask _).trans BitVec.and_allOnes)
    exact htval.set (r := .mepc) (hmepc g.trap.pc)
  · exact h.set (r := .mstatus) ((hmask _).trans (mstatusWith_masked (c.written cfg g).mstatus true
      (c.mstatus.getLsbD 7)))
  · exact h

/-- A clock without trap, trigger, debugger and flush, in which a left over cause is already in
`dcsr`. -/
structure Plain (cfg : Generics) (c : CsrReg) (g : CsrSignals) : Prop where
  trapRequest : g.trapRequest = false
  trapRelease : g.trapRelease = false
  indebug : g.indebug = false
  trigger : g.stallOnTrigger = false
  loadDpc : g.loadDpc = false
  cause : ∀ n : CsrReg, n.dcsr = c.dcsr → n.loadCause cfg g.dcsrCause = n

/-- What the write back of this clock leaves in a register, before the mask. -/
def wordNext (cfg : Generics) (c : CsrReg) (g : CsrSignals) (r : CsrName) : DataType :=
  if g.op ≠ .nop ∧ CsrName.at? g.addr = some r ∧ r.isDebugOnly = false then
    csrOperate g.op g.dataout g.immrs1 (c.content g.dontCare g.addr)
  else (c.countUp cfg g.instret g.event).get r

/-- A register after a plain clock. -/
theorem get_next (hg : Plain cfg c g) (r : CsrName) :
    (c.next cfg g).get r = c.wordNext cfg g r &&& r.mask cfg ||| r.fixed cfg := by
  have hentry : g.entersTrap = false := by rw [CsrSignals.entersTrap, hg.trapRequest]; rfl
  have hwrites : g.writes = decide (g.op ≠ .nop) := by
    rw [CsrSignals.writes, hg.trapRequest, hg.indebug, hg.trigger]
    simp
  have hcount : (c.countUp cfg g.instret g.event).dcsr = c.dcsr := rfl
  have hwritten : (c.written cfg g).get r = c.wordNext cfg g r := by
    simp only [written, hwrites, hg.indebug, hg.loadDpc, Bool.false_and, Bool.false_eq_true,
      if_false, decide_eq_true_eq, wordNext]
    by_cases hop : g.op = .nop
    · simp only [hop, ne_eq, not_true_eq_false, if_false, false_and]
      rw [hg.cause _ hcount]
    · simp only [hop, ne_eq, not_false_eq_true, if_true, true_and]
      rw [hg.cause _ ((writeBack_dcsr _ _ _).trans hcount), writeBack_eq]
      cases ha : CsrName.at? g.addr with
      | none => simp
      | some r' =>
        simp only [Option.some.injEq]
        by_cases hr : r' = r
        · subst hr
          cases hd : r'.isDebugOnly with
          | true => simp
          | false => simp [get_set]
        · rw [if_neg (c := r' = r ∧ r.isDebugOnly = false) fun h => hr h.1]
          split
          · rfl
          · rw [get_set, Function.update_of_ne (Ne.symm hr)]
  rw [next_eq]
  simp only [hentry, hg.trapRelease, Bool.false_eq_true, if_false]
  rw [← hwritten]
  exact get_hardwire _ _

/-- The cause of a resume clears the cause of the halt. -/
theorem loadCause_resume (h : cfg.haveOcd = true → n.dcsr.extractLsb' 6 3 = 0) :
    n.loadCause cfg 0b1000 = n := by
  unfold loadCause
  split
  · next hocd =>
    have hbit : ∀ k < 3, n.dcsr.getLsbD (6 + k) = false := by
      intro k hk
      have hk' := congrArg (BitVec.getLsbD · k) (h (by simpa using hocd))
      simpa [BitVec.getLsbD_extractLsb', hk] using hk'
    have h6 : setBit n.dcsr 6 false = n.dcsr := setBit_eq_self (by decide) (hbit 0 (by decide))
    have h7 : setBit n.dcsr 7 false = n.dcsr := setBit_eq_self (by decide) (hbit 1 (by decide))
    have h8 : setBit n.dcsr 8 false = n.dcsr := setBit_eq_self (by decide) (hbit 2 (by decide))
    have hdcsr : setBit (setBit (setBit n.dcsr 6 false) 7 false) 8 false = n.dcsr := by
      rw [h6, h7, h8]
    calc _ = { n with dcsr := setBit (setBit (setBit n.dcsr 6 false) 7 false) 8 false } := rfl
      _ = n := by rw [hdcsr]
  · rfl

end CsrReg

/-! ## The executing state -/

namespace Core

variable {cfg : Generics} {io : Peripherals} {s : Core} {i : CoreInput} {m : Mnemonic}
  {ebreakm isstepping : Bool} {pc w : DataType}

theorem execControl_dcsrCause_of_running (h : s.execNext cfg i ≠ .debug) :
    (s.execControl cfg i).dcsrCause = s.control.dcsrCause := by
  rw [ne_eq, execNext_eq_debug_iff, Bool.not_eq_true, triggers] at h
  unfold execControl
  simp only [apply_ite Control.dcsrCause, Control.halted, idleControl, ite_self]
  cases hocd : cfg.haveOcd
  · simp
  · rw [hocd, Bool.true_and, Bool.or_eq_false_iff, Bool.or_eq_false_iff, Bool.or_eq_false_iff] at h
    simp [h]

/-- The cause of a halt is loaded in debug mode; after that it clears `dcsr.cause` until the next
halt. -/
theorem nextControl_dcsrCause (h : s.stateNext cfg i ≠ .debug) :
    (s.nextControl cfg i).dcsrCause = 0b1000 ∧ s.control.state = .debug ∨
      (s.nextControl cfg i).dcsrCause = 0 ∨
      (s.nextControl cfg i).dcsrCause = s.control.dcsrCause ∧ s.control.state ≠ .debug := by
  unfold nextControl
  unfold stateNext at h
  cases hs : s.control.state <;> simp only [hs] at h
  case exec => exact .inr (.inr ⟨execControl_dcsrCause_of_running h, by decide⟩)
  case debug =>
    split at h
    · next hq => simp [hq, Control.resumed]
    · exact absurd rfl h
  case wfi =>
    split at h
    · exact absurd rfl h
    · next hq =>
      simp only [hq, apply_ite Control.dcsrCause, idleControl]
      simp
  all_goals simp [apply_ite Control.dcsrCause, idleControl]

/-- What the executing state finds in the CSR process, after a debug session too. -/
structure CsrSettled (cfg : Generics) (s : Core) : Prop where
  loadDpc : s.control.loadDpc = true → s.control.state = .debug
  cause : s.control.state ≠ .debug → s.control.dcsrCause = 0 ∨ s.control.dcsrCause = 0b1000
  cleared : s.control.state ≠ .debug → s.control.state ≠ .debugflush →
    s.control.dcsrCause = 0b1000 → cfg.haveOcd = true → s.csr.dcsr.extractLsb' 6 3 = 0
  hardwired : s.control.state ≠ .boot0 → s.csr.Hardwired cfg

theorem csrSettled_initial (cfg : Generics) : CsrSettled cfg (Core.initial cfg) where
  loadDpc h := by cases h
  cause _ := .inl rfl
  cleared _ _ h := by cases h
  hardwired h := absurd rfl h

theorem stateNext_of_debug (h : s.control.state = .debug) :
    s.stateNext cfg i = .debug ∨ s.stateNext cfg i = .debugflush := by
  rw [stateNext, h]
  cases i.resumeReq
  · exact .inl rfl
  · exact .inr rfl

theorem csrSettled_step (h : CsrSettled cfg s) (i : CoreInput) :
    CsrSettled cfg (s.step cfg io i) := by
  cases hr : i.sreset with
  | true =>
    have h0 := csrSettled_initial cfg
    rw [step_reset _ _ _ _ hr]
    exact ⟨h0.loadDpc, h0.cause, h0.cleared, h0.hardwired⟩
  | false =>
    rw [step_clock _ _ _ _ hr]
    refine ⟨fun hl => ?_, fun hd => ?_, fun hd hf hc ho => ?_, fun _ => ?_⟩
    · rw [clock_state]
      exact (nextControl_loadDpc.mp hl).2
    · rw [clock_state] at hd
      rcases nextControl_dcsrCause hd with ⟨hc, -⟩ | hc | ⟨hc, hs⟩
      · exact .inr hc
      · exact .inl hc
      · rw [clock_control, hc]
        exact h.cause hs
    · rw [clock_state] at hd hf
      rw [clock_control] at hc
      have hs : s.control.state ≠ .debug := by
        intro hs
        rcases stateNext_of_debug hs with h' | h'
        · exact hd h'
        · exact hf h'
      have hcause : s.control.dcsrCause = 0b1000 := by
        rcases nextControl_dcsrCause hd with ⟨-, h'⟩ | h' | ⟨h', -⟩
        · exact absurd h' hs
        · rw [h'] at hc
          cases hc
        · exact h'.symm.trans hc
      have hg : (s.csrSignals cfg i).dcsrCause = 0b1000 := hcause
      have hnext := CsrReg.next_dcsr_cause (c := s.csr) (g := s.csrSignals cfg i) ho
        (fun hw => by simp [CsrSignals.debugWrites, csrSignals, indebug, hs] at hw)
        (by rw [hg]; rfl)
      rw [clock_csr, nextCsr, hnext, hg]
      rfl
    · rw [clock_csr, nextCsr]
      exact CsrReg.hardwired_next extract_trapMcause

theorem csrSettled_of_reachable {g : Core → CoreInput → Prop}
    (h : (machine cfg io).Reachable g s) : CsrSettled cfg s :=
  h.invariant (P := CsrSettled cfg) (csrSettled_initial cfg) fun _ i _ _ hs => csrSettled_step hs i

/-- A clock of the executing state in which an instruction completes is plain for the CSRs. -/
theorem CsrSettled.plain (h : CsrSettled cfg s) (hs : s.control.state = .exec)
    (hc : s.Completes cfg i) : s.csr.Plain cfg (s.csrSignals cfg i) where
  trapRequest := hc.not_trapped
  trapRelease := by simp [csrSignals, trapRelease, hs]
  indebug := hc.running
  trigger := hc.not_triggered
  loadDpc := by
    rw [csrSignals, Bool.eq_false_iff]
    intro hl
    rw [h.loadDpc hl] at hs
    cases hs
  cause n hn := by
    have hne : s.control.state ≠ .debug ∧ s.control.state ≠ .debugflush := by
      rw [hs]
      decide
    rw [csrSignals]
    rcases h.cause hne.1 with hcause | hcause
    · rw [hcause]
      exact if_neg (by simp)
    · rw [hcause]
      exact CsrReg.loadCause_resume fun ho => hn ▸ h.cleared hne.1 hne.2 hcause ho

/-- The slot of a CSR instruction. -/
theorem decode_csr (hi : Isa.instruction cfg.extensions w = some m) (hm : m.isCsr = true) :
    decode cfg ebreakm isstepping pc w =
      { IdEx.bubble pc w with
        aluOp := .csr, csrOp := csrOpOf m, rdEn := decide (rdField w ≠ 0)
        csrAddr := Isa.csr w, csrImmrs1 := rs1Field w } := by
  have hslot : slotOf ebreakm isstepping pc w m =
      { IdEx.bubble pc w with
        aluOp := .csr, csrOp := csrOpOf m, rdEn := true
        csrAddr := (immI w).extractLsb' 0 12, csrImmrs1 := rs1Field w } := by
    cases m <;> first | rfl | cases hm
  have haddr : (immI w).extractLsb' 0 12 = Isa.csr w := by
    apply BitVec.eq_of_getLsbD_eq
    intro k hk
    rw [BitVec.getLsbD_extractLsb', immI, BitVec.getLsbD_signExtend]
    simp [hk, show k < 32 by omega, Isa.csr]
  rw [decode_eq_blockZero, decodeOpcode_of_instruction hi, hslot, blockZero_eq, haddr]
  rfl

theorem csrOperate_eq (hm : m.isCsr = true) (w a old : DataType) :
    csrOperate (csrOpOf m) a (rs1Field w) old = m.csrResult old (m.csrOperand w a) := by
  cases m <;> first | rfl | cases hm

theorem csrOpOf_ne_nop (hm : m.isCsr = true) : csrOpOf m ≠ .nop := by
  cases m <;> first | decide | cases hm

/-- The old value does not matter for a swap, and for set and clear where the operand has ones. -/
theorem csrResult_agrees_iff (hm : m.isCsr = true) (old x k : DataType) :
    (∀ d, m.csrResult d x &&& k = m.csrResult old x &&& k) ↔ m.isSwap = true ∨ x &&& k = k := by
  have hset : (∀ d : DataType, (d ||| x) &&& k = (old ||| x) &&& k) ↔ x &&& k = k := by
    constructor
    · intro h
      apply BitVec.eq_of_getLsbD_eq
      intro j hj
      have hbit := congrArg (BitVec.getLsbD · j) (h (~~~old))
      simp only [BitVec.getLsbD_and, BitVec.getLsbD_or, BitVec.getLsbD_not, hj, decide_true,
        Bool.true_and] at hbit ⊢
      cases hx : x.getLsbD j <;> cases hk : k.getLsbD j <;> cases ho : old.getLsbD j <;>
        simp_all
    · intro h d
      rw [BitVec.and_or_distrib_right, BitVec.and_or_distrib_right, h]
      apply BitVec.eq_of_getLsbD_eq
      intro j _
      simp only [BitVec.getLsbD_and, BitVec.getLsbD_or]
      cases k.getLsbD j <;> simp
  have hclear : (∀ d : DataType, d &&& ~~~x &&& k = old &&& ~~~x &&& k) ↔ x &&& k = k := by
    constructor
    · intro h
      apply BitVec.eq_of_getLsbD_eq
      intro j hj
      have hbit := congrArg (BitVec.getLsbD · j) (h (~~~old))
      simp only [BitVec.getLsbD_and, BitVec.getLsbD_not, hj, decide_true,
        Bool.true_and] at hbit ⊢
      cases hx : x.getLsbD j <;> cases hk : k.getLsbD j <;> cases ho : old.getLsbD j <;>
        simp_all
    · intro h d
      have hnot : ~~~x &&& k = 0 := by
        rw [← h, BitVec.and_comm x k, ← BitVec.and_assoc, BitVec.and_comm, ← BitVec.and_assoc,
          BitVec.and_not_self]
        exact BitVec.zero_and
      rw [BitVec.and_assoc, BitVec.and_assoc, hnot]
      exact BitVec.and_zero.trans BitVec.and_zero.symm
  cases m <;> cases hm
  case csrrw | csrrwi => exact iff_of_true (fun _ => rfl) (.inl rfl)
  case csrrs | csrrsi => exact hset.trans (by simp [Mnemonic.isSwap])
  case csrrc | csrrci => exact hclear.trans (by simp [Mnemonic.isSwap])

/-- The CSR instruction `m` of the word `w`, with a CSR as a read shows it: `rd` gets the old value,
the CSR gets the bits of its mask from the result, and no other CSR changes, apart from the
counters. -/
structure CsrExecutes (cfg : Generics) (io : Peripherals) (s : Core) (i : CoreInput)
    (m : Mnemonic) (w : DataType) : Prop where
  write : s.regWrite cfg io i = if Isa.rd w = 0 then none
    else some (Isa.rd w, s.csr.read cfg io (wires i) (Isa.csr w))
  own : isReadOnlyAddr (Isa.csr w) = false →
    (s.step cfg io i).csr.read cfg io (wires i) (Isa.csr w) =
      m.csrResult (s.csr.read cfg io (wires i) (Isa.csr w)) (m.csrOperand w s.operandA) &&&
          csrMask cfg (Isa.csr w) |||
        s.csr.read cfg io (wires i) (Isa.csr w) &&& ~~~csrMask cfg (Isa.csr w)
  others : ∀ a, a ≠ Isa.csr w → isCounterAddr a = false →
    (s.step cfg io i).csr.read cfg io (wires i) a = s.csr.read cfg io (wires i) a

/-- A set or clear of the selector 4 that does not overwrite all of its bits. -/
def ModifiesSelector4 (cfg : Generics) (s : Core) (m : Mnemonic) (w : DataType) : Prop :=
  cfg.haveZihpm = true ∧ Isa.csr w = CsrName.mhpmevent4.addr ∧ m.isSwap = false ∧
    m.csrOperand w s.operandA &&& 0x7f ≠ 0x7f

section Executes
variable (hi : Isa.instruction cfg.extensions w = some m) (hm : m.isCsr = true)
  (hs : s.idEx = decode cfg ebreakm isstepping pc w) (hc : s.Completes cfg i)
include hi hm hs hc

variable (io) in
theorem write_of_csr :
    s.regWrite cfg io i = if Isa.rd w = 0 then none
      else some (Isa.rd w, s.csr.read cfg io (wires i) (Isa.csr w)) := by
  have haddr : s.csrAddrV i = Isa.csr w := by
    rw [csrAddrV, hc.running, hs, decode_csr hi hm]
    rfl
  have hresult : s.result cfg io i = s.csr.read cfg io (wires i) (Isa.csr w) := by
    rw [result, hs, decode_csr hi hm, ← haddr]
    rfl
  rw [regWrite_of_completes hc, hresult, hs, decode_csr hi hm]
  by_cases h0 : Isa.rd w = 0
  · rw [if_pos h0, if_neg (by simp [show rdField w = 0 from h0])]
  · rw [if_neg h0]
    exact if_pos (decide_eq_true (p := rdField w ≠ 0) h0)

variable (hsettled : CsrSettled cfg s) (hexec : s.control.state = .exec) (hr : i.sreset = false)
include hsettled hexec hr

variable (io) in
/-- The word that a completing CSR instruction leaves in a register. -/
theorem get_step_csr (r : CsrName) :
    (s.step cfg io i).csr.get r =
      (if CsrName.at? (Isa.csr w) = some r ∧ r.isDebugOnly = false then
        m.csrResult (s.csr.content i.csrDontCare (Isa.csr w)) (m.csrOperand w s.operandA)
      else (s.csr.countUp cfg (s.instret cfg i) (s.event cfg i)).get r) &&& r.mask cfg |||
        r.fixed cfg := by
  have hop : (s.csrSignals cfg i).op = csrOpOf m := by
    rw [csrSignals, hs, decode_csr hi hm]
  have haddr : (s.csrSignals cfg i).addr = Isa.csr w := by
    rw [csrSignals, csrAddrV, hc.running, hs, decode_csr hi hm]
    rfl
  have himm : (s.csrSignals cfg i).immrs1 = rs1Field w := by
    rw [csrSignals, hs, decode_csr hi hm]
  rw [step_clock _ _ _ _ hr, clock_csr, nextCsr, CsrReg.get_next (hsettled.plain hexec hc),
    CsrReg.wordNext, hop, haddr, himm, csrOperate_eq hm]
  simp only [csrOpOf_ne_nop hm, ne_eq, not_false_eq_true, true_and]
  rfl

variable (io) in
/-- The other CSRs keep their values, whatever the undefined content is. -/
theorem others_of_csr {a : CsrAddr} (ha : a ≠ Isa.csr w) (hcount : isCounterAddr a = false) :
    (s.step cfg io i).csr.read cfg io (wires i) a = s.csr.read cfg io (wires i) a := by
  have hne : s.control.state ≠ .boot0 := by
    rw [hexec]
    decide
  cases hname : CsrName.at? a with
  | none => exact CsrReg.read_of_none hname (by rw [hcount]; rfl)
  | some r =>
    obtain rfl := CsrName.addr_of_at? hname
    have hr' : r.isCounter = false := by
      cases h : r.isCounter
      · rfl
      · rw [isCounterAddr_addr h] at hcount
        cases hcount
    have hother : ¬(CsrName.at? (Isa.csr w) = some r ∧ r.isDebugOnly = false) :=
      fun h => ha (CsrName.addr_of_at? h.1)
    rw [CsrReg.read_of_at? hname, CsrReg.read_of_at? hname,
      get_step_csr io hi hm hs hc hsettled hexec hr, if_neg hother, CsrReg.get_countUp _ _ _ hr']
    exact hsettled.hardwired hne r

variable (io) in
/-- The accessed CSR gets its masked result, where the old content is the value of the CSR. -/
theorem own_of_csr_iff (hro : isReadOnlyAddr (Isa.csr w) = false) :
    (s.step cfg io i).csr.read cfg io (wires i) (Isa.csr w) =
        m.csrResult (s.csr.read cfg io (wires i) (Isa.csr w)) (m.csrOperand w s.operandA) &&&
            csrMask cfg (Isa.csr w) |||
          s.csr.read cfg io (wires i) (Isa.csr w) &&& ~~~csrMask cfg (Isa.csr w) ↔
      (Isa.csr w = (CsrName.mhpmevent 1).addr → cfg.haveZihpm = true →
        m.csrResult i.csrDontCare (m.csrOperand w s.operandA) &&& 0x7f =
          m.csrResult (s.csr.mhpmevent 1) (m.csrOperand w s.operandA) &&& 0x7f) := by
  have hne : s.control.state ≠ .boot0 := by
    rw [hexec]
    decide
  have hhard := hsettled.hardwired hne
  have hzero : ∀ x y : DataType, x &&& 0 ||| y &&& ~~~0 = y := by
    intro x y
    rw [show x &&& 0 = 0 from BitVec.and_zero, show ~~~(0 : DataType) = BitVec.allOnes 32 by decide,
      BitVec.and_allOnes]
    exact BitVec.zero_or
  cases hname : CsrName.at? (Isa.csr w) with
  | none =>
    have hread : (s.step cfg io i).csr.read cfg io (wires i) (Isa.csr w) =
        s.csr.read cfg io (wires i) (Isa.csr w) :=
      CsrReg.read_of_none hname (by rw [hro, Bool.and_false])
    have hmask : csrMask cfg (Isa.csr w) = 0 := by rw [csrMask, hname]
    rw [hread, hmask, hzero]
    refine iff_of_true rfl fun h4 => ?_
    rw [h4, CsrName.at?_addr] at hname
    cases hname
  | some r =>
    have hword := get_step_csr io hi hm hs hc hsettled hexec hr r
    rw [CsrReg.read_of_at? hname, CsrReg.read_of_at? hname, hword, hname]
    cases hdebug : r.isDebugOnly with
    | true =>
      have hcounter : r.isCounter = false := by cases r <;> first | rfl | cases hdebug
      have hmask : csrMask cfg (Isa.csr w) = 0 := by
        simp only [csrMask, hname, hdebug]
        rfl
      simp only [Bool.true_eq_false, and_false, if_false]
      rw [CsrReg.get_countUp _ _ _ hcounter, hmask, hzero]
      refine iff_of_true (hhard r) fun h4 => ?_
      rw [h4, CsrName.at?_addr] at hname
      cases hname
      cases hdebug
    | false =>
      have hmask : csrMask cfg (Isa.csr w) = r.mask cfg := by
        simp only [csrMask, hname, hdebug]
        rfl
      simp only [and_self, if_true]
      rw [hmask, hhard.and_not_mask r, CsrReg.content_eq hname hdebug]
      by_cases h4 : r = .mhpmevent 1
      · subst h4
        have haddr := (CsrName.addr_of_at? hname).symm
        simp only [if_true, haddr, true_implies, CsrName.mask, CsrName.fixed, CsrReg.get]
        have hor : ∀ x : DataType, x ||| 0 = x := fun x => BitVec.or_zero
        rw [hor, hor]
        cases cfg.haveZihpm
        · simp
        · simp
      · have haddr : Isa.csr w ≠ (CsrName.mhpmevent 1).addr := by
          intro h
          rw [h, CsrName.at?_addr] at hname
          exact h4 (Option.some.inj hname).symm
        rw [if_neg h4]
        exact iff_of_true rfl fun h => absurd h haddr

end Executes

/-- Whatever stands for the undefined bits, a CSR instruction does what the instruction set says,
if and only if it is not a set or clear of the selector 4. -/
theorem csr_executes_iff (h : (machine cfg io).Reachable Machine.free s)
    (hi : Isa.instruction cfg.extensions w = some m) (hm : m.isCsr = true)
    (hs : s.idEx = decode cfg ebreakm isstepping pc w) (hexec : s.control.state = .exec)
    (hc : s.Completes cfg i) (hr : i.sreset = false) :
    (∀ d, CsrExecutes cfg io s { i with csrDontCare := d } m w) ↔ ¬ModifiesSelector4 cfg s m w := by
  have hsettled := csrSettled_of_reachable h
  have hc' : ∀ d, s.Completes cfg { i with csrDontCare := d } := fun d =>
    ⟨hc.running, hc.not_stalled, hc.not_triggered, hc.not_trapped⟩
  have hwrite := fun d => write_of_csr io hi hm hs (hc' d)
  have hothers := fun d a => others_of_csr io (a := a) hi hm hs (hc' d) hsettled hexec hr
  have hown := fun d => own_of_csr_iff io hi hm hs (hc' d) hsettled hexec hr
  have hro : isReadOnlyAddr (CsrName.mhpmevent 1).addr = false := by decide
  have hagrees := csrResult_agrees_iff hm (s.csr.mhpmevent 1)
    (m.csrOperand w s.operandA) 0x7f
  constructor
  · rintro hall ⟨hz, h4, hswap, hne⟩
    rcases hagrees.mp fun d => (hown d (h4 ▸ hro)).mp ((hall d).own (h4 ▸ hro)) h4 hz
      with hsw | hall1
    · rw [hsw] at hswap
      cases hswap
    · exact hne hall1
  · intro hno d
    refine ⟨hwrite d, fun hro' => (hown d hro').mpr fun h4 hz => ?_, hothers d⟩
    refine hagrees.mpr ?_ d
    cases hsw : m.isSwap with
    | true => exact .inl rfl
    | false =>
      by_contra hne
      exact hno ⟨hz, h4, hsw, fun hone => hne (.inr hone)⟩

/-- `addi x1, x0, 0x88; csrrs x2, mie, x1`, with the second in the execute stage. -/
def setMieState : Core :=
  runProgram .plain .none [0x08800093, 0x3040a173] (.replicate 3 .quiet)

def setMieInput : CoreInput := setMieState.fetchInput .plain 0x00000013 .quiet

theorem set_mie_executes :
    CsrExecutes .plain .none setMieState setMieInput .csrrs 0x3040a173 :=
  (csr_executes_iff (i := setMieInput) (runProgram_reachable _ _ _ _) (by decide +kernel) rfl
    (show setMieState.idEx = decode .plain false false 4 0x3040a173 by decide +kernel)
    (by decide +kernel)
    ⟨by decide +kernel, by decide +kernel, by decide +kernel, by decide +kernel⟩ rfl).mpr
    (fun h => absurd h.1 (by decide)) 0

/-- `csrrsi x0, mhpmevent4, 1` on a core with performance counters. -/
def setSelector4State : Core :=
  runProgram { Generics.plain with haveZihpm := true } .none [0x3240e073] (.replicate 2 .quiet)

def setSelector4Input : CoreInput :=
  { setSelector4State.fetchInput { Generics.plain with haveZihpm := true } 0x00000013 .quiet with
    csrDontCare := 0x40 }

/-- The selector holds 0x41 afterwards, when its old content is taken to be 0x40. -/
theorem set_of_selector4_sets_other_bits :
    ¬∀ (cfg : Generics) (io : Peripherals) (s : Core) (i : CoreInput) (m : Mnemonic)
      (ebreakm isstepping : Bool) (pc w : DataType),
      (machine cfg io).Reachable Machine.free s → Isa.instruction cfg.extensions w = some m →
      m.isCsr = true → s.idEx = decode cfg ebreakm isstepping pc w → s.control.state = .exec →
      s.Completes cfg i → i.sreset = false → CsrExecutes cfg io s i m w := by
  intro h
  have hexec := h { Generics.plain with haveZihpm := true } .none setSelector4State
    setSelector4Input .csrrsi false false 0 0x3240e073 (runProgram_reachable _ _ _ _)
    (by decide +kernel) rfl (by decide +kernel) (by decide +kernel)
    ⟨by decide +kernel, by decide +kernel, by decide +kernel, by decide +kernel⟩ rfl
  exact absurd (hexec.own (by decide)) (by decide +kernel)

end Core

end ThuasRiscv
