import ThuasRiscv.Core.CsrInstructions
import ThuasRiscv.Core.InstructionsRetired
import ThuasRiscv.Core.RegisterFile

/-!
# Reading a control and status register

A CSR instruction that sets or clears no bits is compared with an instruction of one clock in its
place that is no CSR instruction. The write back of the old value takes away what the counter
counts in this clock.
-/

namespace ThuasRiscv

open Transition
open Isa (Mnemonic)

/-! ## Counters -/

namespace CsrReg

variable {cfg : Generics} {c : CsrReg} {instret : Bool} {event : Fin 7 → Bool}

/-- The words of counters that change in a clock with these events. -/
def counts (cfg : Generics) (c : CsrReg) (instret : Bool) (event : Fin 7 → Bool) : CsrName → Bool
  | .mcycle => !c.mcountinhibit.getLsbD 0
  | .mcycleh => !c.mcountinhibit.getLsbD 0 && c.mcycle == BitVec.allOnes 32
  | .minstret => instret && !c.mcountinhibit.getLsbD 2
  | .minstreth => instret && !c.mcountinhibit.getLsbD 2 && c.minstret == BitVec.allOnes 32
  | .mhpmcounter k => cfg.haveZihpm && event k && !c.mcountinhibit.getLsbD (k.val + 3)
  | .mhpmcounterh k =>
    cfg.haveZihpm && event k && !c.mcountinhibit.getLsbD (k.val + 3) &&
      c.mhpmcounter k == BitVec.allOnes 32
  | _ => false

theorem countUp_masked_iff {r : CsrName} :
    (c.countUp cfg instret event).get r &&& r.mask cfg = c.get r &&& r.mask cfg ↔
      c.counts cfg instret event r = false := by
  have hones : (BitVec.allOnes 32).getLsbD 0 = true := by decide
  cases r with
  | mcycle | minstret => exact bump_low_iff hones _ _ _
  | mcycleh | minstreth => exact bump_high_iff hones _ _ _
  | mhpmcounter k =>
    cases hz : cfg.haveZihpm with
    | true =>
      simp only [CsrName.mask, counts, hz, if_true]
      exact (bump_low_iff hones _ _ (c.mhpmcounterh k)).trans (by simp [hz])
    | false => simp [CsrName.mask, counts, hz]
  | mhpmcounterh k =>
    cases hz : cfg.haveZihpm with
    | true =>
      simp only [CsrName.mask, counts, hz, if_true]
      exact (bump_high_iff (k := 0xff) (by decide) _ _ _).trans (by simp [hz])
    | false => simp [CsrName.mask, counts, hz]
  | _ => exact iff_of_true rfl rfl

/-- The cycle counter in its two words. -/
def cycles (c : CsrReg) : BitVec 64 := c.mcycleh ++ c.mcycle

/-- A performance counter; 40 bits are used. -/
def events (c : CsrReg) (k : Fin 7) : BitVec 40 := (c.mhpmcounterh k).setWidth 8 ++ c.mhpmcounter k

/-- The counters go on: each by one if it counts in this clock, modulo its width. -/
structure Counted (cfg : Generics) (c c' : CsrReg) (instret : Bool) (event : Fin 7 → Bool) :
    Prop where
  cycles : c'.cycles = c.cycles + BitVec.ofNat 64 (c.counts cfg instret event .mcycle).toNat
  retired : c'.retired = c.retired + BitVec.ofNat 64 (c.counts cfg instret event .minstret).toNat
  events : ∀ k, c'.events k =
    c.events k + BitVec.ofNat 40 (c.counts cfg instret event (.mhpmcounter k)).toNat

theorem setWidth_append (high low : DataType) :
    (high.setWidth 8 ++ low : BitVec 40) = (high ++ low : BitVec 64).setWidth 40 := by
  apply BitVec.eq_of_getLsbD_eq
  intro j hj
  simp only [BitVec.getLsbD_append, BitVec.getLsbD_setWidth, hj, decide_true, Bool.true_and]
  split
  · rfl
  · next hlow => rw [decide_eq_true (show j - 32 < 8 by omega), Bool.true_and]

/-- A clock that writes no counter counts. -/
theorem counted_of_get {c' : CsrReg} (hc : c.Hardwired cfg)
    (h : ∀ r, c'.get r = (c.countUp cfg instret event).get r &&& r.mask cfg ||| r.fixed cfg) :
    Counted cfg c c' instret event := by
  have hones : ∀ x : DataType, x &&& BitVec.allOnes 32 ||| 0 = x := fun x => by
    rw [BitVec.and_allOnes]
    exact BitVec.or_zero
  refine ⟨?_, ?_, fun k => ?_⟩
  · have hlow := (h .mcycle).trans (hones _)
    have hhigh := (h .mcycleh).trans (hones _)
    rw [cycles, show c'.mcycle = _ from hlow, show c'.mcycleh = _ from hhigh]
    exact bump_append _ _ _
  · have hlow := (h .minstret).trans (hones _)
    have hhigh := (h .minstreth).trans (hones _)
    rw [retired, show c'.minstret = _ from hlow, show c'.minstreth = _ from hhigh]
    exact bump_append _ _ _
  · have hlow : c'.mhpmcounter k = _ := h (.mhpmcounter k)
    have hhigh : c'.mhpmcounterh k = _ := h (.mhpmcounterh k)
    cases hz : cfg.haveZihpm with
    | true =>
      have hbyte : ∀ x : DataType, (x &&& 0xff ||| 0).setWidth 8 = x.setWidth 8 := fun x => by
        rw [show x &&& 0xff ||| 0 = x &&& 0xff from BitVec.or_zero, BitVec.setWidth_and]
        exact BitVec.and_allOnes
      simp only [CsrName.mask, CsrName.fixed, hz, if_true] at hlow hhigh
      rw [hones] at hlow
      rw [events, hlow, hhigh, hbyte, setWidth_append]
      refine (congrArg (BitVec.setWidth 40) (bump_append _ _ _)).trans ?_
      rw [BitVec.setWidth_add _ _ (by decide), ← setWidth_append,
        BitVec.setWidth_ofNat_of_le (by decide)]
      rfl
    | false =>
      have hnone : ∀ x : DataType, x &&& 0 ||| 0 = 0 := fun x =>
        (congrArg (· ||| 0) BitVec.and_zero).trans BitVec.or_zero
      have hold := hc (.mhpmcounter k)
      have holdh := hc (.mhpmcounterh k)
      simp only [CsrName.mask, CsrName.fixed, hz, Bool.false_eq_true, if_false, hnone, get]
        at hlow hhigh hold holdh
      rw [events, events, hlow, hhigh, ← hold, ← holdh]
      simp [counts, hz]

end CsrReg

/-! ## Another instruction in the place of the read -/

/-- The requests of an instruction that takes one clock and has neither memory access nor jump. -/
structure IdEx.Brief (d : IdEx) : Prop where
  ecall : d.ecallRequest = false
  ebreak : d.ebreakRequest = false
  illegal : d.illegalInstructionDecode = false
  ismem : d.ismem = false
  memaccess : d.memaccess = .nop
  mdStart : d.mdStart = false
  mret : d.mretRequest = false
  plain : d.aluOp.plain = true

namespace Core

variable {cfg : Generics} {io : Peripherals} {s : Core} {o : Observer} {i : CoreInput}
  {m : Mnemonic} {ebreakm isstepping : Bool} {pc w : DataType} {d : IdEx}

/-- The same clock with the slot `d` in the execute stage. -/
def withSlot (s : Core) (d : IdEx) : Core := { s with idEx := d }

@[simp] theorem withSlot_control : (s.withSlot d).control = s.control := rfl
@[simp] theorem withSlot_csr : (s.withSlot d).csr = s.csr := rfl
@[simp] theorem withSlot_idEx : (s.withSlot d).idEx = d := rfl
@[simp] theorem withSlot_isstepping : (s.withSlot d).isstepping = s.isstepping := rfl
@[simp] theorem withSlot_interrupt : (s.withSlot d).interrupt i = s.interrupt i := rfl
@[simp] theorem withSlot_mdReady : (s.withSlot d).mdReady cfg = s.mdReady cfg := rfl

theorem withSlot_bpmatch (hpc : d.pc = s.idEx.pc) : (s.withSlot d).bpmatch = s.bpmatch := by
  rw [bpmatch, withSlot_idEx, hpc]
  rfl

theorem withSlot_strayException (hpc : d.pc = s.idEx.pc) :
    (s.withSlot d).strayException i = s.strayException i := by
  rw [strayException, instructionMisaligned, withSlot_idEx, hpc]
  rfl

/-- Two brief instructions at one address are the same for everything but the result and the
CSRs. -/
structure Alike (cfg : Generics) (s s' : Core) (i : CoreInput) : Prop where
  instret : s'.instret cfg i = s.instret cfg i
  event : s'.event cfg i = s.event cfg i
  completes : s'.Completes cfg i

theorem alike_of_brief (hc : s.Completes cfg i) (hb : s.idEx.Brief)
    (hexec : s.control.state = .exec)
    (hd : d.Brief) (hnop : d.csrOp = .nop) (hpc : d.pc = s.idEx.pc) :
    Alike cfg s (s.withSlot d) i := by
  have hpen : s.penalty = false := penalty_plain hb.plain
  have hpen' : (s.withSlot d).penalty = false := penalty_plain hd.plain
  have htrigger : (s.withSlot d).stallOnTrigger cfg i = s.stallOnTrigger cfg i := by
    simp only [stallOnTrigger, withSlot_bpmatch hpc, withSlot_control, withSlot_idEx,
      withSlot_isstepping, hb.ebreak, hd.ebreak, Bool.and_false, Bool.false_and]
    rfl
  have hstall : (s.withSlot d).stall i = false := by
    simp [stall_eq, hexec, hd.ismem, hd.mdStart]
  have htrap : (s.withSlot d).trapRequest cfg i = false := by
    have h := hc.not_trapped
    rw [trapRequest, Bool.or_eq_false_iff] at h
    have hstray : s.strayException i = false := by
      by_contra hx
      rw [exception_isSome_of_stray (by simpa using hx)] at h
      cases h.2
    have hnone : (s.withSlot d).exception cfg i = none :=
      exception_eq_none ⟨hnop, hd.ecall, hd.ebreak, hd.illegal⟩ hc.running
        ((withSlot_strayException hpc).trans hstray)
    rw [trapRequest, withSlot_interrupt, h.1, hnone]
    rfl
  refine ⟨?_, ?_, ⟨hc.running, hstall, htrigger.trans hc.not_triggered, htrap⟩⟩
  · simp only [instret, htrap, hc.not_trapped, hpen, hpen', withSlot_bpmatch hpc, htrigger,
      withSlot_control, withSlot_idEx, hb.ismem, hd.ismem, hb.mdStart, hd.mdStart, hb.mret, hd.mret,
      hb.ebreak, hd.ebreak]
    rfl
  · funext k
    simp only [event, eventSources, hstall, hc.not_stalled, hpen, hpen', withSlot_idEx,
      withSlot_csr, withSlot_mdReady, hb.memaccess, hd.memaccess, hb.ecall, hd.ecall, hb.ebreak,
      hd.ebreak]

/-- An arithmetic instruction is brief. -/
theorem brief_of_arith {arm : AluArm} (harm : armOf m = some arm)
    (hi : Isa.instruction cfg.extensions w = some m) :
    (decode cfg ebreakm isstepping pc w).Brief ∧
      (decode cfg ebreakm isstepping pc w).csrOp = .nop := by
  have hplain : arm.aluOp.plain = true := by cases m <;> cases harm <;> rfl
  rw [decode_eq_blockZero, decodeOpcode_of_instruction hi, slotOf_arm harm, blockZero_eq]
  exact ⟨⟨rfl, rfl, rfl, rfl, rfl, rfl, rfl, hplain⟩, rfl⟩

/-- A CSR instruction is brief. -/
theorem brief_of_csr (hi : Isa.instruction cfg.extensions w = some m) (hm : m.isCsr = true) :
    (decode cfg ebreakm isstepping pc w).Brief := by
  rw [decode_csr hi hm]
  exact ⟨rfl, rfl, rfl, rfl, rfl, rfl, rfl, rfl⟩

/-! ## The operand of a read -/

theorem slot_of_csrOp {g : Core × Observer → CoreInput → Prop} {p : Core × Observer}
    (h : (observed cfg io).Reachable g p)
    (hop : p.1.idEx.csrOp ≠ .nop) : p.2.slot.isSome = true := by
  induction h with
  | init => exact absurd rfl hop
  | @step q i _ _ ih =>
    obtain ⟨s, o⟩ := q
    change (s.step cfg io i).idEx.csrOp ≠ .nop at hop
    change (o.next cfg io s i).slot.isSome = true
    cases hr : i.sreset with
    | true =>
      rw [step_reset _ _ _ _ hr] at hop
      exact absurd rfl hop
    | false =>
      have hslot : (o.next cfg io s i).slot = o.nextSlot cfg s i := by
        rw [Observer.next, if_neg (by simp [hr])]
        rfl
      rw [step_clock _ _ _ _ hr, clock_idEx, nextIdEx_eq] at hop
      rw [hslot, Observer.nextSlot]
      cases ha : s.advance cfg i with
      | stall =>
        simp only [ha] at hop ⊢
        exact ih hop
      | decode => rfl
      | trigger | trap | bubble =>
        simp only [ha] at hop
        exact absurd rfl hop

theorem isCsr_of_onlyReads (h : m.onlyReads w = true) : m.isCsr = true ∧ Isa.rs1 w = 0 := by
  cases m <;> first | exact ⟨rfl, of_decide_eq_true h⟩ | cases h

theorem csrResult_of_onlyReads (h : m.onlyReads w = true) (old : DataType) :
    m.csrResult old 0 = old := by
  have hones : old &&& ~~~(0 : DataType) = old := BitVec.and_allOnes
  cases m <;> first
    | exact BitVec.or_zero
    | exact hones
    | cases h

/-- The reading CSR instruction in the execute stage leaves the CSRs as the slot `d` does, and the
counters go on. -/
structure ReadsOnly (cfg : Generics) (io : Peripherals) (s : Core) (i : CoreInput) (d : IdEx) :
    Prop where
  same : (s.step cfg io i).csr = ((s.withSlot d).step cfg io i).csr
  counted : s.csr.Counted cfg (s.step cfg io i).csr (s.instret cfg i) (s.event cfg i)

/-- The address names a word of a counter that changes in this clock, or the selector 4. -/
def DisturbedByRead (cfg : Generics) (s : Core) (i : CoreInput) (a : CsrAddr) : Prop :=
  ∃ r, CsrName.at? a = some r ∧ (s.csr.counts cfg (s.instret cfg i) (s.event cfg i) r = true ∨
    r = .mhpmevent4 ∧ cfg.haveZihpm = true)

section Reads
variable (hc : s.Completes cfg i) (hb : s.idEx.Brief) (hsettled : CsrSettled cfg s)
  (hexec : s.control.state = .exec) (hr : i.sreset = false) (hd : d.Brief) (hnop : d.csrOp = .nop)
  (hpc : d.pc = s.idEx.pc)
include hc hb hsettled hexec hr hd hnop hpc

variable (io) in
/-- With another instruction in its place the clock only counts. -/
theorem get_step_withSlot (r : CsrName) :
    ((s.withSlot d).step cfg io i).csr.get r =
      (s.csr.countUp cfg (s.instret cfg i) (s.event cfg i)).get r &&& r.mask cfg |||
        r.fixed cfg := by
  have halike := alike_of_brief hc hb hexec hd hnop hpc
  have hsettled' : CsrSettled cfg (s.withSlot d) :=
    ⟨hsettled.loadDpc, hsettled.cause, hsettled.cleared, hsettled.hardwired⟩
  have hop : ((s.withSlot d).csrSignals cfg i).op = .nop := hnop
  have hinstret : ((s.withSlot d).csrSignals cfg i).instret = s.instret cfg i := halike.instret
  have hevent : ((s.withSlot d).csrSignals cfg i).event = s.event cfg i := halike.event
  rw [step_clock _ _ _ _ hr, clock_csr, nextCsr,
    CsrReg.get_next (hsettled'.plain hexec halike.completes), CsrReg.wordNext, hop, hinstret, hevent,
    if_neg fun h => h.1 rfl]
  rfl

variable (hi : Isa.instruction cfg.extensions w = some m) (hm : m.onlyReads w = true)
  (hs : s.idEx = decode cfg ebreakm isstepping pc w) (hzero : s.operandA = 0)
include hi hm hs hzero

variable (io) in
/-- The read writes back the old content. -/
theorem same_iff : (s.step cfg io i).csr = ((s.withSlot d).step cfg io i).csr ↔
    ∀ r, CsrName.at? (Isa.csr w) = some r → r.isDebugOnly = false →
      (if r = .mhpmevent 1 then i.csrDontCare else s.csr.get r) &&& r.mask cfg =
        (s.csr.countUp cfg (s.instret cfg i) (s.event cfg i)).get r &&& r.mask cfg := by
  have hcsr := isCsr_of_onlyReads hm
  have hoperand : m.csrOperand w s.operandA = 0 := by
    cases m <;> first
      | exact hzero
      | (rw [Mnemonic.csrOperand, hcsr.2]; rfl)
  have hread := get_step_csr io hi hcsr.1 hs hc hsettled hexec hr
  simp only [hoperand, csrResult_of_onlyReads hm] at hread
  have hslot := get_step_withSlot io hc hb hsettled hexec hr hd hnop hpc
  constructor
  · intro h r hname hdebug
    have hget := congrArg (fun c => CsrReg.get c r &&& r.mask cfg) h
    simp only [hread, hslot, hname, hdebug, and_self, if_true,
      CsrReg.content_eq hname hdebug] at hget
    have hcancel : ∀ x : DataType,
        (x &&& r.mask cfg ||| r.fixed cfg) &&& r.mask cfg = x &&& r.mask cfg := fun x => by
      rw [BitVec.and_or_distrib_right, CsrName.fixed_and_mask, BitVec.and_assoc, BitVec.and_self]
      exact BitVec.or_zero
    rw [hcancel, hcancel] at hget
    exact hget
  · intro h
    apply CsrReg.ext_get
    intro r
    rw [hread, hslot]
    split
    · next hr =>
      rw [CsrReg.content_eq hr.1 hr.2, h r hr.1 hr.2]
    · rfl

end Reads

/-- In a run in which `x0` stays zero, a CSR instruction that only reads has no effect on the CSRs,
whatever stands for the undefined bits, if and only if its CSR does not count in this clock and is
not the selector 4. -/
theorem csr_read_has_no_effect_iff
    (h : (observed cfg io).Reachable (fun p i => ZeroSafe cfg p.1 i) (s, o))
    (hi : Isa.instruction cfg.extensions w = some m) (hm : m.onlyReads w = true)
    (hs : s.idEx = decode cfg ebreakm isstepping pc w) (hexec : s.control.state = .exec)
    (hc : s.Completes cfg i) (hr : i.sreset = false) (hd : d.Brief) (hnop : d.csrOp = .nop)
    (hpc : d.pc = s.idEx.pc) :
    (∀ x, ReadsOnly cfg io s { i with csrDontCare := x } d) ↔
      ¬DisturbedByRead cfg s i (Isa.csr w) := by
  obtain ⟨hcsr, hrs1⟩ := isCsr_of_onlyReads hm
  have hslot : o.slot.isSome = true := slot_of_csrOp h (by
    rw [hs, decode_csr hi hcsr]
    exact csrOpOf_ne_nop hcsr)
  have hzero : s.operandA = 0 := by
    refine ((zeroInv_of_reachable h).usesZero hslot).rs1 ?_
    rw [hs, decode_csr hi hcsr]
    exact hrs1
  have hsettled : CsrSettled cfg s :=
    csrSettled_of_reachable (h.forget (h := Machine.free) fun _ _ _ => trivial)
  have hb : s.idEx.Brief := hs ▸ brief_of_csr hi hcsr
  have hhard : s.csr.Hardwired cfg := hsettled.hardwired (by rw [hexec]; decide)
  have hc' : ∀ x, s.Completes cfg { i with csrDontCare := x } := fun _ =>
    ⟨hc.running, hc.not_stalled, hc.not_triggered, hc.not_trapped⟩
  have hsame := fun x => same_iff io (hc' x) hb hsettled hexec hr hd hnop hpc hi hm hs hzero
  have hword := fun x => get_step_withSlot io (hc' x) hb hsettled hexec hr hd hnop hpc
  constructor
  · rintro hall ⟨r, hname, hcount | ⟨rfl, hz⟩⟩
    · have hdebug : r.isDebugOnly = false := by cases r <;> first | rfl | cases hcount
      have hne : r ≠ .mhpmevent 1 := by
        rintro rfl
        cases hcount
      have hword := (hsame 0).mp (hall 0).same r hname hdebug
      rw [if_neg hne] at hword
      have hno : s.csr.counts cfg (s.instret cfg i) (s.event cfg i) r = false :=
        CsrReg.countUp_masked_iff.mp hword.symm
      rw [hno] at hcount
      cases hcount
    · have hword := (hsame (~~~s.csr.mhpmevent 1)).mp (hall _).same _ hname rfl
      have hbit := congrArg (BitVec.getLsbD · 0) hword
      rw [if_pos rfl, CsrReg.get_countUp _ _ _ rfl] at hbit
      simp [CsrName.mask, hz, CsrReg.get] at hbit
  · intro hno x
    have heq : (s.step cfg io { i with csrDontCare := x }).csr =
        ((s.withSlot d).step cfg io { i with csrDontCare := x }).csr := by
      refine (hsame x).mpr fun r hname hdebug => ?_
      by_cases h4 : r = .mhpmevent 1
      · have hz : cfg.haveZihpm = false := by
          by_contra hz
          exact hno ⟨r, hname, .inr ⟨h4, by simpa using hz⟩⟩
        subst h4
        simp [CsrName.mask, hz]
      · rw [if_neg h4]
        refine (CsrReg.countUp_masked_iff.mpr ?_).symm
        by_contra hcount
        exact hno ⟨r, hname, .inl ((Bool.not_eq_false _).mp hcount)⟩
    refine ⟨heq, ?_⟩
    rw [heq]
    exact CsrReg.counted_of_get hhard (hword x)

/-- `csrrs x1, mscratch, x0` at the reset address, and `addi x0, x0, 0` in its place. -/
def readMscratch : Core × Observer :=
  observeProgram .plain .none [0x340020f3] (.replicate 2 .quiet)

def readMscratchInput : CoreInput := readMscratch.1.fetchInput .plain 0x00000013 .quiet

theorem read_mscratch_has_no_effect :
    ReadsOnly .plain .none readMscratch.1 readMscratchInput
      (decode .plain false false 0 0x00000013) :=
  (csr_read_has_no_effect_iff (s := readMscratch.1) (o := readMscratch.2) (i := readMscratchInput)
    (m := .csrrs) (w := 0x340020f3) (d := decode .plain false false 0 0x00000013)
    (Machine.Reachable.init.runFrom_of_meets (M := observed .plain .none) (by decide +kernel))
    (by decide +kernel) rfl
    (show readMscratch.1.idEx = decode .plain false false 0 0x340020f3 by decide +kernel)
    (by decide +kernel)
    ⟨by decide +kernel, by decide +kernel, by decide +kernel, by decide +kernel⟩ rfl
    (brief_of_arith (m := .addi) rfl (by decide +kernel)).1
    (brief_of_arith (m := .addi) rfl (by decide +kernel)).2 (by decide +kernel)).mpr
    (by
      rintro ⟨r, hname, h⟩
      have hr : r = .mscratch := (Option.some.inj hname).symm
      subst hr
      rcases h with h | ⟨h, -⟩ <;> cases h) 0

/-- `csrrs x1, mcycle, x0` at the reset address. -/
def readMcycleState : Core := runProgram .plain .none [0xb00020f3] (.replicate 2 .quiet)

def readMcycleInput : CoreInput := readMcycleState.fetchInput .plain 0x00000013 .quiet

/-- The cycle of the read is not counted. -/
theorem read_of_mcycle_loses_a_cycle :
    ¬∀ s, (machine .plain .none).Reachable Machine.free s →
      ∀ (i : CoreInput) (m : Mnemonic) (ebreakm isstepping : Bool) (pc w : DataType) (d : IdEx),
        Isa.instruction Generics.plain.extensions w = some m → m.onlyReads w = true →
        s.idEx = decode .plain ebreakm isstepping pc w → s.control.state = .exec →
        s.Completes .plain i → i.sreset = false → d.Brief → d.csrOp = .nop → d.pc = s.idEx.pc →
        ReadsOnly .plain .none s i d := by
  intro h
  have hreads := h readMcycleState (runProgram_reachable _ _ _ _) readMcycleInput .csrrs false false
    0 0xb00020f3 (decode .plain false false 0 0x00000013) (by decide +kernel) rfl
    (by decide +kernel) (by decide +kernel)
    ⟨by decide +kernel, by decide +kernel, by decide +kernel, by decide +kernel⟩ rfl
    ⟨rfl, rfl, rfl, rfl, rfl, rfl, rfl, rfl⟩ rfl (by decide +kernel)
  exact absurd hreads.counted.cycles (by decide +kernel)

end Core

end ThuasRiscv
