import ThuasRiscv.Core.CsrFrame
import ThuasRiscv.Core.Program

/-!
# The values that the control and status registers hold

Every clock ends with the hard wired bits, so that after the first clock all registers hold
documented values, whatever the five writers did. Bits 5 and 6 of `mstatus` are
not hard wired: they hold what the last write to `mstatus` left there.
-/

namespace ThuasRiscv

open Transition

/-- The bits `MIE`, `MPIE` and `MPP` of `mstatus`. -/
def mstatusImplemented : DataType := 0x00001888

/-- The values that the documentation allows. -/
structure CsrReg.Warl (cfg : Generics) (c : CsrReg) : Prop where
  mstatus : c.mstatus &&& ~~~mstatusImplemented = 0
  mie : c.mie &&& ~~~mieMask = 0
  mtvec : c.mtvec.getLsbD 1 = false
  mepc : c.mepc.extractLsb' 0 2 = 0
  mcause : c.mcause.extractLsb' 5 26 = 0
  mcountinhibit : c.mcountinhibit &&& ~~~mcountinhibitMask cfg = 0
  counters : cfg.haveZihpm = true → ∀ k, c.mhpmcounterh k < 2 ^ 8 ∧ c.mhpmevent k < 2 ^ 7
  noCounters : cfg.haveZihpm = false →
    ∀ k, c.mhpmcounter k = 0 ∧ c.mhpmcounterh k = 0 ∧ c.mhpmevent k = 0
  dcsr : c.dcsr &&& ~~~dcsrMask = if cfg.haveOcd then dcsrFixed else 0
  tdata1 : c.tdata1 &&& ~~~tdata1Mask = if cfg.haveOcd then tdata1Fixed else 0

/-- The bits of `mstatus` that are neither implemented nor hard wired. -/
def mstatusLoose : DataType := 0x00000060

/-- A write of `v` sets an unimplemented bit. -/
def setsLoose (v : DataType) : Bool := v &&& mstatusLoose != 0

namespace CsrSignals

/-- A CSR instruction or the Debug Module writes bit 5 or 6 of `mstatus` with a one. The immediate
of a CSR instruction has five bits, and `csrrc` clears. -/
def loosensMstatus (cfg : Generics) (g : CsrSignals) : Bool :=
  g.addr = mstatusAddr &&
    (g.writes && (g.op = .rw || g.op = .rs) && setsLoose g.dataout ||
      g.debugWrites cfg && setsLoose g.debugData)

end CsrSignals

/-! ## Masks -/

theorem setBit_and {x m : DataType} {n : ℕ} (hn : n < 32) (hm : m.getLsbD n = false) (b : Bool) :
    setBit x n b &&& m = x &&& m := by
  apply BitVec.eq_of_getLsbD_eq
  intro j _
  rw [BitVec.getLsbD_and, BitVec.getLsbD_and, getLsbD_setBit _ hn]
  split_ifs with hj
  · rw [hj, hm, Bool.and_false, Bool.and_false]
  · rfl

theorem mstatusWith_and {m : DataType} (h3 : m.getLsbD 3 = false) (h7 : m.getLsbD 7 = false)
    (h11 : m.getLsbD 11 = false) (h12 : m.getLsbD 12 = false) (x : DataType) (mpie mie : Bool) :
    mstatusWith x mpie mie &&& m = x &&& m := by
  rw [mstatusWith, setBit_and (by decide) h3, setBit_and (by decide) h11,
    setBit_and (by decide) h12, setBit_and (by decide) h7]

/-- Of the masked bits only the loose ones are not implemented. -/
theorem masked_and_unimplemented (x : DataType) :
    (x &&& mstatusMask) &&& ~~~mstatusImplemented = x &&& mstatusLoose := by
  rw [BitVec.and_assoc]
  rfl

/-! ## What a write leaves in the loose bits -/

/-- On an old content without loose bits, an operation sets them by its operand only. -/
theorem csrOperate_loose {x : DataType} (hx : x &&& mstatusLoose = 0) (op : CsrOp) (d : DataType)
    (imm : BitVec 5) : csrOperate op d imm x &&& mstatusLoose =
      if op = .rw ∨ op = .rs then d &&& mstatusLoose else 0 := by
  have himm : ∀ y : BitVec 5, y.setWidth 32 &&& mstatusLoose = 0 := by decide
  have hor : ∀ y : DataType, (x ||| y) &&& mstatusLoose = y &&& mstatusLoose := by
    intro y
    rw [BitVec.and_or_distrib_right, hx]
    exact BitVec.zero_or
  have hand : ∀ y : DataType, x &&& y &&& mstatusLoose = 0 := by
    intro y
    rw [BitVec.and_assoc, BitVec.and_comm y, ← BitVec.and_assoc, hx]
    exact BitVec.zero_and
  cases op with
  | nop => simpa [csrOperate] using hx
  | rw => simp [csrOperate]
  | rs => simp [csrOperate, hor]
  | rc => simp [csrOperate, hand]
  | rwi => simpa [csrOperate] using himm imm
  | rsi => simp [csrOperate, hor, himm]
  | rci => simp [csrOperate, hand]

namespace CsrReg

variable {cfg : Generics} {c : CsrReg} {g : CsrSignals}

theorem written_loose (hc : c.mstatus &&& mstatusLoose = 0) :
    (c.written cfg g).mstatus &&& mstatusLoose = 0 ↔ g.loosensMstatus cfg = false := by
  have hex : g.debugWrites cfg = true → g.writes = false := by
    intro h
    simp only [CsrSignals.debugWrites, Bool.and_eq_true] at h
    simp [CsrSignals.writes, h.1.1]
  have hcontent : g.addr = mstatusAddr → c.content g.dontCare g.addr = c.mstatus := by
    intro h
    rw [h]
    rfl
  rw [written_mstatus_eq, CsrSignals.loosensMstatus]
  by_cases ha : g.addr = mstatusAddr
  · cases hd : g.debugWrites cfg with
    | true => simp [ha, hex hd, setsLoose]
    | false =>
      cases hw : g.writes with
      | true =>
        have hold : c.content g.dontCare g.addr &&& mstatusLoose = 0 := by
          rw [hcontent ha]
          exact hc
        simp only [ha, and_true, if_true, Bool.false_eq_true, if_false]
        rw [← ha, csrOperate_loose hold]
        simp [setsLoose]
      | false => simp [hc]
  · simp [ha, hc]

/-! ## The registers after one clock -/

/-- The chain of updates ends in a trap entry, in a trap release or in the hard wired bits. -/
theorem next_cases (P : CsrReg → Prop)
    (hentry : P { c.trapEntry ((c.written cfg g).hardwire cfg) g.trap with
      mepc := mepcOf g.trap.pc })
    (hrelease : P { c.trapRelease ((c.written cfg g).hardwire cfg) with
      mepc := mepcOf (c.written cfg g).mepc })
    (hplain : P { (c.written cfg g).hardwire cfg with mepc := mepcOf (c.written cfg g).mepc }) :
    P (c.next cfg g) := by
  rw [next_eq]
  by_cases he : g.entersTrap = true
  · simp only [he, if_true]
    exact hentry
  · by_cases hr : g.trapRelease = true
    · simp only [he, hr, if_true]
      exact hrelease
    · simp only [he, hr]
      exact hplain

/-- After a clock only the last write to `mstatus` decides about its unimplemented bits. -/
theorem next_unimplemented :
    (c.next cfg g).mstatus &&& ~~~mstatusImplemented =
      (c.written cfg g).mstatus &&& mstatusLoose := by
  have hwith : ∀ (x : DataType) (mpie mie : Bool),
      mstatusWith (x &&& mstatusMask) mpie mie &&& ~~~mstatusImplemented = x &&& mstatusLoose := by
    intro x mpie mie
    rw [mstatusWith_and (by decide) (by decide) (by decide) (by decide),
      masked_and_unimplemented]
  apply next_cases fun n => n.mstatus &&& ~~~mstatusImplemented = _
  · exact hwith _ _ _
  · exact hwith _ _ _
  · exact masked_and_unimplemented _

theorem next_loose :
    (c.next cfg g).mstatus &&& mstatusLoose = (c.written cfg g).mstatus &&& mstatusLoose := by
  have h : mstatusLoose = ~~~mstatusImplemented &&& mstatusLoose := by decide
  rw [h, ← BitVec.and_assoc, next_unimplemented, ← h, BitVec.and_assoc, BitVec.and_self]

theorem extract_and_mcauseMask (x : DataType) :
    (x &&& mcauseMask).extractLsb' 5 26 = 0 := by
  rw [BitVec.extractLsb'_and]
  have h : mcauseMask.extractLsb' 5 26 = 0 := by decide
  rw [h]
  exact BitVec.and_zero

theorem and_and_not (x m : DataType) : (x &&& m) &&& ~~~m = 0 := by
  rw [BitVec.and_assoc, BitVec.and_not_self]
  exact BitVec.and_zero

/-- The bits outside of a mask, after the mask and the fixed bits. -/
theorem fixed_and_not (x m : DataType) {v : DataType} (hv : v &&& ~~~m = v) :
    (x &&& m ||| v) &&& ~~~m = v := by
  rw [BitVec.and_or_distrib_right, and_and_not, hv]
  exact BitVec.zero_or

theorem and_lt_twoPow (x : DataType) {m b : DataType} (h : m < b) : x &&& m < b :=
  BitVec.lt_def.mpr <|
    lt_of_le_of_lt (BitVec.toNat_and x m ▸ Nat.and_le_right) (BitVec.lt_def.mp h)

theorem extract_mepcOf (pc : DataType) : (mepcOf pc).extractLsb' 0 2 = 0 := by
  apply BitVec.eq_of_getLsbD_eq
  intro j hj
  have hcases : j = 0 ∨ j = 1 := by omega
  rcases hcases with rfl | rfl
  · simpa using getLsbD_mepcOf_zero pc
  · simpa using getLsbD_mepcOf_one pc

/-- The part of the documented values that the hard wired bits alone give. -/
theorem hardwire_warl (cfg : Generics) (n : CsrReg) (hm : n.mstatus &&& mstatusLoose = 0) :
    { n.hardwire cfg with mepc := mepcOf n.mepc }.Warl cfg where
  mstatus := (masked_and_unimplemented _).trans hm
  mie := and_and_not _ _
  mtvec := by
    change (setBit n.mtvec 1 false).getLsbD 1 = false
    rw [getLsbD_setBit _ (by decide), if_pos rfl]
  mepc := extract_mepcOf _
  mcause := extract_and_mcauseMask _
  mcountinhibit := and_and_not _ _
  counters hz k := by
    simp only [hardwire, hz, if_true]
    exact ⟨and_lt_twoPow _ (by decide), and_lt_twoPow _ (by decide)⟩
  noCounters hz k := by simp [hardwire, hz]
  dcsr := by
    simp only [hardwire]
    split
    · exact fixed_and_not _ _ (by decide)
    · exact BitVec.zero_and
  tdata1 := by
    simp only [hardwire]
    split
    · exact fixed_and_not _ _ (by decide)
    · exact BitVec.zero_and

/-- One clock of the process: every register holds a documented value, if and only if no write
reaches the bits of `mstatus` that are not hard wired. -/
theorem next_warl_iff (hc : c.mstatus &&& mstatusLoose = 0)
    (ht : g.trap.mcause.extractLsb' 5 26 = 0) :
    (c.next cfg g).Warl cfg ↔ g.loosensMstatus cfg = false := by
  have hiff : (c.next cfg g).mstatus &&& ~~~mstatusImplemented = 0 ↔
      g.loosensMstatus cfg = false := by
    rw [next_unimplemented]
    exact written_loose hc
  constructor
  · exact fun h => hiff.mp h.mstatus
  · intro h
    have hst := hiff.mpr h
    have hw := hardwire_warl cfg (c.written cfg g) ((written_loose hc).mpr h)
    revert hst
    apply next_cases fun n => n.mstatus &&& ~~~mstatusImplemented = 0 → n.Warl cfg
    · exact fun hst => { hw with mstatus := hst, mepc := extract_mepcOf _, mcause := ht }
    · exact fun hst => { hw with mstatus := hst }
    · exact fun _ => hw

end CsrReg

namespace Core

variable {cfg : Generics} {io : Peripherals} {s : Core} {i : CoreInput}

/-! ## The cause of a trap -/

theorem localInterrupt_lt {n : ℕ} (h : s.localInterrupt i = some n) : n < 32 := by
  have hmem := List.mem_of_find?_eq_some h
  simp only [List.mem_cons, List.not_mem_nil, or_false] at hmem
  omega

theorem interrupt_lt {n : ℕ} (h : s.interrupt i = some n) : n < 32 := by
  cases hl : s.localInterrupt i with
  | none =>
    simp only [interrupt, hl] at h
    split_ifs at h <;> cases h <;> decide
  | some m =>
    simp only [interrupt, hl] at h
    split_ifs at h <;> cases h
    · decide
    · exact localInterrupt_lt hl

theorem exception_lt {n : ℕ} (h : s.exception cfg i = some n) : n < 32 := by
  have hcause := cause_of_exception h
  simp only [List.mem_cons, List.not_mem_nil, or_false] at hcause
  omega

theorem extract_trapMcause : (s.trapMcause cfg i).extractLsb' 5 26 = 0 := by
  have hlt : ∀ n < 32, ((0x80000000 : DataType) ||| BitVec.ofNat 32 n).extractLsb' 5 26 = 0 ∧
      (BitVec.ofNat 32 n).extractLsb' 5 26 = 0 := by decide
  unfold trapMcause
  split
  · next n h => exact (hlt n (interrupt_lt h)).1
  · split
    · next n h => exact (hlt n (exception_lt h)).2
    · rfl

/-! ## Runs -/

/-- A write of this clock reaches the bits of `mstatus` that are not hard wired. -/
def loosensMstatus (cfg : Generics) (s : Core) (i : CoreInput) : Bool :=
  (s.csrSignals cfg i).loosensMstatus cfg

/-- A reset, or a clock that writes no one to bits 5 and 6 of `mstatus`. -/
def WritesImplemented (cfg : Generics) (s : Core) (i : CoreInput) : Prop :=
  i.sreset = false → s.loosensMstatus cfg i = false

instance : Decidable (WritesImplemented cfg s i) := inferInstanceAs (Decidable (_ → _))

theorem loose_step (hs : s.csr.mstatus &&& mstatusLoose = 0) (hi : WritesImplemented cfg s i) :
    (s.step cfg io i).csr.mstatus &&& mstatusLoose = 0 := by
  cases hr : i.sreset with
  | true =>
    rw [step_reset _ _ _ _ hr]
    exact BitVec.zero_and
  | false =>
    rw [step_clock _ _ _ _ hr, clock_csr, nextCsr, CsrReg.next_loose, CsrReg.written_loose hs]
    exact hi hr

theorem loose_of_reachable (h : (machine cfg io).Reachable (WritesImplemented cfg) s) :
    s.csr.mstatus &&& mstatusLoose = 0 :=
  h.invariant (P := fun s => s.csr.mstatus &&& mstatusLoose = 0) BitVec.zero_and
    fun _ _ _ hi hs => loose_step hs hi

/-- In a run in which no write sets bit 5 or 6 of `mstatus`, every clock leaves documented values
in the CSRs if and only if it does not set these bits either. -/
theorem csr_holds_documented_values (cfg : Generics) (io : Peripherals) {s : Core}
    (h : (machine cfg io).Reachable (WritesImplemented cfg) s) (i : CoreInput)
    (hr : i.sreset = false) :
    (s.step cfg io i).csr.Warl cfg ↔ WritesImplemented cfg s i := by
  have hcause : (s.csrSignals cfg i).trap.mcause.extractLsb' 5 26 = 0 := extract_trapMcause
  rw [step_clock _ _ _ _ hr]
  exact (CsrReg.next_warl_iff (loose_of_reachable h) hcause).trans
    ⟨fun hw _ => hw, fun hw => hw hr⟩

/-- A program that writes the implemented bits 3 and 7 of `mstatus`. -/
theorem csr_documented_after_write :
    ((runProgram .plain .none [0x08800093, 0x30009073] (.replicate 3 .quiet)).step .plain .none
      (Core.fetchInput .plain (runProgram .plain .none [0x08800093, 0x30009073]
        (.replicate 3 .quiet)) 0 .quiet)).csr.Warl .plain :=
  (csr_holds_documented_values .plain .none
    (Machine.Reachable.init.runFrom_of_meets (by decide +kernel)) _ rfl).mpr (by decide +kernel)

/-- `addi x1, x0, 0x60` and `csrw mstatus, x1`. -/
theorem mstatus_holds_undocumented_bits :
    ¬ ∀ s, (machine .plain .none).Reachable Machine.free s → ∀ i : CoreInput, i.sreset = false →
      (s.step .plain .none i).csr.Warl .plain := by
  intro h
  have hs := runProgram_reachable .plain .none [0x06000093, 0x30009073] (.replicate 3 .quiet)
  have hw := h _ hs (Core.fetchInput .plain (runProgram .plain .none [0x06000093, 0x30009073]
    (.replicate 3 .quiet)) 0 .quiet) rfl
  have hst := hw.mstatus
  revert hst
  decide +kernel

end Core

end ThuasRiscv
