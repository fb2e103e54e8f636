import ThuasRiscv.Core.BitManipulation
import ThuasRiscv.Core.IsaDecode
import ThuasRiscv.Core.MdConfinement
import ThuasRiscv.Core.Program
import ThuasRiscv.Core.RegisterFile

/-!
# Multiplication from start to write-back

An instruction of the multiplier goes through `state_exec`, `state_md` and
`state_md2`. The operands are registered in the first of these clocks, multiplied
in the second and written in the third, unless an exception flag rises while the
core waits.
-/

namespace ThuasRiscv

open Isa (Mnemonic)

/-! ## The product -/

namespace MulDiv

/-- The factors that `md_op` selects, as integers. -/
theorem loadFactors_toInt (m : MulDiv) (op : BitVec 3) (a b : DataType) :
    (m.loadFactors op a b).rdataA.toInt * (m.loadFactors op a b).rdataB.toInt =
      Isa.product a b (!(op.getLsbD 1 && op.getLsbD 0)) (!op.getLsbD 1) := by
  unfold loadFactors
  cases op.getLsbD 1
  · simp [toInt_cons_msb, Isa.product]
  · cases op.getLsbD 0 <;> simp [toInt_cons_msb, toInt_cons_false, Isa.product]

/-- The product of the registered factors is exact in 66 bits. -/
theorem product_eq_ofInt (x y : BitVec 33) :
    x.signExtend 66 * y.signExtend 66 = BitVec.ofInt 66 (x.toInt * y.toInt) := by
  apply BitVec.eq_of_toInt_eq
  rw [BitVec.toInt_mul, BitVec.toInt_ofInt, BitVec.toInt_signExtend_of_le (by decide),
    BitVec.toInt_signExtend_of_le (by decide)]

theorem low_ofInt (z : ℤ) : (BitVec.ofInt 66 z).extractLsb' 0 32 = BitVec.ofInt 32 z := by
  apply BitVec.eq_of_toNat_eq
  rw [BitVec.extractLsb'_toNat, BitVec.toNat_ofInt, BitVec.toNat_ofInt, Nat.shiftRight_zero]
  omega

theorem high_ofInt (z : ℤ) : (BitVec.ofInt 66 z).extractLsb' 32 32 = Isa.highWord z := by
  apply BitVec.eq_of_toNat_eq
  rw [BitVec.extractLsb'_toNat, Isa.highWord, BitVec.toNat_ofInt, BitVec.toNat_ofInt,
    Nat.shiftRight_eq_div_pow]
  omega

/-- The output of the multiplier after the operands `a` and `b` were loaded. -/
theorem mul_eq {m : MulDiv} {op : BitVec 3} {a b : DataType} (m' : MulDiv)
    (h : m.mulRdInt = (m'.loadFactors op a b).rdataA.signExtend 66 *
      (m'.loadFactors op a b).rdataB.signExtend 66) :
    m.mul op =
      if op.getLsbD 1 || op.getLsbD 0 then
        Isa.highWord (Isa.product a b (!(op.getLsbD 1 && op.getLsbD 0)) (!op.getLsbD 1))
      else BitVec.ofInt 32 (Isa.product a b (!(op.getLsbD 1 && op.getLsbD 0)) (!op.getLsbD 1)) := by
  rw [mul, h, product_eq_ofInt, loadFactors_toInt, low_ofInt, high_ofInt]

theorem funct3_of_multiply {mn : Mnemonic} {w : DataType} (hm : mn.isMultiply = true)
    (hw : mn.Matches w) :
    mn = .mul ∧ func3 w = 0b000 ∨ mn = .mulh ∧ func3 w = 0b001 ∨
      mn = .mulhsu ∧ func3 w = 0b010 ∨ mn = .mulhu ∧ func3 w = 0b011 := by
  cases mn
  case mul => exact .inl ⟨rfl, (Mnemonic.fields_of_funct7 rfl hw).2.1⟩
  case mulh => exact .inr (.inl ⟨rfl, (Mnemonic.fields_of_funct7 rfl hw).2.1⟩)
  case mulhsu => exact .inr (.inr (.inl ⟨rfl, (Mnemonic.fields_of_funct7 rfl hw).2.1⟩))
  case mulhu => exact .inr (.inr (.inr ⟨rfl, (Mnemonic.fields_of_funct7 rfl hw).2.1⟩))
  all_goals cases hm

theorem mul_value {mn : Mnemonic} {w : DataType} (hm : mn.isMultiply = true)
    (hw : mn.Matches w) {m : MulDiv} {a b : DataType} (m' : MulDiv)
    (h : m.mulRdInt = (m'.loadFactors (func3 w) a b).rdataA.signExtend 66 *
      (m'.loadFactors (func3 w) a b).rdataB.signExtend 66) (pc : DataType) :
    mn.value w pc a b = some (m.mul (func3 w)) := by
  rw [mul_eq m' h]
  rcases funct3_of_multiply hm hw with ⟨rfl, h3⟩ | ⟨rfl, h3⟩ | ⟨rfl, h3⟩ | ⟨rfl, h3⟩ <;>
    rw [h3] <;> rfl

end MulDiv

/-! ## The three clocks -/

namespace Core

variable {cfg : Generics} {io : Peripherals} {s : Core} {i j k : CoreInput} {m : Mnemonic}
  {ebreakm isstepping : Bool} {pc w : DataType}

theorem mulOp_of_multiply (hi : Isa.instruction cfg.extensions w = some m)
    (hm : m.isMultiply = true) : (func3 w).getLsbD 2 = false := by
  rcases MulDiv.funct3_of_multiply hm (Isa.instruction_spec hi).2 with
    ⟨-, h3⟩ | ⟨-, h3⟩ | ⟨-, h3⟩ | ⟨-, h3⟩ <;> rw [h3] <;> rfl

variable (ebreakm isstepping pc) in
/-- The slot of a multiplication as it enters the execute stage. -/
theorem decode_multiply (hi : Isa.instruction cfg.extensions w = some m)
    (hm : m.isMultiply = true) :
    cfg.haveMuldiv = true ∧ decode cfg ebreakm isstepping pc w =
      { IdEx.bubble pc w with
        aluOp := .multiply, pcOp := .hold, mdOp := func3 w, mdStart := true } := by
  have hx := (Isa.instruction_spec hi).1
  have hslot : slotOf ebreakm isstepping pc w m = (IdEx.bubble pc w).mulDiv w := by
    cases m <;> first | rfl | cases hm
  constructor
  · cases m <;> first | exact hx | cases hm
  · rw [decode_eq_blockZero, decodeOpcode_of_instruction hi, hslot, blockZero_eq, IdEx.mulDiv,
      mulOp_of_multiply hi hm]
    rfl

variable (io) in
/-- The exception flags of the next clock, when the instruction stays in the execute stage. -/
theorem strayException_step (hr : i.sreset = false) (hs : s.control.state ≠ .trap)
    (hpc : (s.step cfg io i).idEx.pc = s.idEx.pc) :
    (s.step cfg io i).strayException j = (s.instrAccessError.getLsbD 0 || j.bus.error) := by
  have herr : (s.step cfg io i).instrAccessError.getLsbD 1 = s.instrAccessError.getLsbD 0 := by
    rw [step_clock _ _ _ _ hr]
    simp only [clock, nextInstrAccessError, if_neg hs]
    rw [BitVec.getLsbD_append]
    simp
  have hmis : (s.step cfg io i).instructionMisaligned = false := by
    rw [instructionMisaligned, hpc, step_clock _ _ _ _ hr]
    simp [clock, nextInstrMisalignedFf]
  rw [strayException, herr, hmis, Bool.or_false]

/-- The multiplication in the execute stage and in `state_md`, after its operands `a` and `b` were
registered. -/
structure Multiplying (cfg : Generics) (s : Core) (w a b : DataType) : Prop where
  state : s.control.state = .md
  aluOp : s.idEx.aluOp = .multiply
  rd : s.idEx.rd = rdField w
  mdOp : s.idEx.mdOp = func3 w
  quiet : s.idEx.Quiet
  started : s.idEx.mdStart = false
  running : s.md.mulRunning = true
  factors : ∃ m : MulDiv, s.md.rdataA = (m.loadFactors (func3 w) a b).rdataA ∧
    s.md.rdataB = (m.loadFactors (func3 w) a b).rdataB

variable (io) in
theorem multiplying_of_start (hr : i.sreset = false)
    (hi : Isa.instruction cfg.extensions w = some m) (hm : m.isMultiply = true)
    (hs : s.idEx = decode cfg ebreakm isstepping pc w) (hexec : s.control.state = .exec)
    (hgo : s.startsMd cfg i = true) :
    Multiplying cfg (s.step cfg io i) w s.operandA s.operandB ∧
      (s.step cfg io i).idEx.pc = s.idEx.pc := by
  obtain ⟨hmd, hslot⟩ := decode_multiply ebreakm isstepping pc hi hm
  have hcoherent : s.idEx.Coherent := hs ▸ (decode_shape cfg ebreakm isstepping pc w).coherent
  have hadv := advance_of_startsMd hexec hgo
  have hnext : s.nextIdEx cfg i = s.idEx.stalled (s.mdReady cfg) := by rw [nextIdEx_eq, hadv]
  rw [hslot] at hs
  rw [step_clock _ _ _ _ hr]
  constructor
  · refine ⟨?_, ?_, ?_, ?_, ?_, ?_, ?_, ?_⟩
    · rw [clock_state, stateNext_of_startsMd hcoherent hexec hgo]
    · rw [clock_idEx, hnext, hs]
      rfl
    · rw [clock_idEx, hnext, hs]
      rfl
    · rw [clock_idEx, hnext, hs]
      rfl
    · rw [clock_idEx, hnext, hs]
      exact ⟨rfl, rfl, rfl, rfl⟩
    · rw [clock_idEx, hnext]
      rfl
    · have htr := (startsMd_iff.mp hgo).2.1
      simp only [clock_md, nextMd, MulDiv.next, mdGate, htr, hs]
      rw [mulOp_of_multiply hi hm]
      rfl
    · refine ⟨MulDiv.nextDivider cfg s.md false (func3 w) s.operandA s.operandB, ?_⟩
      have hop : s.idEx.mdOp = func3 w := by rw [hs]
      simp only [clock_md, nextMd, MulDiv.next, mdGate_start, hgo, hop, mulOp_of_multiply hi hm,
        Bool.and_false, if_true, and_self]
  · rw [clock_idEx, hnext]
    rfl

theorem Multiplying.stalls {a b : DataType} (h : Multiplying cfg s w a b) : s.stall i = true := by
  rw [stall_eq, h.state]

theorem Multiplying.regWrite {a b : DataType} (h : Multiplying cfg s w a b) :
    s.regWrite cfg io i = none := by
  rw [regWrite_eq (by simp [indebug, h.state]), leaves, h.stalls]
  rfl

theorem Multiplying.ready {a b : DataType} (h : Multiplying cfg s w a b)
    (hmd : cfg.haveMuldiv = true) : s.mdReady cfg = true := by
  rw [mdReady, MulDiv.ready, hmd, h.running, Bool.or_true]
  rfl

/-- The multiplication in `state_md2`, with its product. -/
structure Multiplied (cfg : Generics) (s : Core) (w a b : DataType) : Prop where
  state : s.control.state = .md2
  aluOp : s.idEx.aluOp = .multiply
  rd : s.idEx.rd = rdField w
  rdEn : s.idEx.rdEn = true
  mdOp : s.idEx.mdOp = func3 w
  quiet : s.idEx.Quiet
  product : ∃ m : MulDiv, s.md.mulRdInt = (m.loadFactors (func3 w) a b).rdataA.signExtend 66 *
    (m.loadFactors (func3 w) a b).rdataB.signExtend 66

variable (io) in
/-- Without an exception flag the product is ready for the write-back. -/
theorem Multiplying.step {a b : DataType} (h : Multiplying cfg s w a b)
    (hmd : cfg.haveMuldiv = true) (hr : i.sreset = false) (hx : s.strayException i = false) :
    Multiplied cfg (s.step cfg io i) w a b ∧ (s.step cfg io i).idEx.pc = s.idEx.pc := by
  have hnext : s.nextIdEx cfg i = s.idEx.stalled true := by
    rw [nextIdEx_eq, advance_of_md h.state h.quiet hx, h.ready hmd]
  rw [step_clock _ _ _ _ hr]
  constructor
  · refine ⟨?_, ?_, ?_, ?_, ?_, ?_, ?_⟩
    · rw [clock_state, stateNext, h.state]
      simp [h.ready hmd]
    · rw [clock_idEx, hnext]
      exact h.aluOp
    · rw [clock_idEx, hnext]
      exact h.rd
    · rw [clock_idEx, hnext]
      exact Bool.or_true _
    · rw [clock_idEx, hnext]
      exact h.mdOp
    · rw [clock_idEx, hnext]
      exact h.quiet.stalled true
    · obtain ⟨m, ha, hb⟩ := h.factors
      refine ⟨m, ?_⟩
      rw [← ha, ← hb]
      rfl
  · rw [clock_idEx, hnext]
    rfl

variable (io) in
/-- With an exception flag the instruction is made harmless. -/
theorem Multiplying.step_of_stray {a b : DataType} (h : Multiplying cfg s w a b)
    (hmd : cfg.haveMuldiv = true) (hr : i.sreset = false) (hx : s.strayException i = true) :
    (s.step cfg io i).control.state = .md2 ∧ (s.step cfg io i).idEx.rdEn = false := by
  have htr : s.trapRequest cfg i = true := by
    rw [trapRequest_eq_stray (by rw [h.state]; rfl) h.quiet, hx]
  have hnext : s.nextIdEx cfg i = s.idEx.trapped := by
    rw [nextIdEx_eq, advance_eq_trap_iff.mpr ⟨by rw [stallOnTrigger_eq, h.state], htr⟩]
  rw [step_clock _ _ _ _ hr]
  constructor
  · rw [clock_state, stateNext, h.state]
    simp [h.ready hmd]
  · rw [clock_idEx, hnext]
    rfl

/-- In `state_md2` only an exception flag keeps the instruction from its write. -/
theorem Multiplied.leaves {a b : DataType} (h : Multiplied cfg s w a b) :
    s.leaves cfg i = !s.strayException i := by
  rw [Core.leaves, stall_eq, stallOnTrigger_eq, h.state,
    trapRequest_eq_stray (by rw [h.state]; rfl) h.quiet]
  simp

theorem Multiplied.regWrite {a b : DataType} (h : Multiplied cfg s w a b)
    (hmd : cfg.haveMuldiv = true) (hw : m.Matches w) (hm : m.isMultiply = true)
    (hleaves : s.leaves cfg i = true) (pc : DataType) :
    s.regWrite cfg io i = (m.value w pc a b).map fun v => (Isa.rd w, v) := by
  obtain ⟨m', hp⟩ := h.product
  rw [regWrite_eq (by simp [indebug, h.state]), hleaves, h.rdEn, MulDiv.mul_value hm hw m' hp,
    h.rd, result, h.aluOp]
  simp [aluResult, aluSources, hmd, h.mdOp]
  rfl

/-- The instruction `m` writes `rd` in the third of three clocks and in no other, with its value
for the operands of the first clock, and leaves the execute stage. -/
structure WritesOnce (cfg : Generics) (io : Peripherals) (s : Core) (i j k : CoreInput)
    (m : Mnemonic) (w pc : DataType) : Prop where
  first : s.regWrite cfg io i = none
  second : (s.step cfg io i).regWrite cfg io j = none
  third : ((s.step cfg io i).step cfg io j).regWrite cfg io k =
    (m.value w pc s.operandA s.operandB).map fun v => (Isa.rd w, v)
  leaves : ((s.step cfg io i).step cfg io j).leaves cfg k = true

/-- The two words behind the multiplication were fetched without a fault, and the data bus, which
has nothing to do, reports no error while the core waits. -/
def FollowersFetched (s : Core) (i j k : CoreInput) : Prop :=
  s.instrAccessError.getLsbD 0 = false ∧ i.instr.instrAccessError = false ∧
    j.bus.error = false ∧ k.bus.error = false

theorem instrAccessError_step (hr : i.sreset = false) (hs : s.control.state ≠ .trap) :
    (s.step cfg io i).instrAccessError.getLsbD 0 = i.instr.instrAccessError := by
  rw [step_clock _ _ _ _ hr]
  simp only [clock, nextInstrAccessError, if_neg hs]
  rw [BitVec.getLsbD_append]
  simp

/-- A multiplication that starts writes its product once, exactly when nothing is wrong with the
fetch of the next two words. -/
theorem multiply_writes_once_iff (hi : Isa.instruction cfg.extensions w = some m)
    (hm : m.isMultiply = true) (hs : s.idEx = decode cfg ebreakm isstepping pc w)
    (hexec : s.control.state = .exec) (hgo : s.startsMd cfg i = true)
    (hr : i.sreset = false) (hr' : j.sreset = false) :
    WritesOnce cfg io s i j k m w pc ↔ FollowersFetched s i j k := by
  have hmd := (decode_multiply ebreakm isstepping pc hi hm).1
  have hw := (Isa.instruction_spec hi).2
  have hne : s.control.state ≠ .trap := by rw [hexec]; decide
  obtain ⟨hmul, hpc⟩ := multiplying_of_start io hr hi hm hs hexec hgo
  have hx := strayException_step io (j := j) hr hne hpc
  have hne' : (s.step cfg io i).control.state ≠ .trap := by rw [hmul.state]; decide
  have hfirst : s.regWrite cfg io i = none := by
    rw [regWrite_eq (by simp [indebug, hexec])]
    have hstall := (advance_eq_stall_iff.mp (advance_of_startsMd hexec hgo)).2.2
    rw [leaves, hstall]
    rfl
  cases hx1 : (s.step cfg io i).strayException j with
  | true =>
    obtain ⟨hstate, hen⟩ := hmul.step_of_stray io hmd hr' hx1
    refine iff_of_false (fun h => ?_) (fun h => ?_)
    · obtain ⟨v, hv⟩ : ∃ v, m.value w pc s.operandA s.operandB = some v := by
        cases m <;> first | exact ⟨_, rfl⟩ | cases hm
      have hthird := h.third
      rw [regWrite_eq (by simp [indebug, hstate]), hen, hv, Bool.and_false] at hthird
      cases hthird
    · rw [hx, h.1, h.2.2.1] at hx1
      cases hx1
  | false =>
    obtain ⟨hdone, hpc'⟩ := hmul.step io hmd hr' hx1
    have hx2 := strayException_step io (j := k) hr' hne' hpc'
    rw [instrAccessError_step hr hne] at hx2
    rw [hx, Bool.or_eq_false_iff] at hx1
    have hleaves := hdone.leaves (i := k)
    constructor
    · intro h
      have hl := h.leaves
      rw [hleaves, Bool.not_eq_true', hx2, Bool.or_eq_false_iff] at hl
      exact ⟨hx1.1, hl.1, hx1.2, hl.2⟩
    · intro h
      rw [hx2, h.2.1, h.2.2.2] at hleaves
      exact ⟨hfirst, hmul.regWrite, hdone.regWrite hmd hw hm hleaves pc, hleaves⟩

/-- `mulhsu x3, x1, x2` for -8 and 5, as it starts. -/
def mulhsuState : Core :=
  runProgram .plain .none [0xff800093, 0x00500113, 0x0220a1b3] (.replicate 4 .quiet)

def mulhsuInput : CoreInput := mulhsuState.fetchInput .plain 0x00000013 .quiet

theorem mulhsu_writes_once :
    WritesOnce .plain .none mulhsuState mulhsuInput mulhsuInput mulhsuInput .mulhsu 0x0220a1b3 8 ↔
      FollowersFetched mulhsuState mulhsuInput mulhsuInput mulhsuInput :=
  multiply_writes_once_iff (by decide +kernel) rfl
    (show mulhsuState.idEx = decode .plain false false 8 0x0220a1b3 by decide +kernel)
    (by decide +kernel) (by decide +kernel) rfl rfl

/-- `lui x1, 0x10000; jalr x0, -8(x1)` and `mul x3, x1, x1` as the last word but one of the ROM's
region, in the execute stage. -/
def lastMulState : Core :=
  (machine .plain .none).run (wordInputs .plain .none (Core.initial .plain)
    [0, 0x100000b7, 0xff808067, 0x00000013, 0x00000013, 0x021081b3])

def lastMulInput : CoreInput := lastMulState.fetchInput .plain 0x00000013 .quiet

/-- The fetch behind the region of the ROM fails while the product is computed, and `x3` is not
written. -/
theorem mul_before_access_fault_writes_nothing :
    ¬∀ s, (machine .plain .none).Reachable Transition.Machine.free s →
      ∀ (i j k : CoreInput) (m : Mnemonic) (ebreakm isstepping : Bool) (pc w : DataType),
        Isa.instruction Generics.plain.extensions w = some m → m.isMultiply = true →
        Isa.rd w ≠ 0 → s.idEx = decode .plain ebreakm isstepping pc w →
        s.control.state = .exec → s.startsMd .plain i = true →
        i.sreset = false → j.sreset = false → j.bus.error = false → k.bus.error = false →
        WritesOnce .plain .none s i j k m w pc := by
  intro h
  have hs : (machine .plain .none).Reachable Transition.Machine.free lastMulState :=
    Transition.Machine.reachable_run _
  have hw := h _ hs lastMulInput lastMulInput lastMulInput .mul false false 0x0ffffff8 0x021081b3
    (by decide +kernel) rfl (by decide) (by decide +kernel) (by decide +kernel)
    (by decide +kernel) rfl rfl rfl rfl
  exact absurd hw.leaves (by decide +kernel)

end Core

end ThuasRiscv
