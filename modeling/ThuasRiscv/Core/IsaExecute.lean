import ThuasRiscv.Core.BitManipulation
import ThuasRiscv.Core.IsaDecode
import ThuasRiscv.Core.Shifter

/-!
# Execution of decoded instructions

The execute stage with a decoded instruction computes what the instruction set
says: the value for `rd`, the decision of a branch and the target of a jump.
-/

namespace ThuasRiscv

open Isa (Mnemonic Extensions)

/-! ## Immediates -/

theorem amount_immShamt (w : DataType) : Isa.amount (immShamt w) = Isa.shamt w := by
  have h : (w.extractLsb' 20 5).toNat < 32 := BitVec.isLt _
  rw [Isa.amount, immShamt, rs2Field, BitVec.toNat_setWidth, Isa.shamt]
  omega

/-- The second operand of an arithmetic instruction. -/
def ImmSel.operand (sel : ImmSel) (w b : DataType) : DataType :=
  match sel with
  | .none => b
  | .immI => Isa.immI w
  | .immShamt => ThuasRiscv.immShamt w

/-! ## The ALU -/

section Alu
variable {cfg : Generics} {m : Mnemonic} {arm : AluArm}

theorem flagWord_bool (x : Bool) : flagWord x = Isa.flag (x = true) := by
  cases x <;> rfl

theorem getLsbD_amount (a b : DataType) :
    a.getLsbD (b.extractLsb' 0 5).toNat = a.getLsbD (Isa.amount b) := by
  rw [BitVec.extractLsb'_toNat, Nat.shiftRight_zero]
  rfl

theorem byteAt_zero (a : DataType) : byteAt a 0 = a.setWidth 8 :=
  (BitVec.setWidth_eq_extractLsb' (by decide)).symm

theorem lowHalf (a : DataType) : a.extractLsb' 0 16 = a.setWidth 16 :=
  (BitVec.setWidth_eq_extractLsb' (by decide)).symm

/-- An arithmetic instruction of an extension that is there. -/
theorem aluResult_arm (hx : m.enabled cfg.extensions = true) (harm : armOf m = some arm)
    (src : AluSources) (w pc a b : DataType) :
    m.value w pc a b =
      some (aluResult cfg arm.aluOp arm.isunsigned src a (arm.imm.operand w b)) := by
  cases m <;> cases harm
  case czeroeqz | czeronez =>
    simp only [Mnemonic.enabled, Generics.extensions] at hx
    simp only [aluResult, AluArm.reg, hx, if_true]
    rfl
  all_goals
    simp only [Mnemonic.enabled, Generics.extensions] at hx
    simp only [aluResult, Mnemonic.value, AluArm.reg, AluArm.regUnsigned, AluArm.immediate,
      AluArm.immediateUnsigned, AluArm.shamt, ImmSel.operand, hx, cmplt_signed, cmplt_unsigned,
      shiftLeft_logical, shiftRight_logical, shiftRight_arithmetic,
      shiftLeft_rotate, shiftRight_rotate, amount_immShamt, bitsft_eq, flagWord_bool,
      getLsbD_amount, countOnes_eq, countLeadingZeros_eq, countTrailingZeros_eq, orcb_eq, rev8_eq,
      brev8_eq, zipBits_eq, unzipBits_eq, byteAt_zero, lowHalf, BitVec.not_xor_right,
      decide_eq_true_eq,
      if_true]

/-- ORC.B is decoded for Zbkb but computed for Zbb. -/
theorem aluResult_orcb (hz : cfg.haveZbb = false) (isunsigned : Bool) (src : AluSources)
    (a b : DataType) : aluResult cfg .orcb isunsigned src a b = 0 := by
  simp only [aluResult, hz, if_neg Bool.false_ne_true]

/-- The penalty of a branch is its decision. -/
theorem aluPenalty_branch {p : AluOp × Bool} (hp : branchOf m = some p) (a b : DataType) :
    aluPenalty p.1 p.2 a b = m.jumps a b := by
  cases m <;> cases hp
  all_goals
    rw [Bool.eq_iff_iff]
    simp [aluPenalty, Mnemonic.jumps, cmplt_signed, cmplt_unsigned]

theorem orBytes_eq_zero_iff (a : DataType) : Isa.orBytes a = 0 ↔ a = 0 := by
  constructor
  · intro h
    apply BitVec.eq_of_getLsbD_eq
    intro k hk
    have hbit : (Isa.orBytes a).getLsbD k = false := by rw [h]; simp
    rw [Isa.orBytes, Isa.getLsbD_ofBits hk, List.any_eq_false] at hbit
    have hk' := hbit (k % 8) (List.mem_range.mpr (Nat.mod_lt _ (by decide)))
    rw [Nat.div_add_mod] at hk'
    simpa using hk'
  · rintro rfl
    decide

end Alu

/-! ## The meaning of an accepted word -/

/-- The instruction of a word: one of the extensions that are there or else of any. -/
def Generics.meaning (cfg : Generics) (w : DataType) : Option Mnemonic :=
  (Isa.instruction cfg.extensions w).or (Isa.instruction Extensions.every w)

section Meaning
variable {cfg : Generics} {ebreakm isstepping : Bool} {pc w : DataType} {m : Mnemonic}

/-- An accepted word has the slot of its instruction. Only ORC.B is accepted without the extension
that it belongs to. -/
theorem decode_of_meaning (hm : cfg.meaning w = some m)
    (hacc : (decode cfg ebreakm isstepping pc w).illegalInstructionDecode = false) :
    decode cfg ebreakm isstepping pc w = (slotOf ebreakm isstepping pc w m).blockZero w ∧
      (Isa.instruction cfg.extensions w = some m ∨ m = .orcb ∧ cfg.haveZbb = false) := by
  rw [decode_illegal] at hacc
  rw [decode_eq_blockZero]
  cases hi : Isa.instruction cfg.extensions w with
  | some m' =>
    rw [Generics.meaning, hi, Option.some_or, Option.some.injEq] at hm
    rw [decodeOpcode_of_instruction hi, hm]
    exact ⟨rfl, .inl rfl⟩
  | none =>
    rw [Generics.meaning, hi, Option.none_or] at hm
    have hmatch := (Isa.instruction_spec hm).2
    have hne : ¬Encoded cfg w := by
      rw [encoded_iff, hi]
      exact Bool.false_ne_true
    have hpriv : PrivilegedFieldsFixed w := fun hp => fields_of_privileged hmatch hp
    have horcb : ¬OrcbNeedsZbb cfg w := fun h => hne (encoded_of_accepted h hpriv hacc)
    simp only [OrcbNeedsZbb, Classical.not_imp, not_or, Bool.not_eq_true, Bool.not_eq_false]
      at horcb
    obtain ⟨hmo, hz, hzk⟩ := horcb
    rw [eq_orcb_of_matches hmatch hmo, accepted_of_orcb hmo hzk]
    exact ⟨rfl, .inr ⟨rfl, hz⟩⟩

end Meaning

/-! ## The execute stage -/

namespace Core

/-- The instruction in the execute stage completes in this clock. -/
structure Completes (cfg : Generics) (s : Core) (i : CoreInput) : Prop where
  running : s.indebug = false
  not_stalled : s.stall i = false
  not_triggered : s.stallOnTrigger cfg i = false
  not_trapped : s.trapRequest cfg i = false

/-- The execute stage does what the instruction `m` of the word `w` at `pc` does with the two
operands: the write to `rd`, the decision to jump and the target of the jump. -/
structure Executes (cfg : Generics) (io : Peripherals) (s : Core) (i : CoreInput) (m : Mnemonic)
    (w pc : DataType) : Prop where
  write : s.regWrite cfg io i =
    if Isa.rd w = 0 then none
    else (m.value w pc s.operandA s.operandB).map fun v => (Isa.rd w, v)
  decision : s.penalty = m.jumps s.operandA s.operandB
  next : s.pcOpNext cfg = if m.jumps s.operandA s.operandB then m.target w pc s.operandA
    else s.pc + 4

section Executes
variable {cfg : Generics} {io : Peripherals} {s : Core} {i : CoreInput} {m : Mnemonic}
  {ebreakm isstepping : Bool} {pc w : DataType} {d : IdEx}

theorem regWrite_of_completes (hc : s.Completes cfg i) :
    s.regWrite cfg io i = if s.idEx.rdEn then some (s.idEx.rd, s.result cfg io i) else none := by
  simp [regWrite, hc.running, hc.not_stalled, hc.not_triggered, hc.not_trapped]

/-- An instruction with a value writes it, except to `x0`. -/
theorem write_of_value (hc : s.Completes cfg i) (hs : s.idEx = d.blockZero w)
    (hrd : d.rd = rdField w) (hen : d.rdEn = true)
    (hv : m.value w pc s.operandA s.operandB = some (s.result cfg io i)) :
    s.regWrite cfg io i =
      if Isa.rd w = 0 then none
      else (m.value w pc s.operandA s.operandB).map fun v => (Isa.rd w, v) := by
  rw [blockZero_eq] at hs
  rw [regWrite_of_completes hc, hv, hs, hrd, hen, Bool.true_and]
  by_cases h0 : rdField w = 0
  · rw [if_neg (by simp [h0]), if_pos (show Isa.rd w = 0 from h0)]
  · rw [if_pos (decide_eq_true h0), if_neg (show ¬Isa.rd w = 0 from h0)]
    rfl

theorem write_of_none (hc : s.Completes cfg i) (hs : s.idEx = d.blockZero w)
    (hen : d.rdEn = false) (hv : m.value w pc s.operandA s.operandB = none) :
    s.regWrite cfg io i =
      if Isa.rd w = 0 then none
      else (m.value w pc s.operandA s.operandB).map fun v => (Isa.rd w, v) := by
  rw [blockZero_eq] at hs
  rw [regWrite_of_completes hc, hv, hs, hen]
  simp

theorem slotOf_arm {arm : AluArm} (harm : armOf m = some arm) :
    slotOf ebreakm isstepping pc w m = (IdEx.bubble pc w).arith w (some arm) := by
  rw [← harm]
  cases m <;> first | rfl | cases harm

theorem jumps_arm {arm : AluArm} (harm : armOf m = some arm) (a b : DataType) :
    m.jumps a b = false := by
  cases m <;> first | rfl | cases harm

theorem plain_arm {arm : AluArm} (harm : armOf m = some arm) : arm.aluOp.plain = true := by
  cases m <;> cases harm <;> rfl

/-- The slot of an arithmetic instruction selects its second operand. -/
theorem aluOperandB_arm {arm : AluArm}
    (hs : s.idEx = ((IdEx.bubble pc w).arith w (some arm)).blockZero w) :
    s.aluOperandB = arm.imm.operand w s.operandB := by
  rw [blockZero_eq] at hs
  rw [aluOperandB, hs]
  cases h : arm.imm <;> simp [IdEx.arith, ImmSel.operand, h]
  rfl

theorem executes_arm {arm : AluArm} (hc : s.Completes cfg i) (harm : armOf m = some arm)
    (hx : m.enabled cfg.extensions = true)
    (hs : s.idEx = (slotOf ebreakm isstepping pc w m).blockZero w) :
    s.Executes cfg io i m w pc := by
  rw [slotOf_arm harm] at hs
  have hb := aluOperandB_arm hs
  have hs' := hs
  rw [blockZero_eq] at hs'
  have hop : s.idEx.aluOp = arm.aluOp := by rw [hs']; rfl
  have hpen : s.penalty = false := by
    rw [penalty, hop]
    exact aluPenalty_plain (plain_arm harm) _ _ _
  refine ⟨write_of_value hc hs rfl rfl ?_, ?_, ?_⟩
  · rw [aluResult_arm hx harm (s.aluSources cfg io i), result, hop, hb, hs']
    rfl
  · rw [hpen, jumps_arm harm]
  · rw [jumps_arm harm, pcOpNext, hs']
    rfl

theorem slotOf_branch {p : AluOp × Bool} (hp : branchOf m = some p) :
    slotOf ebreakm isstepping pc w m = (IdEx.bubble pc w).branch w (some p) := by
  rw [← hp]
  cases m <;> first | rfl | cases hp

theorem executes_branch {p : AluOp × Bool} (hc : s.Completes cfg i) (hp : branchOf m = some p)
    (hs : s.idEx = (slotOf ebreakm isstepping pc w m).blockZero w) :
    s.Executes cfg io i m w pc := by
  rw [slotOf_branch hp] at hs
  have hs' := hs
  rw [blockZero_eq] at hs'
  have hpen : s.penalty = m.jumps s.operandA s.operandB := by
    rw [← aluPenalty_branch hp, penalty, aluOperandB, hs']
    rfl
  refine ⟨write_of_none hc hs rfl ?_, hpen, ?_⟩
  · cases m <;> first | rfl | cases hp
  · rw [← hpen, pcOpNext, hs']
    cases m <;> first | rfl | cases hp

/-- The upper immediates, the jumps and the may-be-operations. -/
theorem executes_other (hc : s.Completes cfg i)
    (hm : m = .lui ∨ m = .auipc ∨ m = .jal ∨ m = .jalr ∨ m = .mopr ∨ m = .moprr)
    (hs : s.idEx = (slotOf ebreakm isstepping pc w m).blockZero w) :
    s.Executes cfg io i m w pc := by
  have hs' := hs
  rw [blockZero_eq] at hs'
  rcases hm with rfl | rfl | rfl | rfl | rfl | rfl
  · refine ⟨write_of_value hc hs rfl rfl ?_, by rw [penalty, hs']; rfl, by rw [pcOpNext, hs']; rfl⟩
    rw [result, aluOperandB, hs']
    rfl
  · refine ⟨write_of_value hc hs rfl rfl ?_, by rw [penalty, hs']; rfl, by rw [pcOpNext, hs']; rfl⟩
    rw [result, aluOperandB, aluSources, hs']
    rfl
  · refine ⟨write_of_value hc hs rfl rfl ?_, by rw [penalty, hs']; rfl, by rw [pcOpNext, hs']; rfl⟩
    rw [result, aluSources, hs']
    rfl
  · refine ⟨write_of_value hc hs rfl rfl ?_, by rw [penalty, hs']; rfl, by rw [pcOpNext, hs']; rfl⟩
    rw [result, aluSources, hs']
    rfl
  · refine ⟨write_of_value hc hs rfl rfl ?_, by rw [penalty, hs']; rfl, by rw [pcOpNext, hs']; rfl⟩
    rw [result, hs']
    rfl
  · refine ⟨write_of_value hc hs rfl rfl ?_, by rw [penalty, hs']; rfl, by rw [pcOpNext, hs']; rfl⟩
    rw [result, hs']
    rfl

theorem arm_of_shift (hm : m.isShift = true) : ∃ arm, armOf m = some arm := by
  cases m <;> first | exact ⟨_, rfl⟩ | cases hm

theorem cases_of_computation (hm : m.isComputation = true) :
    (∃ arm, armOf m = some arm) ∨ (∃ p, branchOf m = some p) ∨
      m = .lui ∨ m = .auipc ∨ m = .jal ∨ m = .jalr ∨ m = .mopr ∨ m = .moprr := by
  cases m <;>
    first
    | exact .inl ⟨_, rfl⟩
    | exact .inr (.inl ⟨_, rfl⟩)
    | exact .inr (.inr (by decide))
    | cases hm

variable (io) in
theorem executes_of_computation (hc : s.Completes cfg i) (hm : m.isComputation = true)
    (hx : m.enabled cfg.extensions = true)
    (hs : s.idEx = (slotOf ebreakm isstepping pc w m).blockZero w) :
    s.Executes cfg io i m w pc := by
  rcases cases_of_computation hm with ⟨arm, harm⟩ | ⟨p, hp⟩ | hother
  · exact executes_arm hc harm hx hs
  · exact executes_branch hc hp hs
  · exact executes_other hc hother hs

/-- The staged shifter computes every shift and rotate of the instruction set, and a rotate to the
left is a rotate to the right by the rest of the 32 bits. -/
theorem shifter_executes (hs : s.idEx = decode cfg ebreakm isstepping pc w)
    (hm : Isa.instruction cfg.extensions w = some m) (hshift : m.isShift = true)
    (hc : s.Completes cfg i) :
    s.Executes cfg io i m w pc ∧
      (m = .rol → ∀ b, Isa.amount b = (32 - Isa.amount s.operandB) % 32 →
        s.result cfg io i =
          aluResult cfg .ror s.idEx.isunsigned (s.aluSources cfg io i) s.operandA b) := by
  obtain ⟨arm, harm⟩ := arm_of_shift hshift
  have hx := (Isa.instruction_spec hm).1
  rw [decode_eq_blockZero, decodeOpcode_of_instruction hm] at hs
  refine ⟨executes_arm hc harm hx hs, ?_⟩
  rintro rfl b hb
  have hrol := aluResult_arm hx harm (s.aluSources cfg io i) w pc s.operandA s.operandB
  have hror := aluResult_arm (m := .ror) hx rfl (s.aluSources cfg io i) w pc s.operandA b
  cases harm
  have hrol := Option.some.inj hrol
  have hror := Option.some.inj hror
  rw [blockZero_eq] at hs
  calc s.result cfg io i
      = s.operandA.rotateLeft (Isa.amount s.operandB) := by
        rw [hrol, result, aluOperandB, hs]
        rfl
    _ = s.operandA.rotateRight (Isa.amount b) := by
        rw [Isa.rotateLeft_eq_rotateRight _ (amount_lt _), hb]
    _ = aluResult cfg .ror s.idEx.isunsigned (s.aluSources cfg io i) s.operandA b := by
        rw [hror, hs]
        rfl

/-- `rol x3, x1, x2` on a core with Zbb, for -8 and 5. -/
def rotateState : Core :=
  runProgram { Generics.plain with haveZbb := true } .none [0xff800093, 0x00500113, 0x602091b3]
    (.replicate 4 .quiet)

def rotateInput : CoreInput :=
  rotateState.fetchInput { Generics.plain with haveZbb := true } 0x00000013 .quiet

theorem rotate_executes :
    rotateState.Executes { Generics.plain with haveZbb := true } .none rotateInput .rol
        0x602091b3 8 ∧
      ((.rol : Mnemonic) = .rol → ∀ b, Isa.amount b = (32 - Isa.amount rotateState.operandB) % 32 →
        rotateState.result { Generics.plain with haveZbb := true } .none rotateInput =
          aluResult { Generics.plain with haveZbb := true } .ror rotateState.idEx.isunsigned
            (rotateState.aluSources { Generics.plain with haveZbb := true } .none rotateInput)
            rotateState.operandA b) :=
  shifter_executes
    (show rotateState.idEx = decode { Generics.plain with haveZbb := true } false false 8
      0x602091b3 by decide +kernel)
    (by decide +kernel) rfl
    ⟨by decide +kernel, by decide +kernel, by decide +kernel, by decide +kernel⟩

/-- An accepted computation is the one of the instruction set, except that ORC.B gives 0 on a core
with Zbkb and without Zbb. -/
theorem executes_iff_not_orcb (hs : s.idEx = decode cfg ebreakm isstepping pc w)
    (hacc : (decode cfg ebreakm isstepping pc w).illegalInstructionDecode = false)
    (hm : cfg.meaning w = some m) (hk : m.isComputation = true) (hc : s.Completes cfg i) :
    s.Executes cfg io i m w pc ↔
      ¬(m = .orcb ∧ cfg.haveZbb = false ∧ Isa.rd w ≠ 0 ∧ s.operandA ≠ 0) := by
  obtain ⟨hslot, hi | ⟨rfl, hz⟩⟩ := decode_of_meaning hm hacc
  · have hx := (Isa.instruction_spec hi).1
    have hexec := executes_of_computation io hc hk hx (hs.trans hslot)
    refine iff_of_true hexec ?_
    rintro ⟨rfl, hz, -⟩
    exact Bool.false_ne_true (hz.symm.trans hx)
  · rw [hslot] at hs
    have hs' := hs
    rw [blockZero_eq] at hs'
    have hresult : s.result cfg io i = 0 := by
      rw [result, hs']
      exact aluResult_orcb hz _ _ _ _
    have hpen : s.penalty = false := by rw [penalty, hs']; rfl
    have hnext : s.pcOpNext cfg = s.pc + 4 := by rw [pcOpNext, hs']; rfl
    have hwrite : s.regWrite cfg io i = if Isa.rd w = 0 then none else some (Isa.rd w, 0) := by
      rw [regWrite_of_completes hc, hresult, hs']
      by_cases h0 : Isa.rd w = 0
      · rw [if_pos h0, if_neg (by simp [show rdField w = 0 from h0])]
      · rw [if_neg h0]
        exact if_pos (decide_eq_true (p := rdField w ≠ 0) h0)
    have hvalue : Mnemonic.orcb.value w pc s.operandA s.operandB =
        some (Isa.orBytes s.operandA) := rfl
    constructor
    · rintro ⟨hw, -, -⟩ ⟨-, -, h0, ha⟩
      rw [hwrite, hvalue, if_neg h0, if_neg h0, Option.map_some, Option.some.injEq,
        Prod.mk.injEq] at hw
      exact ha ((orBytes_eq_zero_iff _).mp hw.2.symm)
    · intro hne
      refine ⟨?_, hpen, hnext⟩
      rw [hwrite, hvalue]
      by_cases h0 : Isa.rd w = 0
      · rw [if_pos h0, if_pos h0]
      · have ha : s.operandA = 0 := by
          by_contra ha
          exact hne ⟨rfl, hz, h0, ha⟩
        rw [if_neg h0, if_neg h0, (orBytes_eq_zero_iff _).mpr ha, Option.map_some]

/-- `orc.b x2, x1` on a core with Zbkb and without Zbb, for 1. -/
def orcbState : Core :=
  runProgram { Generics.plain with haveZbkb := true } .none [0x00100093, 0x2870d113]
    (.replicate 3 .quiet)

def orcbInput : CoreInput :=
  orcbState.fetchInput { Generics.plain with haveZbkb := true } 0x00000013 .quiet

/-- The word is accepted and its slot completes, but `x2` gets 0 and not 0xff. -/
theorem orcb_for_zbkb_writes_zero :
    ¬∀ (cfg : Generics) (io : Peripherals) (s : Core) (i : CoreInput) (m : Mnemonic)
      (ebreakm isstepping : Bool) (pc w : DataType),
      s.idEx = decode cfg ebreakm isstepping pc w →
      (decode cfg ebreakm isstepping pc w).illegalInstructionDecode = false →
      cfg.meaning w = some m → m.isComputation = true → s.Completes cfg i →
      s.Executes cfg io i m w pc := by
  intro h
  have hexec := h { Generics.plain with haveZbkb := true } .none orcbState orcbInput .orcb false
    false 4 0x2870d113 (by decide +kernel) (by decide +kernel) (by decide +kernel) rfl
    ⟨by decide +kernel, by decide +kernel, by decide +kernel, by decide +kernel⟩
  exact absurd hexec.write (by decide +kernel)

/-- The same program on a core with Zbb. -/
def zbbState : Core :=
  runProgram { Generics.plain with haveZbb := true } .none [0x00100093, 0x2870d113]
    (.replicate 3 .quiet)

theorem orcb_for_zbb_executes :
    zbbState.Executes { Generics.plain with haveZbb := true } .none orcbInput .orcb
      0x2870d113 4 :=
  (executes_iff_not_orcb
    (show zbbState.idEx = decode { Generics.plain with haveZbb := true } false false 4
      0x2870d113 by decide +kernel)
    (by decide +kernel) (by decide +kernel) rfl
    ⟨by decide +kernel, by decide +kernel, by decide +kernel, by decide +kernel⟩).mpr
    fun h => absurd h.2.1 (by decide)

end Executes

end Core

end ThuasRiscv
