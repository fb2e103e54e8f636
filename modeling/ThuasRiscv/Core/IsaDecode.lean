import ThuasRiscv.Core.DecodeShape
import ThuasRiscv.Core.Program
import ThuasRiscv.Isa.Encoding

/-!
# The decoder and the instruction set

The slot that every instruction of the instruction set decodes to, and the words
that the decoder accepts beyond it.
-/

namespace ThuasRiscv

open Isa (Mnemonic Extensions)

/-- The optional extensions that the generics select. -/
def Generics.extensions (cfg : Generics) : Extensions where
  m := cfg.haveMuldiv
  zba := cfg.haveZba
  zbb := cfg.haveZbb
  zbs := cfg.haveZbs
  zbkb := cfg.haveZbkb
  zicond := cfg.haveZicond
  zimop := cfg.haveZimop

/-! ## The slot of an instruction -/

/-- The arm of an arithmetic instruction. -/
def armOf : Mnemonic → Option AluArm
  | .addi => some (.immediate .addi)
  | .slti => some (.immediate .slti)
  | .sltiu => some (.immediateUnsigned .sltiu)
  | .xori => some (.immediate .xori)
  | .ori => some (.immediate .ori)
  | .andi => some (.immediate .andi)
  | .slli => some (.shamt .slli)
  | .srli => some (.shamt .srli)
  | .srai => some (.shamt .srai)
  | .bclri => some (.shamt .bclri)
  | .bexti => some (.shamt .bexti)
  | .binvi => some (.shamt .binvi)
  | .bseti => some (.shamt .bseti)
  | .sextb => some (.reg .sextb)
  | .sexth => some (.reg .sexth)
  | .cpop => some (.reg .cpop)
  | .clz => some (.reg .clz)
  | .ctz => some (.reg .ctz)
  | .rev8 => some (.reg .rev8)
  | .brev8 => some (.reg .brev8)
  | .orcb => some (.reg .orcb)
  | .rori => some (.shamt .rori)
  | .zip => some (.reg .zip)
  | .unzip => some (.reg .unzip)
  | .add => some (.reg .add)
  | .sub => some (.reg .sub)
  | .sll => some (.reg .sll)
  | .slt => some (.reg .slt)
  | .sltu => some (.regUnsigned .sltu)
  | .xor => some (.reg .xor)
  | .srl => some (.reg .srl)
  | .sra => some (.reg .sra)
  | .or => some (.reg .or)
  | .and => some (.reg .and)
  | .sh1add => some (.reg .sh1add)
  | .sh2add => some (.reg .sh2add)
  | .sh3add => some (.reg .sh3add)
  | .bclr => some (.reg .bclr)
  | .bext => some (.reg .bext)
  | .binv => some (.reg .binv)
  | .bset => some (.reg .bset)
  | .czeroeqz => some (.reg .czeroeqz)
  | .czeronez => some (.reg .czeronez)
  | .andn => some (.reg .andn)
  | .orn => some (.reg .orn)
  | .xnor => some (.reg .xnor)
  | .zexth => some (.reg .zexth)
  | .max => some (.reg .max)
  | .maxu => some (.regUnsigned .maxu)
  | .min => some (.reg .min)
  | .minu => some (.regUnsigned .minu)
  | .rol => some (.reg .rol)
  | .ror => some (.reg .ror)
  | .pack => some (.reg .pack)
  | .packh => some (.reg .packh)
  | _ => none

/-- The operation and the signedness of a branch. -/
def branchOf : Mnemonic → Option (AluOp × Bool)
  | .beq => some (.beq, false)
  | .bne => some (.bne, false)
  | .blt => some (.blt, false)
  | .bge => some (.bge, false)
  | .bltu => some (.bltu, true)
  | .bgeu => some (.bgeu, true)
  | _ => none

def csrOpOf : Mnemonic → CsrOp
  | .csrrw => .rw
  | .csrrs => .rs
  | .csrrc => .rc
  | .csrrwi => .rwi
  | .csrrsi => .rsi
  | .csrrci => .rci
  | _ => .nop

/-- The slot that an instruction decodes to, before the check for `x0`. -/
def slotOf (ebreakm isstepping : Bool) (pc instr : DataType) (m : Mnemonic) : IdEx :=
  let d := IdEx.bubble pc instr
  match m with
  | .lui => { d with aluOp := .lui, rdEn := true, imm := immU instr, isimm := true }
  | .auipc => { d with aluOp := .auipc, rdEn := true, imm := immU instr, isimm := true }
  | .jal => { d with aluOp := .jalJalr, pcOp := .loadoffset, rdEn := true, imm := immJ instr }
  | .jalr =>
    { d with aluOp := .jalJalr, pcOp := .loadoffsetregister, rdEn := true, imm := immI instr }
  | .beq | .bne | .blt | .bge | .bltu | .bgeu => d.branch instr (branchOf m)
  | .lb => d.load instr (some (.lb, .byte))
  | .lh => d.load instr (some (.lh, .halfword))
  | .lw => d.load instr (some (.lw, .word))
  | .lbu => d.load instr (some (.lbu, .byte))
  | .lhu => d.load instr (some (.lhu, .halfword))
  | .sb => d.store instr (some (.sb, .byte))
  | .sh => d.store instr (some (.sh, .halfword))
  | .sw => d.store instr (some (.sw, .word))
  | .fence | .fenceI => d
  | .ecall => { d with ecallRequest := true, aluOp := .trap, pcOp := .hold }
  | .ebreak =>
    if ebreakm then { d with ebreakRequest := true }
    else { d with ebreakRequest := true, aluOp := .trap, pcOp := .hold }
  | .mret => { d with aluOp := .mret, mretRequest := true, pcOp := .loadMepc }
  | .wfi => { d with wfiRequest := !isstepping }
  | .csrrw | .csrrs | .csrrc | .csrrwi | .csrrsi | .csrrci =>
    { d with
      aluOp := .csr, csrOp := csrOpOf m, rdEn := true
      csrAddr := (immI instr).extractLsb' 0 12, csrImmrs1 := rs1Field instr }
  | .mul | .mulh | .mulhsu | .mulhu | .div | .divu | .rem | .remu => d.mulDiv instr
  | .mopr | .moprr => { d with aluOp := .mop, rdEn := true }
  | m => d.arith instr (armOf m)

section Decode
variable {cfg : Generics} {ebreakm isstepping : Bool} {pc w : DataType} {m : Mnemonic}

/-! ## Every instruction is accepted -/

theorem isMop_iff : isMop cfg w = true ↔
    cfg.haveZimop = true ∧ w.extractLsb' 31 1 = 1 ∧ w.extractLsb' 28 2 = 0b00 ∧
      (w.extractLsb' 25 1 = 1 ∨ w.extractLsb' 22 4 = 0b0111) := by
  simp only [isMop, BitVec.getLsbD_eq_extractLsb', Bool.and_eq_true, Bool.or_eq_true, beq_iff_eq,
    and_assoc]
  rfl

/-- The fields that an encoding fixes are those that the decoder looks at. ZEXT.H is PACK with
`x0` and is looked for first. -/
theorem decodeOpcode_of_matches (hx : m.enabled cfg.extensions = true) (hm : m.Matches w)
    (hpack : m = .pack → ¬(cfg.haveZbb = true ∧ Mnemonic.zexth.Matches w)) :
    decodeOpcode cfg ebreakm isstepping pc w = slotOf ebreakm isstepping pc w m := by
  cases m <;>
    simp only [Mnemonic.Matches, Mnemonic.encoding, Mnemonic.ofOpcode, Mnemonic.ofFunct3,
      Mnemonic.ofFunct7, Mnemonic.ofRs2, Mnemonic.ofFunct12, List.forall_mem_cons,
      List.cons_append, List.nil_append, Isa.Field.Matches, Mnemonic.enabled, Generics.extensions,
      Bool.or_eq_true] at hm hx hpack <;>
    simp only [decodeOpcode, opcode, hm, slotOf] <;>
    simp [func3, func7, rs2Field, hm, hx, decodeOp, armOf, decodeOpImm, decodeBranch, branchOf,
      decodeLoad, decodeStore, IdEx.system, IdEx.privileged, decodeCsr, csrOpOf, isMop_iff]
  case pack =>
    have hfields : ¬(w.extractLsb' 20 5 = 0#5 ∧ cfg.haveZbb = true) := by
      rintro ⟨h0, hz⟩
      exact hpack trivial ⟨hz, hm.1, hm.2.1, hm.2.2.1, h0, by simp⟩
    rw [if_neg hfields]

theorem decodeOpcode_of_instruction (h : Isa.instruction cfg.extensions w = some m) :
    decodeOpcode cfg ebreakm isstepping pc w = slotOf ebreakm isstepping pc w m := by
  obtain ⟨hx, hm⟩ := Isa.instruction_spec h
  refine decodeOpcode_of_matches hx hm ?_
  rintro rfl
  exact Isa.not_zexth_of_pack h

/-! ## What the decoder accepts -/

variable (cfg w) in
/-- The word is the encoding of an instruction that is there. -/
def Encoded : Prop := ∃ m : Mnemonic, m.enabled cfg.extensions = true ∧ m.Matches w

/-- An arm of a table accepts the words of one instruction. -/
theorem arm_encoded {c : Prop} [Decidable c] {x : AluArm} {rest : Option AluArm} (m : Mnemonic)
    (hx : c → m.enabled cfg.extensions = true ∧ m.Matches w)
    (hrest : ∀ arm, rest = some arm → Encoded cfg w) :
    ∀ arm, (if c then some x else rest) = some arm → Encoded cfg w := by
  intro arm h
  by_cases hc : c
  · exact ⟨m, hx hc⟩
  · rw [if_neg hc] at h
    exact hrest arm h

theorem decodeOp_encoded (ho : opcode w = 0b0110011) :
    ∀ arm, decodeOp cfg (func3 w) (func7 w) (rs2Field w) = some arm → Encoded cfg w := by
  unfold decodeOp
  refine arm_encoded .add ?_ <| arm_encoded .sub ?_ <| arm_encoded .sll ?_ <|
    arm_encoded .slt ?_ <| arm_encoded .sltu ?_ <| arm_encoded .xor ?_ <| arm_encoded .srl ?_ <|
    arm_encoded .sra ?_ <| arm_encoded .or ?_ <| arm_encoded .and ?_ <| arm_encoded .sh1add ?_ <|
    arm_encoded .sh2add ?_ <| arm_encoded .sh3add ?_ <| arm_encoded .bclr ?_ <|
    arm_encoded .bext ?_ <| arm_encoded .binv ?_ <| arm_encoded .bset ?_ <|
    arm_encoded .czeroeqz ?_ <| arm_encoded .czeronez ?_ <| arm_encoded .andn ?_ <|
    arm_encoded .orn ?_ <| arm_encoded .xnor ?_ <| arm_encoded .zexth ?_ <|
    arm_encoded .max ?_ <| arm_encoded .maxu ?_ <| arm_encoded .min ?_ <|
    arm_encoded .minu ?_ <| arm_encoded .rol ?_ <| arm_encoded .ror ?_ <|
    arm_encoded .pack ?_ <| arm_encoded .packh ?_ <| fun _ h => nomatch h
  all_goals
    intro h
    simp only [opcode, func3, func7, rs2Field] at ho h
    simp [Mnemonic.enabled, Mnemonic.Matches, Mnemonic.encoding, Mnemonic.ofFunct7,
      Mnemonic.ofRs2, Isa.Field.Matches, Generics.extensions, ho, h]

theorem decodeOpImm_encoded (ho : opcode w = 0b0010011)
    (horcb : Mnemonic.orcb.Matches w → cfg.haveZbb = true ∨ cfg.haveZbkb = false) :
    ∀ arm, decodeOpImm cfg (func3 w) (func7 w) (rs2Field w) = some arm → Encoded cfg w := by
  unfold decodeOpImm
  refine arm_encoded .addi ?_ <| arm_encoded .slti ?_ <| arm_encoded .sltiu ?_ <|
    arm_encoded .xori ?_ <| arm_encoded .ori ?_ <| arm_encoded .andi ?_ <|
    arm_encoded .slli ?_ <| arm_encoded .srli ?_ <| arm_encoded .srai ?_ <|
    arm_encoded .bclri ?_ <| arm_encoded .bexti ?_ <| arm_encoded .binvi ?_ <|
    arm_encoded .bseti ?_ <| arm_encoded .sextb ?_ <| arm_encoded .sexth ?_ <|
    arm_encoded .cpop ?_ <| arm_encoded .clz ?_ <| arm_encoded .ctz ?_ <|
    arm_encoded .rev8 ?_ <| arm_encoded .brev8 ?_ <| arm_encoded .orcb ?orcb <|
    arm_encoded .rori ?_ <| arm_encoded .zip ?_ <| arm_encoded .unzip ?_ <| fun _ h => nomatch h
  all_goals
    intro h
    simp only [opcode, func3, func7, rs2Field] at ho h
    simp [Mnemonic.enabled, Mnemonic.Matches, Mnemonic.encoding, Mnemonic.ofFunct3,
      Mnemonic.ofFunct7, Mnemonic.ofRs2, Isa.Field.Matches, Generics.extensions, ho, h] at horcb ⊢
  case orcb =>
    rcases h.2.2.2 with hz | hz
    · exact hz
    · simpa [hz] using horcb

theorem decodeBranch_encoded (ho : opcode w = 0b1100011) {p : AluOp × Bool}
    (h : decodeBranch (func3 w) = some p) : Encoded cfg w := by
  unfold decodeBranch at h
  split at h
  · exact ⟨.beq, rfl, Mnemonic.matches_of_funct3 rfl ho ‹_›⟩
  · exact ⟨.bne, rfl, Mnemonic.matches_of_funct3 rfl ho ‹_›⟩
  · exact ⟨.blt, rfl, Mnemonic.matches_of_funct3 rfl ho ‹_›⟩
  · exact ⟨.bge, rfl, Mnemonic.matches_of_funct3 rfl ho ‹_›⟩
  · exact ⟨.bltu, rfl, Mnemonic.matches_of_funct3 rfl ho ‹_›⟩
  · exact ⟨.bgeu, rfl, Mnemonic.matches_of_funct3 rfl ho ‹_›⟩
  · cases h

theorem decodeStore_encoded (ho : opcode w = 0b0100011) {p : AluOp × MemSize}
    (h : decodeStore (func3 w) = some p) : Encoded cfg w := by
  unfold decodeStore at h
  split at h
  · exact ⟨.sb, rfl, Mnemonic.matches_of_funct3 rfl ho ‹_›⟩
  · exact ⟨.sh, rfl, Mnemonic.matches_of_funct3 rfl ho ‹_›⟩
  · exact ⟨.sw, rfl, Mnemonic.matches_of_funct3 rfl ho ‹_›⟩
  · cases h

theorem decodeLoad_encoded (ho : opcode w = 0b0000011) {p : AluOp × MemSize}
    (h : decodeLoad (func3 w) = some p) : Encoded cfg w := by
  unfold decodeLoad at h
  split at h
  · exact ⟨.lb, rfl, Mnemonic.matches_of_funct3 rfl ho ‹_›⟩
  · exact ⟨.lh, rfl, Mnemonic.matches_of_funct3 rfl ho ‹_›⟩
  · exact ⟨.lw, rfl, Mnemonic.matches_of_funct3 rfl ho ‹_›⟩
  · exact ⟨.lbu, rfl, Mnemonic.matches_of_funct3 rfl ho ‹_›⟩
  · exact ⟨.lhu, rfl, Mnemonic.matches_of_funct3 rfl ho ‹_›⟩
  · cases h

theorem decodeCsr_encoded (ho : opcode w = 0b1110011) {op : CsrOp}
    (h : decodeCsr (func3 w) = some op) : Encoded cfg w := by
  unfold decodeCsr at h
  split at h
  · exact ⟨.csrrw, rfl, Mnemonic.matches_of_funct3 rfl ho ‹_›⟩
  · exact ⟨.csrrs, rfl, Mnemonic.matches_of_funct3 rfl ho ‹_›⟩
  · exact ⟨.csrrc, rfl, Mnemonic.matches_of_funct3 rfl ho ‹_›⟩
  · exact ⟨.csrrwi, rfl, Mnemonic.matches_of_funct3 rfl ho ‹_›⟩
  · exact ⟨.csrrsi, rfl, Mnemonic.matches_of_funct3 rfl ho ‹_›⟩
  · exact ⟨.csrrci, rfl, Mnemonic.matches_of_funct3 rfl ho ‹_›⟩
  · cases h

/-- Eight instructions differ in `func3` only. -/
theorem mulDiv_encoded (hm : cfg.haveMuldiv = true) (ho : opcode w = 0b0110011)
    (h7 : func7 w = 0b0000001) : Encoded cfg w := by
  have hf3 : ∀ f3 : BitVec 3, f3 = 0 ∨ f3 = 1 ∨ f3 = 2 ∨ f3 = 3 ∨ f3 = 4 ∨ f3 = 5 ∨ f3 = 6 ∨
      f3 = 7 := by
    decide
  rcases hf3 (func3 w) with h | h | h | h | h | h | h | h
  · exact ⟨.mul, hm, Mnemonic.matches_of_funct7 rfl ho h h7⟩
  · exact ⟨.mulh, hm, Mnemonic.matches_of_funct7 rfl ho h h7⟩
  · exact ⟨.mulhsu, hm, Mnemonic.matches_of_funct7 rfl ho h h7⟩
  · exact ⟨.mulhu, hm, Mnemonic.matches_of_funct7 rfl ho h h7⟩
  · exact ⟨.div, hm, Mnemonic.matches_of_funct7 rfl ho h h7⟩
  · exact ⟨.divu, hm, Mnemonic.matches_of_funct7 rfl ho h h7⟩
  · exact ⟨.rem, hm, Mnemonic.matches_of_funct7 rfl ho h h7⟩
  · exact ⟨.remu, hm, Mnemonic.matches_of_funct7 rfl ho h h7⟩

theorem mop_encoded (ho : opcode w = 0b1110011) (h3 : func3 w = 0b100) (h : isMop cfg w = true) :
    Encoded cfg w := by
  obtain ⟨hz, h31, h28, h25 | h22⟩ := isMop_iff.mp h
  · refine ⟨.moprr, hz, ?_⟩
    simp only [opcode, func3] at ho h3
    simp [Mnemonic.Matches, Mnemonic.encoding, Mnemonic.ofFunct3, Isa.Field.Matches, *]
  · refine ⟨.mopr, hz, ?_⟩
    simp only [opcode, func3] at ho h3
    simp [Mnemonic.Matches, Mnemonic.encoding, Mnemonic.ofFunct3, Isa.Field.Matches, *]

/-- The word of a privileged instruction, apart from its register fields. -/
def Privileged (w : DataType) : Prop :=
  opcode w = 0b1110011 ∧ func3 w = 0b000 ∧
    (Isa.funct12 w = 0b000000000000 ∨ Isa.funct12 w = 0b000000000001 ∨
      Isa.funct12 w = 0b001100000010 ∨ Isa.funct12 w = 0b000100000101)

/-- Both register fields of a privileged instruction are zero. -/
def PrivilegedFieldsFixed (w : DataType) : Prop :=
  Privileged w → rdField w = 0 ∧ rs1Field w = 0

/-- ORC.B belongs to Zbb alone. -/
def OrcbNeedsZbb (cfg : Generics) (w : DataType) : Prop :=
  Mnemonic.orcb.Matches w → cfg.haveZbb = true ∨ cfg.haveZbkb = false

theorem privileged_encoded (hp : Privileged w) (hfix : PrivilegedFieldsFixed w) :
    Encoded cfg w := by
  obtain ⟨hrd, hrs1⟩ := hfix hp
  obtain ⟨ho, h3, h | h | h | h⟩ := hp
  · exact ⟨.ecall, rfl, Mnemonic.matches_of_funct12 rfl ho h3 h hrd hrs1⟩
  · exact ⟨.ebreak, rfl, Mnemonic.matches_of_funct12 rfl ho h3 h hrd hrs1⟩
  · exact ⟨.mret, rfl, Mnemonic.matches_of_funct12 rfl ho h3 h hrd hrs1⟩
  · exact ⟨.wfi, rfl, Mnemonic.matches_of_funct12 rfl ho h3 h hrd hrs1⟩

theorem system_encoded (ho : opcode w = 0b1110011) (hpriv : PrivilegedFieldsFixed w) {d : IdEx}
    (h : (d.system cfg ebreakm isstepping w).illegalInstructionDecode = false) :
    Encoded cfg w := by
  unfold IdEx.system at h
  by_cases h0 : func3 w = 0b000
  · rw [if_pos h0] at h
    refine privileged_encoded ⟨ho, h0, ?_⟩ hpriv
    by_contra hne
    obtain ⟨hecall, hne⟩ := not_or.mp hne
    obtain ⟨hebreak, hne⟩ := not_or.mp hne
    obtain ⟨hmret, hwfi⟩ := not_or.mp hne
    rw [IdEx.privileged, if_neg (show ¬w.extractLsb' 20 12 = _ from hecall),
      if_neg (show ¬w.extractLsb' 20 12 = _ from hebreak),
      if_neg (show ¬w.extractLsb' 20 12 = _ from hmret),
      if_neg (show ¬w.extractLsb' 20 12 = _ from hwfi)] at h
    cases h
  · rw [if_neg h0] at h
    by_cases h4 : func3 w = 0b100
    · rw [if_pos h4] at h
      refine mop_encoded ho h4 ?_
      by_contra hmop
      rw [if_neg hmop] at h
      cases h
    · rw [if_neg h4] at h
      cases hop : decodeCsr (func3 w) with
      | none =>
        rw [hop] at h
        cases h
      | some op => exact decodeCsr_encoded ho hop

/-- Only the words of an instruction are accepted. -/
theorem encoded_of_accepted (horcb : OrcbNeedsZbb cfg w) (hpriv : PrivilegedFieldsFixed w)
    (h : (decodeOpcode cfg ebreakm isstepping pc w).illegalInstructionDecode = false) :
    Encoded cfg w := by
  unfold decodeOpcode at h
  split at h
  case h_1 ho => exact ⟨.lui, rfl, Mnemonic.matches_of_opcode rfl ho⟩
  case h_2 ho => exact ⟨.auipc, rfl, Mnemonic.matches_of_opcode rfl ho⟩
  case h_3 ho => exact ⟨.jal, rfl, Mnemonic.matches_of_opcode rfl ho⟩
  case h_4 ho =>
    by_cases h3 : func3 w = 0b000
    · exact ⟨.jalr, rfl, Mnemonic.matches_of_funct3 rfl ho h3⟩
    · rw [if_neg h3] at h
      cases h
  case h_5 ho =>
    cases ht : decodeBranch (func3 w) with
    | none =>
      rw [ht] at h
      cases h
    | some p => exact decodeBranch_encoded ho ht
  case h_6 ho =>
    cases ht : decodeOpImm cfg (func3 w) (func7 w) (rs2Field w) with
    | none =>
      rw [ht] at h
      cases h
    | some arm => exact decodeOpImm_encoded ho horcb arm ht
  case h_7 ho =>
    by_cases h7 : func7 w = 0b0000001
    · rw [if_pos h7] at h
      by_cases hm : cfg.haveMuldiv = true
      · exact mulDiv_encoded hm ho h7
      · rw [if_neg hm] at h
        cases h
    · rw [if_neg h7] at h
      cases ht : decodeOp cfg (func3 w) (func7 w) (rs2Field w) with
      | none =>
        rw [ht] at h
        cases h
      | some arm => exact decodeOp_encoded ho arm ht
  case h_8 ho =>
    cases ht : decodeStore (func3 w) with
    | none =>
      rw [ht] at h
      cases h
    | some p => exact decodeStore_encoded ho ht
  case h_9 ho =>
    cases ht : decodeLoad (func3 w) with
    | none =>
      rw [ht] at h
      cases h
    | some p => exact decodeLoad_encoded ho ht
  case h_10 ho => exact system_encoded ho hpriv h
  case h_11 ho =>
    by_cases h3 : func3 w = 0b000 ∨ func3 w = 0b001
    · rcases h3 with h3 | h3
      · exact ⟨.fence, rfl, Mnemonic.matches_of_funct3 rfl ho h3⟩
      · exact ⟨.fenceI, rfl, Mnemonic.matches_of_funct3 rfl ho h3⟩
    · rw [if_neg h3] at h
      cases h
  case h_12 => cases h

/-! ## The words that are accepted beyond the instruction set -/

/-- No other instruction has the fixed fields of ORC.B. -/
theorem eq_orcb_of_matches (hm : m.Matches w) (horcb : Mnemonic.orcb.Matches w) :
    m = .orcb := by
  simp only [Mnemonic.Matches, Mnemonic.encoding, Mnemonic.ofRs2, List.forall_mem_cons,
    Isa.Field.Matches] at horcb
  cases m <;>
    simp [Mnemonic.Matches, Mnemonic.encoding, Mnemonic.ofOpcode, Mnemonic.ofFunct3,
      Mnemonic.ofFunct7, Mnemonic.ofRs2, Mnemonic.ofFunct12, Isa.Field.Matches, horcb] at hm ⊢

/-- The privileged instructions have no other fields than the fixed ones. -/
theorem fields_of_privileged (hm : m.Matches w) (hp : Privileged w) :
    rdField w = 0 ∧ rs1Field w = 0 := by
  obtain ⟨ho, h3, -⟩ := hp
  simp only [opcode, func3] at ho h3
  cases m <;>
    simp [Mnemonic.Matches, Mnemonic.encoding, Mnemonic.ofOpcode, Mnemonic.ofFunct3,
      Mnemonic.ofFunct7, Mnemonic.ofRs2, Mnemonic.ofFunct12, Isa.Field.Matches, ho, h3] at hm
  all_goals exact hm.2

theorem not_encoded_of_orcb (hm : Mnemonic.orcb.Matches w) (hz : cfg.haveZbb = false) :
    ¬Encoded cfg w := by
  rintro ⟨m, hx, hm'⟩
  rw [eq_orcb_of_matches hm' hm] at hx
  exact Bool.false_ne_true (hz ▸ hx)

/-- ORC.B is decoded with either of the two extensions. -/
theorem accepted_of_orcb (hm : Mnemonic.orcb.Matches w) (hz : cfg.haveZbkb = true) :
    decodeOpcode cfg ebreakm isstepping pc w = slotOf ebreakm isstepping pc w .orcb := by
  simp only [Mnemonic.Matches, Mnemonic.encoding, Mnemonic.ofRs2, List.forall_mem_cons,
    Isa.Field.Matches] at hm
  simp only [decodeOpcode, opcode, hm]
  simp [func3, func7, rs2Field, hm, hz, decodeOpImm, slotOf, armOf]

theorem accepted_of_privileged (hp : Privileged w) :
    (decodeOpcode cfg ebreakm isstepping pc w).illegalInstructionDecode = false := by
  obtain ⟨ho, h3, h12⟩ := hp
  simp only [decodeOpcode, ho, IdEx.system, h3, IdEx.privileged]
  simp only [Isa.funct12] at h12
  rcases h12 with h | h | h | h
  · simp [h, IdEx.bubble]
  · simp [h]
    split_ifs <;> rfl
  · simp [h, IdEx.bubble]
  · simp [h, IdEx.bubble]

theorem encoded_iff : Encoded cfg w ↔ (Isa.instruction cfg.extensions w).isSome = true :=
  Isa.instruction_isSome_iff.symm

/-- The slot of an instruction is not illegal. -/
theorem slotOf_legal (ebreakm isstepping : Bool) (pc w : DataType) (m : Mnemonic) :
    (slotOf ebreakm isstepping pc w m).illegalInstructionDecode = false := by
  cases m <;> first | rfl | (cases ebreakm <;> rfl)

theorem accepted_of_encoded (h : Encoded cfg w) :
    (decodeOpcode cfg ebreakm isstepping pc w).illegalInstructionDecode = false := by
  obtain ⟨m, hx, hm⟩ := h
  by_cases hpack : m = .pack ∧ cfg.haveZbb = true ∧ Mnemonic.zexth.Matches w
  · rw [decodeOpcode_of_matches (m := .zexth) hpack.2.1 hpack.2.2 (by simp)]
    exact slotOf_legal ..
  · rw [decodeOpcode_of_matches hx hm (by tauto)]
    exact slotOf_legal ..

theorem decode_illegal (cfg : Generics) (ebreakm isstepping : Bool) (pc w : DataType) :
    (decode cfg ebreakm isstepping pc w).illegalInstructionDecode =
      (decodeOpcode cfg ebreakm isstepping pc w).illegalInstructionDecode := by
  rw [decode_eq_blockZero, blockZero_eq]

/-- The decoder rejects exactly the words that encode no instruction, unless the word is ORC.B for
Zbkb alone or a privileged instruction with a register field that is not zero. -/
theorem illegal_iff_not_instruction (cfg : Generics) (ebreakm isstepping : Bool)
    (pc w : DataType) :
    ((decode cfg ebreakm isstepping pc w).illegalInstructionDecode = true ↔
        Isa.instruction cfg.extensions w = none) ↔
      OrcbNeedsZbb cfg w ∧ PrivilegedFieldsFixed w := by
  have hnone : Isa.instruction cfg.extensions w = none ↔ ¬Encoded cfg w := by
    rw [encoded_iff, Option.not_isSome_iff_eq_none]
  rw [decode_illegal, hnone]
  constructor
  · intro h
    have hencoded (hl : (decodeOpcode cfg ebreakm isstepping pc w).illegalInstructionDecode =
        false) : Encoded cfg w := by
      by_contra hne
      exact Bool.false_ne_true (hl.symm.trans (h.mpr hne))
    constructor
    · intro hm
      by_contra hne
      rw [not_or, Bool.not_eq_true, Bool.not_eq_false] at hne
      refine not_encoded_of_orcb hm hne.1 (hencoded ?_)
      rw [accepted_of_orcb hm hne.2]
      exact slotOf_legal ..
    · intro hp
      obtain ⟨m, -, hm⟩ := hencoded (accepted_of_privileged hp)
      exact fields_of_privileged hm hp
  · rintro ⟨horcb, hpriv⟩
    constructor
    · intro hl henc
      exact Bool.false_ne_true ((accepted_of_encoded henc).symm.trans hl)
    · intro hne
      by_contra hl
      rw [Bool.not_eq_true] at hl
      exact hne (encoded_of_accepted horcb hpriv hl)

/-- With Zbkb alone the word `orc.b x1, x1` is accepted, and on any core `ecall` with `rd = x1`. -/
theorem accepts_orcb_for_zbkb_and_ecall_with_rd :
    ¬((decode { Generics.plain with haveZbb := false, haveZbkb := true } false false 0
          0x2870d093).illegalInstructionDecode = true ↔
        Isa.instruction { Generics.plain with haveZbb := false, haveZbkb := true }.extensions
          0x2870d093 = none) ∧
      ¬((decode Generics.plain false false 0 0x000000f3).illegalInstructionDecode = true ↔
        Isa.instruction Generics.plain.extensions 0x000000f3 = none) := by
  decide

end Decode

end ThuasRiscv
