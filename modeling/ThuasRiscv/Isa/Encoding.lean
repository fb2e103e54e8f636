import Mathlib.Data.BitVec

/-!
# Encodings of RISC-V instructions

RV32I with Zicsr and Zifencei, the privileged instructions of machine mode, and
the M, Zba, Zbb, Zbs, Zbkb, Zicond and Zimop extensions. An encoding is the list
of the fields that are fixed in the words of an instruction.
-/

namespace Isa

/-- The optional extensions. -/
structure Extensions where
  m : Bool
  zba : Bool
  zbb : Bool
  zbs : Bool
  zbkb : Bool
  zicond : Bool
  zimop : Bool
  deriving DecidableEq

/-- Every extension. -/
def Extensions.every : Extensions := ⟨true, true, true, true, true, true, true⟩

inductive Mnemonic where
  | lui | auipc | jal | jalr
  | beq | bne | blt | bge | bltu | bgeu
  | lb | lh | lw | lbu | lhu
  | sb | sh | sw
  | addi | slti | sltiu | xori | ori | andi | slli | srli | srai
  | add | sub | sll | slt | sltu | xor | srl | sra | or | and
  | fence | fenceI
  | ecall | ebreak | mret | wfi
  | csrrw | csrrs | csrrc | csrrwi | csrrsi | csrrci
  | mul | mulh | mulhsu | mulhu | div | divu | rem | remu
  | sh1add | sh2add | sh3add
  | andn | orn | xnor | clz | ctz | cpop | max | maxu | min | minu
  | sextb | sexth | zexth | rol | ror | rori | orcb | rev8
  | bclr | bclri | bext | bexti | binv | binvi | bset | bseti
  | pack | packh | brev8 | zip | unzip
  | czeroeqz | czeronez
  | mopr | moprr
  deriving DecidableEq

/-! ## Fields -/

section Fields
variable (w : BitVec 32)

def opcode : BitVec 7 := w.extractLsb' 0 7
def rd : BitVec 5 := w.extractLsb' 7 5
def funct3 : BitVec 3 := w.extractLsb' 12 3
def rs1 : BitVec 5 := w.extractLsb' 15 5
def rs2 : BitVec 5 := w.extractLsb' 20 5
def funct7 : BitVec 7 := w.extractLsb' 25 7
def funct12 : BitVec 12 := w.extractLsb' 20 12
def csr : BitVec 12 := w.extractLsb' 20 12

end Fields

/-- A field of a word: `len` bits from bit `lo` on. -/
structure Field where
  lo : ℕ
  len : ℕ
  bits : BitVec len

def Field.Matches (f : Field) (w : BitVec 32) : Prop := w.extractLsb' f.lo f.len = f.bits

instance (f : Field) (w : BitVec 32) : Decidable (f.Matches w) :=
  inferInstanceAs (Decidable (_ = _))

namespace Mnemonic

section Formats
variable (op : BitVec 7) (f3 : BitVec 3)

/-- An opcode alone. -/
def ofOpcode : List Field := [⟨0, 7, op⟩]

/-- An opcode with `funct3`. -/
def ofFunct3 : List Field := [⟨0, 7, op⟩, ⟨12, 3, f3⟩]

/-- An opcode with `funct3` and `funct7`. -/
def ofFunct7 (f7 : BitVec 7) : List Field := [⟨0, 7, op⟩, ⟨12, 3, f3⟩, ⟨25, 7, f7⟩]

/-- A unary operation, with a code in the field of `rs2`. -/
def ofRs2 (f7 : BitVec 7) (rs2 : BitVec 5) : List Field :=
  [⟨0, 7, op⟩, ⟨12, 3, f3⟩, ⟨25, 7, f7⟩, ⟨20, 5, rs2⟩]

/-- A privileged instruction: every field is fixed. -/
def ofFunct12 (f12 : BitVec 12) : List Field :=
  [⟨0, 7, 0b1110011⟩, ⟨12, 3, 0b000⟩, ⟨20, 12, f12⟩, ⟨7, 5, 0⟩, ⟨15, 5, 0⟩]

end Formats

/-- The fixed fields. -/
def encoding : Mnemonic → List Field
  | lui => ofOpcode 0b0110111
  | auipc => ofOpcode 0b0010111
  | jal => ofOpcode 0b1101111
  | jalr => ofFunct3 0b1100111 0b000
  | beq => ofFunct3 0b1100011 0b000
  | bne => ofFunct3 0b1100011 0b001
  | blt => ofFunct3 0b1100011 0b100
  | bge => ofFunct3 0b1100011 0b101
  | bltu => ofFunct3 0b1100011 0b110
  | bgeu => ofFunct3 0b1100011 0b111
  | lb => ofFunct3 0b0000011 0b000
  | lh => ofFunct3 0b0000011 0b001
  | lw => ofFunct3 0b0000011 0b010
  | lbu => ofFunct3 0b0000011 0b100
  | lhu => ofFunct3 0b0000011 0b101
  | sb => ofFunct3 0b0100011 0b000
  | sh => ofFunct3 0b0100011 0b001
  | sw => ofFunct3 0b0100011 0b010
  | addi => ofFunct3 0b0010011 0b000
  | slti => ofFunct3 0b0010011 0b010
  | sltiu => ofFunct3 0b0010011 0b011
  | xori => ofFunct3 0b0010011 0b100
  | ori => ofFunct3 0b0010011 0b110
  | andi => ofFunct3 0b0010011 0b111
  | slli => ofFunct7 0b0010011 0b001 0b0000000
  | srli => ofFunct7 0b0010011 0b101 0b0000000
  | srai => ofFunct7 0b0010011 0b101 0b0100000
  | add => ofFunct7 0b0110011 0b000 0b0000000
  | sub => ofFunct7 0b0110011 0b000 0b0100000
  | sll => ofFunct7 0b0110011 0b001 0b0000000
  | slt => ofFunct7 0b0110011 0b010 0b0000000
  | sltu => ofFunct7 0b0110011 0b011 0b0000000
  | xor => ofFunct7 0b0110011 0b100 0b0000000
  | srl => ofFunct7 0b0110011 0b101 0b0000000
  | sra => ofFunct7 0b0110011 0b101 0b0100000
  | or => ofFunct7 0b0110011 0b110 0b0000000
  | and => ofFunct7 0b0110011 0b111 0b0000000
  | fence => ofFunct3 0b0001111 0b000
  | fenceI => ofFunct3 0b0001111 0b001
  | ecall => ofFunct12 0b000000000000
  | ebreak => ofFunct12 0b000000000001
  | mret => ofFunct12 0b001100000010
  | wfi => ofFunct12 0b000100000101
  | csrrw => ofFunct3 0b1110011 0b001
  | csrrs => ofFunct3 0b1110011 0b010
  | csrrc => ofFunct3 0b1110011 0b011
  | csrrwi => ofFunct3 0b1110011 0b101
  | csrrsi => ofFunct3 0b1110011 0b110
  | csrrci => ofFunct3 0b1110011 0b111
  | mul => ofFunct7 0b0110011 0b000 0b0000001
  | mulh => ofFunct7 0b0110011 0b001 0b0000001
  | mulhsu => ofFunct7 0b0110011 0b010 0b0000001
  | mulhu => ofFunct7 0b0110011 0b011 0b0000001
  | div => ofFunct7 0b0110011 0b100 0b0000001
  | divu => ofFunct7 0b0110011 0b101 0b0000001
  | rem => ofFunct7 0b0110011 0b110 0b0000001
  | remu => ofFunct7 0b0110011 0b111 0b0000001
  | sh1add => ofFunct7 0b0110011 0b010 0b0010000
  | sh2add => ofFunct7 0b0110011 0b100 0b0010000
  | sh3add => ofFunct7 0b0110011 0b110 0b0010000
  | andn => ofFunct7 0b0110011 0b111 0b0100000
  | orn => ofFunct7 0b0110011 0b110 0b0100000
  | xnor => ofFunct7 0b0110011 0b100 0b0100000
  | clz => ofRs2 0b0010011 0b001 0b0110000 0b00000
  | ctz => ofRs2 0b0010011 0b001 0b0110000 0b00001
  | cpop => ofRs2 0b0010011 0b001 0b0110000 0b00010
  | max => ofFunct7 0b0110011 0b110 0b0000101
  | maxu => ofFunct7 0b0110011 0b111 0b0000101
  | min => ofFunct7 0b0110011 0b100 0b0000101
  | minu => ofFunct7 0b0110011 0b101 0b0000101
  | sextb => ofRs2 0b0010011 0b001 0b0110000 0b00100
  | sexth => ofRs2 0b0010011 0b001 0b0110000 0b00101
  | zexth => ofRs2 0b0110011 0b100 0b0000100 0b00000
  | rol => ofFunct7 0b0110011 0b001 0b0110000
  | ror => ofFunct7 0b0110011 0b101 0b0110000
  | rori => ofFunct7 0b0010011 0b101 0b0110000
  | orcb => ofRs2 0b0010011 0b101 0b0010100 0b00111
  | rev8 => ofRs2 0b0010011 0b101 0b0110100 0b11000
  | bclr => ofFunct7 0b0110011 0b001 0b0100100
  | bclri => ofFunct7 0b0010011 0b001 0b0100100
  | bext => ofFunct7 0b0110011 0b101 0b0100100
  | bexti => ofFunct7 0b0010011 0b101 0b0100100
  | binv => ofFunct7 0b0110011 0b001 0b0110100
  | binvi => ofFunct7 0b0010011 0b001 0b0110100
  | bset => ofFunct7 0b0110011 0b001 0b0010100
  | bseti => ofFunct7 0b0010011 0b001 0b0010100
  | pack => ofFunct7 0b0110011 0b100 0b0000100
  | packh => ofFunct7 0b0110011 0b111 0b0000100
  | brev8 => ofRs2 0b0010011 0b101 0b0110100 0b00111
  | zip => ofRs2 0b0010011 0b001 0b0000100 0b01111
  | unzip => ofRs2 0b0010011 0b101 0b0000100 0b01111
  | czeroeqz => ofFunct7 0b0110011 0b101 0b0000111
  | czeronez => ofFunct7 0b0110011 0b111 0b0000111
  | mopr => ofFunct3 0b1110011 0b100 ++ [⟨31, 1, 1⟩, ⟨28, 2, 0b00⟩, ⟨22, 4, 0b0111⟩]
  | moprr => ofFunct3 0b1110011 0b100 ++ [⟨31, 1, 1⟩, ⟨28, 2, 0b00⟩, ⟨25, 1, 1⟩]

/-- The word has the fixed fields of the instruction. -/
def Matches (m : Mnemonic) (w : BitVec 32) : Prop := ∀ f ∈ m.encoding, f.Matches w

instance (m : Mnemonic) (w : BitVec 32) : Decidable (m.Matches w) :=
  inferInstanceAs (Decidable (∀ f ∈ m.encoding, _))

section Matching
variable {m : Mnemonic} {w : BitVec 32} {op : BitVec 7} {f3 : BitVec 3} {f7 : BitVec 7}
  {f12 : BitVec 12}

theorem matches_of_opcode (henc : m.encoding = ofOpcode op) (ho : opcode w = op) :
    m.Matches w := by
  intro f hf
  simp only [henc, ofOpcode, List.mem_cons, List.not_mem_nil, or_false] at hf
  rw [hf]
  exact ho

theorem matches_of_funct3 (henc : m.encoding = ofFunct3 op f3) (ho : opcode w = op)
    (h3 : funct3 w = f3) : m.Matches w := by
  intro f hf
  simp only [henc, ofFunct3, List.mem_cons, List.not_mem_nil, or_false] at hf
  rcases hf with rfl | rfl
  · exact ho
  · exact h3

theorem matches_of_funct7 (henc : m.encoding = ofFunct7 op f3 f7) (ho : opcode w = op)
    (h3 : funct3 w = f3) (h7 : funct7 w = f7) : m.Matches w := by
  intro f hf
  simp only [henc, ofFunct7, List.mem_cons, List.not_mem_nil, or_false] at hf
  rcases hf with rfl | rfl | rfl
  · exact ho
  · exact h3
  · exact h7

theorem fields_of_funct7 (henc : m.encoding = ofFunct7 op f3 f7) (hm : m.Matches w) :
    opcode w = op ∧ funct3 w = f3 ∧ funct7 w = f7 := by
  simp only [Matches, henc, ofFunct7, List.forall_mem_cons] at hm
  exact ⟨hm.1, hm.2.1, hm.2.2.1⟩

theorem matches_of_funct12 (henc : m.encoding = ofFunct12 f12) (ho : opcode w = 0b1110011)
    (h3 : funct3 w = 0b000) (h12 : funct12 w = f12) (hrd : rd w = 0) (hrs1 : rs1 w = 0) :
    m.Matches w := by
  intro f hf
  simp only [henc, ofFunct12, List.mem_cons, List.not_mem_nil, or_false] at hf
  rcases hf with rfl | rfl | rfl | rfl | rfl
  · exact ho
  · exact h3
  · exact h12
  · exact hrd
  · exact hrs1

end Matching

/-- The instruction belongs to the base or to an extension that is there. -/
def enabled (x : Extensions) : Mnemonic → Bool
  | mul | mulh | mulhsu | mulhu | div | divu | rem | remu => x.m
  | sh1add | sh2add | sh3add => x.zba
  | clz | ctz | cpop | max | maxu | min | minu | sextb | sexth | zexth | orcb => x.zbb
  | andn | orn | xnor | rol | ror | rori | rev8 => x.zbb || x.zbkb
  | bclr | bclri | bext | bexti | binv | binvi | bset | bseti => x.zbs
  | pack | packh | brev8 | zip | unzip => x.zbkb
  | czeroeqz | czeronez => x.zicond
  | mopr | moprr => x.zimop
  | _ => true

/-- All instructions. ZEXT.H stands before PACK, of which it is a special case. -/
def all : List Mnemonic :=
  [lui, auipc, jal, jalr, beq, bne, blt, bge, bltu, bgeu, lb, lh, lw, lbu, lhu, sb, sh, sw, addi,
    slti, sltiu, xori, ori, andi, slli, srli, srai, add, sub, sll, slt, sltu, xor, srl, sra, or, and,
    fence, fenceI, ecall, ebreak, mret, wfi, csrrw, csrrs, csrrc, csrrwi, csrrsi, csrrci, mul, mulh,
    mulhsu, mulhu, div, divu, rem, remu, sh1add, sh2add, sh3add, andn, orn, xnor, clz, ctz, cpop,
    max, maxu, min, minu, sextb, sexth, zexth, rol, ror, rori, orcb, rev8, bclr, bclri, bext, bexti,
    binv, binvi, bset, bseti, pack, packh, brev8, zip, unzip, czeroeqz, czeronez, mopr, moprr]

theorem mem_all (m : Mnemonic) : m ∈ all := by
  cases m <;> decide

end Mnemonic

/-- The instruction that a word encodes. -/
def instruction (x : Extensions) (w : BitVec 32) : Option Mnemonic :=
  Mnemonic.all.find? fun m => m.enabled x && m.Matches w

theorem instruction_isSome_iff {x : Extensions} {w : BitVec 32} :
    (instruction x w).isSome = true ↔ ∃ m : Mnemonic, m.enabled x = true ∧ m.Matches w := by
  simp only [instruction, List.find?_isSome, Bool.and_eq_true, decide_eq_true_eq]
  constructor
  · rintro ⟨m, -, hm⟩
    exact ⟨m, hm⟩
  · rintro ⟨m, hm⟩
    exact ⟨m, m.mem_all, hm⟩

theorem instruction_spec {x : Extensions} {w : BitVec 32} {m : Mnemonic}
    (h : instruction x w = some m) : m.enabled x = true ∧ m.Matches w := by
  have hm := List.find?_some h
  simpa only [Bool.and_eq_true, decide_eq_true_eq] using hm

/-- PACK is found only where ZEXT.H is not. -/
theorem not_zexth_of_pack {x : Extensions} {w : BitVec 32}
    (h : instruction x w = some .pack) :
    ¬(Mnemonic.zexth.enabled x = true ∧ Mnemonic.zexth.Matches w) := by
  intro hz
  set found : Mnemonic → Bool := fun m => m.enabled x && m.Matches w with hfound
  have hsplit : Mnemonic.all = Mnemonic.all.takeWhile (· ≠ .zexth) ++
      .zexth :: (Mnemonic.all.dropWhile (· ≠ .zexth)).tail := by decide
  have hp : found .zexth = true := Bool.and_eq_true_iff.mpr ⟨hz.1, decide_eq_true hz.2⟩
  rw [instruction, hsplit, List.find?_append, ← hfound, List.find?_cons_of_pos hp] at h
  cases hb : (Mnemonic.all.takeWhile (· ≠ .zexth)).find? found with
  | none =>
    rw [hb] at h
    cases h
  | some m =>
    rw [hb, Option.some_or, Option.some.injEq] at h
    have hmem := List.mem_of_find?_eq_some hb
    rw [h] at hmem
    exact absurd hmem (by decide)

end Isa
