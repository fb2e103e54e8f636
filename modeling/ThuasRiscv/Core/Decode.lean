import ThuasRiscv.Core.State

/-!
# Instruction decode

The decode process of the core for an instruction that is not stalled, trapped
or flushed. Every opcode has its own table; `decode` puts the table's answer in
the fields of the execute stage and blocks any write to `x0`.
-/

namespace ThuasRiscv

/-! ## Instruction fields -/

section Fields
variable (instr : DataType)

def opcode : BitVec 7 := instr.extractLsb' 0 7
def func3 : BitVec 3 := instr.extractLsb' 12 3
def func7 : BitVec 7 := instr.extractLsb' 25 7
def rdField : RegType := instr.extractLsb' 7 5
def rs1Field : RegType := instr.extractLsb' 15 5
def rs2Field : RegType := instr.extractLsb' 20 5

def immU : DataType := instr.extractLsb' 12 20 ++ 0#12

def immJ : DataType :=
  (instr.extractLsb' 31 1 ++ instr.extractLsb' 12 8 ++ instr.extractLsb' 20 1 ++
    instr.extractLsb' 21 10 ++ 0#1).signExtend 32

def immI : DataType := (instr.extractLsb' 20 12).signExtend 32

def immB : DataType :=
  (instr.extractLsb' 31 1 ++ instr.extractLsb' 7 1 ++ instr.extractLsb' 25 6 ++
    instr.extractLsb' 8 4 ++ 0#1).signExtend 32

def immS : DataType := (instr.extractLsb' 25 7 ++ instr.extractLsb' 7 5).signExtend 32

def immShamt : DataType := (rs2Field instr).setWidth 32

end Fields

/-! ## Tables of the opcodes -/

/-- Which immediate an arithmetic instruction uses instead of `rs2`. -/
inductive ImmSel where
  | none | immI | immShamt
  deriving DecidableEq

/-- One arm of the arithmetic tables: the operation, its immediate and its signedness. -/
structure AluArm where
  aluOp : AluOp
  imm : ImmSel
  isunsigned : Bool

def AluArm.reg (op : AluOp) : AluArm := ⟨op, .none, false⟩
def AluArm.regUnsigned (op : AluOp) : AluArm := ⟨op, .none, true⟩
def AluArm.immediate (op : AluOp) : AluArm := ⟨op, .immI, false⟩
def AluArm.immediateUnsigned (op : AluOp) : AluArm := ⟨op, .immI, true⟩
def AluArm.shamt (op : AluOp) : AluArm := ⟨op, .immShamt, false⟩

section Tables
variable (cfg : Generics)

/-- Arithmetic/logic register/immediate. -/
def decodeOpImm (f3 : BitVec 3) (f7 : BitVec 7) (rs2 : RegType) : Option AluArm :=
  if f3 = 0b000 then some (.immediate .addi)
  else if f3 = 0b010 then some (.immediate .slti)
  else if f3 = 0b011 then some (.immediateUnsigned .sltiu)
  else if f3 = 0b100 then some (.immediate .xori)
  else if f3 = 0b110 then some (.immediate .ori)
  else if f3 = 0b111 then some (.immediate .andi)
  else if f3 = 0b001 ∧ f7 = 0b0000000 then some (.shamt .slli)
  else if f3 = 0b101 ∧ f7 = 0b0000000 then some (.shamt .srli)
  else if f3 = 0b101 ∧ f7 = 0b0100000 then some (.shamt .srai)
  else if f3 = 0b001 ∧ f7 = 0b0100100 ∧ cfg.haveZbs then some (.shamt .bclri)
  else if f3 = 0b101 ∧ f7 = 0b0100100 ∧ cfg.haveZbs then some (.shamt .bexti)
  else if f3 = 0b001 ∧ f7 = 0b0110100 ∧ cfg.haveZbs then some (.shamt .binvi)
  else if f3 = 0b001 ∧ f7 = 0b0010100 ∧ cfg.haveZbs then some (.shamt .bseti)
  else if f3 = 0b001 ∧ f7 = 0b0110000 ∧ rs2 = 0b00100 ∧ cfg.haveZbb then some (.reg .sextb)
  else if f3 = 0b001 ∧ f7 = 0b0110000 ∧ rs2 = 0b00101 ∧ cfg.haveZbb then some (.reg .sexth)
  else if f3 = 0b001 ∧ f7 = 0b0110000 ∧ rs2 = 0b00010 ∧ cfg.haveZbb then some (.reg .cpop)
  else if f3 = 0b001 ∧ f7 = 0b0110000 ∧ rs2 = 0b00000 ∧ cfg.haveZbb then some (.reg .clz)
  else if f3 = 0b001 ∧ f7 = 0b0110000 ∧ rs2 = 0b00001 ∧ cfg.haveZbb then some (.reg .ctz)
  else if f3 = 0b101 ∧ f7 = 0b0110100 ∧ rs2 = 0b11000 ∧ (cfg.haveZbb ∨ cfg.haveZbkb) then
    some (.reg .rev8)
  else if f3 = 0b101 ∧ f7 = 0b0110100 ∧ rs2 = 0b00111 ∧ cfg.haveZbkb then some (.reg .brev8)
  else if f3 = 0b101 ∧ f7 = 0b0010100 ∧ rs2 = 0b00111 ∧ (cfg.haveZbb ∨ cfg.haveZbkb) then
    some (.reg .orcb)
  else if f3 = 0b101 ∧ f7 = 0b0110000 ∧ (cfg.haveZbb ∨ cfg.haveZbkb) then some (.shamt .rori)
  else if f3 = 0b001 ∧ f7 = 0b0000100 ∧ rs2 = 0b01111 ∧ cfg.haveZbkb then some (.reg .zip)
  else if f3 = 0b101 ∧ f7 = 0b0000100 ∧ rs2 = 0b01111 ∧ cfg.haveZbkb then some (.reg .unzip)
  else none

/-- Arithmetic/logic register/register, without multiply and divide. -/
def decodeOp (f3 : BitVec 3) (f7 : BitVec 7) (rs2 : RegType) : Option AluArm :=
  if f3 = 0b000 ∧ f7 = 0b0000000 then some (.reg .add)
  else if f3 = 0b000 ∧ f7 = 0b0100000 then some (.reg .sub)
  else if f3 = 0b001 ∧ f7 = 0b0000000 then some (.reg .sll)
  else if f3 = 0b010 ∧ f7 = 0b0000000 then some (.reg .slt)
  else if f3 = 0b011 ∧ f7 = 0b0000000 then some (.regUnsigned .sltu)
  else if f3 = 0b100 ∧ f7 = 0b0000000 then some (.reg .xor)
  else if f3 = 0b101 ∧ f7 = 0b0000000 then some (.reg .srl)
  else if f3 = 0b101 ∧ f7 = 0b0100000 then some (.reg .sra)
  else if f3 = 0b110 ∧ f7 = 0b0000000 then some (.reg .or)
  else if f3 = 0b111 ∧ f7 = 0b0000000 then some (.reg .and)
  else if f3 = 0b010 ∧ f7 = 0b0010000 ∧ cfg.haveZba then some (.reg .sh1add)
  else if f3 = 0b100 ∧ f7 = 0b0010000 ∧ cfg.haveZba then some (.reg .sh2add)
  else if f3 = 0b110 ∧ f7 = 0b0010000 ∧ cfg.haveZba then some (.reg .sh3add)
  else if f3 = 0b001 ∧ f7 = 0b0100100 ∧ cfg.haveZbs then some (.reg .bclr)
  else if f3 = 0b101 ∧ f7 = 0b0100100 ∧ cfg.haveZbs then some (.reg .bext)
  else if f3 = 0b001 ∧ f7 = 0b0110100 ∧ cfg.haveZbs then some (.reg .binv)
  else if f3 = 0b001 ∧ f7 = 0b0010100 ∧ cfg.haveZbs then some (.reg .bset)
  else if f3 = 0b101 ∧ f7 = 0b0000111 ∧ cfg.haveZicond then some (.reg .czeroeqz)
  else if f3 = 0b111 ∧ f7 = 0b0000111 ∧ cfg.haveZicond then some (.reg .czeronez)
  else if f3 = 0b111 ∧ f7 = 0b0100000 ∧ (cfg.haveZbb ∨ cfg.haveZbkb) then some (.reg .andn)
  else if f3 = 0b110 ∧ f7 = 0b0100000 ∧ (cfg.haveZbb ∨ cfg.haveZbkb) then some (.reg .orn)
  else if f3 = 0b100 ∧ f7 = 0b0100000 ∧ (cfg.haveZbb ∨ cfg.haveZbkb) then some (.reg .xnor)
  else if f3 = 0b100 ∧ f7 = 0b0000100 ∧ rs2 = 0b00000 ∧ cfg.haveZbb then some (.reg .zexth)
  else if f3 = 0b110 ∧ f7 = 0b0000101 ∧ cfg.haveZbb then some (.reg .max)
  else if f3 = 0b111 ∧ f7 = 0b0000101 ∧ cfg.haveZbb then some (.regUnsigned .maxu)
  else if f3 = 0b100 ∧ f7 = 0b0000101 ∧ cfg.haveZbb then some (.reg .min)
  else if f3 = 0b101 ∧ f7 = 0b0000101 ∧ cfg.haveZbb then some (.regUnsigned .minu)
  else if f3 = 0b001 ∧ f7 = 0b0110000 ∧ (cfg.haveZbb ∨ cfg.haveZbkb) then some (.reg .rol)
  else if f3 = 0b101 ∧ f7 = 0b0110000 ∧ (cfg.haveZbb ∨ cfg.haveZbkb) then some (.reg .ror)
  else if f3 = 0b100 ∧ f7 = 0b0000100 ∧ cfg.haveZbkb then some (.reg .pack)
  else if f3 = 0b111 ∧ f7 = 0b0000100 ∧ cfg.haveZbkb then some (.reg .packh)
  else none

/-- The comparison of a branch and its signedness. The comparison is handled by the ALU. -/
def decodeBranch (f3 : BitVec 3) : Option (AluOp × Bool) :=
  match f3 with
  | 0b000 => some (.beq, false)
  | 0b001 => some (.bne, false)
  | 0b100 => some (.blt, false)
  | 0b101 => some (.bge, false)
  | 0b110 => some (.bltu, true)
  | 0b111 => some (.bgeu, true)
  | _ => none

def decodeStore (f3 : BitVec 3) : Option (AluOp × MemSize) :=
  match f3 with
  | 0b000 => some (.sb, .byte)
  | 0b001 => some (.sh, .halfword)
  | 0b010 => some (.sw, .word)
  | _ => none

def decodeLoad (f3 : BitVec 3) : Option (AluOp × MemSize) :=
  match f3 with
  | 0b000 => some (.lb, .byte)
  | 0b001 => some (.lh, .halfword)
  | 0b010 => some (.lw, .word)
  | 0b100 => some (.lbu, .byte)
  | 0b101 => some (.lhu, .halfword)
  | _ => none

def decodeCsr (f3 : BitVec 3) : Option CsrOp :=
  match f3 with
  | 0b001 => some .rw
  | 0b010 => some .rs
  | 0b011 => some .rc
  | 0b101 => some .rwi
  | 0b110 => some .rsi
  | 0b111 => some .rci
  | _ => none

/-- May-be-operations of Zimop. -/
def isMop (instr : DataType) : Bool :=
  cfg.haveZimop && instr.getLsbD 31 && instr.extractLsb' 28 2 == 0b00 &&
    (instr.getLsbD 25 || instr.extractLsb' 22 4 == 0b0111)

end Tables

/-! ## The execute stage after decoding -/

/-- The defaults of every field when the stage advances: a slot in which nothing happens. -/
def IdEx.bubble (pc instr : DataType) : IdEx where
  aluOp := .nop
  rd := rdField instr
  rdEn := false
  rs1 := rs1Field instr
  rs2 := rs2Field instr
  imm := immI instr
  isimm := false
  isunsigned := false
  ismem := false
  mdOp := 0
  mdStart := false
  memaccess := .nop
  memsize := .unknown
  pcOp := .incr
  pc := pc
  csrOp := .nop
  csrAddr := 0
  csrImmrs1 := 0
  ecallRequest := false
  ebreakRequest := false
  mretRequest := false
  wfiRequest := false
  illegalInstructionDecode := false

def IdEx.illegal (d : IdEx) : IdEx := { d with illegalInstructionDecode := true }

/-- An arithmetic instruction; without a table entry it is illegal. -/
def IdEx.arith (d : IdEx) (instr : DataType) : Option AluArm → IdEx
  | some arm => { d with
      aluOp := arm.aluOp
      rdEn := true
      isunsigned := arm.isunsigned
      isimm := arm.imm ≠ .none
      imm := match arm.imm with
        | .none => d.imm
        | .immI => immI instr
        | .immShamt => immShamt instr }
  | none => d.illegal

/-- Multiply, divide, remainder: the PC is held and `func3` selects the operation. -/
def IdEx.mulDiv (d : IdEx) (instr : DataType) : IdEx :=
  { d with
    aluOp := if (func3 instr).getLsbD 2 then .divrem else .multiply
    pcOp := .hold
    mdOp := func3 instr
    mdStart := true }

def IdEx.branch (d : IdEx) (instr : DataType) : Option (AluOp × Bool) → IdEx
  | some (op, isunsigned) =>
    { d with aluOp := op, pcOp := .branch, imm := immB instr, isunsigned := isunsigned }
  | none => { d with imm := immB instr }.illegal

def IdEx.store (d : IdEx) (instr : DataType) : Option (AluOp × MemSize) → IdEx
  | some (op, size) =>
    { d with aluOp := op, memaccess := .write, memsize := size, imm := immS instr, ismem := true }
  | none => d.illegal

def IdEx.load (d : IdEx) (instr : DataType) : Option (AluOp × MemSize) → IdEx
  | some (op, size) =>
    { d with
      aluOp := op, rdEn := true, memaccess := .read, memsize := size, imm := immI instr
      ismem := true }
  | none => d.illegal

/-- ECALL, EBREAK, MRET and WFI. EBREAK traps only if `dcsr.ebreakm` is 0, and WFI is executed
only while not stepping. -/
def IdEx.privileged (d : IdEx) (ebreakm isstepping : Bool) (instr : DataType) : IdEx :=
  if instr.extractLsb' 20 12 = 0b000000000000 then
    { d with ecallRequest := true, aluOp := .trap, pcOp := .hold }
  else if instr.extractLsb' 20 12 = 0b000000000001 then
    if ebreakm then { d with ebreakRequest := true }
    else { d with ebreakRequest := true, aluOp := .trap, pcOp := .hold }
  else if instr.extractLsb' 20 12 = 0b001100000010 then
    { d with aluOp := .mret, mretRequest := true, pcOp := .loadMepc }
  else if instr.extractLsb' 20 12 = 0b000100000101 then
    { d with wfiRequest := !isstepping }
  else d.illegal

def IdEx.system (cfg : Generics) (d : IdEx) (ebreakm isstepping : Bool) (instr : DataType) :
    IdEx :=
  if func3 instr = 0b000 then d.privileged ebreakm isstepping instr
  else if func3 instr = 0b100 then
    if isMop cfg instr then { d with aluOp := .mop, rdEn := true } else d.illegal
  else match decodeCsr (func3 instr) with
    | some op =>
      { d with
        aluOp := .csr, csrOp := op, rdEn := true
        csrAddr := (immI instr).extractLsb' 0 12, csrImmrs1 := rs1Field instr }
    | none => d.illegal

/-- The opcode switch of the decode process, before the check for `x0`. -/
def decodeOpcode (cfg : Generics) (ebreakm isstepping : Bool) (pc instr : DataType) : IdEx :=
  let d := IdEx.bubble pc instr
  match opcode instr with
  | 0b0110111 => { d with aluOp := .lui, rdEn := true, imm := immU instr, isimm := true }
  | 0b0010111 => { d with aluOp := .auipc, rdEn := true, imm := immU instr, isimm := true }
  | 0b1101111 =>
    { d with aluOp := .jalJalr, pcOp := .loadoffset, rdEn := true, imm := immJ instr }
  | 0b1100111 =>
    if func3 instr = 0b000 then
      { d with aluOp := .jalJalr, pcOp := .loadoffsetregister, rdEn := true, imm := immI instr }
    else d.illegal
  | 0b1100011 => d.branch instr (decodeBranch (func3 instr))
  | 0b0010011 => d.arith instr (decodeOpImm cfg (func3 instr) (func7 instr) (rs2Field instr))
  | 0b0110011 =>
    if func7 instr = 0b0000001 then
      if cfg.haveMuldiv then d.mulDiv instr else d.illegal
    else d.arith instr (decodeOp cfg (func3 instr) (func7 instr) (rs2Field instr))
  | 0b0100011 => d.store instr (decodeStore (func3 instr))
  | 0b0000011 => d.load instr (decodeLoad (func3 instr))
  | 0b1110011 => d.system cfg ebreakm isstepping instr
  | 0b0001111 => if func3 instr = 0b000 ∨ func3 instr = 0b001 then d else d.illegal
  | _ => d.illegal

/-- The decoded instruction. If the destination register is `x0`, any write to it is blocked. -/
def decode (cfg : Generics) (ebreakm isstepping : Bool) (pc instr : DataType) : IdEx :=
  let d := decodeOpcode cfg ebreakm isstepping pc instr
  if rdField instr = 0 then { d with rdEn := false } else d

end ThuasRiscv
