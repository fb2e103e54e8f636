import ThuasRiscv.Core.Alu
import ThuasRiscv.Core.Decode

/-!
# Shapes of a decoded instruction

Which combinations of fields the decode process can produce. The invariants of
the pipeline are about these combinations and not about single opcodes.
-/

namespace ThuasRiscv

/-- Operations that neither jump nor branch nor use the MD unit. -/
def AluOp.plain : AluOp → Bool
  | .mret | .jalJalr | .beq | .bne | .blt | .bltu | .bge | .bgeu | .multiply | .divrem => false
  | _ => true

theorem aluPenalty_plain {op : AluOp} (h : op.plain = true) (isunsigned : Bool) (a b : DataType) :
    aluPenalty op isunsigned a b = false := by
  cases op <;> first | rfl | simp [AluOp.plain] at h

/-- What the decode process can put in the execute stage. `w` is the write enable of the
destination register, which is blocked for `x0`. -/
inductive IdEx.Shape (cfg : Generics) (pc instr : DataType) : IdEx → Prop
  | alu (op : AluOp) (imm : DataType) (isimm isunsigned w : Bool) :
    op.plain = true → (w = true → rdField instr ≠ 0) →
    Shape cfg pc instr { IdEx.bubble pc instr with
      aluOp := op, imm := imm, isimm := isimm, isunsigned := isunsigned, rdEn := w }
  | jal (w : Bool) : (w = true → rdField instr ≠ 0) →
    Shape cfg pc instr { IdEx.bubble pc instr with
      aluOp := .jalJalr, pcOp := .loadoffset, imm := immJ instr, rdEn := w }
  | jalr (w : Bool) : (w = true → rdField instr ≠ 0) →
    Shape cfg pc instr { IdEx.bubble pc instr with
      aluOp := .jalJalr, pcOp := .loadoffsetregister, imm := immI instr, rdEn := w }
  | branch (op : AluOp) (isunsigned : Bool) : op ≠ .multiply → op ≠ .divrem →
    Shape cfg pc instr { IdEx.bubble pc instr with
      aluOp := op, pcOp := .branch, imm := immB instr, isunsigned := isunsigned }
  | mulDiv : cfg.haveMuldiv = true → Shape cfg pc instr ((IdEx.bubble pc instr).mulDiv instr)
  | store (op : AluOp) (size : MemSize) : op.plain = true → size ≠ .unknown →
    Shape cfg pc instr { IdEx.bubble pc instr with
      aluOp := op, memaccess := .write, memsize := size, imm := immS instr, ismem := true }
  | load (op : AluOp) (size : MemSize) (w : Bool) : op.plain = true → size ≠ .unknown →
    (w = true → rdField instr ≠ 0) →
    Shape cfg pc instr { IdEx.bubble pc instr with
      aluOp := op, rdEn := w, memaccess := .read, memsize := size, imm := immI instr
      ismem := true }
  | csr (op : CsrOp) (w : Bool) : op ≠ .nop → (w = true → rdField instr ≠ 0) →
    Shape cfg pc instr { IdEx.bubble pc instr with
      aluOp := .csr, csrOp := op, rdEn := w
      csrAddr := (immI instr).extractLsb' 0 12, csrImmrs1 := rs1Field instr }
  | ecall : Shape cfg pc instr { IdEx.bubble pc instr with
      ecallRequest := true, aluOp := .trap, pcOp := .hold }
  | ebreak : Shape cfg pc instr { IdEx.bubble pc instr with
      ebreakRequest := true, aluOp := .trap, pcOp := .hold }
  | ebreakDebug : Shape cfg pc instr { IdEx.bubble pc instr with ebreakRequest := true }
  | mret : Shape cfg pc instr { IdEx.bubble pc instr with
      aluOp := .mret, mretRequest := true, pcOp := .loadMepc }
  | wfi (enable : Bool) : Shape cfg pc instr { IdEx.bubble pc instr with wfiRequest := enable }
  | illegal (imm : DataType) : Shape cfg pc instr { IdEx.bubble pc instr with
      imm := imm, illegalInstructionDecode := true }

/-! ## The tables -/

/-- An arm of a table: a property of its entries is shown arm by arm. -/
theorem arm_plain {c : Prop} [Decidable c] {x : AluArm} {rest : Option AluArm}
    (hx : x.aluOp.plain = true) (hrest : ∀ arm, rest = some arm → arm.aluOp.plain = true) :
    ∀ arm, (if c then some x else rest) = some arm → arm.aluOp.plain = true := by
  intro arm h
  by_cases hc : c
  · rw [if_pos hc, Option.some.injEq] at h
    exact h ▸ hx
  · rw [if_neg hc] at h
    exact hrest arm h

theorem decodeOpImm_plain (cfg : Generics) (f3 : BitVec 3) (f7 : BitVec 7) (rs2 : RegType) :
    ∀ arm, decodeOpImm cfg f3 f7 rs2 = some arm → arm.aluOp.plain = true := by
  unfold decodeOpImm
  repeat refine arm_plain rfl ?_
  exact fun _ h => nomatch h

theorem decodeOp_plain (cfg : Generics) (f3 : BitVec 3) (f7 : BitVec 7) (rs2 : RegType) :
    ∀ arm, decodeOp cfg f3 f7 rs2 = some arm → arm.aluOp.plain = true := by
  unfold decodeOp
  repeat refine arm_plain rfl ?_
  exact fun _ h => nomatch h

theorem decodeBranch_not_md {f3 : BitVec 3} {op : AluOp} {u : Bool}
    (h : decodeBranch f3 = some (op, u)) : op ≠ .multiply ∧ op ≠ .divrem := by
  unfold decodeBranch at h
  split at h <;> cases h <;> simp

theorem decodeStore_plain {f3 : BitVec 3} {op : AluOp} {size : MemSize}
    (h : decodeStore f3 = some (op, size)) : op.plain = true ∧ size ≠ .unknown := by
  unfold decodeStore at h
  split at h <;> cases h <;> simp [AluOp.plain]

theorem decodeLoad_plain {f3 : BitVec 3} {op : AluOp} {size : MemSize}
    (h : decodeLoad f3 = some (op, size)) : op.plain = true ∧ size ≠ .unknown := by
  unfold decodeLoad at h
  split at h <;> cases h <;> simp [AluOp.plain]

theorem decodeCsr_ne_nop {f3 : BitVec 3} {op : CsrOp} (h : decodeCsr f3 = some op) :
    op ≠ .nop := by
  unfold decodeCsr at h
  split at h <;> cases h <;> simp

/-! ## One opcode at a time -/

/-- The write to `x0` is blocked. -/
def IdEx.blockZero (d : IdEx) (instr : DataType) : IdEx :=
  if rdField instr = 0 then { d with rdEn := false } else d

theorem decode_eq_blockZero (cfg : Generics) (ebreakm isstepping : Bool) (pc instr : DataType) :
    decode cfg ebreakm isstepping pc instr =
      (decodeOpcode cfg ebreakm isstepping pc instr).blockZero instr := rfl

section Arms
variable (cfg : Generics) (pc instr : DataType)

/-- Blocking the write only changes `rdEn`. -/
theorem blockZero_eq (d : IdEx) :
    d.blockZero instr = { d with rdEn := d.rdEn && decide (rdField instr ≠ 0) } := by
  unfold IdEx.blockZero
  by_cases h : rdField instr = 0
  · simp [h]
  · rw [if_neg h, decide_eq_true h, Bool.and_true]

theorem shape_illegal (imm : DataType) :
    IdEx.Shape cfg pc instr
      (({ IdEx.bubble pc instr with imm := imm }.illegal).blockZero instr) := by
  rw [blockZero_eq]
  exact .illegal imm

theorem shape_alu (op : AluOp) (imm : DataType) (isimm isunsigned w : Bool)
    (h : op.plain = true) :
    IdEx.Shape cfg pc instr ({ IdEx.bubble pc instr with
      aluOp := op, imm := imm, isimm := isimm, isunsigned := isunsigned
      rdEn := w }.blockZero instr) := by
  rw [blockZero_eq]
  exact .alu op imm isimm isunsigned _ h (by simp)

theorem shape_jal :
    IdEx.Shape cfg pc instr ({ IdEx.bubble pc instr with
      aluOp := .jalJalr, pcOp := .loadoffset, rdEn := true, imm := immJ instr }.blockZero
        instr) := by
  rw [blockZero_eq]
  exact .jal _ (by simp)

theorem shape_jalr :
    IdEx.Shape cfg pc instr ({ IdEx.bubble pc instr with
      aluOp := .jalJalr, pcOp := .loadoffsetregister, rdEn := true, imm := immI instr }.blockZero
        instr) := by
  rw [blockZero_eq]
  exact .jalr _ (by simp)

theorem shape_arith {arm : Option AluArm} (h : ∀ x, arm = some x → x.aluOp.plain = true) :
    IdEx.Shape cfg pc instr (((IdEx.bubble pc instr).arith instr arm).blockZero instr) := by
  cases arm with
  | none => exact shape_illegal cfg pc instr _
  | some x => exact shape_alu cfg pc instr x.aluOp _ _ x.isunsigned true (h x rfl)

theorem shape_branch {arm : Option (AluOp × Bool)}
    (h : ∀ op u, arm = some (op, u) → op ≠ .multiply ∧ op ≠ .divrem) :
    IdEx.Shape cfg pc instr (((IdEx.bubble pc instr).branch instr arm).blockZero instr) := by
  cases arm with
  | none => exact shape_illegal cfg pc instr _
  | some x =>
    rw [blockZero_eq]
    exact .branch x.1 x.2 (h _ _ rfl).1 (h _ _ rfl).2

theorem shape_mulDiv (h : cfg.haveMuldiv = true) :
    IdEx.Shape cfg pc instr (((IdEx.bubble pc instr).mulDiv instr).blockZero instr) := by
  rw [blockZero_eq]
  exact .mulDiv h

theorem shape_store {arm : Option (AluOp × MemSize)}
    (h : ∀ op size, arm = some (op, size) → op.plain = true ∧ size ≠ .unknown) :
    IdEx.Shape cfg pc instr (((IdEx.bubble pc instr).store instr arm).blockZero instr) := by
  cases arm with
  | none => exact shape_illegal cfg pc instr _
  | some x =>
    rw [blockZero_eq]
    exact .store x.1 x.2 (h _ _ rfl).1 (h _ _ rfl).2

theorem shape_load {arm : Option (AluOp × MemSize)}
    (h : ∀ op size, arm = some (op, size) → op.plain = true ∧ size ≠ .unknown) :
    IdEx.Shape cfg pc instr (((IdEx.bubble pc instr).load instr arm).blockZero instr) := by
  cases arm with
  | none => exact shape_illegal cfg pc instr _
  | some x =>
    rw [blockZero_eq]
    exact .load x.1 x.2 _ (h _ _ rfl).1 (h _ _ rfl).2 (by simp)

theorem shape_privileged (ebreakm isstepping : Bool) :
    IdEx.Shape cfg pc instr
      (((IdEx.bubble pc instr).privileged ebreakm isstepping instr).blockZero instr) := by
  unfold IdEx.privileged
  split_ifs
  · rw [blockZero_eq]; exact .ecall
  · rw [blockZero_eq]; exact .ebreakDebug
  · rw [blockZero_eq]; exact .ebreak
  · rw [blockZero_eq]; exact .mret
  · rw [blockZero_eq]; exact .wfi _
  · exact shape_illegal cfg pc instr _

theorem shape_system (ebreakm isstepping : Bool) :
    IdEx.Shape cfg pc instr
      (((IdEx.bubble pc instr).system cfg ebreakm isstepping instr).blockZero instr) := by
  unfold IdEx.system
  split_ifs
  · exact shape_privileged cfg pc instr ebreakm isstepping
  · exact shape_alu cfg pc instr .mop _ _ _ true rfl
  · exact shape_illegal cfg pc instr _
  · split
    · next op h =>
      rw [blockZero_eq]
      exact .csr op _ (decodeCsr_ne_nop h) (by simp)
    · exact shape_illegal cfg pc instr _

end Arms

/-- Every decoded instruction has one of the shapes. -/
theorem decode_shape (cfg : Generics) (ebreakm isstepping : Bool) (pc instr : DataType) :
    IdEx.Shape cfg pc instr (decode cfg ebreakm isstepping pc instr) := by
  rw [decode_eq_blockZero]
  unfold decodeOpcode
  simp only []
  split
  · exact shape_alu cfg pc instr .lui _ _ _ true rfl
  · exact shape_alu cfg pc instr .auipc _ _ _ true rfl
  · exact shape_jal cfg pc instr
  · split_ifs
    · exact shape_jalr cfg pc instr
    · exact shape_illegal cfg pc instr _
  · exact shape_branch cfg pc instr fun _ _ h => decodeBranch_not_md h
  · exact shape_arith cfg pc instr (decodeOpImm_plain cfg _ _ _)
  · split_ifs with _ h
    · exact shape_mulDiv cfg pc instr h
    · exact shape_illegal cfg pc instr _
    · exact shape_arith cfg pc instr (decodeOp_plain cfg _ _ _)
  · exact shape_store cfg pc instr fun _ _ h => decodeStore_plain h
  · exact shape_load cfg pc instr fun _ _ h => decodeLoad_plain h
  · exact shape_system cfg pc instr ebreakm isstepping
  · split_ifs
    · exact shape_alu cfg pc instr .nop _ _ _ false rfl
    · exact shape_illegal cfg pc instr _
  · exact shape_illegal cfg pc instr _

theorem wfiRequest_privileged (d : IdEx) (hd : d.wfiRequest = false) (ebreakm : Bool)
    (instr : DataType) : (d.privileged ebreakm true instr).wfiRequest = false := by
  unfold IdEx.privileged
  split_ifs <;> first | exact hd | rfl

/-- WFI does not sleep while stepping. -/
theorem decode_stepping (cfg : Generics) (ebreakm : Bool) (pc instr : DataType) :
    (decode cfg ebreakm true pc instr).wfiRequest = false := by
  have hopcode : (decodeOpcode cfg ebreakm true pc instr).wfiRequest = false := by
    unfold decodeOpcode
    simp only []
    split
    case h_10 =>
      unfold IdEx.system
      split_ifs
      · exact wfiRequest_privileged _ rfl _ _
      · rfl
      · rfl
      · split <;> rfl
    case h_5 => cases decodeBranch (func3 instr) <;> rfl
    case h_6 => cases decodeOpImm cfg (func3 instr) (func7 instr) (rs2Field instr) <;> rfl
    case h_7 =>
      split_ifs <;> first
        | rfl
        | cases decodeOp cfg (func3 instr) (func7 instr) (rs2Field instr) <;> rfl
    case h_8 => cases decodeStore (func3 instr) <;> rfl
    case h_9 => cases decodeLoad (func3 instr) <;> rfl
    all_goals first | rfl | (split_ifs <;> rfl)
  rw [decode_eq_blockZero, blockZero_eq]
  exact hopcode

end ThuasRiscv
