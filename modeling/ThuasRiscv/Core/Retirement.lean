import ThuasRiscv.Core.IsaExecute
import ThuasRiscv.Core.WaitingSlot
import ThuasRiscv.Isa.Hart
import ThuasRiscv.Bus.MemRefinement

/-!
# Retirement

An instruction that leaves the execute stage has the effect on its register and
on the PC that it has in the instruction set, whichever way it took through the
execute stage.
-/

namespace ThuasRiscv

open Transition
open Isa (Mnemonic)

namespace Core

variable {cfg : Generics} {io : Peripherals} {s : Core} {o : Observer} {i : CoreInput}

/-- The unit computes the remainder of a division by zero with all its bits. -/
def ExactDivision (cfg : Generics) (s : Core) : Prop :=
  cfg.fastDivide = true ∨ s.idEx.mdOp.getLsbD 1 = false ∨
    MulDiv.magnitude s.idEx.mdOp s.operandB ≠ 0 ∨
    (MulDiv.magnitude s.idEx.mdOp s.operandA).toNat < 2 ^ 31

instance : Decidable (ExactDivision cfg s) := inferInstanceAs (Decidable (_ ∨ _))

/-- The slot of an instruction of the instruction set at `pc`. -/
def SlotOf (m : Mnemonic) (w pc : DataType) (d : IdEx) : Prop :=
  ∃ ebreakm isstepping, d = (slotOf ebreakm isstepping pc w m).blockZero w

/-- A word that the decoder accepts is an instruction. -/
theorem slotOf_of_accepted {ebreakm isstepping : Bool} {pc w : DataType}
    (horcb : OrcbNeedsZbb cfg w) (hpriv : PrivilegedFieldsFixed w)
    (h : (decode cfg ebreakm isstepping pc w).illegalInstructionDecode = false) :
    ∃ m, Isa.instruction cfg.extensions w = some m ∧
      SlotOf m w pc (decode cfg ebreakm isstepping pc w) := by
  rw [decode_illegal] at h
  obtain ⟨m, hm⟩ := Option.isSome_iff_exists.mp
    (encoded_iff.mp (encoded_of_accepted horcb hpriv h))
  refine ⟨m, hm, ebreakm, isstepping, ?_⟩
  rw [decode_eq_blockZero, decodeOpcode_of_instruction hm]

/-! ## Slots by kind of instruction -/

section Slot
variable {m : Mnemonic} {w pc : DataType} {d : IdEx}

theorem SlotOf.load (h : SlotOf m w pc d) (hm : m.isLoad = true) : ∃ op size,
    d = { IdEx.bubble pc w with
      aluOp := op, rdEn := decide (rdField w ≠ 0), memaccess := .read, memsize := size
      imm := immI w, ismem := true } ∧ size.bytes = m.bytes ∧ op.plain = true ∧
      ∀ cfg u src a b, aluResult cfg op u src a b = m.loaded src.busData := by
  obtain ⟨e, t, rfl⟩ := h
  rw [blockZero_eq]
  cases m
  case lb => exact ⟨.lb, .byte, rfl, rfl, rfl, fun _ _ _ _ _ => by rw [aluResult, byteAt_zero]; rfl⟩
  case lbu =>
    exact ⟨.lbu, .byte, rfl, rfl, rfl, fun _ _ _ _ _ => by rw [aluResult, byteAt_zero]; rfl⟩
  case lh => exact ⟨.lh, .halfword, rfl, rfl, rfl, fun _ _ _ _ _ => by rw [aluResult, lowHalf]; rfl⟩
  case lhu =>
    exact ⟨.lhu, .halfword, rfl, rfl, rfl, fun _ _ _ _ _ => by rw [aluResult, lowHalf]; rfl⟩
  case lw => exact ⟨.lw, .word, rfl, rfl, rfl, fun _ _ _ _ _ => rfl⟩
  all_goals cases hm

theorem SlotOf.store (h : SlotOf m w pc d) (hm : m.isStore = true) : ∃ op size,
    d = { IdEx.bubble pc w with
      aluOp := op, memaccess := .write, memsize := size, imm := immS w, ismem := true } ∧
      size.bytes = m.bytes ∧ op.plain = true := by
  obtain ⟨e, t, rfl⟩ := h
  rw [blockZero_eq]
  cases m
  case sb => exact ⟨.sb, .byte, rfl, rfl, rfl⟩
  case sh => exact ⟨.sh, .halfword, rfl, rfl, rfl⟩
  case sw => exact ⟨.sw, .word, rfl, rfl, rfl⟩
  all_goals cases hm

theorem SlotOf.csr (h : SlotOf m w pc d) (hm : m.isCsr = true) :
    d.rd = rdField w ∧ d.rdEn = decide (rdField w ≠ 0) ∧ d.aluOp = .csr ∧ d.pcOp = .incr ∧
      d.pc = pc := by
  obtain ⟨e, t, rfl⟩ := h
  rw [blockZero_eq]
  cases m <;> first | exact ⟨rfl, rfl, rfl, rfl, rfl⟩ | cases hm

theorem SlotOf.mulDiv (h : SlotOf m w pc d) (hm : (m.isMultiply || m.isDivide) = true) :
    d = (IdEx.bubble pc w).mulDiv w := by
  obtain ⟨e, t, rfl⟩ := h
  rw [blockZero_eq]
  cases m <;> first | rfl | cases hm

/-- The kinds of instructions. -/
theorem cases_of_kind (m : Mnemonic) :
    (m.isComputation || m.isShift) = true ∨ m.isLoad = true ∨ m.isStore = true ∨
      m.isCsr = true ∨ (m.isMultiply || m.isDivide) = true ∨
      m = .ecall ∨ m = .ebreak ∨ m = .fence ∨ m = .fenceI ∨ m = .wfi ∨ m = .mret := by
  cases m <;> decide

theorem ismem_eq (h : SlotOf m w pc d) : d.ismem = (m.isLoad || m.isStore) := by
  obtain ⟨e, t, rfl⟩ := h
  rw [blockZero_eq]
  cases m <;> first | rfl | (cases e <;> rfl)

theorem mdStart_eq (h : SlotOf m w pc d) : d.mdStart = (m.isMultiply || m.isDivide) := by
  obtain ⟨e, t, rfl⟩ := h
  rw [blockZero_eq]
  cases m <;> first | rfl | (cases e <;> rfl)

end Slot

/-! ## Completion -/

/-- The instruction `m` of the word `w` at `pc`, decoded to the slot `d`, leaves the execute stage
with the effect that it has in the instruction set. -/
structure Retires (cfg : Generics) (io : Peripherals) (s : Core) (i : CoreInput) (d : IdEx)
    (m : Mnemonic) (w pc : DataType) : Prop where
  write : ∀ regs r, r ≠ 0 → writeRegs regs (s.regWrite cfg io i) r =
    (m.written w pc s.operandA s.operandB i.bus.data (s.csrData cfg io i)).elim regs
      (Function.update regs (Isa.rd w)) r
  next : d.successor s.operandA s.penalty s.csr.mepc =
    m.successor w pc s.operandA s.operandB s.csr.mepc

section Retires
variable {m : Mnemonic} {w pc : DataType} {d : IdEx}

theorem completes_of_leaves (hd : s.control.state = .debug → cfg.haveOcd = true)
    (h : s.leaves cfg i = true) : s.Completes cfg i := by
  have hrun := indebug_of_leaves hd h
  simp only [leaves, Bool.and_eq_true, Bool.not_eq_true'] at h
  exact ⟨hrun, h.1.1, h.1.2, h.2⟩

/-- The write port, if the write is enabled for the value `v`. -/
theorem writeRegs_of_completes (hc : s.Completes cfg i) (hrd : s.idEx.rd = Isa.rd w)
    {v : Option DataType} (hen : s.idEx.rdEn = v.isSome ∨ Isa.rd w = 0)
    (hv : ∀ x ∈ v, s.result cfg io i = x) (regs : RegType → DataType) {r : RegType} (hr : r ≠ 0) :
    writeRegs regs (s.regWrite cfg io i) r = v.elim regs (Function.update regs (Isa.rd w)) r := by
  rw [regWrite_of_completes hc, hrd]
  by_cases h0 : Isa.rd w = 0
  · have hleft : writeRegs regs (if s.idEx.rdEn then some (Isa.rd w, s.result cfg io i) else none)
        r = regs r := by
      cases s.idEx.rdEn with
      | false => rfl
      | true => rw [if_pos rfl, writeRegs_some, h0, if_neg hr]
    rw [hleft]
    cases v with
    | none => rfl
    | some x =>
      change _ = Function.update regs (Isa.rd w) x r
      rw [h0, Function.update_of_ne hr]
  · rw [hen.resolve_right h0]
    cases v with
    | none => rfl
    | some x =>
      rw [hv x rfl]
      rfl

theorem executes_of_kind (hc : s.Completes cfg i) (hm : (m.isComputation || m.isShift) = true)
    (hx : m.enabled cfg.extensions = true) (hd : SlotOf m w pc s.idEx) :
    s.Executes cfg io i m w pc := by
  obtain ⟨e, t, hid⟩ := hd
  rcases Bool.or_eq_true _ _ ▸ hm with hm | hm
  · exact executes_of_computation io hc hm hx hid
  · obtain ⟨arm, harm⟩ := arm_of_shift hm
    exact executes_arm hc harm hx hid

theorem retires_of_kind (hc : s.Completes cfg i) (hm : (m.isComputation || m.isShift) = true)
    (hx : m.enabled cfg.extensions = true) (hd : SlotOf m w pc s.idEx)
    (hexec : s.control.state = .exec) (hocd : cfg.haveOcd = false → s.csr.dcsr = 0)
    (hleave : s.leaves cfg i = true) (hshape : IdEx.Shape cfg pc w s.idEx) :
    Retires cfg io s i s.idEx m w pc := by
  have hexecutes : s.Executes cfg io i m w pc := executes_of_kind hc hm hx hd
  have hwritten : m.written w pc s.operandA s.operandB i.bus.data (s.csrData cfg io i) =
      m.value w pc s.operandA s.operandB := by
    cases m <;> first | rfl | cases hm
  have hmret : m ≠ .mret := by
    rintro rfl
    cases hm
  refine ⟨fun regs r hr => ?_, ?_⟩
  · rw [hwritten, hexecutes.write]
    by_cases h0 : Isa.rd w = 0
    · rw [if_pos h0, h0]
      cases m.value w pc s.operandA s.operandB with
      | none => rfl
      | some v => exact (Function.update_of_ne hr v regs).symm
    · rw [if_neg h0]
      cases m.value w pc s.operandA s.operandB with
      | none => rfl
      | some v => rfl
  · obtain ⟨-, hjump, hnext⟩ := continues hocd hexec hshape hleave
    rw [Mnemonic.successor, if_neg hmret, ← hexecutes.decision]
    cases hpen : s.penalty with
    | true =>
      have hgo := hexecutes.next
      rw [← hexecutes.decision, hpen, if_pos rfl, (hjump hpen).2, hpen] at hgo
      rw [hgo, if_pos rfl]
    | false =>
      have hgo := (hnext hpen).2
      rw [hpen] at hgo
      rw [hgo, hshape.pc_eq, if_neg Bool.false_ne_true]

/-- A load, with the fields of its slot. -/
theorem retires_of_load (hc : s.Completes cfg i) (hm : m.isLoad = true) (hd : SlotOf m w pc d)
    (hs : s.idEx = d ∨ s.idEx = d.stalled false) : Retires cfg io s i d m w pc := by
  obtain ⟨op, size, hdec, -, -, hload⟩ := hd.load hm
  have hfields : s.idEx.rd = Isa.rd w ∧ s.idEx.rdEn = decide (rdField w ≠ 0) ∧
      s.idEx.aluOp = op := by
    rcases hs with hs | hs
    · rw [hs, hdec]
      exact ⟨rfl, rfl, rfl⟩
    · rw [hs, hdec]
      exact ⟨rfl, Bool.or_false _, rfl⟩
  refine ⟨fun regs r hr => ?_, ?_⟩
  · rw [Mnemonic.written, if_pos hm]
    apply writeRegs_of_completes hc hfields.1 _ _ regs hr
    · by_cases h0 : rdField w = 0
      · exact .inr h0
      · exact .inl (hfields.2.1.trans (decide_eq_true h0))
    · intro x hx
      rw [result, hfields.2.2, hload]
      exact Option.some_injective _ hx
  · have hjumps : m.jumps s.operandA s.operandB = false ∧ m ≠ .mret := by
      cases m <;> first | exact ⟨rfl, by decide⟩ | cases hm
    rw [Mnemonic.successor, if_neg hjumps.2, hjumps.1, if_neg Bool.false_ne_true, hdec]
    rfl

/-- A store writes no register. -/
theorem retires_of_store (hc : s.Completes cfg i) (hm : m.isStore = true) (hd : SlotOf m w pc d)
    (hs : s.idEx = d ∨ s.idEx = d.stalled false) : Retires cfg io s i d m w pc := by
  obtain ⟨op, size, hdec, -⟩ := hd.store hm
  have hfields : s.idEx.rd = Isa.rd w ∧ s.idEx.rdEn = false := by
    rcases hs with hs | hs
    · rw [hs, hdec]
      exact ⟨rfl, rfl⟩
    · rw [hs, hdec]
      exact ⟨rfl, rfl⟩
  have hnone : m.written w pc s.operandA s.operandB i.bus.data (s.csrData cfg io i) = none ∧
      m.jumps s.operandA s.operandB = false ∧ m ≠ .mret := by
    cases m <;> first | exact ⟨rfl, rfl, by decide⟩ | cases hm
  refine ⟨fun regs r hr => ?_, ?_⟩
  · rw [hnone.1]
    apply writeRegs_of_completes (v := none) hc hfields.1 (.inl hfields.2) _ regs hr
    intro x hx
    cases hx
  · rw [Mnemonic.successor, if_neg hnone.2.2, hnone.2.1, if_neg Bool.false_ne_true, hdec]
    rfl

theorem retires_of_csr (hc : s.Completes cfg i) (hm : m.isCsr = true) (hd : SlotOf m w pc d)
    (hs : s.idEx = d) : Retires cfg io s i d m w pc := by
  obtain ⟨hrd, hen, hop, hpcOp, hpc⟩ := hd.csr hm
  have hother : m.isLoad = false ∧ m.jumps s.operandA s.operandB = false ∧ m ≠ .mret := by
    cases m <;> first | exact ⟨rfl, rfl, by decide⟩ | cases hm
  refine ⟨fun regs r hr => ?_, ?_⟩
  · rw [Mnemonic.written, hother.1, if_neg Bool.false_ne_true, if_pos hm]
    apply writeRegs_of_completes hc ((congrArg IdEx.rd hs).trans hrd) _ _ regs hr
    · by_cases h0 : rdField w = 0
      · exact .inr h0
      · exact .inl (((congrArg IdEx.rdEn hs).trans hen).trans (decide_eq_true h0))
    · intro x hx
      rw [result, hs, hop]
      exact Option.some_injective _ hx
  · rw [Mnemonic.successor, if_neg hother.2.2, hother.2.1, if_neg Bool.false_ne_true,
      IdEx.successor, hpcOp, hpc]

/-- The instructions that write no register: fences, WFI and MRET. -/
theorem retires_of_other (hc : s.Completes cfg i)
    (hm : m = .fence ∨ m = .fenceI ∨ m = .wfi ∨ m = .mret) (hd : SlotOf m w pc d)
    (hs : s.idEx = d) : Retires cfg io s i d m w pc := by
  obtain ⟨e, t, hdec⟩ := hd
  rw [blockZero_eq] at hdec
  have hfields : s.idEx.rd = Isa.rd w ∧ s.idEx.rdEn = false ∧
      m.written w pc s.operandA s.operandB i.bus.data (s.csrData cfg io i) = none ∧
      d.successor s.operandA s.penalty s.csr.mepc =
        m.successor w pc s.operandA s.operandB s.csr.mepc := by
    rw [hs, hdec]
    rcases hm with rfl | rfl | rfl | rfl <;> exact ⟨rfl, rfl, rfl, rfl⟩
  refine ⟨fun regs r hr => ?_, hfields.2.2.2⟩
  rw [hfields.2.2.1]
  apply writeRegs_of_completes (v := none) hc hfields.1 (.inl hfields.2.1) _ regs hr
  intro x hx
  cases hx

/-- A multiplication or a division in `state_md2`. -/
theorem retires_of_md (hc : s.Completes cfg i) (hi : Isa.instruction cfg.extensions w = some m)
    (hm : (m.isMultiply || m.isDivide) = true) (hd : SlotOf m w pc d) (hs : s.idEx = d.stalled true)
    (hstate : s.control.state = .md2) (hop : OperationInv cfg s)
    (hexact : s.idEx.mdOp.getLsbD 2 = true → ExactDivision cfg s) :
    Retires cfg io s i d m w pc := by
  have hw := (Isa.instruction_spec hi).2
  have hmd : cfg.haveMuldiv = true := by
    have hx := (Isa.instruction_spec hi).1
    cases m <;> first | exact hx | cases hm
  have hdec := hd.mulDiv hm
  have hmdOp : s.idEx.mdOp = func3 w := by
    rw [hs, hdec]
    rfl
  have hother : m.isLoad = false ∧ m.isCsr = false ∧ m.jumps s.operandA s.operandB = false ∧
      m ≠ .mret := by
    cases m <;> first | exact ⟨rfl, rfl, rfl, by decide⟩ | cases hm
  have hvalue : m.value w pc s.operandA s.operandB = some (s.result cfg io i) := by
    rcases Bool.or_eq_true _ _ ▸ hm with hm | hm
    · have hlow := mulOp_of_multiply hi hm
      obtain ⟨m', hp⟩ := hop.multiplied hstate (by rw [hmdOp, hlow])
      rw [hmdOp] at hp
      have haluOp : s.idEx.aluOp = .multiply := by
        rw [hs, hdec, IdEx.mulDiv, hlow]
        rfl
      rw [MulDiv.mul_value hm hw m' hp, result, haluOp]
      simp only [aluResult, aluSources, hmd, if_true, hmdOp]
    · have hhigh : (func3 w).getLsbD 2 = true := by
        rcases MulDiv.funct3_of_divide hm hw with ⟨-, h3⟩ | ⟨-, h3⟩ | ⟨-, h3⟩ | ⟨-, h3⟩ <;>
          rw [show func3 w = _ from h3] <;> rfl
      have hdone := hop.divided hstate (by rw [hmdOp, hhigh])
      have hexact := hexact (by rw [hmdOp, hhigh])
      rw [ExactDivision, hmdOp] at hexact
      rw [hmdOp] at hdone
      have haluOp : s.idEx.aluOp = .divrem := by
        rw [hs, hdec, IdEx.mulDiv, hhigh]
        rfl
      rw [result, haluOp, ← hdone.value hm hw pc]
      · simp only [aluResult, aluSources, hmd, if_true, hmdOp]
        rfl
      · rcases hexact with hf | h1 | hrest
        · exact .inl hf
        · refine .inr (.inl ?_)
          rcases MulDiv.funct3_of_divide hm hw with ⟨rfl, -⟩ | ⟨rfl, -⟩ | ⟨-, h3⟩ | ⟨-, h3⟩
          · exact .inl rfl
          · exact .inr rfl
          · rw [show func3 w = _ from h3] at h1
            cases h1
          · rw [show func3 w = _ from h3] at h1
            cases h1
        · exact .inr (.inr hrest)
  have hrd : s.idEx.rd = Isa.rd w ∧ s.idEx.rdEn = true := by
    rw [hs, hdec]
    exact ⟨rfl, rfl⟩
  refine ⟨fun regs r hr => ?_, ?_⟩
  · rw [Mnemonic.written, hother.1, hother.2.1, if_neg Bool.false_ne_true,
      if_neg Bool.false_ne_true, hvalue]
    apply writeRegs_of_completes (v := some (s.result cfg io i)) hc hrd.1 (.inl hrd.2) _ regs hr
    intro x hx
    exact Option.some_injective _ hx
  · rw [Mnemonic.successor, if_neg hother.2.2.2, hother.2.2.1, if_neg Bool.false_ne_true, hdec]
    rfl

/-- The states in which an instruction leaves the execute stage. -/
theorem state_of_commits (hinv : PipelineInv cfg s o) {x : Instr}
    (hx : o.commits cfg s i = some x) :
    s.control.state = .exec ∨ s.control.state = .mem ∨ s.control.state = .md2 := by
  obtain ⟨hleave, hslot⟩ := commits_eq_some_iff.mp hx
  have hc := completes_of_leaves hinv.trap.debug hleave
  have hstall := hc.not_stalled
  rw [stall_eq] at hstall
  cases hinv.stage with
  | target _ hnone | fetched _ hnone | trapping _ hnone | resuming _ hnone =>
    rw [hnone] at hslot
    cases hslot
  | computing _ hs | sleeping _ hs =>
    rw [hs] at hstall
    cases hstall
  | halted hs => exact absurd hs (of_decide_eq_false hc.running)
  | executing _ _ hs => exact .inl hs
  | loading _ hs => exact .inr (.inl hs)
  | computed _ hs => exact .inr (.inr hs)

/-- Every instruction that leaves the execute stage retires. -/
theorem retires_of_commits (hinv : StageInv cfg s o) {x : Instr}
    (hx : o.commits cfg s i = some x) (hd : SlotOf m w o.npc x.decoded)
    (hi : Isa.instruction cfg.extensions w = some m)
    (hshape : IdEx.Shape cfg o.npc w x.decoded)
    (hexact : s.control.state = .md2 → s.idEx.mdOp.getLsbD 2 = true → ExactDivision cfg s) :
    Retires cfg io s i x.decoded m w o.npc := by
  obtain ⟨hleave, hslot⟩ := commits_eq_some_iff.mp hx
  have hc := completes_of_leaves hinv.pipeline.trap.debug hleave
  rcases state_of_commits hinv.pipeline hx with hs | hs | hs
  · have hid := hinv.pipeline.decoded hs hslot
    have hhold (h : s.idEx.mdStart = true ∨ s.idEx.ecallRequest = true ∨
        s.idEx.ebreakRequest = true) : False := pcOp_ne_hold hinv.pipeline.dcsr hs hleave h
    rcases cases_of_kind m with hm | hm | hm | hm | hm | hm | hm | hm
    · rw [← hid] at hd hshape ⊢
      exact retires_of_kind hc hm (Isa.instruction_spec hi).1 hd hs hinv.pipeline.dcsr hleave hshape
    · exact retires_of_load hc hm hd (.inl hid)
    · exact retires_of_store hc hm hd (.inl hid)
    · exact retires_of_csr hc hm hd hid
    · exact (hhold (.inl (by rw [hid, mdStart_eq hd, hm]))).elim
    · obtain ⟨e, t, hdec⟩ := hd
      subst hm
      exact (hhold (.inr (.inl (by rw [hid, hdec, blockZero_eq]; rfl)))).elim
    · obtain ⟨e, t, hdec⟩ := hd
      subst hm
      exact (hhold (.inr (.inr (by rw [hid, hdec, blockZero_eq]; cases e <;> rfl)))).elim
    · exact retires_of_other hc hm hd hid
  · obtain ⟨hmem, hid⟩ := hinv.waiting.mem hs x hslot
    rw [ismem_eq hd] at hmem
    rcases Bool.or_eq_true _ _ ▸ hmem with hm | hm
    · exact retires_of_load hc hm hd (.inr hid)
    · exact retires_of_store hc hm hd (.inr hid)
  · obtain ⟨hmd, hid⟩ := hinv.waiting.md2 hs x hslot
    rw [mdStart_eq hd] at hmd
    exact retires_of_md hc hi hmd hd hid hs hinv.operation (hexact hs)

end Retires

end Core

end ThuasRiscv
