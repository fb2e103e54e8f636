import ThuasRiscv.Core.PipelineInvariant

/-!
# Where the core resumes

An interrupt, a halt request, a breakpoint and a step stop all save the PC of
the execute stage, in `mepc` or in `dpc`. The saved address is the address of
the next instruction, and that instruction has had no effect, so that MRET or a
debug resume neither repeats nor skips an instruction.
-/

namespace ThuasRiscv

open Transition

/-! ## Even addresses -/

theorem getLsbD_zero_add (x y : DataType) :
    (x + y).getLsbD 0 = (x.getLsbD 0 ^^ y.getLsbD 0) := by
  rw [BitVec.getLsbD_add (by decide), BitVec.carry_zero, Bool.xor_false]

theorem getLsbD_zero_add_four {x : DataType} (h : x.getLsbD 0 = false) :
    (x + 4).getLsbD 0 = false := by
  rw [getLsbD_zero_add, h]
  rfl

/-- Bit 0 of a sign extended offset that ends in a zero. -/
theorem getLsbD_signExtend_append {n : ℕ} (x : BitVec n) :
    ((x ++ 0#1).signExtend 32).getLsbD 0 = false := by
  rw [BitVec.getLsbD_signExtend, if_pos (by omega), BitVec.getLsbD_append]
  rfl

theorem CsrReg.getLsbD_mtvecToPc (cfg : Generics) (c : CsrReg) :
    (c.mtvecToPc cfg).getLsbD 0 = false := by
  unfold mtvecToPc
  simp only []
  split_ifs <;> rw [BitVec.getLsbD_append] <;> rfl

theorem IdEx.Shape.imm_even {cfg : Generics} {pc instr : DataType} {d : IdEx}
    (h : IdEx.Shape cfg pc instr d) (hop : d.pcOp = .loadoffset ∨ d.pcOp = .branch) :
    d.imm.getLsbD 0 = false := by
  cases h with
  | jal | branch => exact getLsbD_signExtend_append _
  | mulDiv => simp [IdEx.mulDiv] at hop
  | _ => simp [IdEx.bubble] at hop

/-- Jumps and branches go to even addresses. -/
theorem IdEx.Shape.successor_even {cfg : Generics} {pc instr : DataType} {d : IdEx}
    (h : IdEx.Shape cfg pc instr d) (a : DataType) (taken : Bool) {mepc : DataType}
    (hpc : pc.getLsbD 0 = false) (hmepc : mepc.getLsbD 0 = false) :
    (d.successor a taken mepc).getLsbD 0 = false := by
  have hoffset (hop : d.pcOp = .loadoffset ∨ d.pcOp = .branch) :
      (d.pc + d.imm).getLsbD 0 = false := by
    rw [getLsbD_zero_add, h.pc_eq, hpc, h.imm_even hop]
    rfl
  have hnext : (d.pc + 4).getLsbD 0 = false := getLsbD_zero_add_four (h.pc_eq ▸ hpc)
  unfold IdEx.successor
  cases hop : d.pcOp with
  | loadoffset => exact hoffset (.inl hop)
  | loadoffsetregister =>
    simp only []
    rw [getLsbD_setBit _ (by decide), if_pos rfl]
  | branch =>
    cases taken
    · exact hnext
    · exact hoffset (.inr hop)
  | loadMepc => exact hmepc
  | incr | hold | loadMtvec => exact hnext

namespace Core

variable {cfg : Generics} {io : Peripherals} {s : Core} {o : Observer} {i : CoreInput}

/-- Nothing but the pipeline is disturbed: the instruction behind a WFI neither accesses the bus nor
writes a CSR while the core sleeps, and an interrupt is accepted at an aligned address. -/
structure ResumeSafe (cfg : Generics) (p : Core × Observer) (i : CoreInput) : Prop where
  pipeline : PipelineSafe cfg p i
  sleep : i.sreset = false → p.1.control.state = .wfi → p.1.advance cfg i = .stall →
    p.1.accessesBus cfg i = false ∧ p.1.writesCsr cfg i = false
  aligned : i.sreset = false → (p.1.interrupt i).isSome = true → p.1.stateNext cfg i = .trap →
    p.1.idEx.pc.getLsbD 1 = false

instance {p : Core × Observer} : Decidable (ResumeSafe cfg p i) :=
  decidable_of_iff (PipelineSafe cfg p i ∧
      (i.sreset = false → p.1.control.state = .wfi → p.1.advance cfg i = .stall →
        p.1.accessesBus cfg i = false ∧ p.1.writesCsr cfg i = false) ∧
      (i.sreset = false → (p.1.interrupt i).isSome = true → p.1.stateNext cfg i = .trap →
        p.1.idEx.pc.getLsbD 1 = false))
    ⟨fun h => ⟨h.1, h.2.1, h.2.2⟩, fun h => ⟨h.1, h.2, h.3⟩⟩

/-- The instruction in the execute stage has had no effect, in this clock or before. -/
structure Untouched (cfg : Generics) (s : Core) (o : Observer) (i : CoreInput) : Prop where
  issued : o.issued = false
  bus : s.accessesBus cfg i = false
  csr : s.writesCsr cfg i = false
  commits : o.commits cfg s i = none

/-- The core saves the address of the next instruction, and executes the instructions in the order
of these addresses. `npc` of the observer continues at `mepc` after an MRET and at `dpc` after a
debug resume. -/
structure Precise (cfg : Generics) (s : Core) (o : Observer) (i : CoreInput) : Prop where
  inOrder : ∀ x, o.commits cfg s i = some x → x.decoded.pc = o.npc
  interrupt : (s.interrupt i).isSome = true → s.stateNext cfg i = .trap →
    (s.nextCsr cfg i).mepc = o.npc ∧ Untouched cfg s o i
  enters : s.control.state ≠ .debug → s.stateNext cfg i = .debug →
    (s.nextControl cfg i).loadDpc = true ∧ (s.nextIdEx cfg i).pc = o.npc ∧ Untouched cfg s o i
  saves : s.control.loadDpc = true → (i.dm.writecsr = true → s.csrAddrV i ≠ dpcAddr) →
    (s.nextCsr cfg i).dpc = o.npc
  keeps : s.control.state = .debug → s.control.loadDpc = false →
    (i.dm.writecsr = true → s.csrAddrV i ≠ dpcAddr) →
    (s.nextCsr cfg i).dpc = s.csr.dpc ∧ o.nextNpc cfg s i = o.npc

structure ResumeInv (cfg : Generics) (s : Core) (o : Observer) : Prop where
  pipeline : PipelineInv cfg s o
  mepc : s.csr.mepc.getLsbD 0 = false
  dpc : s.csr.dpc.getLsbD 0 = false
  npc : o.npc.getLsbD 0 = false
  issued : s.control.state = .exec ∨ s.control.state = .wfi → o.issued = false

theorem resumeInv_initial (cfg : Generics) :
    ResumeInv cfg (Core.initial cfg) (Observer.initial cfg) where
  pipeline := pipelineInv_initial cfg
  mepc := by simp [Core.initial, CsrReg.reset]
  dpc := by simp [Core.initial, CsrReg.reset]
  npc := by
    simp only [Observer.initial, Generics.resetPc]
    rw [BitVec.getLsbD_append]
    rfl
  issued _ := rfl

/-- The successor of an instruction that commits is at an even address. -/
theorem successor_even (hinv : ResumeInv cfg s o) {x : Instr}
    (hc : o.commits cfg s i = some x) :
    (x.decoded.successor s.operandA s.penalty s.csr.mepc).getLsbD 0 = false := by
  obtain ⟨hleave, hslot⟩ := commits_eq_some_iff.mp hc
  have heq {y : Instr} (hy : Filled s o y) : y = x :=
    Option.some_injective _ (hy.slot.symm.trans hslot)
  have hstep (h : x.decoded.pcOp = .incr ∨ x.decoded.pcOp = .hold) :
      (x.decoded.successor s.operandA s.penalty s.csr.mepc).getLsbD 0 = false := by
    have hpc := hinv.pipeline.commits_pc hc
    have hsucc : x.decoded.successor s.operandA s.penalty s.csr.mepc = o.npc + 4 := by
      rcases h with h | h <;> simp [IdEx.successor, h, hpc]
    rw [hsucc]
    exact getLsbD_zero_add_four hinv.npc
  have hdebug := indebug_of_leaves hinv.pipeline.trap.debug hleave
  cases hinv.pipeline.stage with
  | target _ h | fetched _ h | trapping _ h | resuming _ h => rw [h] at hslot; cases hslot
  | halted hs => simp [indebug, hs] at hdebug
  | executing y instr _ hy hid hshape =>
    obtain rfl := heq hy
    exact (hid ▸ hshape).successor_even _ _ hinv.npc hinv.mepc
  | loading y _ hy _ hdec => exact hstep (.inl (heq hy ▸ hdec))
  | computing y _ hy hdec | computed y _ hy _ hdec => exact hstep (.inr (heq hy ▸ hdec))
  | sleeping y hs => simp [leaves, stall_eq, hs] at hleave

theorem nextNpc_even (hinv : ResumeInv cfg s o) : (o.nextNpc cfg s i).getLsbD 0 = false := by
  unfold Observer.nextNpc
  split_ifs
  · exact CsrReg.getLsbD_mtvecToPc _ _
  · exact hinv.dpc
  cases hc : o.commits cfg s i with
  | none => exact hinv.npc
  | some x => exact successor_even hinv hc

/-- An access or a CSR write of an instruction that stays in the execute stage is made in
`state_exec`, and the core waits for that instruction. -/
theorem issued_next (hinv : ResumeInv cfg s o) (hr : i.sreset = false)
    (hsafe : ResumeSafe cfg (s, o) i)
    (hn : s.stateNext cfg i = .exec ∨ s.stateNext cfg i = .wfi) : o.nextIssued cfg s i = false := by
  unfold Observer.nextIssued
  cases ha : s.advance cfg i with
  | stall =>
    rcases stall_cases hinv.pipeline.trap.coherent ha with
      ⟨-, -, -, h⟩ | ⟨-, -, h⟩ | ⟨-, -, h⟩ | ⟨-, h⟩ | ⟨hs, -⟩
    · simp [h] at hn
    · simp [h] at hn
    · simp [h] at hn
    · rw [h] at hn
      split at hn <;> simp at hn
    · obtain ⟨hbus, hcsr⟩ := hsafe.sleep hr hs ha
      simp [hinv.issued (.inr hs), hbus, hcsr]
  | _ => rfl

theorem resumeInv_clock (hinv : ResumeInv cfg s o) (hr : i.sreset = false)
    (hsafe : ResumeSafe cfg (s, o) i) : ResumeInv cfg (s.clock cfg io i) (o.clock cfg io s i) where
  pipeline := pipelineInv_clock hinv.pipeline hr hsafe.pipeline
  mepc := CsrReg.getLsbD_next_mepc
  dpc := CsrReg.getLsbD_next_dpc
  npc := nextNpc_even hinv
  issued h := issued_next hinv hr hsafe (by simpa using h)

theorem resumeInv_step (hinv : ResumeInv cfg s o) (hsafe : ResumeSafe cfg (s, o) i) :
    ResumeInv cfg (s.step cfg io i) (o.next cfg io s i) := by
  have hpipe : PipelineInv cfg (s.step cfg io i) (o.next cfg io s i) :=
    pipelineInv_step hinv.pipeline hsafe.pipeline
  cases hr : i.sreset with
  | true =>
    have h := resumeInv_initial cfg
    rw [step_reset _ _ _ _ hr, Observer.next, if_pos hr] at hpipe ⊢
    exact ⟨hpipe, h.mepc, h.dpc, h.npc, fun _ => rfl⟩
  | false =>
    rw [step_clock _ _ _ _ hr, Observer.next, if_neg (by simp [hr])]
    exact resumeInv_clock hinv hr hsafe

theorem resumeInv_of_reachable {p : Core × Observer}
    (h : (observed cfg io).Reachable (ResumeSafe cfg) p) : ResumeInv cfg p.1 p.2 := by
  induction h with
  | init => exact resumeInv_initial cfg
  | step i _ hsafe ih => exact resumeInv_step ih hsafe

/-! ## Accepted events -/

/-- The bus is disabled and no CSR is written while an interrupt or a trigger is accepted. -/
theorem untouched_of_accepts (hinv : ResumeInv cfg s o)
    (hs : s.control.state = .exec ∨ s.control.state = .wfi)
    (h : (s.interrupt i).isSome = true ∨ s.stallOnTrigger cfg i = true) :
    Untouched cfg s o i where
  issued := hinv.issued hs
  bus := by
    unfold accessesBus fastDisable slowDisable trapRequest
    rcases h with h | h <;> simp [h]
  csr := by
    unfold writesCsr CsrSignals.writes csrSignals trapRequest
    rcases h with h | h <;> simp [h]
  commits := by
    unfold Observer.commits leaves trapRequest
    rcases h with h | h <;> simp [h]

/-- An event finds the next instruction in the execute stage. -/
theorem idEx_pc_of_accepts (hinv : ResumeInv cfg s o) (hr : i.sreset = false)
    (hsafe : ResumeSafe cfg (s, o) i) (h : s.control.state = .wfi ∨ s.control.state = .exec ∧
      (s.trapRequest cfg i = true ∨ s.triggers cfg i = true)) :
    s.idEx.pc = o.npc := by
  have hfilled {x : Instr} (hslot : o.slot = some x) : s.idEx.pc = o.npc :=
    (hinv.pipeline.filled (by rcases h with h | ⟨h, -⟩ <;> simp [h]) hslot).idEx
  rcases h with hs | ⟨hs, h⟩
  · cases hinv.pipeline.stage with
    | sleeping x _ hx => exact hx.idEx
    | target h | fetched h => simp [hs, atTarget, atFetch] at h
    | executing _ _ h | loading _ h | computing _ h | computed _ h | trapping h | halted h
    | resuming h => rw [hs] at h; cases h
  · cases hslot : o.slot with
    | some x => exact hfilled hslot
    | none =>
      obtain ⟨htrig, htrap⟩ := hsafe.pipeline.empty hr hs hslot
      rcases h with h | h
      · rw [htrap] at h
        cases h
      · rw [htrig] at h
        cases h

/-- Debug mode is entered from the executing state by a trigger, or from sleep by a halt
request. -/
theorem enters_debug (hs : s.control.state ≠ .debug) (h : s.stateNext cfg i = .debug) :
    s.control.state = .exec ∧ s.triggers cfg i = true ∨
      s.control.state = .wfi ∧ i.haltReq = true ∧ cfg.haveOcd = true := by
  unfold stateNext at h
  cases hs' : s.control.state <;> simp only [hs', reduceCtorEq] at h
  case exec =>
    refine .inl ⟨rfl, ?_⟩
    unfold execNext at h
    split_ifs at h
    assumption
  case wfi =>
    refine .inr ⟨rfl, ?_⟩
    split_ifs at h with hh
    simpa using hh
  case debug => exact absurd hs' hs
  all_goals split_ifs at h

theorem nextIdEx_pc (h : s.advance cfg i = .trigger ∨ s.advance cfg i = .stall) :
    (s.nextIdEx cfg i).pc = s.idEx.pc := by
  rw [nextIdEx_eq]
  rcases h with h | h <;> rw [h] <;> rfl

/-- An interrupt is accepted in the executing state or while the core sleeps. -/
theorem state_of_interrupt (h : (s.interrupt i).isSome = true) :
    s.control.state = .exec ∨ s.control.state = .wfi := by
  by_contra hs
  have hm : s.mayInterrupt = false := by
    rw [mayInterrupt_eq]
    cases hs' : s.control.state <;> simp_all
  simp [s.interrupt_eq_none i hm] at h

theorem precise_interrupt (hinv : ResumeInv cfg s o) (hr : i.sreset = false)
    (hsafe : ResumeSafe cfg (s, o) i) (hi : (s.interrupt i).isSome = true)
    (hn : s.stateNext cfg i = .trap) :
    (s.nextCsr cfg i).mepc = o.npc ∧ Untouched cfg s o i := by
  have hs := state_of_interrupt hi
  have htr : s.trapRequest cfg i = true := by simp [trapRequest, hi]
  have hpc := idEx_pc_of_accepts hinv hr hsafe (hs.symm.imp_right fun h => ⟨h, .inl htr⟩)
  have ha := (advance_trap_iff_stateNext hinv.pipeline.trap hr hsafe.pipeline.trap).mpr hn
  have hent : (s.csrSignals cfg i).entersTrap = true := by
    simp [CsrSignals.entersTrap, csrSignals, advance_eq_trap_iff.mp ha]
  refine ⟨?_, untouched_of_accepts hinv hs (.inl hi)⟩
  rw [nextCsr, (s.csr.next_holdsTrap cfg hent).mepc]
  change mepcOf s.idEx.pc = o.npc
  rw [mepcOf_eq_self (hpc ▸ hinv.npc) (hsafe.aligned hr hi hn), hpc]

theorem precise_enters (hinv : ResumeInv cfg s o) (hr : i.sreset = false)
    (hsafe : ResumeSafe cfg (s, o) i) (hs : s.control.state ≠ .debug)
    (hn : s.stateNext cfg i = .debug) : (s.nextControl cfg i).loadDpc = true ∧
      (s.nextIdEx cfg i).pc = o.npc ∧ Untouched cfg s o i := by
  refine ⟨nextControl_loadDpc.mpr ⟨hs, hn⟩, ?_⟩
  rcases enters_debug hs hn with ⟨he, htrig⟩ | ⟨hw, hh, ho⟩
  · have hst : s.stallOnTrigger cfg i = true := by simp [stallOnTrigger_eq, he, htrig]
    refine ⟨?_, untouched_of_accepts hinv (.inl he) (.inr hst)⟩
    rw [nextIdEx_pc (.inl (advance_eq_trigger_iff.mpr hst))]
    exact idEx_pc_of_accepts hinv hr hsafe (.inr ⟨he, .inr htrig⟩)
  · have htr := hsafe.pipeline.trap.halt hr hw hh ho
    have ha : s.advance cfg i = .stall :=
      advance_eq_stall_iff.mpr ⟨by simp [stallOnTrigger_eq, hw], htr, by simp [stall_eq, hw]⟩
    obtain ⟨hbus, hcsr⟩ := hsafe.sleep hr hw ha
    refine ⟨?_, hinv.issued (.inr hw), hbus, hcsr, commits_of_stall ha⟩
    rw [nextIdEx_pc (.inr ha)]
    exact idEx_pc_of_accepts hinv hr hsafe (.inl hw)

/-- `dpc` after a clock in which the Debug Module does not write it. -/
theorem nextCsr_dpc (hinv : ResumeInv cfg s o) (hs : s.control.state = .debug)
    (hw : i.dm.writecsr = true → s.csrAddrV i ≠ dpcAddr) : (s.nextCsr cfg i).dpc =
      setBit (if s.control.loadDpc then s.idEx.pc else s.csr.dpc) 0 false := by
  refine CsrReg.next_dpc (hinv.pipeline.trap.debug hs) fun h => hw ?_
  simp only [CsrSignals.debugWrites, csrSignals, Bool.and_eq_true] at h
  exact h.1.2

theorem idEx_pc_of_loadDpc (hinv : ResumeInv cfg s o) (h : s.control.loadDpc = true) :
    s.idEx.pc = o.npc := by
  have hs := hinv.pipeline.loadDpc h
  cases hinv.pipeline.stage with
  | halted _ hpc => exact hpc h
  | target h | fetched h => simp [hs, atTarget, atFetch] at h
  | executing _ _ h | loading _ h | computing _ h | computed _ h | sleeping _ h | trapping h
  | resuming h => rw [hs] at h; cases h

theorem precise_keeps (hinv : ResumeInv cfg s o) (hs : s.control.state = .debug)
    (hl : s.control.loadDpc = false) (hw : i.dm.writecsr = true → s.csrAddrV i ≠ dpcAddr) :
    (s.nextCsr cfg i).dpc = s.csr.dpc ∧ o.nextNpc cfg s i = o.npc := by
  have hst : s.stallOnTrigger cfg i = true := by
    simp [stallOnTrigger_eq, hs, hinv.pipeline.trap.debug hs]
  have hne : s.stateNext cfg i ≠ .trap := by
    rw [stateNext, hs]
    cases i.resumeReq <;> simp
  constructor
  · rw [nextCsr_dpc hinv hs hw, hl, if_neg (by simp), setBit_eq_self (by decide) hinv.dpc]
  · exact nextNpc_of_idle hne (hinv.pipeline.loadPc_eq_false (by simp [hs]))
      (commits_of_not_leaves (by simp [leaves, hst]))

theorem precise_of_resumeInv (hinv : ResumeInv cfg s o) (hr : i.sreset = false)
    (hsafe : ResumeSafe cfg (s, o) i) : Precise cfg s o i where
  inOrder _ hc := hinv.pipeline.commits_pc hc
  interrupt := precise_interrupt hinv hr hsafe
  enters := precise_enters hinv hr hsafe
  saves hl hw := by
    rw [nextCsr_dpc hinv (hinv.pipeline.loadDpc hl) hw, hl, if_pos rfl,
      idEx_pc_of_loadDpc hinv hl, setBit_eq_self (by decide) hinv.npc]
  keeps := precise_keeps hinv

/-- In every run in which no event is accepted in the empty cycle after `state_trap2`, the address
that is saved for MRET or for a debug resume is the address of the next instruction, which has had
no effect. -/
theorem resume_point_is_precise (cfg : Generics) (io : Peripherals) {s : Core} {o : Observer}
    (h : (observed cfg io).Reachable (ResumeSafe cfg) (s, o)) {i : CoreInput}
    (hr : i.sreset = false) (hsafe : ResumeSafe cfg (s, o) i) : Precise cfg s o i :=
  precise_of_resumeInv (resumeInv_of_reachable h) hr hsafe

/-- Three `addi x0, x0, 0`, and an NMI when the second one is in the execute stage. -/
theorem nmi_saves_next_instruction :
    (Core.nextCsr .plain (observeProgram .plain .none [] (.replicate 3 .quiet)).1
      (Core.fetchInput .plain (observeProgram .plain .none [] (.replicate 3 .quiet)).1 0x00000013
        (.interrupt 31))).mepc = 4 :=
  ((resume_point_is_precise .plain .none (s := (observeProgram .plain .none []
    (.replicate 3 .quiet)).1) (o := (observeProgram .plain .none [] (.replicate 3 .quiet)).2)
    (Machine.Reachable.init.runFrom_of_meets (M := observed .plain .none) (by decide +kernel))
    (i := Core.fetchInput .plain (observeProgram .plain .none [] (.replicate 3 .quiet)).1
      0x00000013 (.interrupt 31)) (by decide +kernel) (by decide +kernel)).interrupt
    (by decide +kernel) (by decide +kernel)).1.trans (by decide +kernel)

/-- An ECALL at address 0 with its handler there too, and an NMI in the empty cycle after
`state_trap2`: the saved address is not the one of the handler. -/
theorem nmi_after_trap_saves_old_pc :
    ¬ ∀ s o, (observed .plain .none).Reachable Machine.free (s, o) → ∀ i, i.sreset = false →
      Precise .plain s o i := by
  intro h
  have hp := h _ _ (observeProgram_reachable .plain .none [0x00000073] (.replicate 5 .quiet))
    (Core.fetchInput .plain (observeProgram .plain .none [0x00000073] (.replicate 5 .quiet)).1
      0x00000073 (.interrupt 31)) rfl
  exact absurd (hp.interrupt (by decide +kernel) (by decide +kernel)).1 (by decide +kernel)

end Core

end ThuasRiscv
