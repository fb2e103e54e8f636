import ThuasRiscv.Core.CsrFrame
import ThuasRiscv.Core.Observer
import ThuasRiscv.Core.TrapEntry

/-!
# The program counters of the pipeline

Where the address of the oldest instruction that is not committed is found: in
the PC after a jump, one stage later while the pipeline is filled, and in the
execute stage as soon as an instruction has arrived there. Only the executing
cycle after `state_trap2` has an empty execute stage with an old PC in it.
-/

namespace ThuasRiscv

open Transition

/-- A slot in which nothing happens. -/
structure IdEx.Inert (d : IdEx) : Prop where
  quiet : d.Quiet
  pcOp : d.pcOp = .incr
  plain : d.aluOp.plain = true
  ismem : d.ismem = false
  mdStart : d.mdStart = false
  mret : d.mretRequest = false
  wfi : d.wfiRequest = false

theorem IdEx.inert_bubble (pc instr : DataType) : (IdEx.bubble pc instr).Inert :=
  ⟨IdEx.quiet_bubble pc instr, rfl, rfl, rfl, rfl, rfl, rfl⟩

theorem IdEx.Shape.pc_eq {cfg : Generics} {pc instr : DataType} {d : IdEx}
    (h : IdEx.Shape cfg pc instr d) : d.pc = pc := by
  cases h <;> rfl

theorem IdEx.Shape.pcOp_of_ismem {cfg : Generics} {pc instr : DataType} {d : IdEx}
    (h : IdEx.Shape cfg pc instr d) (hm : d.ismem = true) : d.pcOp = .incr := by
  cases h <;> first | rfl | cases hm

theorem IdEx.Shape.pcOp_of_mdStart {cfg : Generics} {pc instr : DataType} {d : IdEx}
    (h : IdEx.Shape cfg pc instr d) (hm : d.mdStart = true) : d.pcOp = .hold := by
  cases h <;> first | rfl | cases hm

/-- The operations on the PC and the instructions that have them. -/
theorem IdEx.Shape.pcOp_cases {cfg : Generics} {pc instr : DataType} {d : IdEx}
    (h : IdEx.Shape cfg pc instr d) :
    (d.pcOp = .incr ∧ d.aluOp.plain = true) ∨ (d.pcOp = .branch ∧ d.wfiRequest = false) ∨
      ((d.pcOp = .loadoffset ∨ d.pcOp = .loadoffsetregister) ∧ d.aluOp = .jalJalr ∧
        d.wfiRequest = false) ∨
      (d.pcOp = .loadMepc ∧ d.aluOp = .mret ∧ d.wfiRequest = false) ∨
      (d.pcOp = .hold ∧
        (d.mdStart = true ∨ d.ecallRequest = true ∨ d.ebreakRequest = true)) := by
  cases h with
  | alu _ _ _ _ _ h | store _ _ h _ | load _ _ _ h _ => exact .inl ⟨rfl, h⟩
  | mulDiv => simp [IdEx.mulDiv]
  | jal | jalr | branch | mret | ecall | ebreak => simp [IdEx.bubble]
  | _ => exact .inl ⟨rfl, rfl⟩

namespace Core

variable {cfg : Generics} {io : Peripherals} {s : Core} {o : Observer} {i : CoreInput}

/-! ## The requests of the controller -/

theorem nextControl_loadPc :
    (s.nextControl cfg i).loadPc = true ↔ s.stateNext cfg i = .debugflush := by
  unfold nextControl stateNext
  cases hs : s.control.state
  case exec =>
    have h : s.execNext cfg i ≠ .debugflush := by
      unfold execNext
      split_ifs <;> simp
    simp only [h, execControl, apply_ite Control.loadPc, Control.halted, idleControl, ite_self,
      Bool.false_eq_true]
  all_goals
    simp only [apply_ite Control.loadPc, Control.halted, Control.resumed, idleControl, ite_self]
    try split_ifs
    all_goals simp

theorem execControl_loadDpc :
    (s.execControl cfg i).loadDpc = true ↔ s.execNext cfg i = .debug := by
  unfold execControl execNext triggers
  simp only [apply_ite Control.loadDpc, Control.halted, idleControl, ite_self]
  cases cfg.haveOcd
  · simp only [Bool.and_false, Bool.false_and, Bool.false_eq_true, if_false, false_iff]
    split_ifs <;> simp
  · simp only [Bool.and_true, Bool.true_and]
    cases i.haltReq <;> cases s.bpmatch && !s.control.skipMatch <;>
      cases s.idEx.ebreakRequest && s.ebreakm <;> cases s.isstepping && !s.control.step <;>
      simp only [Bool.or_true, Bool.or_false, Bool.false_eq_true, if_true, if_false, false_iff]
    split_ifs <;> simp

/-- Debug mode is entered with a request to load `dpc`. -/
theorem nextControl_loadDpc : (s.nextControl cfg i).loadDpc = true ↔
    s.control.state ≠ .debug ∧ s.stateNext cfg i = .debug := by
  unfold nextControl stateNext
  cases hs : s.control.state
  case exec => simp [execControl_loadDpc]
  all_goals
    simp only [apply_ite Control.loadDpc, Control.halted, Control.resumed, idleControl, ite_self]
    try split_ifs
    all_goals simp

/-! ## Stages -/

/-- The PC has the address of the next instruction and the fetched word is not executed. -/
def atTarget : StateType → Bool
  | .boot0 | .flush | .mret | .trap2 | .debugflush2 => true
  | _ => false

/-- The word at the address of the next instruction is being fetched. -/
def atFetch : StateType → Bool
  | .boot1 | .flush2 | .mret2 | .trap3 | .debugflush3 | .exec => true
  | _ => false

/-- The step is safe for traps, and nothing is accepted in the executing cycle after `state_trap2`,
in which the execute stage is empty. -/
structure PipelineSafe (cfg : Generics) (p : Core × Observer) (i : CoreInput) : Prop where
  trap : TrapSafe cfg p.1 i
  empty : i.sreset = false → p.1.control.state = .exec → p.2.slot = none →
    p.1.triggers cfg i = false ∧ p.1.trapRequest cfg i = false

instance {p : Core × Observer} : Decidable (PipelineSafe cfg p i) :=
  decidable_of_iff (TrapSafe cfg p.1 i ∧ (i.sreset = false → p.1.control.state = .exec →
      p.2.slot.isNone = true → p.1.triggers cfg i = false ∧ p.1.trapRequest cfg i = false))
    ⟨fun h => ⟨h.1, fun hr hs hn => h.2 hr hs (by simp [hn])⟩,
      fun h => ⟨h.1, fun hr hs hn => h.2 hr hs (by simpa using hn)⟩⟩

/-- `x` is in the execute stage, and the two stages before it hold the addresses that follow. -/
structure Filled (s : Core) (o : Observer) (x : Instr) : Prop where
  slot : o.slot = some x
  decoded : x.decoded.pc = o.npc
  idEx : s.idEx.pc = o.npc
  ifId : s.ifIdPc = o.npc + 4
  pc : s.pc = o.npc + 4 + 4

/-- Where the address of the next instruction is, for each group of states. -/
inductive Stage (cfg : Generics) (s : Core) (o : Observer) : Prop
  | target : atTarget s.control.state = true → o.slot = none → s.idEx.Inert → s.pc = o.npc →
    Stage cfg s o
  | fetched : atFetch s.control.state = true → o.slot = none → s.idEx.Inert →
    s.ifIdPc = o.npc → s.pc = o.npc + 4 → Stage cfg s o
  | executing (x : Instr) (instr : DataType) : s.control.state = .exec → Filled s o x →
    s.idEx = x.decoded → IdEx.Shape cfg o.npc instr s.idEx → Stage cfg s o
  | loading (x : Instr) : s.control.state = .mem → Filled s o x → s.idEx.pcOp = .incr →
    x.decoded.pcOp = .incr → s.idEx.aluOp.plain = true → Stage cfg s o
  | computing (x : Instr) : s.control.state = .md → Filled s o x → x.decoded.pcOp = .hold →
    s.idEx.aluOp = .multiply ∨ s.idEx.aluOp = .divrem → Stage cfg s o
  | computed (x : Instr) : s.control.state = .md2 → Filled s o x → s.idEx.pcOp = .incr →
    x.decoded.pcOp = .hold → s.idEx.aluOp = .multiply ∨ s.idEx.aluOp = .divrem → Stage cfg s o
  | sleeping (x : Instr) : s.control.state = .wfi → Filled s o x → Stage cfg s o
  | trapping : s.control.state = .trap → o.slot = none → s.csr.mtvecToPc cfg = o.npc →
    Stage cfg s o
  | halted : s.control.state = .debug → (s.control.loadDpc = true → s.idEx.pc = o.npc) →
    Stage cfg s o
  | resuming : s.control.state = .debugflush → o.slot = none → Stage cfg s o

structure PipelineInv (cfg : Generics) (s : Core) (o : Observer) : Prop where
  trap : TrapInv cfg s
  dcsr : cfg.haveOcd = false → s.csr.dcsr = 0
  loadPc : s.control.loadPc = true ↔ s.control.state = .debugflush
  loadDpc : s.control.loadDpc = true → s.control.state = .debug
  stage : Stage cfg s o

theorem pipelineInv_initial (cfg : Generics) :
    PipelineInv cfg (Core.initial cfg) (Observer.initial cfg) where
  trap := trapInv_initial cfg
  dcsr _ := rfl
  loadPc := by simp [Core.initial, Control.reset]
  loadDpc h := by cases h
  stage := .target rfl rfl ⟨⟨rfl, rfl, rfl, rfl⟩, rfl, rfl, rfl, rfl, rfl, rfl⟩ rfl

/-! ## The address of the next instruction -/

theorem nextNpc_of_trap (h : s.stateNext cfg i = .trap) :
    o.nextNpc cfg s i = (s.nextCsr cfg i).mtvecToPc cfg := by
  rw [Observer.nextNpc, if_pos h]

theorem nextNpc_of_idle (h : s.stateNext cfg i ≠ .trap) (hpc : s.control.loadPc = false)
    (hc : o.commits cfg s i = none) : o.nextNpc cfg s i = o.npc := by
  simp [Observer.nextNpc, h, hpc, hc]

theorem nextNpc_of_commits (h : s.stateNext cfg i ≠ .trap) (hpc : s.control.loadPc = false)
    {x : Instr} (hc : o.commits cfg s i = some x) :
    o.nextNpc cfg s i = x.decoded.successor s.operandA s.penalty s.csr.mepc := by
  simp [Observer.nextNpc, h, hpc, hc]

theorem commits_of_none (h : o.slot = none) : o.commits cfg s i = none := by
  simp [Observer.commits, h]

theorem commits_of_not_leaves (h : s.leaves cfg i = false) : o.commits cfg s i = none := by
  simp [Observer.commits, h]

theorem commits_eq_some_iff {x : Instr} :
    o.commits cfg s i = some x ↔ s.leaves cfg i = true ∧ o.slot = some x := by
  unfold Observer.commits
  cases s.leaves cfg i <;> simp

theorem commits_of_leaves (h : s.leaves cfg i = true) : o.commits cfg s i = o.slot := by
  simp [Observer.commits, h]

theorem PipelineInv.loadPc_eq_false (hinv : PipelineInv cfg s o)
    (h : s.control.state ≠ .debugflush) : s.control.loadPc = false := by
  simpa using mt hinv.loadPc.mp h

/-- A new instruction arrives in the execute stage. -/
theorem filled_of_decode (ha : s.advance cfg i = .decode) (hif : s.ifIdPc = o.nextNpc cfg s i)
    (hifNext : s.nextIfIdPc cfg i = o.nextNpc cfg s i + 4)
    (hpc : s.nextPc cfg i = o.nextNpc cfg s i + 4 + 4) :
    ∃ x, Filled (s.clock cfg io i) (o.clock cfg io s i) x ∧ s.nextIdEx cfg i = x.decoded ∧
      IdEx.Shape cfg (o.nextNpc cfg s i) i.instr.instr (s.nextIdEx cfg i) := by
  have hid : s.nextIdEx cfg i = decode cfg s.ebreakm s.isstepping s.ifIdPc i.instr.instr := by
    rw [nextIdEx_eq, ha]
  have hshape : IdEx.Shape cfg s.ifIdPc i.instr.instr (s.nextIdEx cfg i) :=
    hid ▸ decode_shape _ _ _ _ _
  refine ⟨⟨o.seq, s.nextIdEx cfg i⟩, ⟨?_, ?_, ?_, hifNext, hpc⟩, rfl, hif ▸ hshape⟩
  · change o.nextSlot cfg s i = _
    rw [Observer.nextSlot, ha, hid]
  · exact hshape.pc_eq.trans hif
  · exact hshape.pc_eq.trans hif

/-! ## The PCs in one clock -/

theorem nextPc_of_leaves (hpc : s.control.loadPc = false) (h : s.leaves cfg i = true) :
    s.nextPc cfg i = s.pcOpNext cfg := by
  simp only [leaves, Bool.and_eq_true, Bool.not_eq_true'] at h
  simp [nextPc, hpc, h.1.1, h.1.2]

theorem nextIfIdPc_of_leaves (h : s.leaves cfg i = true) (hop : s.idEx.pcOp ≠ .hold) :
    s.nextIfIdPc cfg i = s.pc := by
  simp only [leaves, Bool.and_eq_true, Bool.not_eq_true'] at h
  simp [nextIfIdPc, h.1.1, h.1.2, hop]

/-- A stall keeps the PCs. -/
theorem pcs_of_stall (hpc : s.control.loadPc = false) (ha : s.advance cfg i = .stall) :
    s.nextPc cfg i = s.pc ∧ s.nextIfIdPc cfg i = s.ifIdPc := by
  have hstall := (advance_eq_stall_iff.mp ha).2.2
  simp [nextPc, nextIfIdPc, hpc, hstall]

theorem pcOpNext_incr (h : s.idEx.pcOp = .incr) : s.pcOpNext cfg = s.pc + 4 := by
  simp [pcOpNext, h]

/-- In the states that ignore traps the execute stage advances, except while the MD unit works. -/
theorem leaves_of_ignores (hinv : TrapInv cfg s) (hr : i.sreset = false)
    (hsafe : TrapSafe cfg s i) (hacc : acceptsTrap s.control.state = false)
    (hmd : s.control.state ≠ .md) : s.leaves cfg i = true := by
  have htr : s.trapRequest cfg i = false := by
    rw [trapRequest_eq_stray hacc (hinv.quiet hacc), hsafe.ignored hr hacc]
  simp only [leaves, htr, stall_eq, stallOnTrigger_eq]
  cases hs : s.control.state <;> simp_all [acceptsTrap]

theorem commits_of_stall (ha : s.advance cfg i = .stall) : o.commits cfg s i = none :=
  commits_of_not_leaves (by simp [leaves, (advance_eq_stall_iff.mp ha).2.2])

/-- The execute stage keeps its instruction in a stall. -/
theorem filled_of_stall (hpc : s.control.loadPc = false) (ha : s.advance cfg i = .stall)
    (hn : s.stateNext cfg i ≠ .trap) {x : Instr} (hx : Filled s o x) :
    Filled (s.clock cfg io i) (o.clock cfg io s i) x := by
  have hnpc := nextNpc_of_idle hn hpc (commits_of_stall (o := o) ha)
  obtain ⟨hp, hif⟩ := pcs_of_stall hpc ha
  refine ⟨?_, ?_, ?_, ?_, ?_⟩
  · change o.nextSlot cfg s i = _
    rw [Observer.nextSlot, ha]
    exact hx.slot
  · exact hx.decoded.trans hnpc.symm
  · change (s.nextIdEx cfg i).pc = o.nextNpc cfg s i
    rw [nextIdEx_eq, ha, hnpc]
    exact hx.idEx
  · change s.nextIfIdPc cfg i = o.nextNpc cfg s i + 4
    rw [hif, hnpc, hx.ifId]
  · change s.nextPc cfg i = o.nextNpc cfg s i + 4 + 4
    rw [hp, hnpc, hx.pc]

/-! ## The stages in one clock -/

theorem stage_trapping (hn : s.stateNext cfg i = .trap) (ha : s.advance cfg i = .trap) :
    Stage cfg (s.clock cfg io i) (o.clock cfg io s i) := by
  refine .trapping ?_ ?_ ?_
  · rw [clock_state, hn]
  · change o.nextSlot cfg s i = none
    rw [Observer.nextSlot, ha]
  · exact (nextNpc_of_trap hn).symm

/-- After the jump the word at the target is fetched. -/
theorem stage_of_target (hinv : PipelineInv cfg s o) (hr : i.sreset = false)
    (hsafe : TrapSafe cfg s i) (hs : atTarget s.control.state = true) (hslot : o.slot = none)
    (hin : s.idEx.Inert) (hpc : s.pc = o.npc) :
    Stage cfg (s.clock cfg io i) (o.clock cfg io s i) := by
  have hacc : acceptsTrap s.control.state = false := by
    cases h : s.control.state <;> simp_all [atTarget, acceptsTrap]
  have hleave := leaves_of_ignores hinv.trap hr hsafe hacc (by rintro h; simp [h, atTarget] at hs)
  have hload := hinv.loadPc_eq_false (by rintro h; simp [h, atTarget] at hs)
  have hflush : s.flushDecode = true := by
    simp only [flushDecode, flush_eq]
    cases h : s.control.state <;> simp_all [atTarget]
  have ha := advance_eq_bubble_iff.mpr ⟨hleave, hflush⟩
  have hnpc : o.nextNpc cfg s i = o.npc :=
    nextNpc_of_idle (stateNext_ne_trap_of_ignores hacc) hload (commits_of_none hslot)
  refine .fetched ?_ ?_ ?_ ?_ ?_
  · rw [clock_state, stateNext]
    cases h : s.control.state <;> simp only [h, atTarget, Bool.false_eq_true] at hs ⊢ <;>
      cases s.isstepping <;> rfl
  · change o.nextSlot cfg s i = none
    rw [Observer.nextSlot, ha]
  · rw [clock_idEx, nextIdEx_eq, ha]
    exact IdEx.inert_bubble _ _
  · change s.nextIfIdPc cfg i = o.nextNpc cfg s i
    rw [nextIfIdPc_of_leaves hleave (by simp [hin.pcOp]), hnpc, hpc]
  · change s.nextPc cfg i = o.nextNpc cfg s i + 4
    rw [nextPc_of_leaves hload hleave, pcOpNext_incr hin.pcOp, hnpc, hpc]

/-- The fetched word is decoded. -/
theorem stage_of_fetched (hinv : PipelineInv cfg s o) (hr : i.sreset = false)
    (hsafe : PipelineSafe cfg (s, o) i) (hs : atFetch s.control.state = true)
    (hslot : o.slot = none) (hin : s.idEx.Inert) (hif : s.ifIdPc = o.npc)
    (hpc : s.pc = o.npc + 4) : Stage cfg (s.clock cfg io i) (o.clock cfg io s i) := by
  have hempty := hsafe.empty hr
  have hleave : s.leaves cfg i = true := by
    by_cases hacc : acceptsTrap s.control.state = false
    · exact leaves_of_ignores hinv.trap hr hsafe.trap hacc (by rintro h; simp [h, atFetch] at hs)
    · have h : s.control.state = .exec := by
        cases h : s.control.state <;> simp_all [atFetch, acceptsTrap]
      simp [leaves, stall_eq, stallOnTrigger_eq, h, hempty h hslot, hin.ismem, hin.mdStart]
  have hpen : s.penalty = false := penalty_plain hin.plain
  have hload := hinv.loadPc_eq_false (by rintro h; simp [h, atFetch] at hs)
  have hflush : s.flushDecode = false := by
    simp only [flushDecode, flush_eq]
    cases h : s.control.state <;> simp_all [atFetch]
  have ha := advance_eq_decode_iff.mpr ⟨hleave, hflush⟩
  have hn : s.stateNext cfg i = .exec := by
    rw [stateNext]
    cases h : s.control.state <;> simp only [h, atFetch, Bool.false_eq_true] at hs ⊢
    simp [execNext, hempty h hslot, hin.wfi, hin.mret, hpen, hin.ismem, hin.mdStart]
  have hnpc : o.nextNpc cfg s i = o.npc :=
    nextNpc_of_idle (by simp [hn]) hload (commits_of_none hslot)
  obtain ⟨x, hx, hid, hshape⟩ := filled_of_decode ha (hif.trans hnpc.symm)
    (by rw [nextIfIdPc_of_leaves hleave (by simp [hin.pcOp]), hnpc, hpc])
    (by rw [nextPc_of_leaves hload hleave, pcOpNext_incr hin.pcOp, hnpc, hpc])
  exact .executing x i.instr.instr (by rw [clock_state, hn]) hx hid hshape

/-- An instruction that holds the PC does not leave the execute stage in the executing state. -/
theorem pcOp_ne_hold (hocd : cfg.haveOcd = false → s.csr.dcsr = 0)
    (hs : s.control.state = .exec) (hleave : s.leaves cfg i = true)
    (h : s.idEx.mdStart = true ∨ s.idEx.ecallRequest = true ∨ s.idEx.ebreakRequest = true) :
    False := by
  simp only [leaves, Bool.and_eq_true, Bool.not_eq_true', stall_eq, stallOnTrigger_eq, hs,
    Bool.or_eq_false_iff] at hleave
  obtain ⟨⟨⟨-, hmd⟩, htrig⟩, htrap⟩ := hleave
  have hno := noException_of_trapRequest htrap
  rcases h with h | h | h
  · simp [h] at hmd
  · rw [hno.ecall] at h
    cases h
  · have hm : s.ebreakm = true := by
      have hebreak := hno.ebreak
      rw [h, Bool.true_and, Bool.not_eq_false'] at hebreak
      exact hebreak
    have ho : cfg.haveOcd = true := by
      by_contra ho
      simp [ebreakm, hocd (by simpa using ho)] at hm
    simp [triggers, ho, h, hm] at htrig

/-- How an instruction in the executing state goes on when nothing is accepted. -/
theorem continues {pc instr : DataType} (hocd : cfg.haveOcd = false → s.csr.dcsr = 0)
    (hs : s.control.state = .exec) (h : IdEx.Shape cfg pc instr s.idEx)
    (hleave : s.leaves cfg i = true) : s.idEx.pcOp ≠ .hold ∧
      (s.penalty = true → s.idEx.wfiRequest = false ∧
        s.pcOpNext cfg = s.idEx.successor s.operandA s.penalty s.csr.mepc) ∧
      (s.penalty = false → s.pcOpNext cfg = s.pc + 4 ∧
        s.idEx.successor s.operandA s.penalty s.csr.mepc = s.idEx.pc + 4) := by
  unfold pcOpNext IdEx.successor
  rcases h.pcOp_cases with ⟨hop, hp⟩ | ⟨hop, hw⟩ | ⟨hop | hop, hj, hw⟩ | ⟨hop, hm, hw⟩ | ⟨hop, hh⟩
  · simp [hop, penalty_plain hp]
  · cases hpen : s.penalty <;> simp [hop, hw]
  · have hpen : s.penalty = true := by simp [penalty, hj, aluPenalty]
    simp [hop, hpen, hw]
  · have hpen : s.penalty = true := by simp [penalty, hj, aluPenalty]
    simp [hop, hpen, hw]
  · simp [hop, penalty_mret hm, hw]
  · exact (pcOp_ne_hold hocd hs hleave hh).elim

/-- An instruction in the executing state. -/
theorem stage_of_executing (hinv : PipelineInv cfg s o) (hr : i.sreset = false)
    (hsafe : TrapSafe cfg s i) {x : Instr} {instr : DataType} (hs : s.control.state = .exec)
    (hx : Filled s o x) (hid : s.idEx = x.decoded) (hshape : IdEx.Shape cfg o.npc instr s.idEx) :
    Stage cfg (s.clock cfg io i) (o.clock cfg io s i) := by
  have hload := hinv.loadPc_eq_false (by simp [hs])
  have hag := advance_trap_iff_stateNext hinv.trap hr hsafe
  cases ha : s.advance cfg i with
  | trap => exact stage_trapping (hag.mp ha) ha
  | trigger =>
    have htrig : s.triggers cfg i = true := by
      have : s.stallOnTrigger cfg i = true := by
        unfold advance at ha
        split_ifs at ha
        assumption
      simpa [stallOnTrigger_eq, hs] using this
    have hn : s.stateNext cfg i = .debug := by simp [stateNext, hs, execNext, htrig]
    have hleave : s.leaves cfg i = false := by simp [leaves, stallOnTrigger_eq, hs, htrig]
    have hnpc := nextNpc_of_idle (o := o) (hn.trans_ne (by simp)) hload
      (commits_of_not_leaves hleave)
    refine .halted (by rw [clock_state, hn]) fun _ => ?_
    change (s.nextIdEx cfg i).pc = o.nextNpc cfg s i
    rw [nextIdEx_eq, ha, hnpc]
    exact hx.idEx
  | stall =>
    have hne : s.stateNext cfg i ≠ .trap := by simp [← hag, ha]
    have hnext : Filled (s.clock cfg io i) (o.clock cfg io s i) x := filled_of_stall hload ha hne hx
    rcases stall_cases hinv.trap.coherent ha with
      ⟨-, hm, -, hn⟩ | ⟨-, hm, hn⟩ | ⟨hs', -⟩ | ⟨hs', -⟩ | ⟨hs', -⟩
    · refine .loading x (by rw [clock_state, hn]) hnext ?_ ?_ ?_
      · rw [clock_idEx, nextIdEx_eq, ha]
        simp [IdEx.stalled, hshape.pcOp_of_ismem hm]
      · rw [← hid, hshape.pcOp_of_ismem hm]
      · rw [clock_idEx, nextIdEx_eq, ha]
        exact (hinv.trap.coherent.mem hm).2.2.2
    · refine .computing x (by rw [clock_state, hn]) hnext ?_ ?_
      · rw [← hid, hshape.pcOp_of_mdStart hm]
      · rw [clock_idEx, nextIdEx_eq, ha]
        exact (hinv.trap.coherent.md hm).2.2
    all_goals rw [hs] at hs'; cases hs'
  | bubble =>
    obtain ⟨hleave, hflush⟩ := advance_eq_bubble_iff.mp ha
    have hpen : s.penalty = true := by simpa [flushDecode, flush_eq, hs] using hflush
    obtain ⟨hop, hjump, -⟩ := continues hinv.dcsr hs hshape hleave
    obtain ⟨hw, hpc⟩ := hjump hpen
    have hn : s.stateNext cfg i = if s.idEx.mretRequest then .mret else .flush := by
      simp only [leaves, Bool.and_eq_true, Bool.not_eq_true', stallOnTrigger_eq, hs] at hleave
      simp [stateNext, hs, execNext, hleave, hw, hpen]
    have hnpc := nextNpc_of_commits (o := o) (by rw [hn]; split <;> simp) hload
      ((commits_of_leaves hleave).trans hx.slot)
    refine .target ?_ ?_ ?_ ?_
    · rw [clock_state, hn]
      split <;> rfl
    · change o.nextSlot cfg s i = none
      rw [Observer.nextSlot, ha]
    · rw [clock_idEx, nextIdEx_eq, ha]
      exact IdEx.inert_bubble _ _
    · change s.nextPc cfg i = o.nextNpc cfg s i
      rw [nextPc_of_leaves hload hleave, hpc, hnpc, hid]
  | decode =>
    obtain ⟨hleave, hflush⟩ := advance_eq_decode_iff.mp ha
    have hpen : s.penalty = false := by simpa [flushDecode, flush_eq, hs] using hflush
    obtain ⟨hop, -, hnext⟩ := continues hinv.dcsr hs hshape hleave
    obtain ⟨hpc, hsucc⟩ := hnext hpen
    have hne : s.stateNext cfg i ≠ .trap := by simp [← hag, ha]
    have hnpc := nextNpc_of_commits (o := o) hne hload ((commits_of_leaves hleave).trans hx.slot)
    rw [← hid, hsucc, hx.idEx] at hnpc
    obtain ⟨y, hy, hdec, hyshape⟩ := filled_of_decode ha (hx.ifId.trans hnpc.symm)
      (by rw [nextIfIdPc_of_leaves hleave hop, hnpc, hx.pc])
      (by rw [nextPc_of_leaves hload hleave, hpc, hnpc, hx.pc])
    rcases decode_cases hinv.trap ha with hn | ⟨-, -, hn⟩
    · exact .executing y i.instr.instr (by rw [clock_state, hn]) hy hdec hyshape
    · exact .sleeping y (by rw [clock_state, hn]) hy

/-- The successor of an instruction that waited is decoded. -/
theorem stage_of_waited (hinv : PipelineInv cfg s o) (hs : s.control.state ≠ .debugflush)
    (ha : s.advance cfg i = .decode) (hn : s.stateNext cfg i = .exec) {x : Instr}
    (hx : Filled s o x) (hop : s.idEx.pcOp = .incr)
    (hdec : x.decoded.pcOp = .incr ∨ x.decoded.pcOp = .hold) :
    Stage cfg (s.clock cfg io i) (o.clock cfg io s i) := by
  obtain ⟨hleave, -⟩ := advance_eq_decode_iff.mp ha
  have hload := hinv.loadPc_eq_false hs
  have hsucc : x.decoded.successor s.operandA s.penalty s.csr.mepc = o.npc + 4 := by
    rcases hdec with h | h <;> simp [IdEx.successor, h, hx.decoded]
  have hnpc := (nextNpc_of_commits (o := o) (hn.trans_ne (by simp)) hload
    ((commits_of_leaves hleave).trans hx.slot)).trans hsucc
  obtain ⟨y, hy, hid, hshape⟩ := filled_of_decode ha (hx.ifId.trans hnpc.symm)
    (by rw [nextIfIdPc_of_leaves hleave (by simp [hop]), hnpc, hx.pc])
    (by rw [nextPc_of_leaves hload hleave, pcOpNext_incr hop, hnpc, hx.pc])
  exact .executing y i.instr.instr (by rw [clock_state, hn]) hy hid hshape

theorem stage_of_loading (hinv : PipelineInv cfg s o) (hr : i.sreset = false)
    (hsafe : TrapSafe cfg s i) {x : Instr} (hs : s.control.state = .mem) (hx : Filled s o x)
    (hop : s.idEx.pcOp = .incr) (hdec : x.decoded.pcOp = .incr)
    (hplain : s.idEx.aluOp.plain = true) : Stage cfg (s.clock cfg io i) (o.clock cfg io s i) := by
  have hload := hinv.loadPc_eq_false (by simp [hs])
  have hag := advance_trap_iff_stateNext hinv.trap hr hsafe
  have htrig : s.stallOnTrigger cfg i = false := by simp [stallOnTrigger_eq, hs]
  by_cases htr : s.trapRequest cfg i = true
  · have ha := advance_eq_trap_iff.mpr ⟨htrig, htr⟩
    exact stage_trapping (hag.mp ha) ha
  have htr : s.trapRequest cfg i = false := by simpa using htr
  cases hready : i.bus.ready with
  | false =>
    have ha := advance_eq_stall_iff.mpr ⟨htrig, htr, by simp [stall_eq, hs, hready]⟩
    have hn : s.stateNext cfg i = .mem := by simp [stateNext, hs, htr, hready]
    refine .loading x (by rw [clock_state, hn])
      (filled_of_stall hload ha (hn.trans_ne (by simp)) hx) ?_ hdec ?_
    · rw [clock_idEx, nextIdEx_eq, ha]
      simp [IdEx.stalled, hop]
    · rw [clock_idEx, nextIdEx_eq, ha]
      exact hplain
  | true =>
    have hleave : s.leaves cfg i = true :=
      by simp [leaves, htr, stall_eq, stallOnTrigger_eq, hs, hready]
    have ha := advance_eq_decode_iff.mpr
      ⟨hleave, by simp [flushDecode, flush_eq, hs, penalty_plain hplain]⟩
    have hn : s.stateNext cfg i = .exec := by simp [stateNext, hs, htr, hready]
    exact stage_of_waited hinv (by simp [hs]) ha hn hx hop (.inl hdec)

theorem stage_of_computing (hinv : PipelineInv cfg s o) (hr : i.sreset = false)
    (hsafe : TrapSafe cfg s i) {x : Instr} (hs : s.control.state = .md) (hx : Filled s o x)
    (hdec : x.decoded.pcOp = .hold) (hop : s.idEx.aluOp = .multiply ∨ s.idEx.aluOp = .divrem) :
    Stage cfg (s.clock cfg io i) (o.clock cfg io s i) := by
  have hload := hinv.loadPc_eq_false (by simp [hs])
  have hacc : acceptsTrap s.control.state = false := by simp [hs, acceptsTrap]
  have htr : s.trapRequest cfg i = false := by
    rw [trapRequest_eq_stray hacc (hinv.trap.quiet hacc), hsafe.ignored hr hacc]
  have ha := advance_eq_stall_iff.mpr
    ⟨by simp [stallOnTrigger_eq, hs], htr, by simp [stall_eq, hs]⟩
  have hnext : Filled (s.clock cfg io i) (o.clock cfg io s i) x :=
    filled_of_stall hload ha (stateNext_ne_trap_of_ignores hacc) hx
  have hid : s.nextIdEx cfg i = s.idEx.stalled (s.mdReady cfg) := by rw [nextIdEx_eq, ha]
  cases hready : s.mdReady cfg with
  | false =>
    refine .computing x (by simp [stateNext, hs, hready]) hnext hdec ?_
    rw [clock_idEx, hid]
    exact hop
  | true =>
    refine .computed x (by simp [stateNext, hs, hready]) hnext ?_ hdec ?_
    · rw [clock_idEx, hid, hready]
      rfl
    · rw [clock_idEx, hid]
      exact hop

theorem stage_of_computed (hinv : PipelineInv cfg s o) (hr : i.sreset = false)
    (hsafe : TrapSafe cfg s i) {x : Instr} (hs : s.control.state = .md2) (hx : Filled s o x)
    (hpc : s.idEx.pcOp = .incr) (hdec : x.decoded.pcOp = .hold)
    (hop : s.idEx.aluOp = .multiply ∨ s.idEx.aluOp = .divrem) :
    Stage cfg (s.clock cfg io i) (o.clock cfg io s i) := by
  have hleave := leaves_of_ignores hinv.trap hr hsafe (by simp [hs, acceptsTrap]) (by simp [hs])
  have ha := advance_eq_decode_iff.mpr
    ⟨hleave, by simp [flushDecode, flush_eq, hs, penalty_md hop]⟩
  exact stage_of_waited hinv (by simp [hs]) ha (by simp [stateNext, hs]) hx hpc (.inr hdec)

/-- The core sleeps until an interrupt or a halt request. -/
theorem stage_of_sleeping (hinv : PipelineInv cfg s o) (hr : i.sreset = false)
    (hsafe : TrapSafe cfg s i) {x : Instr} (hs : s.control.state = .wfi) (hx : Filled s o x) :
    Stage cfg (s.clock cfg io i) (o.clock cfg io s i) := by
  have hload := hinv.loadPc_eq_false (by simp [hs])
  have hag := advance_trap_iff_stateNext hinv.trap hr hsafe
  have htrig : s.stallOnTrigger cfg i = false := by simp [stallOnTrigger_eq, hs]
  by_cases htr : s.trapRequest cfg i = true
  · have ha := advance_eq_trap_iff.mpr ⟨htrig, htr⟩
    exact stage_trapping (hag.mp ha) ha
  have htr : s.trapRequest cfg i = false := by simpa using htr
  have ha := advance_eq_stall_iff.mpr ⟨htrig, htr, by simp [stall_eq, hs]⟩
  have hne : s.stateNext cfg i ≠ .trap := by simp [← hag, ha]
  have hnext : Filled (s.clock cfg io i) (o.clock cfg io s i) x := filled_of_stall hload ha hne hx
  by_cases hh : (i.haltReq && cfg.haveOcd) = true
  · exact .halted (by simp [stateNext, hs, hh]) fun _ => hnext.idEx
  · exact .sleeping x (by simp [stateNext, hs, hh, htr]) hnext

theorem stage_of_trapping (hinv : PipelineInv cfg s o) (hr : i.sreset = false)
    (hsafe : TrapSafe cfg s i) (hs : s.control.state = .trap) (hslot : o.slot = none)
    (hvec : s.csr.mtvecToPc cfg = o.npc) : Stage cfg (s.clock cfg io i) (o.clock cfg io s i) := by
  have hacc : acceptsTrap s.control.state = false := by simp [hs, acceptsTrap]
  have hleave := leaves_of_ignores hinv.trap hr hsafe hacc (by simp [hs])
  have hload := hinv.loadPc_eq_false (by simp [hs])
  have ha := advance_eq_bubble_iff.mpr ⟨hleave, by simp [flushDecode, flush_eq, hs]⟩
  have hnpc : o.nextNpc cfg s i = o.npc :=
    nextNpc_of_idle (stateNext_ne_trap_of_ignores hacc) hload (commits_of_none hslot)
  refine .target (by simp [stateNext, hs, atTarget]) ?_ ?_ ?_
  · change o.nextSlot cfg s i = none
    rw [Observer.nextSlot, ha]
  · rw [clock_idEx, nextIdEx_eq, ha]
    exact IdEx.inert_bubble _ _
  · change s.nextPc cfg i = o.nextNpc cfg s i
    rw [nextPc_of_leaves hload hleave, pcOpNext, hinv.trap.mtvec.mpr hs, hnpc]
    exact hvec

theorem stage_of_halted (hinv : PipelineInv cfg s o) (hs : s.control.state = .debug) :
    Stage cfg (s.clock cfg io i) (o.clock cfg io s i) := by
  have htrig : s.stallOnTrigger cfg i = true := by
    simp [stallOnTrigger_eq, hs, hinv.trap.debug hs]
  have ha : s.advance cfg i = .trigger := if_pos htrig
  cases hres : i.resumeReq with
  | false =>
    have hn : s.stateNext cfg i = .debug := by simp [stateNext, hs, hres]
    refine .halted (by rw [clock_state, hn]) fun h => ?_
    exact absurd hs (nextControl_loadDpc.mp h).1
  | true =>
    refine .resuming (by simp [stateNext, hs, hres]) ?_
    change o.nextSlot cfg s i = none
    rw [Observer.nextSlot, ha]

theorem stage_of_resuming (hinv : PipelineInv cfg s o) (hr : i.sreset = false)
    (hsafe : TrapSafe cfg s i) (hs : s.control.state = .debugflush) :
    Stage cfg (s.clock cfg io i) (o.clock cfg io s i) := by
  have hleave := leaves_of_ignores hinv.trap hr hsafe (by simp [hs, acceptsTrap]) (by simp [hs])
  have hload := hinv.loadPc.mpr hs
  have ha := advance_eq_bubble_iff.mpr ⟨hleave, by simp [flushDecode, flush_eq, hs]⟩
  refine .target (by simp [stateNext, hs, atTarget]) ?_ ?_ ?_
  · change o.nextSlot cfg s i = none
    rw [Observer.nextSlot, ha]
  · rw [clock_idEx, nextIdEx_eq, ha]
    exact IdEx.inert_bubble _ _
  · change s.nextPc cfg i = o.nextNpc cfg s i
    simp [nextPc, Observer.nextNpc, hload, stateNext, hs]

/-! ## Runs -/

theorem pipelineInv_clock (hinv : PipelineInv cfg s o) (hr : i.sreset = false)
    (hsafe : PipelineSafe cfg (s, o) i) :
    PipelineInv cfg (s.clock cfg io i) (o.clock cfg io s i) where
  trap := trapInv_clock hinv.trap hr hsafe.trap
  dcsr h := CsrReg.next_dcsr h
  loadPc := by
    rw [clock_state]
    exact nextControl_loadPc
  loadDpc h := by
    rw [clock_state]
    exact (nextControl_loadDpc.mp h).2
  stage := by
    cases hinv.stage with
    | target hs hslot hin hpc => exact stage_of_target hinv hr hsafe.trap hs hslot hin hpc
    | fetched hs hslot hin hif hpc => exact stage_of_fetched hinv hr hsafe hs hslot hin hif hpc
    | executing x instr hs hx hid hshape =>
      exact stage_of_executing hinv hr hsafe.trap hs hx hid hshape
    | loading x hs hx hop hdec hp => exact stage_of_loading hinv hr hsafe.trap hs hx hop hdec hp
    | computing x hs hx hdec hop => exact stage_of_computing hinv hr hsafe.trap hs hx hdec hop
    | computed x hs hx hpc hdec hop =>
      exact stage_of_computed hinv hr hsafe.trap hs hx hpc hdec hop
    | sleeping x hs hx => exact stage_of_sleeping hinv hr hsafe.trap hs hx
    | trapping hs hslot hvec => exact stage_of_trapping hinv hr hsafe.trap hs hslot hvec
    | halted hs _ => exact stage_of_halted hinv hs
    | resuming hs _ => exact stage_of_resuming hinv hr hsafe.trap hs

theorem pipelineInv_step (hinv : PipelineInv cfg s o) (hsafe : PipelineSafe cfg (s, o) i) :
    PipelineInv cfg (s.step cfg io i) (o.next cfg io s i) := by
  cases hr : i.sreset with
  | true =>
    rw [step_reset _ _ _ _ hr, Observer.next, if_pos hr]
    have h := pipelineInv_initial cfg
    exact ⟨⟨h.trap.debug, h.trap.quiet, h.trap.start, h.trap.mret, h.trap.mtvec, h.trap.coherent⟩,
      fun _ => rfl, h.loadPc, h.loadDpc,
      .target rfl rfl ⟨⟨rfl, rfl, rfl, rfl⟩, rfl, rfl, rfl, rfl, rfl, rfl⟩ rfl⟩
  | false =>
    rw [step_clock _ _ _ _ hr, Observer.next, if_neg (by simp [hr])]
    exact pipelineInv_clock hinv hr hsafe

/-- Outside of debug mode an instruction in the execute stage is the next one. -/
theorem PipelineInv.filled (hinv : PipelineInv cfg s o) (hd : s.control.state ≠ .debug)
    {x : Instr} (hslot : o.slot = some x) : Filled s o x := by
  have heq {y : Instr} (hy : Filled s o y) : Filled s o x := by
    obtain rfl : y = x := Option.some_injective _ (hy.slot.symm.trans hslot)
    exact hy
  cases hinv.stage with
  | target _ h | fetched _ h | trapping _ h | resuming _ h => rw [h] at hslot; cases hslot
  | halted h => exact absurd h hd
  | executing _ _ _ hy | loading _ _ hy | computing _ _ hy | computed _ _ hy
  | sleeping _ _ hy => exact heq hy

/-- An instruction that leaves the execute stage is the next one. -/
theorem PipelineInv.commits_pc (hinv : PipelineInv cfg s o) {x : Instr}
    (hc : o.commits cfg s i = some x) : x.decoded.pc = o.npc := by
  obtain ⟨hleave, hslot⟩ := commits_eq_some_iff.mp hc
  refine (hinv.filled (fun hs => ?_) hslot).decoded
  have := indebug_of_leaves hinv.trap.debug hleave
  simp [indebug, hs] at this

end Core

end ThuasRiscv
