import ThuasRiscv.Core.PipelineInvariant

/-!
# From trap entry to MRET

A trap entry moves MIE to MPIE, saves the PC in `mepc` and continues at the
handler. What it saved stays until software writes it, and the MRET of the
handler moves MPIE back and continues at `mepc`.
-/

namespace ThuasRiscv

open Transition

theorem getLsbD_and_mstatusMask {x : DataType} {n : ℕ} (h : n = 3 ∨ n = 7) :
    (x &&& mstatusMask).getLsbD n = x.getLsbD n := by
  rw [BitVec.getLsbD_and]
  rcases h with rfl | rfl <;> exact Bool.and_true _

theorem IdEx.Shape.pcOp_of_mret {cfg : Generics} {pc instr : DataType} {d : IdEx}
    (h : IdEx.Shape cfg pc instr d) (hm : d.mretRequest = true) : d.pcOp = .loadMepc := by
  cases h <;> first | rfl | cases hm

namespace Core

variable {cfg : Generics} {io : Peripherals} {s : Core} {o : Observer} {i : CoreInput}

/-- The registers hold what the trap entry saved. -/
structure HoldsFrame (c : CsrReg) (f : TrapFrame) : Prop where
  mie : c.mstatus.getLsbD 3 = false
  mpie : c.mstatus.getLsbD 7 = f.mie
  mepc : c.mepc = f.mepc

/-- A trap entry and its MRET. `frame` of the observer is what the last trap entry saved, as long as
software does not write `mstatus` or `mepc`. -/
structure TrapRoundTrip (cfg : Generics) (s : Core) (o : Observer) (i : CoreInput) : Prop where
  entry : s.stateNext cfg i = .trap →
    HoldsFrame (s.nextCsr cfg i) ⟨s.csr.mstatus.getLsbD 3, mepcOf s.idEx.pc⟩ ∧
      o.nextNpc cfg s i = (s.nextCsr cfg i).mtvecToPc cfg
  held : ∀ f, o.frame = some f → HoldsFrame s.csr f
  inOrder : ∀ x, o.commits cfg s i = some x → x.decoded.pc = o.npc
  release : s.control.state = .mret2 → ∀ f, o.frame = some f →
    (s.nextCsr cfg i).mstatus.getLsbD 3 = f.mie ∧ o.nextNpc cfg s i = f.mepc

structure FrameInv (cfg : Generics) (s : Core) (o : Observer) : Prop where
  pipeline : PipelineInv cfg s o
  mepc : mepcOf s.csr.mepc = s.csr.mepc
  held : ∀ f, o.frame = some f → HoldsFrame s.csr f
  mret : s.control.state = .mret ∨ s.control.state = .mret2 →
    ∀ f, o.frame = some f → o.npc = f.mepc

theorem frameInv_initial (cfg : Generics) :
    FrameInv cfg (Core.initial cfg) (Observer.initial cfg) where
  pipeline := pipelineInv_initial cfg
  mepc := mepcOf_eq_self (by simp [Core.initial, CsrReg.reset])
    (by simp [Core.initial, CsrReg.reset])
  held _ h := by cases h
  mret _ _ h := by cases h

/-! ## The saved registers -/

theorem entersTrap_eq_true_iff :
    (s.csrSignals cfg i).entersTrap = true ↔ s.advance cfg i = .trap := by
  rw [advance_eq_trap_iff]
  simp [CsrSignals.entersTrap, csrSignals, and_comm]

theorem holdsFrame_of_entry (h : s.advance cfg i = .trap) :
    HoldsFrame (s.nextCsr cfg i) ⟨s.csr.mstatus.getLsbD 3, mepcOf s.idEx.pc⟩ := by
  have ht := s.csr.next_holdsTrap cfg (entersTrap_eq_true_iff.mpr h)
  exact ⟨ht.mie, ht.mpie, ht.mepc⟩

/-- What software does not write stays. -/
theorem HoldsFrame.next {f : TrapFrame} (h : HoldsFrame s.csr f)
    (hmepc : mepcOf s.csr.mepc = s.csr.mepc) (ht : s.advance cfg i ≠ .trap)
    (hr : s.trapRelease = false) (hc : s.clobbersFrame cfg i = false) :
    HoldsFrame (s.nextCsr cfg i) f := by
  have hent : (s.csrSignals cfg i).entersTrap = false := by
    simpa using mt entersTrap_eq_true_iff.mp ht
  have hkeep : (s.csrSignals cfg i).writes = true ∨ (s.csrSignals cfg i).debugWrites cfg = true →
      (s.csrSignals cfg i).addr ≠ mstatusAddr ∧ (s.csrSignals cfg i).addr ≠ mepcAddr := by
    intro hw
    have hw' : (s.writesCsr cfg i || s.indebug && i.dm.writecsr && cfg.haveOcd) = true := by
      simpa [writesCsr, CsrSignals.debugWrites, csrSignals] using hw
    rw [clobbersFrame, hw', Bool.true_and] at hc
    simpa [csrSignals] using hc
  have hms := CsrReg.next_mstatus (c := s.csr) hent hr (fun hw => (hkeep (.inl hw)).1)
    (fun hw => (hkeep (.inr hw)).1)
  have hme := CsrReg.next_mepc (c := s.csr) hent (fun hw => (hkeep (.inl hw)).2)
    (fun hw => (hkeep (.inr hw)).2) hmepc
  refine ⟨?_, ?_, hme.trans h.mepc⟩
  · rw [nextCsr, hms, getLsbD_and_mstatusMask (.inl rfl), h.mie]
  · rw [nextCsr, hms, getLsbD_and_mstatusMask (.inr rfl), h.mpie]

theorem nextFrame_of_not_trap (h : s.stateNext cfg i ≠ .trap) {f : TrapFrame}
    (hf : o.nextFrame cfg s i = some f) :
    s.trapRelease = false ∧ s.clobbersFrame cfg i = false ∧ o.frame = some f := by
  unfold Observer.nextFrame at hf
  rw [if_neg h] at hf
  split_ifs at hf with hc
  rw [Bool.not_eq_true, Bool.or_eq_false_iff] at hc
  exact ⟨hc.1, hc.2, hf⟩

/-! ## The way back -/

theorem stateNext_eq_mret (h : s.stateNext cfg i = .mret) : s.control.state = .exec ∧
    s.stallOnTrigger cfg i = false ∧ s.trapRequest cfg i = false ∧
      s.idEx.mretRequest = true := by
  unfold stateNext at h
  cases hs : s.control.state <;> simp only [hs, reduceCtorEq] at h
  case exec =>
    unfold execNext at h
    rw [stallOnTrigger_eq, hs]
    split_ifs at h
    simp_all
  all_goals split_ifs at h

theorem stateNext_eq_mret2 (h : s.stateNext cfg i = .mret2) : s.control.state = .mret := by
  unfold stateNext at h
  cases hs : s.control.state <;> simp only [hs, reduceCtorEq] at h
  case mret => rfl
  case exec =>
    unfold execNext at h
    split_ifs at h
  all_goals split_ifs at h

/-- An MRET that the controller accepts commits, and the next instruction is at `mepc`. -/
theorem nextNpc_of_mret (hinv : PipelineInv cfg s o) (hn : s.stateNext cfg i = .mret) :
    o.nextNpc cfg s i = s.csr.mepc := by
  obtain ⟨hs, htrig, htrap, hm⟩ := stateNext_eq_mret hn
  have hmem : s.idEx.ismem = false := by
    by_contra h
    simp [hinv.trap.coherent.mem (by simpa using h)] at hm
  have hmd : s.idEx.mdStart = false := by
    by_contra h
    simp [hinv.trap.coherent.md (by simpa using h)] at hm
  have hleave : s.leaves cfg i = true := by simp [leaves, htrig, htrap, stall_eq, hs, hmem, hmd]
  cases hinv.stage with
  | executing x instr _ hx hid hshape =>
    rw [nextNpc_of_commits (hn.trans_ne (by simp)) (hinv.loadPc_eq_false (by simp [hs]))
      ((commits_of_leaves hleave).trans hx.slot), ← hid, IdEx.successor, hshape.pcOp_of_mret hm]
  | target _ _ hin | fetched _ _ hin => simp [hin.mret] at hm
  | loading _ h | computing _ h | computed _ h | sleeping _ h | trapping h | halted h
  | resuming h => rw [hs] at h; cases h

theorem nextNpc_of_mret_states (hinv : PipelineInv cfg s o)
    (hs : s.control.state = .mret ∨ s.control.state = .mret2) : o.nextNpc cfg s i = o.npc := by
  have hslot : o.slot = none := by
    cases hinv.stage with
    | target _ h | fetched _ h | trapping _ h | resuming _ h => exact h
    | executing _ _ h | loading _ h | computing _ h | computed _ h | sleeping _ h | halted h =>
      simp [h] at hs
  refine nextNpc_of_idle (stateNext_ne_trap_of_ignores ?_) (hinv.loadPc_eq_false ?_)
    (commits_of_none hslot) <;> rcases hs with h | h <;> simp [h, acceptsTrap]

/-! ## Runs -/

theorem frameInv_clock (hinv : FrameInv cfg s o) (hr : i.sreset = false)
    (hsafe : PipelineSafe cfg (s, o) i) :
    FrameInv cfg (s.clock cfg io i) (o.clock cfg io s i) where
  pipeline := pipelineInv_clock hinv.pipeline hr hsafe
  mepc := CsrReg.mepcOf_next_mepc
  held f hf := by
    have hag := advance_trap_iff_stateNext hinv.pipeline.trap hr hsafe.trap
    by_cases hn : s.stateNext cfg i = .trap
    · have hf : o.nextFrame cfg s i = some f := hf
      rw [Observer.nextFrame, if_pos hn, Option.some.injEq] at hf
      exact hf ▸ holdsFrame_of_entry (hag.mpr hn)
    · obtain ⟨hrel, hclob, hold⟩ := nextFrame_of_not_trap hn hf
      exact (hinv.held f hold).next hinv.mepc (mt hag.mp hn) hrel hclob
  mret hs f hf := by
    simp only [clock_control, nextControl_state] at hs
    have hn : s.stateNext cfg i ≠ .trap := by rcases hs with h | h <;> simp [h]
    obtain ⟨-, -, hold⟩ := nextFrame_of_not_trap hn hf
    change o.nextNpc cfg s i = f.mepc
    rcases hs with h | h
    · rw [nextNpc_of_mret hinv.pipeline h, (hinv.held f hold).mepc]
    · have hs := stateNext_eq_mret2 h
      rw [nextNpc_of_mret_states hinv.pipeline (.inl hs)]
      exact hinv.mret (.inl hs) f hold

theorem frameInv_step (hinv : FrameInv cfg s o) (hsafe : PipelineSafe cfg (s, o) i) :
    FrameInv cfg (s.step cfg io i) (o.next cfg io s i) := by
  have hpipe : PipelineInv cfg (s.step cfg io i) (o.next cfg io s i) :=
    pipelineInv_step hinv.pipeline hsafe
  cases hr : i.sreset with
  | true =>
    have h := frameInv_initial cfg
    rw [step_reset _ _ _ _ hr, Observer.next, if_pos hr] at hpipe ⊢
    exact ⟨hpipe, h.mepc, h.held, h.mret⟩
  | false =>
    rw [step_clock _ _ _ _ hr, Observer.next, if_neg (by simp [hr])]
    exact frameInv_clock hinv hr hsafe

theorem frameInv_of_reachable {p : Core × Observer}
    (h : (observed cfg io).Reachable (PipelineSafe cfg) p) : FrameInv cfg p.1 p.2 := by
  induction h with
  | init => exact frameInv_initial cfg
  | step i _ hsafe ih => exact frameInv_step ih hsafe

/-- In every run whose steps are safe, a trap of any cause saves MIE in MPIE and the PC in `mepc`,
the instructions are executed in order from the handler on, and an MRET restores both. -/
theorem trap_round_trip (cfg : Generics) (io : Peripherals) {s : Core} {o : Observer}
    (h : (observed cfg io).Reachable (PipelineSafe cfg) (s, o)) {i : CoreInput}
    (hr : i.sreset = false) (hsafe : PipelineSafe cfg (s, o) i) : TrapRoundTrip cfg s o i := by
  have hinv : FrameInv cfg s o := frameInv_of_reachable h
  have hag := advance_trap_iff_stateNext hinv.pipeline.trap hr hsafe.trap
  refine ⟨fun hn => ⟨holdsFrame_of_entry (hag.mpr hn), nextNpc_of_trap hn⟩, hinv.held,
    fun x hc => hinv.pipeline.commits_pc hc, fun hs f hf => ⟨?_, ?_⟩⟩
  · have hent : (s.csrSignals cfg i).entersTrap = false := by
      refine Bool.eq_false_iff.mpr fun hent => ?_
      have hn := hag.mp (entersTrap_eq_true_iff.mp hent)
      simp [stateNext, hs] at hn
    rw [nextCsr, CsrReg.next_mstatus_of_release hent (by simp [csrSignals, trapRelease, hs])]
    exact (hinv.held f hf).mpie
  · rw [nextNpc_of_mret_states hinv.pipeline (.inr hs)]
    exact hinv.mret (.inr hs) f hf

/-- `csrrwi x0, mtvec, 16; csrrsi x0, mstatus, 8; ecall` with an MRET at address 16, in the clock in
which `state_mret2` releases the trap. -/
theorem ecall_mret_restores_mie :
    (Core.nextCsr .plain
      (observeProgram .plain .none [0x30585073, 0x30046073, 0x00000073, 0x00000013, 0x30200073]
        (.replicate 10 .quiet)).1
      (Core.fetchInput .plain
        (observeProgram .plain .none [0x30585073, 0x30046073, 0x00000073, 0x00000013, 0x30200073]
          (.replicate 10 .quiet)).1 0x00000073 .quiet)).mstatus.getLsbD 3 = true :=
  ((trap_round_trip .plain .none
    (s := (observeProgram .plain .none
      [0x30585073, 0x30046073, 0x00000073, 0x00000013, 0x30200073] (.replicate 10 .quiet)).1)
    (o := (observeProgram .plain .none
      [0x30585073, 0x30046073, 0x00000073, 0x00000013, 0x30200073] (.replicate 10 .quiet)).2)
    (Machine.Reachable.init.runFrom_of_meets (M := observed .plain .none) (by decide +kernel))
    (i := Core.fetchInput .plain
      (observeProgram .plain .none [0x30585073, 0x30046073, 0x00000073, 0x00000013, 0x30200073]
        (.replicate 10 .quiet)).1 0x00000073 .quiet)
    (by decide +kernel) (by decide +kernel)).release (by decide +kernel) ⟨true, 8⟩
    (by decide +kernel)).1

/-- `csrrsi x0, mstatus, 8; lui x1, 0x30000; jalr x0, 0(x1)`: the access fault of the second word
at 0x30000000 overwrites MPIE in `state_trap`. -/
theorem access_fault_loses_mpie :
    ¬ ∀ s o, (observed .plain .none).Reachable Machine.free (s, o) → ∀ i, i.sreset = false →
      TrapRoundTrip .plain s o i := by
  intro h
  have ht := h _ _ (observeProgram_reachable .plain .none [0x30046073, 0x300000b7, 0x00008067]
    (.replicate 9 .quiet)) (Core.fetchInput .plain (observeProgram .plain .none
      [0x30046073, 0x300000b7, 0x00008067] (.replicate 9 .quiet)).1 0 .quiet) rfl
  exact absurd (ht.held ⟨true, 0x30000000⟩ (by decide +kernel)).mpie (by decide +kernel)

end Core

end ThuasRiscv
