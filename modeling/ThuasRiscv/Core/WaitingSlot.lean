import ThuasRiscv.Core.Divider
import ThuasRiscv.Core.Forwarding
import ThuasRiscv.Core.Multiply
import ThuasRiscv.Core.PipelineInvariant

/-!
# What a waiting instruction keeps

An instruction that waits for data or for the MD unit keeps its fields and its
operands. The strobe of its access is there in its first clock only. The MD unit
works on the operands of the instruction that waits for it.
-/

namespace ThuasRiscv

open Transition

namespace Core

variable {cfg : Generics} {io : Peripherals} {s : Core} {o : Observer} {i : CoreInput}

/-! ## Operands -/

theorem operands_of_stall (io : Peripherals) (hr : i.sreset = false)
    (ha : s.advance cfg i = .stall) :
    (s.clock cfg io i).operandA = s.operandA ∧ (s.clock cfg io i).operandB = s.operandB := by
  have hid : s.nextIdEx cfg i = s.idEx.stalled (s.mdReady cfg) := by rw [nextIdEx_eq, ha]
  have hwb : s.nextExWb cfg io i = s.exWb := nextExWb_of_stall ha
  have hhold : s.holdOperands cfg i = true := by rw [holdOperands_eq, leaves_of_stall ha]; rfl
  constructor
  · simp only [operandA, forwarda, clock_idEx, clock_exWb, clock_regs, hid, hwb,
      rs1data_nextRegs (.inr hr), hhold, if_true]
    rfl
  · simp only [operandB, forwardb, clock_idEx, clock_exWb, clock_regs, hid, hwb,
      rs2data_nextRegs (.inr hr), hhold, if_true]
    rfl

/-! ## The slot -/

/-- The fields of the instruction in the execute stage while it waits. -/
structure WaitingInv (s : Core) (o : Observer) : Prop where
  empty : o.slot = none → s.idEx.ismem = false
  strobe : s.idEx.ismem = true → ∀ x, o.slot = some x → s.idEx = x.decoded
  sources : ∀ x, o.slot = some x → s.idEx.rs1 = x.decoded.rs1 ∧ s.idEx.rs2 = x.decoded.rs2
  mem : s.control.state = .mem → ∀ x, o.slot = some x →
    x.decoded.ismem = true ∧ s.idEx = x.decoded.stalled false
  md : s.control.state = .md → ∀ x, o.slot = some x →
    x.decoded.mdStart = true ∧ s.idEx = x.decoded.stalled false
  md2 : s.control.state = .md2 → ∀ x, o.slot = some x →
    x.decoded.mdStart = true ∧ s.idEx = x.decoded.stalled true

theorem waitingInv_initial (cfg : Generics) :
    WaitingInv (Core.initial cfg) (Observer.initial cfg) where
  empty _ := rfl
  strobe h := by cases h
  sources _ h := by cases h
  mem h := by cases h
  md h := by cases h
  md2 h := by cases h

theorem stalled_stalled (d : IdEx) (r : Bool) : (d.stalled false).stalled r = d.stalled r := by
  simp only [IdEx.stalled, Bool.or_false, Bool.false_eq_true, if_false]

/-- Outside of the wait for the MD unit, a wait changes strobes only. -/
theorem stalled_of_stall (hm : MdInv cfg s o) (hs : s.control.state ≠ .md)
    (ha : s.advance cfg i = .stall) : s.nextIdEx cfg i = s.idEx.stalled false := by
  have hready : s.mdReady cfg = false := by
    have h := not_mdCompletes (i := i) hm hs
    rw [mdCompletes, ha] at h
    simpa using h
  rw [nextIdEx_eq, ha, hready]

/-- In the executing state an instruction is as it was decoded. -/
theorem PipelineInv.decoded (hp : PipelineInv cfg s o) (hs : s.control.state = .exec) {x : Instr}
    (hx : o.slot = some x) : s.idEx = x.decoded := by
  cases hp.stage with
  | executing y _ _ hy hid =>
    obtain rfl : y = x := Option.some_injective _ (hy.slot.symm.trans hx)
    exact hid
  | target _ hnone | fetched _ hnone => rw [hnone] at hx; cases hx
  | loading _ h | computing _ h | computed _ h | sleeping _ h | trapping h | halted h
  | resuming h => rw [hs] at h; cases h

theorem waitingInv_clock (hinv : WaitingInv s o) (hp : PipelineInv cfg s o) (hm : MdInv cfg s o)
    (hr : i.sreset = false) (hsafe : MdSafe cfg s i) :
    WaitingInv (s.clock cfg io i) (o.clock cfg io s i) where
  empty h := by
    have h : o.nextSlot cfg s i = none := h
    rw [clock_idEx, nextIdEx_eq]
    unfold Observer.nextSlot at h
    cases ha : s.advance cfg i with
    | decode => rw [ha] at h; cases h
    | _ => rfl
  strobe h x hx := by
    rw [clock_idEx] at *
    rcases nextSlot_eq_some hx with ⟨-, -, hid⟩ | ⟨-, -, hdec⟩
    · rw [hid] at h
      cases h
    · exact hdec.symm
  sources x hx := by
    rw [clock_idEx]
    rcases nextSlot_eq_some hx with ⟨-, hslot, hid⟩ | ⟨-, -, hdec⟩
    · rw [hid]
      exact hinv.sources x hslot
    · rw [hdec]
      exact ⟨rfl, rfl⟩
  mem h x hx := by
    rw [clock_state] at h
    obtain ⟨ha, hs⟩ := advance_of_stateNext_mem h
    have hslot : o.slot = some x := (nextSlot_of_stall ha).symm.trans hx
    rw [clock_idEx]
    rcases hs with ⟨hs, hmem⟩ | hs
    · have hid := hp.decoded hs hslot
      rw [stalled_of_stall hm (by simp [hs]) ha, ← hid]
      exact ⟨hmem, rfl⟩
    · obtain ⟨hmem, hid⟩ := hinv.mem hs x hslot
      rw [stalled_of_stall hm (by simp [hs]) ha, hid, stalled_stalled]
      exact ⟨hmem, rfl⟩
  md h x hx := by
    rw [clock_state] at h
    rw [clock_idEx]
    rcases stateNext_eq_md h with ⟨hs, hgo⟩ | ⟨hs, hready⟩
    · have ha := advance_of_startsMd hs hgo
      have hslot : o.slot = some x := (nextSlot_of_stall ha).symm.trans hx
      have hid := hp.decoded hs hslot
      rw [stalled_of_stall hm (by simp [hs]) ha, ← hid]
      exact ⟨(startsMd_iff.mp hgo).1, rfl⟩
    · obtain ⟨y, -, hrun⟩ := hm.running hs
      have ha : s.advance cfg i = .stall := advance_of_md hs hrun.quiet (hsafe.wait hr hs)
      have hslot : o.slot = some x := (nextSlot_of_stall ha).symm.trans hx
      obtain ⟨hmd, hid⟩ := hinv.md hs x hslot
      rw [nextIdEx_eq, ha, hready, hid]
      exact ⟨hmd, stalled_stalled ..⟩
  md2 h x hx := by
    rw [clock_state] at h
    rw [clock_idEx]
    obtain ⟨hs, hready⟩ := stateNext_eq_md2 h
    obtain ⟨y, -, hrun⟩ := hm.running hs
    have ha : s.advance cfg i = .stall := advance_of_md hs hrun.quiet (hsafe.wait hr hs)
    have hslot : o.slot = some x := (nextSlot_of_stall ha).symm.trans hx
    obtain ⟨hmd, hid⟩ := hinv.md hs x hslot
    rw [nextIdEx_eq, ha, hready, hid]
    exact ⟨hmd, stalled_stalled ..⟩

/-! ## The operation of the MD unit -/

/-- The MD unit works on the operands of the instruction that waits for it. -/
structure OperationInv (cfg : Generics) (s : Core) : Prop where
  divides : s.control.state = .md → s.idEx.mdOp.getLsbD 2 = true →
    ∃ n, MulDiv.Dividing cfg s.idEx.mdOp s.operandA s.operandB n s.md
  divided : s.control.state = .md2 → s.idEx.mdOp.getLsbD 2 = true →
    MulDiv.Divided cfg s.idEx.mdOp s.operandA s.operandB s.md
  multiplies : s.control.state = .md → s.idEx.mdOp.getLsbD 2 = false →
    ∃ m : MulDiv, s.md.rdataA = (m.loadFactors s.idEx.mdOp s.operandA s.operandB).rdataA ∧
      s.md.rdataB = (m.loadFactors s.idEx.mdOp s.operandA s.operandB).rdataB
  multiplied : s.control.state = .md2 → s.idEx.mdOp.getLsbD 2 = false →
    ∃ m : MulDiv, s.md.mulRdInt =
      (m.loadFactors s.idEx.mdOp s.operandA s.operandB).rdataA.signExtend 66 *
        (m.loadFactors s.idEx.mdOp s.operandA s.operandB).rdataB.signExtend 66

theorem operationInv_of_idle (h : s.control.state ≠ .md) (h2 : s.control.state ≠ .md2) :
    OperationInv cfg s :=
  ⟨fun hs => absurd hs h, fun hs => absurd hs h2, fun hs => absurd hs h, fun hs => absurd hs h2⟩

/-- What the start of an operation loads. -/
theorem operation_of_start (io : Peripherals) (hr : i.sreset = false)
    (hs : s.control.state = .exec) (hgo : s.startsMd cfg i = true) (hn : s.stateNext cfg i = .md) :
    OperationInv cfg (s.clock cfg io i) := by
  have ha := advance_of_startsMd hs hgo
  obtain ⟨hopA, hopB⟩ := operands_of_stall io hr ha
  have hop : (s.clock cfg io i).idEx.mdOp = s.idEx.mdOp := by
    rw [clock_idEx, nextIdEx_eq, ha]
    rfl
  refine ⟨fun _ h => ⟨0, ?_⟩, ?_, fun _ h => ?_, ?_⟩
  · rw [hopA, hopB, hop]
    rw [hop] at h
    exact MulDiv.dividing_start (by rw [mdGate_start, hgo, h]; rfl)
  · intro h
    rw [clock_state, hn] at h
    cases h
  · rw [hop] at h
    refine ⟨MulDiv.nextDivider cfg s.md false s.idEx.mdOp s.operandA s.operandB, ?_⟩
    rw [hopA, hopB, hop]
    simp only [clock_md, nextMd, MulDiv.next, mdGate_start, hgo, h, Bool.and_false, if_true,
      and_self]
  · intro h
    rw [clock_state, hn] at h
    cases h

/-- A clock in which the instruction waits. -/
theorem operation_of_wait (io : Peripherals) (hinv : OperationInv cfg s) (hm : MdInv cfg s o)
    (hr : i.sreset = false) (hs : s.control.state = .md) (hx : s.strayException i = false) :
    OperationInv cfg (s.clock cfg io i) := by
  obtain ⟨x, -, hrun⟩ := hm.running hs
  have ha : s.advance cfg i = .stall := advance_of_md hs hrun.quiet hx
  obtain ⟨hopA, hopB⟩ := operands_of_stall io hr ha
  have hop : (s.clock cfg io i).idEx.mdOp = s.idEx.mdOp := by
    rw [clock_idEx, nextIdEx_eq, ha]
    rfl
  have hgo : ((s.mdGate cfg i).start && s.idEx.mdOp.getLsbD 2) = false := by
    rw [mdGate_start, startsMd, hrun.started]
    rfl
  have hn : s.stateNext cfg i = if s.mdReady cfg then .md2 else .md := by
    rw [stateNext, hs]
  have hunit := hrun.unit
  -- The divider is ready in its last step.
  have hlast (hdiv : s.idEx.mdOp.getLsbD 2 = true) :
      s.md.divReady = s.mdReady cfg ∧ (s.md.divReady = true ↔ s.md.count = MulDiv.lastStep cfg) ∧
        s.md.count ≤ MulDiv.lastStep cfg := by
    rw [if_pos hdiv] at hunit
    obtain ⟨hw, hmul, -⟩ := hunit
    refine ⟨?_, hw.ready, hw.le⟩
    rw [mdReady, MulDiv.ready, hrun.haveMuldiv, hmul, Bool.true_and, Bool.or_false]
  refine ⟨fun hst hdiv => ?_, fun hst hdiv => ?_, fun hst hmul => ?_, fun hst hmul => ?_⟩
  · rw [hop] at hdiv
    obtain ⟨n, hd⟩ := hinv.divides hs hdiv
    obtain ⟨hready, hcount, hle⟩ := hlast hdiv
    rw [clock_state, hn] at hst
    have hnot : s.mdReady cfg = false := by
      by_contra h
      rw [if_pos (by simpa using h)] at hst
      cases hst
    rw [hready, hnot, hd.count] at hcount
    rw [hd.count] at hle
    have hlt : n + 1 < MulDiv.lastStep cfg := by
      apply lt_of_le_of_ne hle
      intro heq
      exact Bool.false_ne_true (hcount.mpr heq)
    rw [hopA, hopB, hop]
    exact ⟨n + 1, hd.step hlt hgo⟩
  · rw [hop] at hdiv
    obtain ⟨n, hd⟩ := hinv.divides hs hdiv
    obtain ⟨hready, hcount, -⟩ := hlast hdiv
    rw [clock_state, hn] at hst
    have hnow : s.mdReady cfg = true := by
      by_contra h
      rw [if_neg h] at hst
      cases hst
    rw [hready, hnow, hd.count] at hcount
    rw [hopA, hopB, hop]
    exact hd.last (hcount.mp rfl) hgo
  · rw [hop] at hmul
    rw [hmul, if_neg Bool.false_ne_true] at hunit
    rw [clock_state, hn, mdReady, MulDiv.ready, hrun.haveMuldiv, hunit.2.1, Bool.or_true] at hst
    cases hst
  · rw [hop] at hmul
    obtain ⟨m, hA, hB⟩ := hinv.multiplies hs hmul
    rw [hopA, hopB, hop]
    refine ⟨m, ?_⟩
    rw [← hA, ← hB]
    rfl

theorem operationInv_clock (io : Peripherals) (hinv : OperationInv cfg s) (hm : MdInv cfg s o)
    (hr : i.sreset = false) (hsafe : MdSafe cfg s i) : OperationInv cfg (s.clock cfg io i) := by
  by_cases hs : s.control.state = .md
  · exact operation_of_wait io hinv hm hr hs (hsafe.wait hr hs)
  by_cases hn : s.stateNext cfg i = .md
  · rcases stateNext_eq_md hn with ⟨hexec, hgo⟩ | ⟨h, -⟩
    · exact operation_of_start io hr hexec hgo hn
    · exact absurd h hs
  apply operationInv_of_idle
  · rw [clock_state]
    exact hn
  · rw [clock_state]
    intro h
    exact hs (stateNext_eq_md2 h).1

/-! ## Runs -/

/-- What the simulation with the instruction set rests on. -/
structure StageInv (cfg : Generics) (s : Core) (o : Observer) : Prop where
  pipeline : PipelineInv cfg s o
  md : MdInv cfg s o
  zero : ZeroInv cfg s o
  forward : ForwardInv cfg s o
  waiting : WaitingInv s o
  operation : OperationInv cfg s

/-- The step is safe for traps, for the MD unit and for `x0`. -/
structure StageSafe (cfg : Generics) (p : Core × Observer) (i : CoreInput) : Prop where
  pipeline : PipelineSafe cfg p i
  md : MdSafe cfg p.1 i
  zero : ZeroSafe cfg p.1 i

instance {p : Core × Observer} : Decidable (StageSafe cfg p i) :=
  decidable_of_iff (PipelineSafe cfg p i ∧ MdSafe cfg p.1 i ∧ ZeroSafe cfg p.1 i)
    ⟨fun h => ⟨h.1, h.2.1, h.2.2⟩, fun h => ⟨h.pipeline, h.md, h.zero⟩⟩

/-- The forwarding is safe when the MD unit and the pipeline are. -/
theorem forwardSafe_of_inv (hp : PipelineInv cfg s o) (hm : MdInv cfg s o) :
    ForwardSafe cfg s i where
  completes _ h := by
    by_cases hs : s.control.state = .md
    · obtain ⟨x, hx, hrun⟩ := hm.running hs
      exact (hm.isMd x hx).mp hrun.isMd
    · rw [not_mdCompletes hm hs] at h
      cases h
  mret _ hs := by
    cases hp.stage with
    | target _ _ hin => exact hin.mdStart
    | fetched h => rw [hs] at h; cases h
    | executing _ _ h | loading _ h | computing _ h | computed _ h | sleeping _ h | trapping h
    | halted h | resuming h => rw [hs] at h; cases h

theorem stageInv_step (hinv : StageInv cfg s o) (hsafe : StageSafe cfg (s, o) i) :
    StageInv cfg (s.step cfg io i) (o.next cfg io s i) where
  pipeline := pipelineInv_step hinv.pipeline hsafe.pipeline
  md := mdInv_step hinv.md hsafe.md
  zero := zeroInv_step hinv.zero hsafe.zero
  forward := forwardInv_step hinv.forward (forwardSafe_of_inv hinv.pipeline hinv.md)
  waiting := by
    cases hr : i.sreset with
    | true =>
      have h := waitingInv_initial cfg
      rw [step_reset _ _ _ _ hr, Observer.next, if_pos hr]
      exact ⟨h.empty, h.strobe, h.sources, h.mem, h.md, h.md2⟩
    | false =>
      rw [step_clock _ _ _ _ hr, Observer.next, if_neg (by simp [hr])]
      exact waitingInv_clock hinv.waiting hinv.pipeline hinv.md hr hsafe.md
  operation := by
    cases hr : i.sreset with
    | true =>
      rw [step_reset _ _ _ _ hr]
      exact operationInv_of_idle (by simp [Core.initial, Control.reset])
        (by simp [Core.initial, Control.reset])
    | false =>
      rw [step_clock _ _ _ _ hr]
      exact operationInv_clock io hinv.operation hinv.md hr hsafe.md

theorem stageInv_of_reachable {p : Core × Observer}
    (h : (observed cfg io).Reachable (StageSafe cfg) p) : StageInv cfg p.1 p.2 := by
  induction h with
  | init =>
    exact ⟨pipelineInv_initial cfg, mdInv_initial cfg, zeroInv_initial cfg, forwardInv_initial cfg,
      waitingInv_initial cfg, operationInv_of_idle (by simp [observed, machine, Machine.observe,
        Core.initial, Control.reset]) (by simp [observed, machine, Machine.observe, Core.initial,
        Control.reset])⟩
  | step i _ hsafe ih => exact stageInv_step ih hsafe

end Core

end ThuasRiscv
