import ThuasRiscv.Core.Program
import ThuasRiscv.Core.Transitions

/-!
# Trap entry: the CSR process and the controller

The CSR process records a trap whenever one is requested and no trigger is
active. The controller enters `state_trap` only from the states in which it
looks at the request, and lets a halt request win while it sleeps. The two agree
as long as no exception flag rises in a state that ignores it.
-/

namespace ThuasRiscv

open Transition

/-- No request that travels with an instruction can raise an exception. -/
structure IdEx.Quiet (d : IdEx) : Prop where
  csrOp : d.csrOp = .nop
  ecall : d.ecallRequest = false
  ebreak : d.ebreakRequest = false
  illegal : d.illegalInstructionDecode = false

theorem IdEx.quiet_bubble (pc instr : DataType) : (IdEx.bubble pc instr).Quiet :=
  ⟨rfl, rfl, rfl, rfl⟩

theorem IdEx.quiet_triggered (d : IdEx) (instr : DataType) : (d.triggered instr).Quiet :=
  ⟨rfl, rfl, rfl, rfl⟩

theorem IdEx.quiet_trapped {d : IdEx} : d.trapped.Quiet := ⟨rfl, rfl, rfl, rfl⟩

theorem IdEx.Quiet.stalled {d : IdEx} (h : d.Quiet) (r : Bool) : (d.stalled r).Quiet :=
  ⟨h.csrOp, h.ecall, h.ebreak, h.illegal⟩

theorem IdEx.Shape.quiet_of_mdStart {cfg : Generics} {pc instr : DataType} {d : IdEx}
    (h : IdEx.Shape cfg pc instr d)
    (hmd : d.mdStart = true) : d.Quiet := by
  cases h <;> first | exact ⟨rfl, rfl, rfl, rfl⟩ | cases hmd

theorem IdEx.Shape.aluOp_of_mret {cfg : Generics} {pc instr : DataType} {d : IdEx}
    (h : IdEx.Shape cfg pc instr d)
    (hm : d.mretRequest = true) : d.aluOp = .mret := by
  cases h <;> first | rfl | cases hm

theorem IdEx.Shape.pcOp_ne_loadMtvec {cfg : Generics} {pc instr : DataType} {d : IdEx}
    (h : IdEx.Shape cfg pc instr d) :
    d.pcOp ≠ .loadMtvec := by
  cases h with
  | mulDiv => simp [IdEx.mulDiv]
  | _ => simp [IdEx.bubble]

namespace Core

variable {cfg : Generics} {io : Peripherals} {s : Core} {i : CoreInput}

/-- The CSR process performs a trap entry in this clock. -/
def RecordsTrap (cfg : Generics) (s : Core) (i : CoreInput) : Prop :=
  i.sreset = false ∧ (s.csrSignals cfg i).entersTrap = true

instance : Decidable (RecordsTrap cfg s i) := inferInstanceAs (Decidable (_ ∧ _))

/-- An exception flag that does not depend on the instruction in the execute stage. -/
def strayException (s : Core) (i : CoreInput) : Bool :=
  s.instrAccessError.getLsbD 1 || s.instructionMisaligned || i.bus.error

/-- The step raises no exception in a state that ignores it, and no halt request comes together
with a trap request while sleeping. -/
structure TrapSafe (cfg : Generics) (s : Core) (i : CoreInput) : Prop where
  ignored : i.sreset = false → acceptsTrap s.control.state = false → s.strayException i = false
  halt : i.sreset = false → s.control.state = .wfi → i.haltReq = true → cfg.haveOcd = true →
    s.trapRequest cfg i = false

instance : Decidable (TrapSafe cfg s i) :=
  decidable_of_iff
    ((i.sreset = false → acceptsTrap s.control.state = false → s.strayException i = false) ∧
      (i.sreset = false → s.control.state = .wfi → i.haltReq = true → cfg.haveOcd = true →
        s.trapRequest cfg i = false))
    ⟨fun h => ⟨h.1, h.2⟩, fun h => ⟨h.1, h.2⟩⟩

/-! ## Requests in the states that ignore them -/

theorem exception_eq_none (hq : s.idEx.Quiet) (hd : s.indebug = false)
    (hx : s.strayException i = false) : s.exception cfg i = none := by
  have hc : s.illegalInstructionCsr cfg i = false := by
    simp [illegalInstructionCsr, hd, hq.csrOp]
  simp only [strayException, Bool.or_eq_false_iff] at hx
  obtain ⟨⟨hfetch, hmisaligned⟩, hbus⟩ := hx
  have hebreak : (s.idEx.ebreakRequest && !s.ebreakm) = false := by rw [hq.ebreak, Bool.false_and]
  exact exception_eq_none_iff.mpr ⟨hfetch, hq.illegal, hc, hmisaligned, hq.ecall, hebreak, hbus⟩

theorem exception_isSome_of_stray (hx : s.strayException i = true) :
    (s.exception cfg i).isSome = true := by
  rw [Option.isSome_iff_ne_none]
  intro hnone
  have hno := exception_eq_none_iff.mp hnone
  rw [strayException, hno.fetch, hno.misaligned, hno.bus] at hx
  cases hx

theorem indebug_of_ignores (h : acceptsTrap s.control.state = false) : s.indebug = false := by
  unfold indebug
  cases hs : s.control.state <;> simp_all [acceptsTrap]

theorem mayInterrupt_of_ignores (h : acceptsTrap s.control.state = false) :
    s.mayInterrupt = false := by
  rw [mayInterrupt_eq]
  cases hs : s.control.state <;> simp_all [acceptsTrap]

/-- In a state that ignores traps, with a quiet slot, only a stray exception requests one. -/
theorem trapRequest_eq_stray (h : acceptsTrap s.control.state = false) (hq : s.idEx.Quiet) :
    s.trapRequest cfg i = s.strayException i := by
  rw [trapRequest_eq_exception cfg s i (mayInterrupt_of_ignores h)]
  cases hx : s.strayException i
  · rw [exception_eq_none hq (indebug_of_ignores h) hx]; rfl
  · exact exception_isSome_of_stray hx

/-! ## The invariant -/

/-- What holds in every run in which the CSR process and the controller agreed so far. -/
structure TrapInv (cfg : Generics) (s : Core) : Prop where
  debug : s.control.state = .debug → cfg.haveOcd = true
  quiet : acceptsTrap s.control.state = false → s.idEx.Quiet
  start : s.idEx.mdStart = true → s.idEx.Quiet
  mret : s.idEx.mretRequest = true → s.control.state ≠ .trap → s.idEx.aluOp = .mret
  mtvec : s.idEx.pcOp = .loadMtvec ↔ s.control.state = .trap
  coherent : s.idEx.Coherent

theorem trapInv_initial (cfg : Generics) : TrapInv cfg (Core.initial cfg) where
  debug h := by cases h
  quiet _ := ⟨rfl, rfl, rfl, rfl⟩
  start h := by cases h
  mret h := by cases h
  mtvec := by simp [Core.initial, IdEx.reset, Control.reset]
  coherent := .of_inert rfl rfl rfl

/-- The states that ignore a trap request are not followed by a trap. -/
theorem stateNext_ne_trap_of_ignores (h : acceptsTrap s.control.state = false) :
    s.stateNext cfg i ≠ .trap := by
  unfold stateNext
  cases hs : s.control.state <;> simp_all [acceptsTrap] <;> split <;> simp

theorem execNext_eq_trap_iff :
    s.execNext cfg i = .trap ↔ s.triggers cfg i = false ∧ s.trapRequest cfg i = true := by
  unfold execNext
  split_ifs <;> simp_all

/-- In a safe step the execute stage is trapped exactly when the controller enters
`state_trap`. -/
theorem advance_trap_iff_stateNext (hinv : TrapInv cfg s) (hr : i.sreset = false)
    (hsafe : TrapSafe cfg s i) : s.advance cfg i = .trap ↔ s.stateNext cfg i = .trap := by
  rw [advance_eq_trap_iff, stallOnTrigger_eq]
  by_cases hacc : acceptsTrap s.control.state = true
  · cases hs : s.control.state <;> simp only [hs, acceptsTrap, Bool.false_eq_true] at hacc
    case exec => simp [stateNext, hs, execNext_eq_trap_iff]
    case mem =>
      simp only [stateNext, hs, true_and]
      split_ifs <;> simp_all
    case wfi =>
      have hh := hsafe.halt hr hs
      simp only [stateNext, hs, true_and]
      split_ifs <;> simp_all
    case debug =>
      simp only [stateNext, hs, hinv.debug hs, Bool.true_eq_false, false_and, false_iff]
      split <;> simp
  · have hacc : acceptsTrap s.control.state = false := by simpa using hacc
    have htr : s.trapRequest cfg i = false := by
      rw [trapRequest_eq_stray hacc (hinv.quiet hacc), hsafe.ignored hr hacc]
    simp [htr, stateNext_ne_trap_of_ignores hacc]

/-- The other direction: the two disagree in every unsafe step. -/
theorem trapSafe_of_advance_trap_iff (hinv : TrapInv cfg s)
    (h : s.advance cfg i = .trap ↔ s.stateNext cfg i = .trap) : TrapSafe cfg s i where
  ignored _ hacc := by
    by_contra hx
    have hx : s.strayException i = true := by simpa using hx
    have htrig : s.stallOnTrigger cfg i = false := by
      rw [stallOnTrigger_eq]
      cases hs : s.control.state <;> simp_all [acceptsTrap]
    have htr : s.trapRequest cfg i = true := by
      rw [trapRequest_eq_stray hacc (hinv.quiet hacc), hx]
    exact stateNext_ne_trap_of_ignores hacc (h.mp (advance_eq_trap_iff.mpr ⟨htrig, htr⟩))
  halt _ hs hh ho := by
    by_contra htr
    have htr : s.trapRequest cfg i = true := by simpa using htr
    have htrig : s.stallOnTrigger cfg i = false := by simp [stallOnTrigger_eq, hs]
    have hn : s.stateNext cfg i = .debug := by simp [stateNext, hs, hh, ho]
    have := h.mp (advance_eq_trap_iff.mpr ⟨htrig, htr⟩)
    rw [hn] at this
    cases this

/-- After a decode the controller executes, or sleeps on a WFI. -/
theorem decode_cases (hinv : TrapInv cfg s) (h : s.advance cfg i = .decode) :
    s.stateNext cfg i = .exec ∨
      s.control.state = .exec ∧ s.idEx.wfiRequest = true ∧ s.stateNext cfg i = .wfi :=
  stateNext_of_decode_cases hinv.debug (fun hs hm => hinv.mret hm (by simp [hs])) h

/-- What the execute stage holds when the controller moves to a state that ignores traps. -/
theorem quiet_next (hinv : TrapInv cfg s)
    (hacc : acceptsTrap (s.stateNext cfg i) = false) : (s.nextIdEx cfg i).Quiet := by
  rw [nextIdEx_eq]
  cases ha : s.advance cfg i with
  | trigger => exact IdEx.quiet_triggered _ _
  | trap => exact IdEx.quiet_trapped
  | bubble => exact IdEx.quiet_bubble _ _
  | stall =>
    refine IdEx.Quiet.stalled ?_ _
    rcases stall_cases hinv.coherent ha with
      ⟨-, -, -, hn⟩ | ⟨-, hmd, -⟩ | ⟨-, -, hn⟩ | ⟨hs, -⟩ | ⟨-, hn⟩
    · simp [hn, acceptsTrap] at hacc
    · exact hinv.start hmd
    · simp [hn, acceptsTrap] at hacc
    · exact hinv.quiet (by simp [hs, acceptsTrap])
    · rw [hn] at hacc
      split at hacc <;> cases hacc
  | decode =>
    rcases decode_cases hinv ha with hn | ⟨-, -, hn⟩ <;> simp [hn, acceptsTrap] at hacc

/-- Debug mode is entered only with an on-chip debugger. -/
theorem haveOcd_of_stateNext (hd : s.control.state = .debug → cfg.haveOcd = true)
    (h : s.stateNext cfg i = .debug) : cfg.haveOcd = true := by
  by_contra ho
  have ho : cfg.haveOcd = false := by simpa using ho
  cases hs : s.control.state <;> simp only [stateNext, hs, ho, Bool.and_false] at h
  case exec =>
    simp only [execNext, triggers, ho, Bool.false_and] at h
    split_ifs at h <;> simp_all
  case debug => simp [hd hs] at ho
  all_goals first | cases h | (split_ifs at h <;> simp_all)

/-- A safe step preserves the invariant. -/
theorem trapInv_clock (hinv : TrapInv cfg s) (hr : i.sreset = false) (hsafe : TrapSafe cfg s i) :
    TrapInv cfg (s.clock cfg io i) := by
  have hag := advance_trap_iff_stateNext hinv hr hsafe
  have hstate : (s.clock cfg io i).control.state = s.stateNext cfg i := clock_state cfg io s i
  refine ⟨fun h => ?_, fun h => ?_, fun h => ?_, fun h hne => ?_, ?_, coherent_nextIdEx⟩
  · exact haveOcd_of_stateNext hinv.debug (hstate ▸ h)
  · exact quiet_next hinv (hstate ▸ h)
  · change (s.nextIdEx cfg i).mdStart = true at h
    change (s.nextIdEx cfg i).Quiet
    rw [nextIdEx_eq] at h ⊢
    cases ha : s.advance cfg i with
    | decode =>
      rw [ha] at h
      exact (decode_shape _ _ _ _ _).quiet_of_mdStart h
    | _ => rw [ha] at h; cases h
  · change (s.nextIdEx cfg i).mretRequest = true at h
    change (s.nextIdEx cfg i).aluOp = .mret
    rw [hstate] at hne
    rw [nextIdEx_eq] at h ⊢
    cases ha : s.advance cfg i with
    | trigger => rw [ha] at h; cases h
    | trap => exact absurd (hag.mp ha) hne
    | stall =>
      rw [ha] at h
      refine hinv.mret h fun hs => ?_
      rcases stall_cases hinv.coherent ha with h' | h' | h' | h' | h' <;> simp_all
    | bubble => rw [ha] at h; cases h
    | decode =>
      rw [ha] at h
      exact (decode_shape _ _ _ _ _).aluOp_of_mret h
  · rw [hstate, ← hag]
    change (s.nextIdEx cfg i).pcOp = .loadMtvec ↔ _
    rw [nextIdEx_eq]
    cases ha : s.advance cfg i with
    | trigger => simp [IdEx.triggered, IdEx.bubble]
    | trap => simp [IdEx.trapped]
    | stall =>
      have hs : s.control.state ≠ .trap := by
        rcases stall_cases hinv.coherent ha with h' | h' | h' | h' | h' <;> simp_all
      have := mt hinv.mtvec.mp hs
      simp only [IdEx.stalled]
      split <;> simp_all
    | bubble => simp [IdEx.bubble]
    | decode => simp [(decode_shape _ _ _ _ _).pcOp_ne_loadMtvec]

theorem trapInv_step (hinv : TrapInv cfg s) (hsafe : TrapSafe cfg s i) :
    TrapInv cfg (s.step cfg io i) := by
  cases hr : i.sreset with
  | true =>
    rw [step_reset _ _ _ _ hr]
    have h := trapInv_initial cfg
    exact ⟨h.debug, h.quiet, h.start, h.mret, h.mtvec, h.coherent⟩
  | false =>
    rw [step_clock _ _ _ _ hr]
    exact trapInv_clock hinv hr hsafe

theorem trapInv_of_reachable (h : (machine cfg io).Reachable (TrapSafe cfg) s) :
    TrapInv cfg s :=
  h.invariant (trapInv_initial cfg) fun _ _ _ hsafe hinv => trapInv_step hinv hsafe

theorem recordsTrap_iff_advance (hr : i.sreset = false) :
    RecordsTrap cfg s i ↔ s.advance cfg i = .trap := by
  rw [advance_eq_trap_iff]
  simp [RecordsTrap, hr, CsrSignals.entersTrap, csrSignals, and_comm]

/-- In a run whose steps are all safe the PC is loaded with MTVEC in `state_trap` and nowhere else,
and a step records a trap exactly when it enters `state_trap`, if and only if that step is safe
too. -/
theorem trap_recorded_iff_entered (cfg : Generics) (io : Peripherals) {s : Core}
    (h : (machine cfg io).Reachable (TrapSafe cfg) s) :
    (s.idEx.pcOp = .loadMtvec ↔ s.control.state = .trap) ∧
      ∀ i, (RecordsTrap cfg s i → (s.step cfg io i).csr.HoldsTrap
          (s.csrSignals cfg i).trap (s.csr.mstatus.getLsbD 3)) ∧
        ((RecordsTrap cfg s i ↔ (s.step cfg io i).control.state = .trap) ↔ TrapSafe cfg s i) := by
  have hinv := trapInv_of_reachable h
  refine ⟨hinv.mtvec, fun i => ⟨fun hrec => ?_, ?_⟩⟩
  · rw [step_clock _ _ _ _ hrec.1]
    exact s.csr.next_holdsTrap cfg hrec.2
  · cases hr : i.sreset with
    | true =>
      have hrec : ¬ RecordsTrap cfg s i := fun h => by simp [h.1] at hr
      have hst : (s.step cfg io i).control.state ≠ .trap := by
        rw [step_reset _ _ _ _ hr]; simp [Core.initial, Control.reset]
      exact iff_of_true (iff_of_false hrec hst) ⟨by simp [hr], by simp [hr]⟩
    | false =>
      have hst : (s.step cfg io i).control.state = s.stateNext cfg i := by
        rw [step_clock _ _ _ _ hr]
        exact clock_state cfg io s i
      rw [recordsTrap_iff_advance hr, hst]
      exact ⟨trapSafe_of_advance_trap_iff hinv, advance_trap_iff_stateNext hinv hr⟩

/-- An ECALL at the reset address, in the clock in which its trap is accepted. -/
theorem ecall_recorded_and_entered :
    RecordsTrap .plain (runProgram .plain .none [0x00000073] (.replicate 2 .quiet))
        ((runProgram .plain .none [0x00000073] (.replicate 2 .quiet)).fetchInput .plain 0 .quiet) ↔
      ((runProgram .plain .none [0x00000073] (.replicate 2 .quiet)).step .plain .none
        ((runProgram .plain .none [0x00000073] (.replicate 2 .quiet)).fetchInput .plain 0
          .quiet)).control.state = .trap :=
  (((trap_recorded_iff_entered .plain .none
    (Machine.Reachable.init.runFrom_of_meets (by decide +kernel))).2 _).2).mpr (by decide +kernel)

/-- A jump to the unmapped address 0x30000000: the access fault of its first word is accepted, and
the access fault of the next word is recorded in `state_trap`. -/
theorem access_fault_recorded_in_state_trap :
    ¬ ∀ s, (machine .plain .none).Reachable Machine.free s → ∀ i,
      (RecordsTrap .plain s i ↔ (s.step .plain .none i).control.state = .trap) := by
  intro h
  have hs := runProgram_reachable .plain .none [0x300000b7, 0x00008067] (.replicate 7 .quiet)
  have := h _ hs (Core.fetchInput .plain (runProgram .plain .none [0x300000b7, 0x00008067]
    (.replicate 7 .quiet)) 0 .quiet)
  revert this
  decide +kernel

end Core

end ThuasRiscv
