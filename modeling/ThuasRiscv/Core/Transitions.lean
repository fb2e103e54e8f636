import ThuasRiscv.Core.DecodeShape
import ThuasRiscv.Core.Step

/-!
# What a clock can do

For every state of the controller: the stall, trigger and flush signals, the
next state, and how the execute stage advances. Later proofs use these tables
and do not unfold the processes.
-/

namespace ThuasRiscv

namespace Core

variable (cfg : Generics) (io : Peripherals) (s : Core) (i : CoreInput)

/-! ## Signals by state -/

/-- Causes to enter debug mode in the executing state. -/
def triggers : Bool :=
  cfg.haveOcd && (i.haltReq || s.bpmatch && !s.control.skipMatch ||
    s.idEx.ebreakRequest && s.ebreakm || s.isstepping && !s.control.step)

theorem stall_eq : s.stall i = match s.control.state with
    | .exec => s.idEx.ismem && !i.bus.ready || s.idEx.mdStart
    | .mem => !i.bus.ready
    | .md | .wfi => true
    | _ => false := by
  unfold stall
  cases s.control.state <;> simp

theorem stallOnTrigger_eq : s.stallOnTrigger cfg i = match s.control.state with
    | .exec => s.triggers cfg i
    | .debug => cfg.haveOcd
    | _ => false := by
  unfold stallOnTrigger triggers
  cases s.control.state <;> simp
  cases cfg.haveOcd <;> simp

theorem flush_eq : s.flush = match s.control.state with
    | .flush | .debugflush | .trap | .trap2 | .mret | .boot0 => true
    | _ => s.penalty := by
  unfold flush
  cases s.control.state <;> simp

/-- The states in which the controller looks at a trap request. In the other states no trap is
expected. -/
def acceptsTrap : StateType → Bool
  | .exec | .mem | .wfi | .debug => true
  | _ => false

theorem interrupt_eq_none (h : s.mayInterrupt = false) : s.interrupt i = none := by
  have hl : s.localInterrupt i = none := by
    simp [localInterrupt, interruptible, h]
  simp [interrupt, interruptible, h, hl]

theorem mayInterrupt_eq : s.mayInterrupt = match s.control.state with
    | .exec | .wfi => true
    | _ => false := by
  unfold mayInterrupt
  cases s.control.state <;> simp

theorem trapRequest_eq_exception (h : s.mayInterrupt = false) :
    s.trapRequest cfg i = (s.exception cfg i).isSome := by
  simp [trapRequest, s.interrupt_eq_none i h]

/-! ## The next state of the controller -/

/-- The state that follows the executing state. -/
def execNext : StateType :=
  if s.triggers cfg i then .debug
  else if s.trapRequest cfg i then .trap
  else if s.idEx.wfiRequest then .wfi
  else if s.idEx.mretRequest then .mret
  else if s.penalty then .flush
  else if s.idEx.ismem && !i.bus.ready then .mem
  else if s.idEx.mdStart then .md
  else .exec

theorem execControl_state (h : s.control.state = .exec) :
    (s.execControl cfg i).state = s.execNext cfg i := by
  unfold execControl execNext triggers
  simp only [apply_ite Control.state, Control.halted, idleControl, h]
  cases cfg.haveOcd
  · simp only [Bool.and_false, Bool.false_and, Bool.false_eq_true, if_false]
  · simp only [Bool.and_true, Bool.true_and]
    cases i.haltReq <;> cases s.bpmatch && !s.control.skipMatch <;>
      cases s.idEx.ebreakRequest && s.ebreakm <;> cases s.isstepping && !s.control.step <;> rfl

/-- The next state, by the current one. -/
def stateNext : StateType :=
  match s.control.state with
  | .boot0 => .boot1
  | .boot1 | .flush2 | .debugflush3 | .md2 | .trap3 | .mret2 => .exec
  | .exec => s.execNext cfg i
  | .mem => if s.trapRequest cfg i then .trap else if i.bus.ready then .exec else .mem
  | .flush => .flush2
  | .debugflush => .debugflush2
  | .debugflush2 => .debugflush3
  | .md => if s.mdReady cfg then .md2 else .md
  | .trap => .trap2
  | .trap2 => if s.isstepping then .trap3 else .exec
  | .mret => .mret2
  | .wfi =>
    if i.haltReq && cfg.haveOcd then .debug else if s.trapRequest cfg i then .trap else .wfi
  | .debug => if i.resumeReq then .debugflush else .debug

@[simp] theorem nextControl_state : (s.nextControl cfg i).state = s.stateNext cfg i := by
  unfold nextControl stateNext
  cases h : s.control.state
  case exec => exact s.execControl_state cfg i h
  all_goals
    simp only [apply_ite Control.state, Control.halted, Control.resumed, idleControl, h]

@[simp] theorem clock_state : (s.clock cfg io i).control.state = s.stateNext cfg i :=
  s.nextControl_state cfg i

/-! ## How the execute stage advances -/

/-- The five ways in which the execute stage is updated. -/
inductive Advance where
  | trigger | trap | stall | bubble | decode
  deriving DecidableEq

def advance : Advance :=
  if s.stallOnTrigger cfg i then .trigger
  else if s.trapRequest cfg i then .trap
  else if s.stall i then .stall
  else if s.flushDecode then .bubble
  else .decode

theorem nextIdEx_eq : s.nextIdEx cfg i = match s.advance cfg i with
    | .trigger => s.idEx.triggered i.instr.instr
    | .trap => s.idEx.trapped
    | .stall => s.idEx.stalled (s.mdReady cfg)
    | .bubble => IdEx.bubble s.ifIdPc i.instr.instr
    | .decode => decode cfg s.ebreakm s.isstepping s.ifIdPc i.instr.instr := by
  unfold nextIdEx advance
  split_ifs <;> rfl

/-- The instruction in the execute stage finishes in this clock. -/
def leaves : Bool := !s.stall i && !s.stallOnTrigger cfg i && !s.trapRequest cfg i

theorem leaves_iff_advance :
    s.leaves cfg i = true ↔ s.advance cfg i = .bubble ∨ s.advance cfg i = .decode := by
  unfold leaves advance
  cases s.stall i <;> cases s.stallOnTrigger cfg i <;> cases s.trapRequest cfg i <;>
    cases s.flushDecode <;> simp

/-! ## Fields of the execute stage that exclude each other -/

end Core

/-- Combinations of fields that hold in the execute stage whatever the rest of the core does. -/
structure IdEx.Coherent (d : IdEx) : Prop where
  mem : d.ismem = true → d.mdStart = false ∧ d.wfiRequest = false ∧ d.mretRequest = false ∧
    d.aluOp.plain = true
  md : d.mdStart = true → d.wfiRequest = false ∧ d.mretRequest = false ∧
    (d.aluOp = .multiply ∨ d.aluOp = .divrem)
  wfi : d.wfiRequest = true → d.aluOp.plain = true ∧ d.mretRequest = false

theorem IdEx.Shape.coherent {cfg : Generics} {pc instr : DataType} {d : IdEx}
    (h : IdEx.Shape cfg pc instr d) :
    d.Coherent := by
  cases h with
  | mulDiv =>
    refine ⟨fun h => ?_, fun _ => ⟨rfl, rfl, ?_⟩, fun h => ?_⟩
    · simp [IdEx.mulDiv, IdEx.bubble] at h
    · by_cases hf : (func3 instr).getLsbD 2 = true <;> simp only [IdEx.mulDiv, hf] <;> simp
    · simp [IdEx.mulDiv, IdEx.bubble] at h
  | _ => constructor <;> simp_all [IdEx.bubble, AluOp.plain]

theorem IdEx.Coherent.of_inert {d : IdEx} (hm : d.ismem = false) (hs : d.mdStart = false)
    (hw : d.wfiRequest = false) : d.Coherent := by
  constructor <;> simp [hm, hs, hw]

namespace Core

variable {cfg : Generics} {io : Peripherals} {s : Core} {i : CoreInput}

theorem coherent_nextIdEx : (s.nextIdEx cfg i).Coherent := by
  rw [nextIdEx_eq]
  cases s.advance cfg i with
  | decode => exact (decode_shape _ _ _ _ _).coherent
  | _ => exact .of_inert rfl rfl rfl

theorem coherent_step : (s.step cfg io i).idEx.Coherent := by
  unfold step
  split
  · exact .of_inert rfl rfl rfl
  · exact coherent_nextIdEx

/-- No operand makes a plain operation jump or branch. -/
theorem penalty_plain (h : s.idEx.aluOp.plain = true) : s.penalty = false :=
  aluPenalty_plain h _ _ _

theorem penalty_mret (h : s.idEx.aluOp = .mret) : s.penalty = true := by
  simp [penalty, h, aluPenalty]

theorem penalty_md (h : s.idEx.aluOp = .multiply ∨ s.idEx.aluOp = .divrem) :
    s.penalty = false := by
  rcases h with h | h <;> simp [penalty, h, aluPenalty]

/-! ## The next state by the way in which the execute stage advances -/

theorem advance_eq_trigger_iff :
    s.advance cfg i = .trigger ↔ s.stallOnTrigger cfg i = true := by
  unfold advance
  split_ifs <;> simp_all

theorem advance_eq_trap_iff :
    s.advance cfg i = .trap ↔ s.stallOnTrigger cfg i = false ∧ s.trapRequest cfg i = true := by
  unfold advance
  split_ifs <;> simp_all

theorem advance_eq_stall_iff :
    s.advance cfg i = .stall ↔ s.stallOnTrigger cfg i = false ∧ s.trapRequest cfg i = false ∧
      s.stall i = true := by
  unfold advance
  split_ifs <;> simp_all

theorem advance_eq_bubble_iff :
    s.advance cfg i = .bubble ↔ s.leaves cfg i = true ∧ s.flushDecode = true := by
  unfold advance leaves
  split_ifs <;> simp_all

theorem advance_eq_decode_iff :
    s.advance cfg i = .decode ↔ s.leaves cfg i = true ∧ s.flushDecode = false := by
  unfold advance leaves
  split_ifs <;> simp_all

theorem indebug_of_leaves (hd : s.control.state = .debug → cfg.haveOcd = true)
    (hleave : s.leaves cfg i = true) : s.indebug = false := by
  by_contra h
  have hs : s.control.state = .debug := by simpa [indebug] using h
  simp [leaves, stallOnTrigger_eq, hs, hd hs] at hleave

/-- The executing state after an instruction has left the execute stage. -/
theorem stateNext_of_leaves (hs : s.control.state = .exec) (h : s.leaves cfg i = true) :
    s.stateNext cfg i = if s.idEx.wfiRequest then .wfi else if s.idEx.mretRequest then .mret
      else if s.penalty then .flush else .exec := by
  simp only [leaves, Bool.and_eq_true, Bool.not_eq_true', stall_eq, stallOnTrigger_eq, hs,
    Bool.or_eq_false_iff] at h
  simp only [stateNext, hs, execNext, h, Bool.false_eq_true, if_false]

/-- After a decode the controller executes, or sleeps on a WFI. -/
theorem stateNext_of_decode_cases (hd : s.control.state = .debug → cfg.haveOcd = true)
    (hmret : s.control.state = .exec → s.idEx.mretRequest = true → s.idEx.aluOp = .mret)
    (h : s.advance cfg i = .decode) : s.stateNext cfg i = .exec ∨
      s.control.state = .exec ∧ s.idEx.wfiRequest = true ∧ s.stateNext cfg i = .wfi := by
  obtain ⟨hleave, hflush⟩ := advance_eq_decode_iff.mp h
  simp only [leaves, Bool.and_eq_true, Bool.not_eq_true'] at hleave
  obtain ⟨⟨hstall, htrig⟩, htrap⟩ := hleave
  simp only [flushDecode, Bool.or_eq_false_iff, decide_eq_false_iff_not] at hflush
  obtain ⟨⟨hfl, hd1⟩, hd2⟩ := hflush
  rw [stall_eq] at hstall
  rw [stallOnTrigger_eq] at htrig
  rw [flush_eq] at hfl
  cases hs : s.control.state <;>
    simp only [hs, Bool.true_eq_false, not_true_eq_false] at hstall htrig hfl hd1 hd2
  case exec =>
    have hm : s.idEx.mretRequest = false := by
      by_contra hm
      have := hmret hs (by simpa using hm)
      rw [penalty_mret this] at hfl
      cases hfl
    have hmem : (s.idEx.ismem && !i.bus.ready) = false ∧ s.idEx.mdStart = false := by
      simpa using hstall
    cases hw : s.idEx.wfiRequest <;>
      simp [stateNext, hs, execNext, htrig, htrap, hm, hfl, hmem, hw]
  case mem => simp_all [stateNext]
  case debug =>
    rw [hd hs] at htrig
    cases htrig
  all_goals simp [stateNext, hs]

/-- The waits of the execute stage: for data, for the MD unit, for an interrupt. -/
theorem stall_cases (hc : s.idEx.Coherent) (h : s.advance cfg i = .stall) :
    (s.control.state = .exec ∧ s.idEx.ismem = true ∧ i.bus.ready = false ∧
        s.stateNext cfg i = .mem) ∨
      (s.control.state = .exec ∧ s.idEx.mdStart = true ∧ s.stateNext cfg i = .md) ∨
      (s.control.state = .mem ∧ i.bus.ready = false ∧ s.stateNext cfg i = .mem) ∨
      (s.control.state = .md ∧
        s.stateNext cfg i = if s.mdReady cfg then .md2 else .md) ∨
      (s.control.state = .wfi ∧
        s.stateNext cfg i = if i.haltReq && cfg.haveOcd then .debug else .wfi) := by
  obtain ⟨htrig, htrap, hstall⟩ := advance_eq_stall_iff.mp h
  rw [stall_eq] at hstall
  rw [stallOnTrigger_eq] at htrig
  cases hs : s.control.state <;> simp only [hs, Bool.false_eq_true] at hstall htrig
  case exec =>
    by_cases hmd : s.idEx.mdStart = true
    · obtain ⟨hw, hr, hop⟩ := hc.md hmd
      have hmem : s.idEx.ismem = false := by
        by_contra hm
        simp [(hc.mem (by simpa using hm)).1] at hmd
      simp [stateNext, hs, execNext, htrig, htrap, hw, hr, penalty_md hop, hmem, hmd]
    · have hmem : s.idEx.ismem = true ∧ i.bus.ready = false := by simpa [hmd] using hstall
      obtain ⟨-, hw, hr, hop⟩ := hc.mem hmem.1
      simp [stateNext, hs, execNext, htrig, htrap, hw, hr, penalty_plain hop, hmem]
  case mem => simp_all [stateNext]
  case md => simp [stateNext, hs]
  case wfi => simp [stateNext, hs, htrap]

/-- The wait for data begins with the access and is never left for another one. -/
theorem advance_of_stateNext_mem (h : s.stateNext cfg i = .mem) : s.advance cfg i = .stall ∧
    (s.control.state = .exec ∧ s.idEx.ismem = true ∨ s.control.state = .mem) := by
  rw [advance_eq_stall_iff, stallOnTrigger_eq, stall_eq]
  unfold stateNext at h
  cases hs : s.control.state <;> simp only [hs] at h
  case exec =>
    unfold execNext at h
    split_ifs at h
    simp_all
  case mem =>
    split_ifs at h
    simp_all
  all_goals first | cases h | (split_ifs at h)

/-! ## `halt_ack` -/

theorem execControl_haltAck : (s.execControl cfg i).haltAck = s.triggers cfg i := by
  unfold execControl triggers
  simp only [apply_ite Control.haltAck, Control.halted, idleControl, ite_self]
  cases cfg.haveOcd
  · simp only [Bool.and_false, Bool.false_and, Bool.false_eq_true, if_false]
  · simp only [Bool.and_true, Bool.true_and]
    cases i.haltReq <;> cases s.bpmatch && !s.control.skipMatch <;>
      cases s.idEx.ebreakRequest && s.ebreakm <;> cases s.isstepping && !s.control.step <;> rfl

theorem execNext_eq_debug_iff : s.execNext cfg i = .debug ↔ s.triggers cfg i = true := by
  unfold execNext
  split_ifs <;> simp_all

/-- The core acknowledges a halt in debug mode only. -/
theorem nextControl_haltAck (hinv : s.control.haltAck = true → s.control.state = .debug)
    (h : (s.nextControl cfg i).haltAck = true) : s.stateNext cfg i = .debug := by
  unfold nextControl at h
  unfold stateNext
  cases hs : s.control.state
  case exec =>
    simp only [hs] at h
    rw [execControl_haltAck] at h
    exact execNext_eq_debug_iff.mpr h
  case debug =>
    simp only [hs] at h ⊢
    cases hr : i.resumeReq <;> simp_all [Control.resumed]
  all_goals
    have hno : s.control.haltAck = false := by
      by_contra hack
      simp [hs] at hinv
      exact hack hinv
    simp only [hs, idleControl, Control.halted, apply_ite Control.haltAck, hno, ite_self,
      Bool.false_eq_true] at h
  split_ifs at h with hhalt
  simp [hhalt]

end Core

end ThuasRiscv
