import ThuasRiscv.Bus.BusProtocol
import ThuasRiscv.Bus.System
import ThuasRiscv.Core.Forwarding

/-!
# Every access is answered

The core waits for a data access without a timeout. In every state of the
controller it is known what is on the bus: nothing while instructions are
executed, the access of the instruction in the execute stage while the core
waits for it, and after a trap or in debug mode whatever is left of an older
access, which has left the bus before the next instruction is executed.
-/

namespace ThuasRiscv

open Transition

/-! ## Slots of the execute stage -/

/-- A slot that has no access. -/
structure IdEx.Free (d : IdEx) : Prop where
  memaccess : d.memaccess = .nop
  ismem : d.ismem = false
  mret : d.mretRequest = false

/-- A slot that has an access. -/
structure IdEx.HasAccess (d : IdEx) : Prop where
  ismem : d.ismem = true
  memaccess : d.memaccess ≠ .nop
  memsize : d.memsize ≠ .unknown

/-- A slot as it comes from the decode process. -/
inductive IdEx.Ready (d : IdEx) : Prop
  | free : d.Free → Ready d
  | mret : d.memaccess = .nop → d.ismem = false → d.aluOp = .mret → Ready d
  | access : d.HasAccess → Ready d

theorem IdEx.free_bubble (pc instr : DataType) : (IdEx.bubble pc instr).Free := ⟨rfl, rfl, rfl⟩

theorem IdEx.Free.trapped {d : IdEx} (h : d.Free) : d.trapped.Free := ⟨h.memaccess, rfl, h.mret⟩

theorem IdEx.Free.stalled {d : IdEx} (h : d.Free) (r : Bool) : (d.stalled r).Free :=
  ⟨h.memaccess, rfl, h.mret⟩

theorem IdEx.Shape.ready {cfg : Generics} {pc instr : DataType} {d : IdEx}
    (h : IdEx.Shape cfg pc instr d) : d.Ready := by
  cases h with
  | store _ _ _ hs => exact .access ⟨rfl, by simp, hs⟩
  | load _ _ _ _ hs => exact .access ⟨rfl, by simp, hs⟩
  | mret => exact .mret rfl rfl rfl
  | _ => exact .free ⟨rfl, rfl, rfl⟩

namespace Core

variable {cfg : Generics} {io : Peripherals} {s : Core} {i : CoreInput}

/-- The next slot, unless an instruction is decoded. -/
theorem free_nextIdEx (h : s.idEx.Free) (ha : s.advance cfg i ≠ .decode) :
    (s.nextIdEx cfg i).Free := by
  rw [nextIdEx_eq]
  cases hadv : s.advance cfg i with
  | trigger => exact ⟨rfl, rfl, rfl⟩
  | trap => exact h.trapped
  | stall => exact h.stalled _
  | bubble => exact IdEx.free_bubble _ _
  | decode => exact absurd hadv ha

theorem ready_nextIdEx (h : s.idEx.Free ∨ s.leaves cfg i = true) : (s.nextIdEx cfg i).Ready := by
  rw [nextIdEx_eq]
  cases hadv : s.advance cfg i with
  | trigger => exact .free ⟨rfl, rfl, rfl⟩
  | trap =>
    refine .free (h.resolve_right fun hl => ?_).trapped
    rw [leaves_iff_advance, hadv] at hl
    simp at hl
  | stall =>
    refine .free ((h.resolve_right fun hl => ?_).stalled _)
    rw [leaves_iff_advance, hadv] at hl
    simp at hl
  | bubble => exact .free (IdEx.free_bubble _ _)
  | decode => exact (decode_shape _ _ _ _ _).ready

/-- A flushed slot. -/
theorem free_of_flush (hl : s.leaves cfg i = true) (hf : s.flushDecode = true) :
    (s.nextIdEx cfg i).Free := by
  rw [nextIdEx_eq, advance_eq_bubble_iff.mpr ⟨hl, hf⟩]
  exact IdEx.free_bubble _ _

/-! ## Requests of the core -/

theorem busAccess_acc (hd : s.indebug = false) (disable : Bool) :
    (s.busAccess cfg i disable).acc = if disable then .nop else s.idEx.memaccess := by
  simp [busAccess, hd]

/-- The registered interface takes no access that is disabled. -/
theorem nextBus_acc (hd : s.indebug = false) (hf : cfg.fastMem = false)
    (h : s.idEx.memaccess = .nop ∨ s.slowDisable cfg i = true) : (s.nextBus cfg i).acc = .nop := by
  rw [nextBus, hf, if_neg Bool.false_ne_true, busAccess_acc hd]
  rcases h with h | h <;> simp [h]

end Core

namespace System

variable {nRom nBoot nRam : ℕ} {g : SystemGenerics} {io : Peripherals}
  {s : System nRom nBoot nRam} {i : SystemInput} {last : Option Flight}

/-! ## What is on the bus -/

/-- Nothing comes out of the registered interface. -/
def PortQuiet (g : SystemGenerics) (s : System nRom nBoot nRam) : Prop :=
  g.core.fastMem = false → ¬ g.bus.Active s.core.bus

/-- The states in which no access is executed. -/
def atRest : StateType → Bool
  | .boot1 | .flush | .flush2 | .md | .md2 | .mret | .mret2 | .trap3 => true
  | _ => false

/-- The access of the execute stage is on the bus, `age` clocks after its strobe. -/
structure Waiting (g : SystemGenerics) (s : System nRom nBoot nRam) (last : Option Flight)
    (q : BusRequest) (age : ℕ) : Prop where
  plain : s.core.idEx.aluOp.plain = true
  ismem : s.core.idEx.ismem = false
  stb : q.stb = true
  acc : q.acc = s.core.idEx.memaccess
  size : q.size = s.core.idEx.memsize
  addr : q.addr = s.core.operandA + s.core.idEx.imm
  access : q.acc ≠ .nop ∧ q.size ≠ .unknown
  inTime : age ≤ g.bus.latency q
  strobe : age = 0 → s.bus.Idle g.bus ∧ g.core.fastMem = false ∧ s.core.bus = q
  flight : 0 < age → s.bus.Waits g.bus q age ∧ last = some ⟨q, age⟩ ∧
    (g.core.fastMem = false → s.core.bus = { q with stb := false, data := s.core.bus.data })

/-- What is on the bus, for each group of states. -/
inductive BusStage (g : SystemGenerics) (s : System nRom nBoot nRam) (last : Option Flight) : Prop
  | booting : s.core.control.state = .boot0 → s.core.idEx.Free → PortQuiet g s → s.bus.Drained →
    BusStage g s last
  | resting : atRest s.core.control.state = true → s.core.idEx.Free → PortQuiet g s →
    s.bus.Idle g.bus → BusStage g s last
  | executing : s.core.control.state = .exec → s.core.idEx.Ready → PortQuiet g s →
    s.bus.Idle g.bus → BusStage g s last
  | waiting (q : BusRequest) (age : ℕ) : s.core.control.state = .mem → Waiting g s last q age →
    BusStage g s last
  | sleeping : s.core.control.state = .wfi → BusStage g s last
  | trapping : s.core.control.state = .trap → PortQuiet g s → BusStage g s last
  | trapped : s.core.control.state = .trap2 → PortQuiet g s → s.bus.Drained →
    (∃ r, s.bus.io.buffer.lines = { Lines.silent with ready := r }) →
    s.core.idEx.Free ∨ s.core.idEx.Quiet ∧ s.core.instrAccessError = 0 ∧
      s.core.instructionMisaligned = false → BusStage g s last
  | halted : s.core.control.state = .debug → g.core.haveOcd = true → BusStage g s last
  | resuming : s.core.control.state = .debugflush → s.core.idEx.Free → BusStage g s last
  | resuming2 : s.core.control.state = .debugflush2 → s.core.idEx.Free → PortQuiet g s →
    BusStage g s last
  | resuming3 : s.core.control.state = .debugflush3 → s.core.idEx.Free → PortQuiet g s →
    s.bus.Drained → BusStage g s last

/-- The invariant of the system. -/
structure BusInv (g : SystemGenerics) (s : System nRom nBoot nRam)
    (last : Option Flight) : Prop where
  coherent : s.core.idEx.Coherent
  halted : s.core.control.haltAck = true → s.core.control.state = .debug
  ack1 : s.haltAcks.1 = true → s.core.control.state = .debug ∨ s.core.control.state = .debugflush ∨
    s.core.control.state = .boot0
  ack2 : s.haltAcks.2 = true → s.core.control.state = .debug ∨ s.core.control.state = .debugflush ∨
    s.core.control.state = .debugflush2 ∨ s.core.control.state = .boot0 ∨
    s.core.control.state = .boot1
  stage : BusStage g s last

/-! ## One clock -/

theorem step_core (hr : i.core.sreset = false) :
    (s.step g io i).core = s.core.clock g.core io (s.coreInput g i) :=
  Core.step_clock _ _ _ _ hr

theorem step_bus (hr : i.core.sreset = false) :
    ∃ f, (s.step g io i).bus = s.bus.clock g.bus (s.request g i) i.bus f false :=
  ⟨_, by rw [step, hr]⟩

theorem step_state (hr : i.core.sreset = false) : (s.step g io i).core.control.state =
    s.core.stateNext g.core (s.coreInput g i) := by
  rw [step_core hr, Core.clock_state]

theorem step_idEx (hr : i.core.sreset = false) :
    (s.step g io i).core.idEx = s.core.nextIdEx g.core (s.coreInput g i) := by
  rw [step_core hr, Core.clock_idEx]

theorem request_acc_of_fastMem (hf : g.core.fastMem = true) (hd : s.core.indebug = false)
    (h : s.core.idEx.memaccess = .nop ∨ s.core.flush = true) : (s.request g i).acc = .nop := by
  rw [request, Core.busRequest, if_pos hf, Core.busAccess_acc hd]
  rcases h with h | h <;> simp [h, Core.fastDisable]

/-- A core without an access in the execute stage, or whose pipeline is flushed, makes no request. -/
theorem request_not_active (hport : PortQuiet g s) (hd : s.core.indebug = false)
    (h : s.core.idEx.memaccess = .nop ∨ s.core.flush = true) :
    ¬ g.bus.Active (s.request g i) := by
  cases hf : g.core.fastMem with
  | false =>
    rw [request, Core.busRequest, hf, if_neg Bool.false_ne_true]
    exact hport hf
  | true => exact fun ha => ha.1 (request_acc_of_fastMem hf hd h)

/-- The registered interface takes nothing. -/
theorem port_step (hr : i.core.sreset = false) (hd : s.core.indebug = false)
    (h : s.core.idEx.memaccess = .nop ∨ s.core.slowDisable g.core (s.coreInput g i) = true) :
    PortQuiet g (s.step g io i) := by
  intro hf ha
  rw [step_core hr, Core.clock_bus] at ha
  exact ha.1 (Core.nextBus_acc hd hf h)

theorem idle_step (hr : i.core.sreset = false) (hb : s.bus.Drained)
    (hq : ¬ g.bus.Active (s.request g i)) : (s.step g io i).bus.Idle g.bus := by
  obtain ⟨f, hf⟩ : ∃ f, (s.step g io i).bus = s.bus.clock g.bus (s.request g i) i.bus f false :=
    step_bus hr
  rw [hf]
  exact DataBus.idle_clock hb (DataBus.stb_of_not_active hq)

theorem drained_step (hr : i.core.sreset = false) (hq : ¬ g.bus.Active (s.request g i)) :
    (s.step g io i).bus.Drained ∧
      ∃ r, (s.step g io i).bus.io.buffer.lines = { Lines.silent with ready := r } := by
  obtain ⟨f, hf⟩ : ∃ f, (s.step g io i).bus = s.bus.clock g.bus (s.request g i) i.bus f false :=
    step_bus hr
  rw [hf]
  exact ⟨DataBus.drained_clock (DataBus.stb_of_not_active hq),
    DataBus.buffer_clock_of_not_stb (DataBus.stb_of_not_active hq)⟩

theorem slowDisable_of_trapRequest
    (h : s.core.trapRequest g.core (s.coreInput g i) = true) :
    s.core.slowDisable g.core (s.coreInput g i) = true := by
  simp [Core.slowDisable, h]

theorem slowDisable_of_flush (h : s.core.flush = true) :
    s.core.slowDisable g.core (s.coreInput g i) = true := by
  simp [Core.slowDisable, h]

/-- A trap disables the registered interface. -/
theorem stage_trapping {last' : Option Flight} (hr : i.core.sreset = false)
    (hd : s.core.indebug = false) (ht : s.core.trapRequest g.core (s.coreInput g i) = true)
    (hn : s.core.stateNext g.core (s.coreInput g i) = .trap) :
    BusStage g (s.step g io i) last' :=
  .trapping ((step_state hr).trans hn) (port_step hr hd (.inr (slowDisable_of_trapRequest ht)))

/-- No instruction is decoded in a stall or behind a flush. -/
theorem advance_ne_decode {c : Core} {cfg : Generics} {ci : CoreInput}
    (h : c.stall ci = true ∨ c.flushDecode = true) : c.advance cfg ci ≠ .decode := by
  intro ha
  obtain ⟨hl, hf⟩ := Core.advance_eq_decode_iff.mp ha
  rcases h with h | h
  · simp [Core.leaves, h] at hl
  · simp [hf] at h

theorem stage_of_booting {last' : Option Flight} (hr : i.core.sreset = false)
    (hs : s.core.control.state = .boot0) (hfree : s.core.idEx.Free) (hport : PortQuiet g s)
    (hb : s.bus.Drained) : BusStage g (s.step g io i) last' := by
  have hd : s.core.indebug = false := by simp [Core.indebug, hs]
  refine .resting ?_ ?_ (port_step hr hd (.inl hfree.memaccess))
    (idle_step hr hb (request_not_active hport hd (.inl hfree.memaccess)))
  · rw [step_state hr, Core.stateNext, hs]
    rfl
  · rw [step_idEx hr]
    exact Core.free_nextIdEx hfree
      (advance_ne_decode (.inr (by simp [Core.flushDecode, Core.flush, hs])))

theorem stage_of_resting {last' : Option Flight} (hr : i.core.sreset = false)
    (hs : atRest s.core.control.state = true) (hfree : s.core.idEx.Free) (hport : PortQuiet g s)
    (hb : s.bus.Idle g.bus) : BusStage g (s.step g io i) last' := by
  have hd : s.core.indebug = false := by
    unfold Core.indebug
    cases h : s.core.control.state <;> simp_all [atRest]
  have hport' : PortQuiet g (s.step g io i) := port_step hr hd (.inl hfree.memaccess)
  have hb' : (s.step g io i).bus.Idle g.bus :=
    idle_step hr hb.toDrained (request_not_active hport hd (.inl hfree.memaccess))
  have hstate : s.core.stateNext g.core (s.coreInput g i) = .exec ∨
      atRest (s.core.stateNext g.core (s.coreInput g i)) = true ∧
        (s.core.stall (s.coreInput g i) = true ∨ s.core.flushDecode = true) := by
    cases h : s.core.control.state <;> simp only [h, atRest, Bool.false_eq_true] at hs <;>
      simp only [Core.stateNext, h, Core.stall_eq, Core.flushDecode, Core.flush_eq]
    case flush | mret => exact .inr ⟨rfl, .inr rfl⟩
    case md =>
      right
      cases s.core.mdReady g.core <;> exact ⟨rfl, .inl trivial⟩
    all_goals exact .inl trivial
  rcases hstate with hn | ⟨hn, hstay⟩
  · refine .executing ((step_state hr).trans hn) ?_ hport' hb'
    rw [step_idEx hr]
    exact Core.ready_nextIdEx (.inl hfree)
  · refine .resting ?_ ?_ hport' hb'
    · rw [step_state hr, hn]
    · rw [step_idEx hr]
      exact Core.free_nextIdEx hfree (advance_ne_decode hstay)

theorem stage_of_sleeping {last' : Option Flight} (hr : i.core.sreset = false)
    (hs : s.core.control.state = .wfi) : BusStage g (s.step g io i) last' := by
  have hd : s.core.indebug = false := by simp [Core.indebug, hs]
  have hstate : s.core.stateNext g.core (s.coreInput g i) =
      if (s.coreInput g i).haltReq && g.core.haveOcd then .debug
      else if s.core.trapRequest g.core (s.coreInput g i) then .trap else .wfi := by
    rw [Core.stateNext, hs]
  split_ifs at hstate with hhalt htrap
  · rw [Bool.and_eq_true] at hhalt
    exact .halted ((step_state hr).trans hstate) hhalt.2
  · exact stage_trapping hr hd htrap hstate
  · exact .sleeping ((step_state hr).trans hstate)

theorem stage_of_trapping {last' : Option Flight} (hr : i.core.sreset = false)
    (hs : s.core.control.state = .trap) (hport : PortQuiet g s) :
    BusStage g (s.step g io i) last' := by
  have hd : s.core.indebug = false := by simp [Core.indebug, hs]
  have hflush : s.core.flush = true := by simp [Core.flush, hs]
  have hq : ¬ g.bus.Active (s.request g i) := request_not_active hport hd (.inr hflush)
  refine .trapped ?_ (port_step hr hd (.inr (slowDisable_of_flush hflush))) (drained_step hr hq).1
    (drained_step hr hq).2 ?_
  · rw [step_state hr, Core.stateNext, hs]
  · have hidEx : (s.step g io i).core.idEx = s.core.nextIdEx g.core (s.coreInput g i) :=
      step_idEx hr
    rw [Core.nextIdEx_eq] at hidEx
    cases hadv : s.core.advance g.core (s.coreInput g i) with
    | trigger =>
      rw [hadv] at hidEx
      exact .inl (hidEx ▸ ⟨rfl, rfl, rfl⟩)
    | bubble =>
      rw [hadv] at hidEx
      exact .inl (hidEx ▸ IdEx.free_bubble _ _)
    | stall =>
      have hstall := (Core.advance_eq_stall_iff.mp hadv).2.2
      simp [Core.stall_eq, hs] at hstall
    | decode => exact absurd hadv (advance_ne_decode (.inr (by simp [Core.flushDecode, hflush])))
    | trap =>
      rw [hadv] at hidEx
      refine .inr ⟨hidEx ▸ IdEx.quiet_trapped, ?_, ?_⟩
      · rw [step_core hr]
        simp [Core.clock, Core.nextInstrAccessError, hs]
      · simp only [Core.instructionMisaligned, hidEx]
        rw [step_core hr]
        simp [Core.clock, Core.nextInstrMisalignedFf, IdEx.trapped]

theorem stage_of_trapped {last' : Option Flight} (hr : i.core.sreset = false)
    (hs : s.core.control.state = .trap2) (hport : PortQuiet g s) (hb : s.bus.Drained)
    (hbuffer : ∃ r, s.bus.io.buffer.lines = { Lines.silent with ready := r })
    (hslot : s.core.idEx.Free ∨ s.core.idEx.Quiet ∧ s.core.instrAccessError = 0 ∧
      s.core.instructionMisaligned = false) : BusStage g (s.step g io i) last' := by
  have hd : s.core.indebug = false := by simp [Core.indebug, hs]
  have hflush : s.core.flush = true := by simp [Core.flush, hs]
  have hq : ¬ g.bus.Active (s.request g i) := request_not_active hport hd (.inr hflush)
  have hport' : PortQuiet g (s.step g io i) :=
    port_step hr hd (.inr (slowDisable_of_flush hflush))
  have hb' : (s.step g io i).bus.Idle g.bus := idle_step hr hb hq
  have hfree : (s.step g io i).core.idEx.Free := by
    rw [step_idEx hr]
    have hdec : s.core.advance g.core (s.coreInput g i) ≠ .decode :=
      advance_ne_decode (.inr (by simp [Core.flushDecode, hflush]))
    rcases hslot with hfree | ⟨hquiet, herr, hmis⟩
    · exact Core.free_nextIdEx hfree hdec
    · have hbus : (s.coreInput g i).bus.error = false := DataBus.error_of_drained hb hbuffer hq
      have hnone : s.core.trapRequest g.core (s.coreInput g i) = false := by
        rw [Core.trapRequest_eq_stray (by simp [hs, Core.acceptsTrap]) hquiet,
          Core.strayException, herr, hmis, hbus]
        rfl
      have hleave : s.core.leaves g.core (s.coreInput g i) = true := by
        simp [Core.leaves, hnone, Core.stall_eq, Core.stallOnTrigger_eq, hs]
      exact Core.free_of_flush hleave (by simp [Core.flushDecode, hflush])
  cases hstep : s.core.isstepping with
  | true =>
    refine .resting ?_ hfree hport' hb'
    rw [step_state hr, Core.stateNext, hs, hstep]
    rfl
  | false =>
    refine .executing ?_ (.free hfree) hport' hb'
    rw [step_state hr, Core.stateNext, hs, hstep]
    rfl

theorem stage_of_halted {last' : Option Flight} (hr : i.core.sreset = false)
    (hs : s.core.control.state = .debug) (ho : g.core.haveOcd = true) :
    BusStage g (s.step g io i) last' := by
  have hstate : s.core.stateNext g.core (s.coreInput g i) =
      if (s.coreInput g i).resumeReq then .debugflush else .debug := by
    rw [Core.stateNext, hs]
  split_ifs at hstate
  · refine .resuming ((step_state hr).trans hstate) ?_
    have htrig : s.core.stallOnTrigger g.core (s.coreInput g i) = true := by
      rw [Core.stallOnTrigger_eq, hs, ho]
    rw [step_idEx hr, Core.nextIdEx, if_pos htrig]
    exact ⟨rfl, rfl, rfl⟩
  · exact .halted ((step_state hr).trans hstate) ho

theorem stage_of_resuming {last' : Option Flight} (hr : i.core.sreset = false)
    (hs : s.core.control.state = .debugflush) (hfree : s.core.idEx.Free) :
    BusStage g (s.step g io i) last' := by
  have hd : s.core.indebug = false := by simp [Core.indebug, hs]
  refine .resuming2 ?_ ?_ (port_step hr hd (.inl hfree.memaccess))
  · rw [step_state hr, Core.stateNext, hs]
  · rw [step_idEx hr]
    exact Core.free_nextIdEx hfree (advance_ne_decode (.inr (by simp [Core.flushDecode, hs])))

theorem stage_of_resuming2 {last' : Option Flight} (hr : i.core.sreset = false)
    (hs : s.core.control.state = .debugflush2) (hfree : s.core.idEx.Free)
    (hport : PortQuiet g s) : BusStage g (s.step g io i) last' := by
  have hd : s.core.indebug = false := by simp [Core.indebug, hs]
  refine .resuming3 ?_ ?_ (port_step hr hd (.inl hfree.memaccess))
    (drained_step hr (request_not_active hport hd (.inl hfree.memaccess))).1
  · rw [step_state hr, Core.stateNext, hs]
  · rw [step_idEx hr]
    exact Core.free_nextIdEx hfree (advance_ne_decode (.inr (by simp [Core.flushDecode, hs])))

theorem stage_of_resuming3 {last' : Option Flight} (hr : i.core.sreset = false)
    (hs : s.core.control.state = .debugflush3) (hfree : s.core.idEx.Free)
    (hport : PortQuiet g s) (hb : s.bus.Drained) : BusStage g (s.step g io i) last' := by
  have hd : s.core.indebug = false := by simp [Core.indebug, hs]
  refine .executing ?_ ?_ (port_step hr hd (.inl hfree.memaccess))
    (idle_step hr hb (request_not_active hport hd (.inl hfree.memaccess)))
  · rw [step_state hr, Core.stateNext, hs]
  · rw [step_idEx hr]
    exact Core.ready_nextIdEx (.inl hfree)

/-! ## The executing state -/

/-- Outside of debug mode the enabled access is the one of the execute stage. -/
theorem busAccess_enabled {c : Core} {cfg : Generics} {ci : CoreInput} (hd : c.indebug = false) :
    c.busAccess cfg ci false =
      ⟨c.idEx.ismem || ci.dm.stb && cfg.haveOcd, c.idEx.memaccess, c.idEx.memsize,
        c.operandA + c.idEx.imm, c.operandB⟩ := by
  simp [Core.busAccess, Core.addressV, hd]

/-- An operand stays if nothing is written back and the operands are held. -/
theorem operandA_of_held (hr : i.core.sreset = false)
    (hwb : s.core.nextExWb g.core io (s.coreInput g i) = s.core.exWb)
    (hhold : s.core.holdOperands g.core (s.coreInput g i) = true)
    (hid : (s.core.nextIdEx g.core (s.coreInput g i)).rs1 = s.core.idEx.rs1) :
    (s.step g io i).core.operandA = s.core.operandA := by
  rw [step_core hr]
  simp only [Core.operandA, Core.forwarda, Core.clock_exWb, Core.clock_idEx, Core.clock_regs, hwb,
    hid, Core.rs1data_nextRegs (i := s.coreInput g i) (.inr hr), hhold, if_true]
  rfl

/-- The operand of the address does not change in a stall. -/
theorem operandA_of_stall (hr : i.core.sreset = false)
    (ha : s.core.advance g.core (s.coreInput g i) = .stall) :
    (s.step g io i).core.operandA = s.core.operandA := by
  apply operandA_of_held hr (Core.nextExWb_of_stall ha)
  · rw [Core.holdOperands_eq, Core.leaves_of_stall ha]
    rfl
  · rw [Core.nextIdEx_eq, ha]
    rfl

/-- Without an error the access is answered with `ready`, or not yet. -/
theorem answers_cases {gb : BusGenerics} {q : BusRequest} {age : ℕ} {r : BusResponse}
    (h : gb.Answers q age r.lines) (hacc : q.acc ≠ .nop) (he : r.error = false) :
    age = gb.latency q ∧ r.ready = true ∧ gb.verdict q = .ready ∨
      age ≠ gb.latency q ∧ r.ready = false := by
  unfold BusGenerics.Answers at h
  split_ifs at h with hage
  · refine .inl ⟨hage, ?_⟩
    have hread : q.acc = .read ∨ q.acc = .write := by
      cases hq : q.acc <;> simp_all
    simp only [BusResponse.error, Bool.or_eq_false_iff] at he
    cases hv : gb.verdict q <;> rw [hv] at h
    · exact ⟨congrArg Lines.ready h, rfl⟩
    all_goals
      obtain ⟨r', h⟩ := h
      simp only [BusResponse.lines, Lines.mk.injEq] at h
      rcases hread with hq | hq <;> simp_all
  · exact .inr ⟨hage, congrArg Lines.ready h⟩

theorem error_of_trapRequest (h : s.core.trapRequest g.core (s.coreInput g i) = false) :
    (s.response g i).error = false := by
  by_contra he
  have hx : s.core.strayException (s.coreInput g i) = true := by
    simp only [Core.strayException, Bool.or_eq_true]
    exact .inr (Bool.eq_true_of_not_eq_false he)
  have hsome : (s.core.exception g.core (s.coreInput g i)).isSome = true :=
    Core.exception_isSome_of_stray hx
  simp [Core.trapRequest, hsome] at h

theorem stage_of_executing_free {last' : Option Flight} (hr : i.core.sreset = false)
    (hs : s.core.control.state = .exec) (hc : s.core.idEx.Coherent)
    (hacc : s.core.idEx.memaccess = .nop) (hmem : s.core.idEx.ismem = false)
    (hmret : s.core.idEx.mretRequest = true → s.core.idEx.aluOp = .mret) (hport : PortQuiet g s)
    (hb : s.bus.Idle g.bus) : BusStage g (s.step g io i) last' := by
  have hd : s.core.indebug = false := by simp [Core.indebug, hs]
  have hport' : PortQuiet g (s.step g io i) := port_step hr hd (.inl hacc)
  have hb' : (s.step g io i).bus.Idle g.bus :=
    idle_step hr hb.toDrained (request_not_active hport hd (.inl hacc))
  have hstate : s.core.stateNext g.core (s.coreInput g i) =
      s.core.execNext g.core (s.coreInput g i) := by
    rw [Core.stateNext, hs]
  have hn := hstate
  rw [Core.execNext] at hn
  have hstall : s.core.stall (s.coreInput g i) = s.core.idEx.mdStart := by
    rw [Core.stall_eq, hs, hmem]
    rfl
  have htrigger : s.core.stallOnTrigger g.core (s.coreInput g i) =
      s.core.triggers g.core (s.coreInput g i) := by
    rw [Core.stallOnTrigger_eq, hs]
  split_ifs at hn with htrig htrap hwfi hret hpen hwait hmd
  · refine .halted ((step_state hr).trans hn) ?_
    rw [Core.triggers, Bool.and_eq_true] at htrig
    exact htrig.1
  · exact stage_trapping hr hd htrap hn
  · exact .sleeping ((step_state hr).trans hn)
  · have hmd : s.core.idEx.mdStart = false := by
      by_contra h
      simp [(hc.md (by simpa using h)).2.1] at hret
    refine .resting (by rw [step_state hr, hn]; rfl) ?_ hport' hb'
    rw [step_idEx hr]
    refine Core.free_of_flush (by simp [Core.leaves, hstall, htrigger, htrig, htrap, hmd]) ?_
    simp [Core.flushDecode, Core.flush_eq, hs, Core.penalty_mret (hmret hret)]
  · have hmd : s.core.idEx.mdStart = false := by
      by_contra h
      simp [Core.penalty_md (hc.md (by simpa using h)).2.2] at hpen
    refine .resting (by rw [step_state hr, hn]; rfl) ?_ hport' hb'
    rw [step_idEx hr]
    refine Core.free_of_flush (by simp [Core.leaves, hstall, htrigger, htrig, htrap, hmd]) ?_
    simp [Core.flushDecode, Core.flush_eq, hs, hpen]
  · simp [hmem] at hwait
  · refine .resting (by rw [step_state hr, hn]; rfl) ?_ hport' hb'
    rw [step_idEx hr]
    exact Core.free_nextIdEx ⟨hacc, hmem, (hc.md hmd).2.1⟩
      (advance_ne_decode (.inl (hstall.trans hmd)))
  · refine .executing ((step_state hr).trans hn) ?_ hport' hb'
    rw [step_idEx hr]
    exact Core.ready_nextIdEx (.inr (by simp [Core.leaves, hstall, htrigger, htrig, htrap, hmd]))

/-- The strobe of an access in the executing state, with the unregistered interface. -/
theorem request_fast (hf : g.core.fastMem = true) (hs : s.core.control.state = .exec)
    (hpen : s.core.penalty = false)
    (htrig : s.core.stallOnTrigger g.core (s.coreInput g i) = false)
    (htrap : s.core.trapRequest g.core (s.coreInput g i) = false)
    (hmem : s.core.idEx.ismem = true) : s.request g i =
      ⟨true, s.core.idEx.memaccess, s.core.idEx.memsize, s.core.operandA + s.core.idEx.imm,
        s.core.operandB⟩ := by
  have hd : s.core.indebug = false := by simp [Core.indebug, hs]
  have hint : (s.core.interrupt (s.coreInput g i)).isSome = false := by
    rw [Core.trapRequest, Bool.or_eq_false_iff] at htrap
    exact htrap.1
  have hdis : s.core.fastDisable g.core (s.coreInput g i) = false := by
    simp [Core.fastDisable, Core.flush_eq, hs, hpen, hint, htrig]
  rw [← request_coreInput, Core.busRequest, if_pos hf, hdis, busAccess_enabled hd, hmem,
    Bool.true_or]

/-- The answer in the clock of the strobe. -/
theorem answers_executing (hb : s.bus.Idle g.bus) (hreq : s.request g i =
      ⟨true, s.core.idEx.memaccess, s.core.idEx.memsize, s.core.operandA + s.core.idEx.imm,
        s.core.operandB⟩) (haccess : s.core.idEx.HasAccess) :
    g.bus.Answers (s.request g i) 0 (s.response g i).lines := by
  refine DataBus.answers_strobe hb ?_ ?_ ?_ <;> rw [hreq]
  · exact haccess.memaccess
  · exact haccess.memsize

/-- With `FAST_MEM` the access of an executing instruction is in flight in the next clock. -/
theorem flight_of_fast {q : BusRequest} (hr : i.core.sreset = false) (hb : s.bus.Idle g.bus)
    (hreq : s.request g i = q) (hstb : q.stb = true) (hacc : q.acc ≠ .nop) :
    (s.step g io i).bus.Waits g.bus q 1 ∧
      (Flight.current last (s.request g i)).map Flight.older = some ⟨q, 1⟩ := by
  obtain ⟨f, hbus⟩ : ∃ f, (s.step g io i).bus =
    s.bus.clock g.bus (s.request g i) i.bus f false := step_bus hr
  rw [hbus, hreq]
  refine ⟨DataBus.waits_one hb.io, ?_⟩
  simp [Flight.current, BusRequest.strobes, hstb, hacc, Flight.older]

/-- The core starts to wait for its access. -/
theorem waiting_of_executing (hr : i.core.sreset = false) (hs : s.core.control.state = .exec)
    (hplain : s.core.idEx.aluOp.plain = true) (haccess : s.core.idEx.HasAccess)
    (hport : PortQuiet g s) (hb : s.bus.Idle g.bus)
    (htrig : s.core.stallOnTrigger g.core (s.coreInput g i) = false)
    (htrap : s.core.trapRequest g.core (s.coreInput g i) = false)
    (hready : (s.coreInput g i).bus.ready = false)
    (ha : s.core.advance g.core (s.coreInput g i) = .stall) :
    Waiting g (s.step g io i) ((Flight.current last (s.request g i)).map Flight.older)
      ⟨true, s.core.idEx.memaccess, s.core.idEx.memsize, s.core.operandA + s.core.idEx.imm,
        s.core.operandB⟩ (if g.core.fastMem then 1 else 0) := by
  have hd : s.core.indebug = false := by simp [Core.indebug, hs]
  have hpen : s.core.penalty = false := Core.penalty_plain hplain
  have hid : (s.step g io i).core.idEx = s.core.nextIdEx g.core (s.coreInput g i) := step_idEx hr
  rw [Core.nextIdEx_eq, ha] at hid
  have hop : (s.step g io i).core.operandA = s.core.operandA := operandA_of_stall hr ha
  have hfast (hf : g.core.fastMem = true) :=
    request_fast hf hs hpen htrig htrap haccess.ismem
  refine ⟨by rw [hid]; exact hplain, by rw [hid]; rfl, rfl, by rw [hid]; rfl, by rw [hid]; rfl,
    by rw [hid, hop]; rfl, ⟨haccess.memaccess, haccess.memsize⟩, ?_, fun h => ?_, fun h => ?_⟩
  · cases hf : g.core.fastMem with
    | false => exact Nat.zero_le _
    | true =>
      have hans := answers_executing hb (hfast hf) haccess
      rw [hfast hf] at hans
      rcases answers_cases hans haccess.memaccess (error_of_trapRequest htrap) with h | h
      · exact absurd h.2.1 (by rw [show (s.response g i).ready = false from hready]; simp)
      · exact Nat.one_le_iff_ne_zero.mpr (Ne.symm h.1)
  · have hf : g.core.fastMem = false := by
      cases hf : g.core.fastMem <;> simp [hf] at h ⊢
    refine ⟨idle_step hr hb.toDrained ?_, hf, ?_⟩
    · rw [request, Core.busRequest, hf, if_neg Bool.false_ne_true]
      exact hport hf
    · have hdis : s.core.slowDisable g.core (s.coreInput g i) = false := by
        simp [Core.slowDisable, Core.flush_eq, hs, hpen, htrig, htrap]
      rw [step_core hr, Core.clock_bus, Core.nextBus, hf, if_neg Bool.false_ne_true, hdis,
        busAccess_enabled hd, haccess.ismem, Bool.true_or]
  · have hf : g.core.fastMem = true := by
      cases hf : g.core.fastMem <;> simp [hf] at h ⊢
    obtain ⟨hwaits, hlast⟩ := flight_of_fast hr hb (hfast hf) rfl haccess.memaccess
    rw [hf, if_pos rfl]
    exact ⟨hwaits, hlast, by simp⟩

theorem stage_of_executing_access (hr : i.core.sreset = false)
    (hs : s.core.control.state = .exec) (hc : s.core.idEx.Coherent)
    (haccess : s.core.idEx.HasAccess) (hport : PortQuiet g s) (hb : s.bus.Idle g.bus) :
    BusStage g (s.step g io i) ((Flight.current last (s.request g i)).map Flight.older) := by
  have hd : s.core.indebug = false := by simp [Core.indebug, hs]
  obtain ⟨hmd, hwfi, hmret, hplain⟩ := hc.mem haccess.ismem
  have hpen : s.core.penalty = false := Core.penalty_plain hplain
  have hn : s.core.stateNext g.core (s.coreInput g i) =
      s.core.execNext g.core (s.coreInput g i) := by
    rw [Core.stateNext, hs]
  rw [Core.execNext, hwfi, hmret, hpen, haccess.ismem, hmd] at hn
  simp only [Bool.false_eq_true, if_false, Bool.true_and, Bool.not_eq_true'] at hn
  have hslow (hf : g.core.fastMem = false) : (s.response g i).lines = .silent := by
    refine DataBus.lines_idle hb ?_
    rw [request, Core.busRequest, hf, if_neg Bool.false_ne_true]
    exact hport hf
  split_ifs at hn with htrig htrap hready
  · refine .halted ((step_state hr).trans hn) ?_
    rw [Core.triggers, Bool.and_eq_true] at htrig
    exact htrig.1
  · exact stage_trapping hr hd htrap hn
  · have htrig' : s.core.stallOnTrigger g.core (s.coreInput g i) = false := by
      rw [Core.stallOnTrigger_eq, hs]
      simpa using htrig
    have htrap' : s.core.trapRequest g.core (s.coreInput g i) = false := by simpa using htrap
    have ha : s.core.advance g.core (s.coreInput g i) = .stall := by
      rw [Core.advance_eq_stall_iff, Core.stall_eq, hs]
      exact ⟨htrig', htrap', by simp [haccess.ismem, hready]⟩
    exact .waiting _ _ ((step_state hr).trans hn)
      (waiting_of_executing hr hs hplain haccess hport hb htrig' htrap' hready ha)
  · have htrig' : s.core.stallOnTrigger g.core (s.coreInput g i) = false := by
      rw [Core.stallOnTrigger_eq, hs]
      simpa using htrig
    have htrap' : s.core.trapRequest g.core (s.coreInput g i) = false := by simpa using htrap
    have hready' : (s.response g i).ready = true := Bool.eq_true_of_not_eq_false hready
    have hf : g.core.fastMem = true := by
      by_contra hf
      have := congrArg Lines.ready (hslow (by simpa using hf))
      simp [BusResponse.lines, hready', Lines.silent] at this
    have hreq := request_fast hf hs hpen htrig' htrap' haccess.ismem
    have hans := answers_executing hb hreq haccess
    have hlatency : g.bus.latency (s.request g i) = 0 := by
      rcases answers_cases hans (by rw [hreq]; exact haccess.memaccess)
        (error_of_trapRequest htrap') with h | h
      · exact h.1.symm
      · rw [h.2] at hready'
        cases hready'
    refine .executing ((step_state hr).trans hn) ?_ (fun h => absurd hf (by simp [h])) ?_
    · rw [step_idEx hr]
      refine Core.ready_nextIdEx (.inr ?_)
      simp [Core.leaves, htrig', htrap', Core.stall_eq, hs, hmd, show
        (s.coreInput g i).bus.ready = true from hready']
    · obtain ⟨f, hbus⟩ : ∃ f, (s.step g io i).bus =
        s.bus.clock g.bus (s.request g i) i.bus f false := step_bus hr
      rw [hbus]
      exact DataBus.idle_of_waits (DataBus.waits_one hb.io) (by omega)

/-! ## The waiting state -/

/-- While the core waits, its request is the access that was strobed, and the strobe is seen in the
first clock only. -/
theorem request_of_waiting {q : BusRequest} {age : ℕ} (hs : s.core.control.state = .mem)
    (hdm : i.core.dm.stb = false) (hw : Waiting g s last q age) :
    (s.request g i).addr = q.addr ∧ (s.request g i).size = q.size ∧
      (s.request g i).stb = decide (age = 0) ∧ (age = 0 → s.request g i = q) := by
  have hd : s.core.indebug = false := by simp [Core.indebug, hs]
  have hpen : s.core.penalty = false := Core.penalty_plain hw.plain
  rw [request, Core.busRequest]
  cases hf : g.core.fastMem with
  | false =>
    rw [if_neg Bool.false_ne_true]
    rcases Nat.eq_zero_or_pos age with rfl | hpos
    · obtain ⟨-, -, hbus⟩ := hw.strobe rfl
      simp [hbus, hw.stb]
    · rw [(hw.flight hpos).2.2 hf]
      simp [Nat.ne_of_gt hpos]
  | true =>
    have hpos : 0 < age := by
      by_contra h
      simp [(hw.strobe (by omega)).2.1] at hf
    have hint : s.core.interrupt i.core = none :=
      Core.interrupt_eq_none _ _ (by rw [Core.mayInterrupt_eq, hs])
    have hdis : s.core.fastDisable g.core i.core = false := by
      simp [Core.fastDisable, Core.flush_eq, hs, hpen, hint, Core.stallOnTrigger_eq]
    rw [if_pos rfl, hdis, busAccess_enabled hd, hw.ismem, hdm]
    simp [hw.addr, hw.size, Nat.ne_of_gt hpos]

theorem answers_waiting {q : BusRequest} {age : ℕ} (hs : s.core.control.state = .mem)
    (hdm : i.core.dm.stb = false) (hw : Waiting g s last q age) :
    g.bus.Answers q age (s.response g i).lines := by
  obtain ⟨haddr, hsize, hstb, hreq⟩ := request_of_waiting hs hdm hw
  rcases Nat.eq_zero_or_pos age with rfl | hpos
  · rw [response, hreq rfl]
    exact DataBus.answers_strobe (hw.strobe rfl).1 hw.stb hw.access.1 hw.access.2
  · exact DataBus.answers_wait (hw.flight hpos).1 hpos hw.inTime hw.stb hw.access.1 hw.access.2
      (by simpa [Nat.ne_of_gt hpos] using hstb) haddr hsize

/-- The access of this clock or of an earlier one, as the observer has it. -/
theorem current_of_waiting {q : BusRequest} {age : ℕ} (hs : s.core.control.state = .mem)
    (hdm : i.core.dm.stb = false) (hw : Waiting g s last q age) :
    Flight.current last (s.request g i) = some ⟨q, age⟩ := by
  obtain ⟨-, -, hstb, hreq⟩ := request_of_waiting hs hdm hw
  rcases Nat.eq_zero_or_pos age with rfl | hpos
  · simp [hreq rfl, Flight.current, BusRequest.strobes, hw.stb, hw.access.1]
  · have hno : (s.request g i).strobes = false := by
      simp [BusRequest.strobes, hstb, Nat.ne_of_gt hpos]
    rw [Flight.current, hno, if_neg Bool.false_ne_true, (hw.flight hpos).2.1]

/-- An access that is strobed once waits one more clock. -/
theorem waits_of_strobe {q : BusRequest} {age : ℕ} (hr : i.core.sreset = false)
    (hstb : (s.request g i).stb = decide (age = 0)) (hreq : age = 0 → s.request g i = q)
    (hidle : age = 0 → s.bus.Idle g.bus) (hflight : 0 < age → s.bus.Waits g.bus q age) :
    (s.step g io i).bus.Waits g.bus q (age + 1) := by
  obtain ⟨f, hbus⟩ : ∃ f, (s.step g io i).bus =
    s.bus.clock g.bus (s.request g i) i.bus f false := step_bus hr
  rw [hbus]
  rcases Nat.eq_zero_or_pos age with rfl | hpos
  · rw [hreq rfl]
    exact DataBus.waits_one (hidle rfl).io
  · apply DataBus.waits_succ (hflight hpos) hpos
    intro slave
    simp [AddressMap.memRequest, hstb, Nat.ne_of_gt hpos]

/-- One more clock on the bus. -/
theorem waits_step {q : BusRequest} {age : ℕ} (hr : i.core.sreset = false)
    (hs : s.core.control.state = .mem) (hdm : i.core.dm.stb = false)
    (hw : Waiting g s last q age) : (s.step g io i).bus.Waits g.bus q (age + 1) := by
  obtain ⟨-, -, hstb, hreq⟩ := request_of_waiting hs hdm hw
  exact waits_of_strobe hr hstb hreq (fun h => (hw.strobe h).1) fun h => (hw.flight h).1

/-- The registered interface holds the access without the strobe. -/
theorem nextBus_of_waiting {q : BusRequest} {age : ℕ} (hf : g.core.fastMem = false)
    (hs : s.core.control.state = .mem) (hdm : i.core.dm.stb = false)
    (hw : Waiting g s last q age)
    (htrap : s.core.trapRequest g.core (s.coreInput g i) = false) :
    s.core.nextBus g.core (s.coreInput g i) =
      { q with stb := false, data := s.core.operandB } := by
  have hd : s.core.indebug = false := by simp [Core.indebug, hs]
  have hpen : s.core.penalty = false := Core.penalty_plain hw.plain
  have hdis : s.core.slowDisable g.core (s.coreInput g i) = false := by
    simp [Core.slowDisable, Core.flush_eq, hs, hpen, htrap, Core.stallOnTrigger_eq]
  rw [Core.nextBus, hf, if_neg Bool.false_ne_true, hdis, busAccess_enabled hd, hw.ismem,
    hw.acc, hw.size, hw.addr, show (s.coreInput g i).dm.stb = false from hdm]
  rfl

/-- The core still waits. -/
theorem waiting_of_waiting {q : BusRequest} {age : ℕ} (hr : i.core.sreset = false)
    (hs : s.core.control.state = .mem) (hdm : i.core.dm.stb = false)
    (hw : Waiting g s last q age)
    (htrap : s.core.trapRequest g.core (s.coreInput g i) = false)
    (hready : (s.coreInput g i).bus.ready = false) :
    Waiting g (s.step g io i) ((Flight.current last (s.request g i)).map Flight.older) q
      (age + 1) := by
  have ha : s.core.advance g.core (s.coreInput g i) = .stall := by
    rw [Core.advance_eq_stall_iff, Core.stall_eq, hs, Core.stallOnTrigger_eq, hs]
    exact ⟨rfl, htrap, by simp [hready]⟩
  have hid : (s.step g io i).core.idEx = s.core.nextIdEx g.core (s.coreInput g i) := step_idEx hr
  rw [Core.nextIdEx_eq, ha] at hid
  have hop : (s.step g io i).core.operandA = s.core.operandA := operandA_of_stall hr ha
  refine ⟨by rw [hid]; exact hw.plain, by rw [hid]; rfl, hw.stb, by rw [hid]; exact hw.acc,
    by rw [hid]; exact hw.size, by rw [hid, hop]; exact hw.addr, hw.access, ?_, nofun,
    fun _ => ⟨waits_step hr hs hdm hw, ?_, fun hf => ?_⟩⟩
  · rcases answers_cases (answers_waiting hs hdm hw) hw.access.1
      (error_of_trapRequest htrap) with h | h
    · exact absurd h.2.1 (by rw [show (s.response g i).ready = false from hready]; simp)
    · exact Nat.lt_of_le_of_ne hw.inTime h.1
  · rw [current_of_waiting hs hdm hw]
    rfl
  · rw [step_core hr, Core.clock_bus, nextBus_of_waiting hf hs hdm hw htrap]

theorem stage_of_waiting {q : BusRequest} {age : ℕ} (hr : i.core.sreset = false)
    (hs : s.core.control.state = .mem) (hdm : i.core.dm.stb = false)
    (hw : Waiting g s last q age) :
    BusStage g (s.step g io i) ((Flight.current last (s.request g i)).map Flight.older) := by
  have hd : s.core.indebug = false := by simp [Core.indebug, hs]
  have hpen : s.core.penalty = false := Core.penalty_plain hw.plain
  have htrig : s.core.stallOnTrigger g.core (s.coreInput g i) = false := by
    rw [Core.stallOnTrigger_eq, hs]
  have hstate : s.core.stateNext g.core (s.coreInput g i) =
      if s.core.trapRequest g.core (s.coreInput g i) then .trap
      else if (s.coreInput g i).bus.ready then .exec else .mem := by
    rw [Core.stateNext, hs]
  have hans := answers_waiting hs hdm hw
  have hwaits : (s.step g io i).bus.Waits g.bus q (age + 1) := waits_step hr hs hdm hw
  split_ifs at hstate with htrap hready
  · exact stage_trapping hr hd htrap hstate
  · have htrap' : s.core.trapRequest g.core (s.coreInput g i) = false := by simpa using htrap
    rcases answers_cases hans hw.access.1 (error_of_trapRequest htrap') with h | h
    · refine .executing ((step_state hr).trans hstate) ?_ (fun hf hact => ?_)
        (DataBus.idle_of_waits hwaits (by omega))
      · rw [step_idEx hr]
        refine Core.ready_nextIdEx (.inr ?_)
        simp [Core.leaves, htrig, htrap', Core.stall_eq, hs, hready]
      · rw [step_core hr, Core.clock_bus, nextBus_of_waiting hf hs hdm hw htrap'] at hact
        -- An access to unimplemented memory is not answered with `ready` alone.
        have hsel : g.bus.map.select q.addr = none := hact.2.resolve_left Bool.false_ne_true
        simp [BusGenerics.verdict, BusGenerics.refuses, hsel] at h
    · exact absurd h.2 (by rw [show (s.response g i).ready = true from hready]; simp)
  · exact .waiting q (age + 1) ((step_state hr).trans hstate)
      (waiting_of_waiting hr hs hdm hw (by simpa using htrap) (by simpa using hready))

/-! ## Runs -/

theorem busInv_initial (nRom nBoot nRam : ℕ) (le se : Bool) :
    BusInv g (initial g nRom nBoot nRam le se) none where
  coherent := .of_inert rfl rfl rfl
  halted h := by cases h
  ack1 h := by cases h
  ack2 h := by cases h
  stage := by
    refine .booting rfl ⟨rfl, rfl, rfl⟩ (fun _ h => h.1 rfl) ⟨fun slave => ?_, fun _ => rfl⟩
    cases slave <;> rfl

/-- The Debug Module makes no strobe while the core waits. -/
theorem dm_quiet (hinv : BusInv g s last) (hsafe : DmChecks s i)
    (hs : s.core.control.state = .mem) : i.core.dm.stb = false := by
  by_contra h
  have := hinv.ack2 (hsafe (by simpa using h))
  simp [hs] at this

theorem busInv_step (hinv : BusInv g s last) (hsafe : DmChecks s i) :
    BusInv g (s.step g io i) ((Flight.current last (s.request g i)).map Flight.older) := by
  cases hr : i.core.sreset with
  | true =>
    have hcore : (s.step g io i).core = { Core.initial g.core with
        regs := s.core.nextRegs g.core io (s.coreInput g i) } :=
      Core.step_reset _ _ _ _ hr
    have hstate : (s.step g io i).core.control.state = .boot0 := by
      rw [hcore]
      rfl
    refine ⟨Core.coherent_step, fun h => ?_, fun _ => .inr (.inr hstate),
      fun _ => .inr (.inr (.inr (.inl hstate))), ?_⟩
    · rw [hcore] at h
      cases h
    · refine .booting hstate (by rw [hcore]; exact ⟨rfl, rfl, rfl⟩) (fun _ h => ?_) ?_
      · rw [hcore] at h
        exact h.1 rfl
      · rw [step, hr]
        refine ⟨fun slave => ?_, fun _ => rfl⟩
        cases slave <;> rfl
  | false =>
    have hnext : (s.step g io i).core.control.state =
        s.core.stateNext g.core (s.coreInput g i) := step_state hr
    refine ⟨Core.coherent_step, fun h => ?_, fun h => ?_, fun h => ?_, ?_⟩
    · rw [hnext]
      rw [step_core hr] at h
      exact Core.nextControl_haltAck hinv.halted h
    · rw [hnext, Core.stateNext, hinv.halted h]
      cases (s.coreInput g i).resumeReq <;> simp
    · rw [hnext, Core.stateNext]
      rcases hinv.ack1 h with hs | hs | hs <;> rw [hs]
      · cases (s.coreInput g i).resumeReq <;> simp
      · simp
      · simp
    · cases hinv.stage with
      | booting hs hfree hport hb => exact stage_of_booting hr hs hfree hport hb
      | resting hs hfree hport hb => exact stage_of_resting hr hs hfree hport hb
      | executing hs hready hport hb =>
        cases hready with
        | free h =>
          exact stage_of_executing_free hr hs hinv.coherent h.memaccess h.ismem
            (fun hm => by rw [h.mret] at hm; cases hm) hport hb
        | mret hacc hmem hop =>
          exact stage_of_executing_free hr hs hinv.coherent hacc hmem (fun _ => hop) hport hb
        | access h => exact stage_of_executing_access hr hs hinv.coherent h hport hb
      | waiting q age hs hw => exact stage_of_waiting hr hs (dm_quiet hinv hsafe hs) hw
      | sleeping hs => exact stage_of_sleeping hr hs
      | trapping hs hport => exact stage_of_trapping hr hs hport
      | trapped hs hport hb hbuffer hslot => exact stage_of_trapped hr hs hport hb hbuffer hslot
      | halted hs ho => exact stage_of_halted hr hs ho
      | resuming hs hfree => exact stage_of_resuming hr hs hfree
      | resuming2 hs hfree hport => exact stage_of_resuming2 hr hs hfree hport
      | resuming3 hs hfree hport hb => exact stage_of_resuming3 hr hs hfree hport hb

theorem busInv_of_reachable {nRom nBoot nRam : ℕ} {le se : Bool}
    {p : System nRom nBoot nRam × Option Flight}
    (h : (tracked g io nRom nBoot nRam le se).Reachable (fun p i => DmChecks p.1 i) p) :
    BusInv g p.1 p.2 := by
  induction h with
  | init => exact busInv_initial nRom nBoot nRam le se
  | step i _ hsafe ih => exact busInv_step ih hsafe

/-! ## Every access terminates -/

/-- `q` is the access of the instruction in the execute stage. -/
structure IsExecuted (s : System nRom nBoot nRam) (q : BusRequest) : Prop where
  acc : q.acc = s.core.idEx.memaccess
  size : q.size = s.core.idEx.memsize
  addr : q.addr = s.core.operandA + s.core.idEx.imm
  access : q.acc ≠ .nop ∧ q.size ≠ .unknown

/-- Every access is answered in time, with an answer of its own. -/
structure Terminates (g : SystemGenerics) (s : System nRom nBoot nRam) (last : Option Flight)
    (i : SystemInput) : Prop where
  /-- A strobe goes to the addressed slave only. -/
  slave : ∀ slave, (g.bus.map.memRequest (s.request g i) slave).stb = true ↔
    (s.request g i).strobes = true ∧ g.bus.map.select (s.request g i).addr = some slave
  /-- A strobe in the I/O region goes to the addressed device only. -/
  device : ∀ k, (IoBusSwitch.devRequest (g.bus.map.memRequestIo (s.request g i)) k).stb = true ↔
    (s.request g i).strobes = true ∧ g.bus.map.select (s.request g i).addr = some .io ∧
      IoBusSwitch.deviceOf (s.request g i).addr = k
  /-- While the core waits, its access was strobed at most two clocks ago and the answer is present
  or in flight. -/
  waits : s.core.control.state = .mem → ∃ f, Flight.current last (s.request g i) = some f ∧
    IsExecuted s f.request ∧ f.age ≤ g.bus.latency f.request ∧ g.bus.latency f.request ≤ 2 ∧
      g.bus.Answers f.request f.age (s.response g i).lines
  /-- The core waits no longer than for the answer. -/
  taken : s.core.control.state = .mem → (s.response g i).lines ≠ .silent →
    s.core.stateNext g.core (s.coreInput g i) ≠ .mem
  /-- In the clock of a strobe there is no answer but the one to the strobed access. -/
  strobes : s.core.control.state = .exec → (s.request g i).strobes = true →
    IsExecuted s (s.request g i) ∧ g.bus.Answers (s.request g i) 0 (s.response g i).lines
  /-- Before the strobe there is no answer. -/
  quiet : s.core.control.state = .exec → (s.request g i).strobes = false →
    (s.response g i).lines = .silent

theorem stb_iff_strobes {map : AddressMap} {q : BusRequest} {slave : Slave} :
    (map.memRequest q slave).stb = true ↔ q.strobes = true ∧ map.select q.addr = some slave := by
  simp only [AddressMap.memRequest, BusRequest.strobes, Bool.and_eq_true, decide_eq_true_eq]
  tauto

theorem devRequest_stb_iff {map : AddressMap} {q : BusRequest} {k : Fin 16} :
    (IoBusSwitch.devRequest (map.memRequestIo q) k).stb = true ↔ q.strobes = true ∧
      map.select q.addr = some .io ∧ IoBusSwitch.deviceOf q.addr = k := by
  rw [IoBusSwitch.devRequest, Bool.and_eq_true, AddressMap.memRequestIo, stb_iff_strobes,
    decide_eq_true_eq]
  exact and_assoc

/-- Behind a quiet registered interface only the execute stage makes requests, and it strobes
them. -/
theorem isExecuted_of_active (hd : s.core.indebug = false) (hready : s.core.idEx.Ready)
    (hport : PortQuiet g s) (h : g.bus.Active (s.request g i)) :
    (s.request g i).stb = true ∧ IsExecuted s (s.request g i) := by
  rw [request, Core.busRequest] at h ⊢
  split_ifs at h ⊢ with hf
  · have hacc := h.1
    rw [Core.busAccess_acc hd] at hacc
    cases hdis : s.core.fastDisable g.core i.core with
    | true => simp [hdis] at hacc
    | false =>
      simp only [hdis, Bool.false_eq_true, if_false] at hacc
      have haccess : s.core.idEx.HasAccess := by
        cases hready with
        | free hfree => exact absurd hfree.memaccess hacc
        | mret hnop => exact absurd hnop hacc
        | access ha => exact ha
      rw [busAccess_enabled hd, haccess.ismem]
      exact ⟨rfl, rfl, rfl, rfl, haccess.memaccess, haccess.memsize⟩
  · exact absurd h (hport (by simpa using hf))

theorem terminates_of_busInv (hinv : BusInv g s last) (hsafe : DmChecks s i) :
    Terminates g s last i where
  slave _ := stb_iff_strobes
  device _ := devRequest_stb_iff
  waits hs := by
    cases hinv.stage with
    | waiting q age _ hw =>
      have hdm := dm_quiet hinv hsafe hs
      exact ⟨⟨q, age⟩, current_of_waiting hs hdm hw, ⟨hw.acc, hw.size, hw.addr, hw.access⟩,
        hw.inTime, g.bus.latency_le_two q, answers_waiting hs hdm hw⟩
    | resting h => simp [hs, atRest] at h
    | booting h | executing h | sleeping h | trapping h | trapped h | halted h | resuming h
    | resuming2 h | resuming3 h => rw [hs] at h; cases h
  taken hs hl hn := by
    have hstate : s.core.stateNext g.core (s.coreInput g i) =
        if s.core.trapRequest g.core (s.coreInput g i) then .trap
        else if (s.coreInput g i).bus.ready then .exec else .mem := by
      rw [Core.stateNext, hs]
    rw [hstate] at hn
    split_ifs at hn with htrap hready
    have he := error_of_trapRequest (by simpa using htrap)
    have hr : (s.response g i).ready = false := Bool.eq_false_of_not_eq_true hready
    simp only [BusResponse.error, Bool.or_eq_false_iff] at he
    exact hl (by simp [BusResponse.lines, Lines.silent, hr, he])
  strobes hs hq := by
    cases hinv.stage with
    | executing _ hready hport hb =>
      rw [BusRequest.strobes, Bool.and_eq_true, decide_eq_true_eq] at hq
      obtain ⟨hstb, hx⟩ := isExecuted_of_active (by simp [Core.indebug, hs]) hready hport
        ⟨hq.2, .inl hq.1⟩
      exact ⟨hx, DataBus.answers_strobe hb hstb hx.access.1 hx.access.2⟩
    | resting h => simp [hs, atRest] at h
    | booting h | waiting _ _ h | sleeping h | trapping h | trapped h | halted h | resuming h
    | resuming2 h | resuming3 h => rw [hs] at h; cases h
  quiet hs hq := by
    cases hinv.stage with
    | executing _ hready hport hb =>
      refine DataBus.lines_idle hb fun hact => ?_
      have hstb := (isExecuted_of_active (by simp [Core.indebug, hs]) hready hport hact).1
      simp [BusRequest.strobes, hstb, hact.1] at hq
    | resting h => simp [hs, atRest] at h
    | booting h | waiting _ _ h | sleeping h | trapping h | trapped h | halted h | resuming h
    | resuming2 h | resuming3 h => rw [hs] at h; cases h

/-- In every run in which the Debug Module accesses a halted core only, every data access of an
instruction is answered at the latest two clocks after its strobe, by the addressed slave or device,
with exactly one error or with `ready` and no error, and no answer is left for a later access. -/
theorem bus_terminates (g : SystemGenerics) (io : Peripherals) {nRom nBoot nRam : ℕ} {le se : Bool}
    {s : System nRom nBoot nRam} {last : Option Flight}
    (h : (tracked g io nRom nBoot nRam le se).Reachable (fun p i => DmChecks p.1 i) (s, last))
    {i : SystemInput} (hsafe : DmChecks s i) : Terminates g s last i :=
  terminates_of_busInv (busInv_of_reachable h) hsafe

/-- Small memories and a buffer for the I/O responses. -/
def bufferedIo : SystemGenerics where
  core := { Generics.plain with bufferIoResponse := true }
  bus := ⟨⟨false, 0x0, 0x1, 0x2, 0xf⟩, true, ⟨true, true, [], false⟩, ⟨true, false, [], false⟩,
    ⟨false, true, [], false⟩⟩
  buffer := rfl

/-- A clock in which the instruction memory delivers a word. -/
def fetched (w : DataType) : SystemInput where
  core := ⟨false, ⟨w, false⟩, .silent, 0, 0, 0, .idle, false, false, false, 0⟩
  bus := ⟨fun _ => 0, 0⟩

/-- `lui x9, 0xf0000; lw x1, 0(x9)`, two clocks after the strobe of the load. -/
def loadingIo : System 2 2 2 × Option Flight :=
  (tracked bufferedIo .none 2 2 2 false false).run
    ([0, 0xf00004b7, 0x0004a083, 0, 0, 0].map fetched)

theorem loadingIo_reachable : (tracked bufferedIo .none 2 2 2 false false).Reachable
    (fun p i => DmChecks p.1 i) (loadingIo.1, loadingIo.2) :=
  Machine.Reachable.init.runFrom_of_meets (by decide +kernel)

theorem buffered_load_is_answered :
    (loadingIo.1.response bufferedIo (fetched 0)).lines.Shows .read .ready := by
  obtain ⟨f, hf, -, -, -, hanswer⟩ :=
    (bus_terminates bufferedIo .none (s := loadingIo.1) (i := fetched 0) loadingIo_reachable
      (by decide +kernel)).waits (by decide +kernel)
  have hflight : Flight.current loadingIo.2 (loadingIo.1.request bufferedIo (fetched 0)) =
      some ⟨⟨true, .read, .word, 0xf0000000, 0⟩, 2⟩ := by decide +kernel
  obtain rfl := Option.some_injective _ (hf.symm.trans hflight)
  rwa [BusGenerics.Answers, if_pos (by decide +kernel),
    show bufferedIo.bus.verdict ⟨true, .read, .word, 0xf0000000, 0⟩ = .ready by decide +kernel]
    at hanswer

end System

end ThuasRiscv
