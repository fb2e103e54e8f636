import ThuasRiscv.Core.HardwareBreakpoint
import ThuasRiscv.Core.MdConfinement
import ThuasRiscv.Core.PreciseResume
import ThuasRiscv.Debug.HaltedHart

/-!
# Single step

With `dcsr.step` set a resume fetches the instruction at `dpc`, executes it or
takes its trap, and the next executing cycle stops the core again. Every class
of instructions takes its own path through the controller, but all of them come
back to an executing cycle with the next instruction in the execute stage.
-/

namespace ThuasRiscv

open Transition

/-- An instruction that completes or traps. -/
structure Event where
  instr : Option Instr
  /-- The cause, if it traps. -/
  mcause : Option DataType
  /-- The address of the next instruction, which is the one of the handler after a trap. -/
  next : DataType

namespace Observer

/-- The event of one clock: a trap entry or the commit of an instruction. -/
def event (cfg : Generics) (s : Core) (i : CoreInput) (o : Observer) : Option Event :=
  if s.stateNext cfg i = .trap then
    some ⟨o.slot, some (s.trapMcause cfg i), (s.nextCsr cfg i).mtvecToPc cfg⟩
  else (o.commits cfg s i).map fun x =>
    ⟨some x, none, x.decoded.successor s.operandA s.penalty s.csr.mepc⟩

/-- The events of the first clocks of a run. -/
def events (cfg : Generics) (run : ℕ → Core × Observer) (i : ℕ → CoreInput) (n : ℕ) :
    List Event :=
  (List.range n).filterMap fun k => (run k).2.event cfg (run k).1 (i k)

end Observer

namespace Core

section Definitions

variable (cfg : Generics) (io : Peripherals)

/-- The execute stage accesses the bus, writes a CSR or a register, or starts the MD unit. -/
def affects (s : Core) (i : CoreInput) : Bool :=
  s.accessesBus cfg i || s.writesCsr cfg i || s.startsMd cfg i || (s.regWrite cfg io i).isSome

/-- The cause in `dcsr` of a stop in the executing state while stepping. -/
def stopCause (s : Core) (i : CoreInput) : BitVec 3 :=
  if i.haltReq then 0b011
  else if s.bpmatch && !s.control.skipMatch then 0b010
  else if s.idEx.ebreakRequest && s.ebreakm then 0b001
  else 0b100

/-- A resume of a halted core with `dcsr.step` set, in any run. -/
structure StepRequest (p : Core × Observer) (r : CoreInput) : Prop where
  reachable : (observed cfg io).Reachable Machine.free p
  debug : p.1.control.state = .debug
  step : p.1.isstepping = true
  resume : r.resumeReq = true
  sreset : r.sreset = false
  dcsr : r.dm.writecsr = true → p.1.csrAddrV r ≠ dcsrAddr

/-- No reset, no fetch that fails outside of the executing state, and no error of the bus without an
access. -/
structure Undisturbed (s : Core) (i : CoreInput) : Prop where
  sreset : i.sreset = false
  fetch : s.control.state ≠ .exec →
    s.instrAccessError.getLsbD 1 = false ∧ s.instructionMisaligned = false
  bus : i.bus.error = true →
    s.control.state = .exec ∧ s.idEx.ismem = true ∨ s.control.state = .mem

instance {s : Core} {i : CoreInput} : Decidable (Undisturbed s i) :=
  decidable_of_iff (i.sreset = false ∧ (s.control.state ≠ .exec →
      s.instrAccessError.getLsbD 1 = false ∧ s.instructionMisaligned = false) ∧
      (i.bus.error = true → s.control.state = .exec ∧ s.idEx.ismem = true ∨
        s.control.state = .mem))
    ⟨fun h => ⟨h.1, h.2.1, h.2.2⟩, fun h => ⟨h.1, h.2, h.3⟩⟩

/-- The core has not come back to debug mode. -/
def Away (run : ℕ → Core × Observer) (n : ℕ) : Prop :=
  ∀ k, 0 < k → k ≤ n → (run k).1.control.state ≠ .debug

/-- The instruction at `dpc` is not stopped before it executes, and until the core is back in debug
mode nothing but this instruction raises an exception and every access is answered. -/
structure StepSafe (run : ℕ → Core × Observer) (i : ℕ → CoreInput) : Prop where
  starts : (run 4).1.triggers cfg (i 4) = false
  undisturbed : ∀ n, 0 < n → Away run n → Undisturbed (run n).1 (i n)
  answered : ∀ n, 0 < n → Away run n → (run n).1.control.state = .mem →
    ∃ k, n ≤ k ∧ ((i k).bus.ready = true ∨ (i k).bus.error = true)

/-- Between a resume and the stop in clock `n` exactly the instruction `x` at `dpc` is executed, or
trapped, and the core comes back to debug mode with the next address in `dpc`. -/
structure StepsOnce (run : ℕ → Core × Observer) (i : ℕ → CoreInput) (n : ℕ) (x : Instr)
    (e : Event) : Prop where
  fetched : x.decoded =
    decode cfg (run 3).1.ebreakm true (run 1).1.csr.dpc (i 3).instr.instr
  instr : e.instr = some x
  once : Observer.events cfg run i (n + 1) = [e]
  effects : ∀ k, 0 < k → k ≤ n → (run k).1.affects cfg io (i k) = true → (run k).2.slot = some x
  interrupt : ∀ k, 0 < k → k ≤ n → (run k).1.interrupt (i k) = none
  away : Away run n
  debug : (run (n + 1)).1.control.state = .debug
  saved : (i (n + 1)).sreset = false →
    ((i (n + 1)).dm.writecsr = true → (run (n + 1)).1.csrAddrV (i (n + 1)) ≠ dpcAddr ∧
      (run (n + 1)).1.csrAddrV (i (n + 1)) ≠ dcsrAddr) →
    (run (n + 2)).1.csr.dpc = e.next ∧
      (run (n + 2)).1.csr.dcsr.extractLsb' 6 3 = (run n).1.stopCause (i n)

end Definitions

variable {cfg : Generics} {io : Peripherals} {s : Core} {o : Observer} {i : CoreInput}

/-! ## Events -/

theorem events_succ (run : ℕ → Core × Observer) (i : ℕ → CoreInput) (n : ℕ) :
    Observer.events cfg run i (n + 1) =
      Observer.events cfg run i n ++ ((run n).2.event cfg (run n).1 (i n)).toList := by
  unfold Observer.events
  rw [List.range_succ, List.filterMap_append]
  cases h : (run n).2.event cfg (run n).1 (i n) <;> simp [h]

theorem event_of_idle (h : s.stateNext cfg i ≠ .trap) (hc : o.commits cfg s i = none) :
    o.event cfg s i = none := by
  simp [Observer.event, h, hc]

theorem event_of_trap (h : s.stateNext cfg i = .trap) : o.event cfg s i =
    some ⟨o.slot, some (s.trapMcause cfg i), (s.nextCsr cfg i).mtvecToPc cfg⟩ := by
  simp [Observer.event, h]

theorem event_of_commits (h : s.stateNext cfg i ≠ .trap) {x : Instr}
    (hc : o.commits cfg s i = some x) : o.event cfg s i =
      some ⟨some x, none, x.decoded.successor s.operandA s.penalty s.csr.mepc⟩ := by
  simp [Observer.event, h, hc]

/-- The observer continues at the address of the event. -/
theorem nextNpc_of_event {e : Event} (hl : s.control.loadPc = false)
    (h : o.event cfg s i = some e) : o.nextNpc cfg s i = e.next := by
  by_cases hn : s.stateNext cfg i = .trap
  · rw [event_of_trap hn] at h
    cases h
    exact nextNpc_of_trap hn
  · cases hc : o.commits cfg s i with
    | none =>
      rw [event_of_idle hn hc] at h
      cases h
    | some x =>
      rw [event_of_commits hn hc] at h
      cases h
      exact nextNpc_of_commits hn hl hc

/-! ## What stays while stepping -/

theorem nextCsr_isstepping (ho : cfg.haveOcd = true)
    (hw : s.indebug = true → i.dm.writecsr = true → s.csrAddrV i ≠ dcsrAddr) :
    (s.nextCsr cfg i).dcsr.getLsbD 2 = s.isstepping := by
  refine CsrReg.getLsbD_next_dcsr ho (fun h => ?_) (by decide) (by decide) (by decide)
  simp only [CsrSignals.debugWrites, csrSignals, Bool.and_eq_true] at h
  exact hw h.1.1 h.1.2

/-- No interrupt is served while stepping. -/
theorem interrupt_of_stepping (h : s.isstepping = true) : s.interrupt i = none := by
  have hl : s.localInterrupt i = none := by simp [localInterrupt, interruptible, h]
  simp [interrupt, interruptible, h, hl]

theorem execControl_step : (s.execControl cfg i).step = false := by
  unfold execControl
  simp only [apply_ite Control.step, Control.halted, ite_self]

/-- The next executing cycle stops. -/
theorem nextControl_step (h : s.control.state ≠ .debug) (hs : s.control.step = false) :
    (s.nextControl cfg i).step = false := by
  unfold nextControl
  cases hst : s.control.state
  case exec => exact execControl_step
  case debug => exact absurd hst h
  all_goals
    simp only [apply_ite Control.step, Control.halted, idleControl, hs, ite_self]

/-- The first executing cycle does not stop. -/
theorem nextControl_step_of_resume (h : s.control.state = .debug) (hr : i.resumeReq = true) :
    (s.nextControl cfg i).step = s.isstepping := by
  simp [nextControl, h, hr, Control.resumed]

theorem nextControl_step_of_flush (h : s.control.state = .debugflush ∨
    s.control.state = .debugflush2 ∨ s.control.state = .debugflush3) :
    (s.nextControl cfg i).step = s.control.step := by
  rcases h with h | h | h <;> simp [nextControl, h, idleControl]

/-! ## Empty slots -/

end Core

/-- Nothing in the slot has an effect. -/
structure IdEx.Empty (d : IdEx) : Prop where
  ismem : d.ismem = false
  mdStart : d.mdStart = false
  csrOp : d.csrOp = .nop
  rdEn : d.rdEn = false

namespace Core

variable {cfg : Generics} {io : Peripherals} {s : Core} {o : Observer} {i : CoreInput}

theorem empty_nextIdEx (h : s.advance cfg i = .trigger ∨ s.advance cfg i = .trap ∨
    s.advance cfg i = .bubble) : (s.nextIdEx cfg i).Empty := by
  rw [nextIdEx_eq]
  rcases h with h | h | h <;> rw [h] <;> exact ⟨rfl, rfl, rfl, rfl⟩

theorem affects_of_empty (h : s.idEx.Empty) (hd : s.indebug = false) :
    s.affects cfg io i = false := by
  simp [affects, accessesBus, writesCsr, CsrSignals.writes, csrSignals, startsMd, regWrite, h.ismem,
    h.mdStart, h.csrOp, h.rdEn, hd]

theorem affects_of_trigger (h : s.stallOnTrigger cfg i = true) (hd : s.indebug = false) :
    s.affects cfg io i = false := by
  simp [affects, accessesBus, fastDisable, slowDisable, writesCsr, CsrSignals.writes, csrSignals,
    startsMd, regWrite, h, hd]

/-! ## One clock while stepping -/

/-- The pipeline between a resume and the next stop. -/
structure Stepping (cfg : Generics) (s : Core) (o : Observer) : Prop where
  resume : ResumeInv cfg s o
  haveOcd : cfg.haveOcd = true
  isstepping : s.isstepping = true
  awake : s.control.state ≠ .wfi
  running : s.control.state ≠ .debug
  filled : s.control.state = .exec → o.slot ≠ none

theorem Stepping.indebug (h : Stepping cfg s o) : s.indebug = false := by
  simp [Core.indebug, h.running]

theorem Undisturbed.trapSafe (h : Undisturbed s i) (hw : s.control.state ≠ .wfi) :
    TrapSafe cfg s i where
  ignored _ hacc := by
    have hne : s.control.state ≠ .exec := by
      intro hs
      simp [hs, acceptsTrap] at hacc
    have hbus : i.bus.error = false := by
      by_contra he
      rcases h.bus (by simpa using he) with ⟨hs, -⟩ | hs <;> simp [hs, acceptsTrap] at hacc
    rw [strayException, (h.fetch hne).1, (h.fetch hne).2, hbus]
    rfl
  halt _ hs := absurd hs hw

theorem Stepping.safe (h : Stepping cfg s o) (hu : Undisturbed s i) :
    ResumeSafe cfg (s, o) i where
  pipeline := {
    trap := hu.trapSafe h.awake
    empty := fun _ hs hslot => absurd hslot (h.filled hs) }
  sleep _ hs := absurd hs h.awake
  aligned _ hi := by
    rw [interrupt_of_stepping h.isstepping] at hi
    cases hi

theorem Stepping.loadPc (h : Stepping cfg s o) (hs : s.control.state ≠ .debugflush) :
    s.control.loadPc = false :=
  h.resume.pipeline.loadPc_eq_false hs

/-- The trap is recorded when it is entered. -/
theorem Stepping.advance_trap_iff (h : Stepping cfg s o) (hu : Undisturbed s i) :
    s.advance cfg i = .trap ↔ s.stateNext cfg i = .trap :=
  advance_trap_iff_stateNext h.resume.pipeline.trap hu.sreset (hu.trapSafe h.awake)

theorem Stepping.clock_isstepping (h : Stepping cfg s o) :
    (s.clock cfg io i).isstepping = true := by
  have hd := h.indebug
  exact (nextCsr_isstepping h.haveOcd (fun h' => by simp [hd] at h')).trans h.isstepping

theorem Stepping.clock (h : Stepping cfg s o) (hu : Undisturbed s i)
    (hw : s.stateNext cfg i ≠ .wfi) (hd : s.stateNext cfg i ≠ .debug)
    (hf : s.stateNext cfg i = .exec → s.advance cfg i = .decode) :
    Stepping cfg (s.clock cfg io i) (o.clock cfg io s i) where
  resume := resumeInv_clock h.resume hu.sreset (h.safe hu)
  haveOcd := h.haveOcd
  isstepping := h.clock_isstepping
  awake := by rwa [clock_state]
  running := by rwa [clock_state]
  filled hs := by
    change o.nextSlot cfg s i ≠ none
    rw [clock_state] at hs
    simp [Observer.nextSlot, hf hs]

/-! ## The MD unit -/

/-- The MD unit works on the operation that the core waits for. -/
structure MdWaits (cfg : Generics) (s : Core) : Prop where
  haveMuldiv : cfg.haveMuldiv = true
  started : s.idEx.mdStart = false
  unit : s.md.Working cfg ∨ s.md.mulRunning = true

theorem mdWaits_of_start (hm : cfg.haveMuldiv = true)
    (ha : s.advance cfg i = .stall) (hmd : s.idEx.mdStart = true) :
    MdWaits cfg (s.clock cfg io i) where
  haveMuldiv := hm
  started := by rw [clock_idEx, nextIdEx_eq, ha]; rfl
  unit := by
    obtain ⟨htrig, htrap, -⟩ := advance_eq_stall_iff.mp ha
    have hgo : s.startsMd cfg i = true := startsMd_iff.mpr ⟨hmd, htrap, htrig⟩
    rw [clock_md]
    cases hop : s.idEx.mdOp.getLsbD 2 with
    | true => exact .inl (MulDiv.working_of_start (by rw [mdGate_start, hgo, hop]; rfl))
    | false =>
      right
      simp only [nextMd, MulDiv.next, mdGate, hmd, htrap, hop]
      rfl

variable (io) in
/-- Every clock is a step of the division. -/
theorem mdWaits_clock (h : MdWaits cfg s) (ha : s.advance cfg i = .stall)
    (hready : s.mdReady cfg = false) : MdWaits cfg (s.clock cfg io i) ∧
      MulDiv.lastStep cfg - (s.clock cfg io i).md.count < MulDiv.lastStep cfg - s.md.count := by
  have hgate : ((s.mdGate cfg i).start && s.idEx.mdOp.getLsbD 2) = false := by
    simp [mdGate_start, startsMd, h.started]
  simp only [mdReady, MulDiv.ready, h.haveMuldiv, Bool.true_and, Bool.or_eq_false_iff] at hready
  have hw : s.md.Working cfg := h.unit.resolve_right (by simp [hready.2])
  have hnext := hw.next (a := s.operandA) (b := s.operandB) hgate
  rw [hready.1, if_neg (by simp)] at hnext
  refine ⟨⟨h.haveMuldiv, by rw [clock_idEx, nextIdEx_eq, ha]; rfl, .inl hnext⟩, ?_⟩
  have hcount : (s.clock cfg io i).md.count = s.md.count + 1 :=
    hw.next_count hgate hready.1
  have hlast : s.md.count ≠ MulDiv.lastStep cfg := by
    intro hl
    simp [hw.ready.mpr hl] at hready
  have := hw.le
  omega

/-! ## Progress -/

/-- The states between an event and the next executing state. -/
def refills : StateType → Bool
  | .flush | .flush2 | .mret | .mret2 | .trap | .trap2 | .trap3 => true
  | _ => false

/-- The instruction is done. -/
structure Finished (x : Instr) (o : Observer) (l : List Event) (e : Event) : Prop where
  log : l = [e]
  instr : e.instr = some x
  next : e.next = o.npc

/-- How far the instruction has come after its first clock. -/
inductive Progress (cfg : Generics) (x : Instr) (s : Core) (o : Observer) (l : List Event) : Prop
  | waiting : s.control.state = .mem ∨ s.control.state = .md ∧ MdWaits cfg s ∨
    s.control.state = .md2 → o.slot = some x → l = [] → Progress cfg x s o l
  | refilling (e : Event) : refills s.control.state = true → s.idEx.Empty → Finished x o l e →
    Progress cfg x s o l
  | stopping (e : Event) : s.control.state = .exec → Finished x o l e → Progress cfg x s o l

/-- The clocks that are left, without the wait for data. -/
def clocksLeft (cfg : Generics) (s : Core) : ℕ :=
  match s.control.state with
  | .md => 6 + (MulDiv.lastStep cfg - s.md.count)
  | .mem => 6
  | .md2 => 5
  | .trap => 4
  | .trap2 | .flush | .mret => 3
  | .trap3 | .flush2 | .mret2 => 2
  | .exec => 1
  | _ => 0

variable (io) in
/-- An instruction leaves the execute stage with its event. -/
theorem finished_of_advance (h : Stepping cfg s o) (hu : Undisturbed s i)
    (hs : s.control.state ≠ .debugflush) {x : Instr} (hx : o.slot = some x)
    (ha : s.advance cfg i = .trap ∨ s.leaves cfg i = true) :
    ∃ e, Finished x (o.clock cfg io s i) ([] ++ (o.event cfg s i).toList) e := by
  have hload := h.loadPc hs
  by_cases hn : s.stateNext cfg i = .trap
  · have he := event_of_trap (o := o) hn
    refine ⟨_, by rw [he]; rfl, hx, ?_⟩
    exact (nextNpc_of_event hload he).symm
  · have hleave := ha.resolve_left (mt (h.advance_trap_iff hu).mp hn)
    have he := event_of_commits hn ((commits_of_leaves hleave).trans hx)
    refine ⟨_, by rw [he]; rfl, rfl, ?_⟩
    exact (nextNpc_of_event hload he).symm

/-- The waiting instructions do not jump. -/
theorem Stepping.penalty_waiting (h : Stepping cfg s o)
    (hs : s.control.state = .mem ∨ s.control.state = .md ∨ s.control.state = .md2) :
    s.penalty = false := by
  cases h.resume.pipeline.stage with
  | loading _ _ _ _ _ hp => exact penalty_plain hp
  | computing _ _ _ _ hop | computed _ _ _ _ _ hop => exact penalty_md hop
  | target h' | fetched h' =>
    rcases hs with hs | hs | hs <;> simp [hs, atTarget, atFetch] at h'
  | executing _ _ h' | sleeping _ h' | trapping h' | halted h' | resuming h' =>
    rcases hs with hs | hs | hs <;> rw [hs] at h' <;> cases h'

section Slot

variable (h : Stepping cfg s o) (hu : Undisturbed s i) {x : Instr} (hx : o.slot = some x)
include h hu hx

theorem progress_of_trap (hs : s.control.state ≠ .debugflush) (ha : s.advance cfg i = .trap) :
    Stepping cfg (s.clock cfg io i) (o.clock cfg io s i) ∧
      Progress cfg x (s.clock cfg io i) (o.clock cfg io s i)
        ([] ++ (o.event cfg s i).toList) := by
  have hn := (h.advance_trap_iff hu).mp ha
  obtain ⟨e, he⟩ := finished_of_advance io h hu hs hx (.inl ha)
  refine ⟨h.clock hu (by simp [hn]) (by simp [hn]) (by simp [hn]), .refilling e ?_ ?_ he⟩
  · rw [clock_state, hn]
    rfl
  · exact empty_nextIdEx (.inr (.inl ha))

variable (io) in
omit hu in
/-- What the core waits for in the next clock. -/
theorem waits_of_stall (hwait : s.control.state = .md → MdWaits cfg s)
    (ha : s.advance cfg i = .stall) :
    s.stateNext cfg i = .mem ∨
      s.stateNext cfg i = .md ∧ MdWaits cfg (s.clock cfg io i) ∨ s.stateNext cfg i = .md2 := by
  rcases stall_cases h.resume.pipeline.trap.coherent ha with
    ⟨-, -, -, hn⟩ | ⟨hst, hmd, hn⟩ | ⟨-, -, hn⟩ | ⟨hst, hn⟩ | ⟨hst, -⟩
  · exact .inl hn
  · have hm : cfg.haveMuldiv = true := by
      cases h.resume.pipeline.stage with
      | executing _ _ _ _ _ hshape => exact hshape.haveMuldiv_of_mdStart hmd
      | fetched _ hslot => rw [hx] at hslot; cases hslot
      | target h' => simp [hst, atTarget] at h'
      | loading _ h' | computing _ h' | computed _ h' | sleeping _ h' | trapping h' | halted h'
      | resuming h' => rw [hst] at h'; cases h'
    exact .inr (.inl ⟨hn, mdWaits_of_start hm ha hmd⟩)
  · exact .inl hn
  · cases hready : s.mdReady cfg with
    | true => exact .inr (.inr (by rw [hn, hready]; rfl))
    | false =>
      have hnext := (mdWaits_clock io (hwait hst) ha hready).1
      exact .inr (.inl ⟨by rw [hn, hready]; rfl, hnext⟩)
  · exact absurd hst h.awake

theorem progress_of_stall (hwait : s.control.state = .md → MdWaits cfg s)
    (ha : s.advance cfg i = .stall) : Stepping cfg (s.clock cfg io i) (o.clock cfg io s i) ∧
      Progress cfg x (s.clock cfg io i) (o.clock cfg io s i)
        ([] ++ (o.event cfg s i).toList) := by
  have hne : s.stateNext cfg i ≠ .trap := mt (h.advance_trap_iff hu).mpr (by simp [ha])
  have hev : o.event cfg s i = none := event_of_idle hne (commits_of_stall ha)
  have hslot : (o.clock cfg io s i).slot = some x := (nextSlot_of_stall ha).trans hx
  have hstate := waits_of_stall io h hx hwait ha
  refine ⟨h.clock hu ?_ ?_ ?_, .waiting (by rwa [clock_state]) hslot (by rw [hev]; rfl)⟩
  all_goals rcases hstate with hn | ⟨hn, -⟩ | hn <;> simp [hn]

/-- Jumps, taken branches and MRET. -/
theorem progress_of_bubble (hs : s.control.state = .exec ∨ s.control.state = .mem ∨
      s.control.state = .md ∨ s.control.state = .md2)
    (hw : s.control.state = .exec → s.idEx.wfiRequest = false) (ha : s.advance cfg i = .bubble) :
    Stepping cfg (s.clock cfg io i) (o.clock cfg io s i) ∧
      Progress cfg x (s.clock cfg io i) (o.clock cfg io s i)
        ([] ++ (o.event cfg s i).toList) := by
  obtain ⟨hleave, hflush⟩ := advance_eq_bubble_iff.mp ha
  have hexec : s.control.state = .exec := by
    refine hs.resolve_right fun hs => ?_
    have hp : s.penalty = false := h.penalty_waiting hs
    rcases hs with hs | hs | hs <;> simp [flushDecode, flush_eq, hs, hp] at hflush
  have hpen : s.penalty = true := by simpa [flushDecode, flush_eq, hexec] using hflush
  have hn : s.stateNext cfg i = if s.idEx.mretRequest then .mret else .flush := by
    rw [stateNext_of_leaves hexec hleave, hw hexec, hpen, if_neg (by simp), if_pos rfl]
  have hcases : s.stateNext cfg i = .mret ∨ s.stateNext cfg i = .flush := by
    rw [hn]
    exact ite_eq_or_eq _ _ _
  obtain ⟨e, he⟩ := finished_of_advance io h hu (by simp [hexec]) hx (.inr hleave)
  refine ⟨h.clock hu ?_ ?_ ?_, .refilling e ?_ (empty_nextIdEx (.inr (.inr ha))) he⟩
  all_goals
    try rw [clock_state]
    rcases hcases with hn | hn <;> simp [hn, refills]

theorem progress_of_decode (hs : s.control.state ≠ .debugflush)
    (hw : s.control.state = .exec → s.idEx.wfiRequest = false) (ha : s.advance cfg i = .decode) :
    Stepping cfg (s.clock cfg io i) (o.clock cfg io s i) ∧
      Progress cfg x (s.clock cfg io i) (o.clock cfg io s i)
        ([] ++ (o.event cfg s i).toList) := by
  have hleave := (advance_eq_decode_iff.mp ha).1
  have hn : s.stateNext cfg i = .exec := by
    rcases decode_cases h.resume.pipeline.trap ha with hn | ⟨hst, hw', -⟩
    · exact hn
    · rw [hw hst] at hw'
      cases hw'
  obtain ⟨e, he⟩ := finished_of_advance io h hu hs hx (.inr hleave)
  exact ⟨h.clock hu (by simp [hn]) (by simp [hn]) fun _ => ha,
    .stopping e (by rw [clock_state, hn]) he⟩

variable (io) in
/-- One clock of the instruction in the execute stage: it waits or has its event. -/
theorem progress_of_slot (hs : s.control.state = .exec ∨ s.control.state = .mem ∨
      s.control.state = .md ∧ MdWaits cfg s ∨ s.control.state = .md2)
    (htrig : s.stallOnTrigger cfg i = false)
    (hw : s.control.state = .exec → s.idEx.wfiRequest = false) :
    Stepping cfg (s.clock cfg io i) (o.clock cfg io s i) ∧
      Progress cfg x (s.clock cfg io i) (o.clock cfg io s i)
        ([] ++ (o.event cfg s i).toList) := by
  have hne : s.control.state ≠ .debugflush := by
    rcases hs with hs | hs | ⟨hs, -⟩ | hs <;> simp [hs]
  cases ha : s.advance cfg i with
  | trigger => simp [advance_eq_trigger_iff, htrig] at ha
  | trap => exact progress_of_trap h hu hx hne ha
  | stall =>
    refine progress_of_stall h hu hx (fun hst => ?_) ha
    rcases hs with hs | hs | ⟨-, hwait⟩ | hs
    · rw [hst] at hs; cases hs
    · rw [hst] at hs; cases hs
    · exact hwait
    · rw [hst] at hs; cases hs
  | bubble =>
    exact progress_of_bubble h hu hx (hs.imp_right (.imp_right (.imp_left And.left))) hw ha
  | decode => exact progress_of_decode h hu hx hne hw ha

end Slot

/-- The execute stage is empty while the pipeline is filled. -/
theorem Stepping.slot_of_refills (h : Stepping cfg s o) (hs : refills s.control.state = true) :
    o.slot = none := by
  cases h.resume.pipeline.stage with
  | target _ hslot | fetched _ hslot | trapping _ hslot | resuming _ hslot => exact hslot
  | executing _ _ h' | loading _ h' | computing _ h' | computed _ h' | sleeping _ h' | halted h' =>
    simp [h', refills] at hs

variable (cfg i) in
/-- The states in which the fetched word is flushed, and those in which it is decoded. -/
theorem refills_cases (hs : refills s.control.state = true) (hstep : s.isstepping = true) :
    refills (s.stateNext cfg i) = true ∧ s.flushDecode = true ∨
      s.stateNext cfg i = .exec ∧ atFetch s.control.state = true := by
  unfold stateNext flushDecode
  rw [flush_eq]
  cases hst : s.control.state <;> simp_all [refills, atFetch]

/-- One clock of the refill. -/
theorem progress_of_refills (h : Stepping cfg s o) (hu : Undisturbed s i)
    (hs : refills s.control.state = true) {x : Instr} {e : Event} {l : List Event}
    (hf : Finished x o l e) : Stepping cfg (s.clock cfg io i) (o.clock cfg io s i) ∧
      Progress cfg x (s.clock cfg io i) (o.clock cfg io s i)
        (l ++ (o.event cfg s i).toList) := by
  have hinv := h.resume.pipeline.trap
  have hslot := h.slot_of_refills hs
  have hacc : acceptsTrap s.control.state = false := by
    cases hst : s.control.state <;> simp_all [refills, acceptsTrap]
  have hleave : s.leaves cfg i = true :=
    leaves_of_ignores hinv hu.sreset (hu.trapSafe h.awake) hacc
      (by rintro hst; simp [hst, refills] at hs)
  have hne : s.stateNext cfg i ≠ .trap := stateNext_ne_trap_of_ignores hacc
  have hload := h.loadPc (by rintro hst; simp [hst, refills] at hs)
  have hev : o.event cfg s i = none := event_of_idle hne (commits_of_none hslot)
  have hnext : Finished x (o.clock cfg io s i) (l ++ (o.event cfg s i).toList) e := by
    refine ⟨by rw [hev, hf.log]; rfl, hf.instr, hf.next.trans ?_⟩
    exact (nextNpc_of_idle hne hload (commits_of_none hslot)).symm
  rcases refills_cases cfg i hs h.isstepping with ⟨hr, hfl⟩ | ⟨hn, hfetch⟩
  · have ha := advance_eq_bubble_iff.mpr ⟨hleave, hfl⟩
    refine ⟨h.clock hu ?_ ?_ ?_, .refilling e (by rwa [clock_state])
      (empty_nextIdEx (.inr (.inr ha))) hnext⟩
    · rintro hn; simp [hn, refills] at hr
    · rintro hn; simp [hn, refills] at hr
    · rintro hn; simp [hn, refills] at hr
  · have hpen : s.penalty = false := by
      cases h.resume.pipeline.stage with
      | fetched _ _ hin => exact penalty_plain hin.plain
      | target h' => cases hst : s.control.state <;> simp_all [atTarget, atFetch]
      | executing _ _ h' | loading _ h' | computing _ h' | computed _ h' | sleeping _ h'
      | trapping h' | halted h' | resuming h' => simp [h', refills, atFetch] at hs hfetch
    have hfl : s.flushDecode = false := by
      simp only [flushDecode, flush_eq]
      cases hst : s.control.state <;> simp_all [atFetch]
    have ha := advance_eq_decode_iff.mpr ⟨hleave, hfl⟩
    exact ⟨h.clock hu (by simp [hn]) (by simp [hn]) fun _ => ha,
      .stopping e (by rw [clock_state, hn]) hnext⟩

/-! ## The stop -/

theorem triggers_of_stepping (h : Stepping cfg s o) (hst : s.control.step = false) :
    s.triggers cfg i = true := by
  simp [triggers, h.haveOcd, h.isstepping, hst]

/-- The cause that the controller hands to `dcsr`. -/
theorem execControl_dcsrCause (ho : cfg.haveOcd = true) (hstep : s.isstepping = true)
    (hst : s.control.step = false) :
    (s.execControl cfg i).dcsrCause = 1#1 ++ s.stopCause i := by
  unfold execControl stopCause
  simp only [apply_ite Control.dcsrCause, Control.halted, ho, hstep, hst, Bool.and_true,
    Bool.not_false, if_true]
  split_ifs <;> rfl

/-- The core after the stop. -/
structure Stopped (cfg : Generics) (x : Instr) (s : Core) (o : Observer) (l : List Event)
    (e : Event) (cause : BitVec 3) : Prop where
  resume : ResumeInv cfg s o
  debug : s.control.state = .debug
  loadDpc : s.control.loadDpc = true
  dcsrCause : s.control.dcsrCause = 1#1 ++ cause
  finished : Finished x o l e

variable (io) in
theorem stopped_clock (h : Stepping cfg s o) (hu : Undisturbed s i) (hst : s.control.step = false)
    (hs : s.control.state = .exec) {x : Instr} {e : Event} {l : List Event}
    (hf : Finished x o l e) : Stopped cfg x (s.clock cfg io i) (o.clock cfg io s i)
      (l ++ (o.event cfg s i).toList) e (s.stopCause i) := by
  have htrig : s.triggers cfg i = true := triggers_of_stepping h hst
  have hn : s.stateNext cfg i = .debug := by
    rw [stateNext, hs]
    exact execNext_eq_debug_iff.mpr htrig
  have hleave : s.leaves cfg i = false := by simp [leaves, stallOnTrigger_eq, hs, htrig]
  have hne : s.stateNext cfg i ≠ .trap := by simp [hn]
  have hcommits : o.commits cfg s i = none := commits_of_not_leaves hleave
  have hev : o.event cfg s i = none := event_of_idle hne hcommits
  refine ⟨resumeInv_clock h.resume hu.sreset (h.safe hu), by rw [clock_state, hn], ?_, ?_, ?_,
    hf.instr, ?_⟩
  · exact nextControl_loadDpc.mpr ⟨h.running, hn⟩
  · have hc : (s.nextControl cfg i).dcsrCause = (s.execControl cfg i).dcsrCause := by
      simp [nextControl, hs]
    exact hc.trans (execControl_dcsrCause h.haveOcd h.isstepping hst)
  · rw [hev, hf.log]
    rfl
  · exact hf.next.trans (nextNpc_of_idle hne (h.loadPc (by simp [hs])) hcommits).symm

/-- Debug mode saves the next address and the cause. -/
theorem Stopped.saved {x : Instr} {e : Event} {l : List Event} {cause : BitVec 3}
    (h : Stopped cfg x s o l e cause) (hr : i.sreset = false)
    (hw : i.dm.writecsr = true → s.csrAddrV i ≠ dpcAddr ∧ s.csrAddrV i ≠ dcsrAddr) :
    (s.step cfg io i).csr.dpc = e.next ∧
      (s.step cfg io i).csr.dcsr.extractLsb' 6 3 = cause := by
  have ho := h.resume.pipeline.trap.debug h.debug
  rw [step_clock _ _ _ _ hr, clock_csr]
  constructor
  · rw [nextCsr_dpc h.resume h.debug fun hw' => (hw hw').1, h.loadDpc, if_pos rfl,
      idEx_pc_of_loadDpc h.resume h.loadDpc, setBit_eq_self (by decide) h.resume.npc]
    exact h.finished.next.symm
  · have hcause : (s.csrSignals cfg i).dcsrCause = 1#1 ++ cause := h.dcsrCause
    have hd : (s.csrSignals cfg i).debugWrites cfg = true → s.csrAddrV i ≠ dcsrAddr := by
      intro hd
      simp only [CsrSignals.debugWrites, csrSignals, Bool.and_eq_true] at hd
      exact (hw hd.1.2).2
    have hflag : (1#1 ++ cause).getLsbD 3 = true := by
      rw [BitVec.getLsbD_append]
      rfl
    rw [nextCsr, CsrReg.next_dcsr_cause ho hd (by rw [hcause]; exact hflag), hcause]
    apply BitVec.eq_of_getLsbD_eq
    intro k hk
    rw [BitVec.getLsbD_extractLsb', BitVec.getLsbD_append]
    simp [hk]

/-! ## Liveness -/

variable (io) in
/-- Every clock brings the stop nearer, except a wait for data. -/
theorem clocksLeft_clock (h : Stepping cfg s o) (hu : Undisturbed s i)
    (hs : s.control.state ≠ .exec) {x : Instr} {l : List Event} (hp : Progress cfg x s o l) :
    clocksLeft cfg (s.clock cfg io i) < clocksLeft cfg s ∨
      s.control.state = .mem ∧ (s.clock cfg io i).control.state = .mem ∧ i.bus.ready = false ∧
        i.bus.error = false := by
  unfold clocksLeft
  rw [clock_state]
  cases hp with
  | waiting hst =>
    rcases hst with hst | ⟨hst, hmd⟩ | hst
    · by_cases htr : s.trapRequest cfg i = true
      · left
        simp [stateNext, hst, htr]
      · have htr : s.trapRequest cfg i = false := by simpa using htr
        cases hready : i.bus.ready with
        | true =>
          left
          simp [stateNext, hst, htr, hready]
        | false =>
          right
          refine ⟨hst, by simp [stateNext, hst, htr, hready], rfl, ?_⟩
          by_contra he
          have he : i.bus.error = true := by simpa using he
          have hx : s.strayException i = true := by rw [strayException, he, Bool.or_true]
          have hex : (s.exception cfg i).isSome = true := exception_isSome_of_stray hx
          simp [trapRequest, hex] at htr
    · left
      have hacc : acceptsTrap s.control.state = false := by simp [hst, acceptsTrap]
      have hsafe : TrapSafe cfg s i := hu.trapSafe h.awake
      have ha : s.advance cfg i = .stall := advance_of_md hst (h.resume.pipeline.trap.quiet hacc)
        (hsafe.ignored hu.sreset hacc)
      cases hready : s.mdReady cfg with
      | true =>
        simp [stateNext, hst, hready]
        omega
      | false =>
        have hlt := (mdWaits_clock io hmd ha hready).2
        simp only [stateNext, hst, hready, Bool.false_eq_true, if_false]
        omega
    · left
      simp [stateNext, hst]
  | refilling e hr =>
    left
    rw [stateNext]
    cases hst : s.control.state <;> simp [hst, refills, h.isstepping] at hr ⊢
  | stopping e hst => exact absurd hst hs

/-- A clock of the run in which no other instruction has an effect and no interrupt is served. -/
structure Calm (cfg : Generics) (io : Peripherals) (x : Instr) (p : Core × Observer)
    (i : CoreInput) : Prop where
  effects : p.1.affects cfg io i = true → p.2.slot = some x
  interrupt : p.1.interrupt i = none

theorem Progress.calm {x : Instr} {l : List Event} (hp : Progress cfg x s o l)
    (h : Stepping cfg s o) (hst : s.control.step = false) : Calm cfg io x (s, o) i where
  effects ha := by
    cases hp with
    | waiting _ hslot => exact hslot
    | refilling e _ hempty =>
      rw [affects_of_empty hempty h.indebug] at ha
      cases ha
    | stopping e hs =>
      have htrig : s.stallOnTrigger cfg i = true := by
        rw [stallOnTrigger_eq, hs]
        exact triggers_of_stepping h hst
      rw [affects_of_trigger htrig h.indebug] at ha
      cases ha
  interrupt := interrupt_of_stepping h.isstepping

/-- The run up to a clock after the first one of the instruction. -/
structure Reaches (cfg : Generics) (io : Peripherals) (run : ℕ → Core × Observer)
    (i : ℕ → CoreInput) (x : Instr) (n : ℕ) : Prop where
  pos : 0 < n
  away : Away run n
  calm : ∀ k, 0 < k → k < n → Calm cfg io x (run k) (i k)
  stepping : Stepping cfg (run n).1 (run n).2
  step : (run n).1.control.step = false
  progress : Progress cfg x (run n).1 (run n).2 (Observer.events cfg run i n)

theorem Away.succ {run : ℕ → Core × Observer} {n : ℕ} (h : Away run n)
    (hn : (run (n + 1)).1.control.state ≠ .debug) : Away run (n + 1) := by
  intro k hk hle
  rcases Nat.lt_or_ge k (n + 1) with hlt | hge
  · exact h k hk (by omega)
  · obtain rfl : k = n + 1 := by omega
    exact hn

/-! ## The resume -/

/-- The core leaves debug mode, whatever happened before. -/
structure Resuming (cfg : Generics) (s : Core) (o : Observer) : Prop where
  pipeline : PipelineInv cfg s o
  haveOcd : cfg.haveOcd = true
  isstepping : s.isstepping = true
  state : s.control.state = .debugflush
  step : s.control.step = true
  dpc : s.csr.dpc.getLsbD 0 = false
  slot : o.slot = none
  empty : s.idEx.Empty

theorem resuming_of_request {p : Core × Observer} (h : StepRequest cfg io p i) :
    Resuming cfg (p.1.clock cfg io i) (p.2.clock cfg io p.1 i) ∧ p.2.event cfg p.1 i = none := by
  have hreach : (machine cfg io).Reachable Machine.free p.1 :=
    h.reachable.forget fun _ _ _ => trivial
  have ho : cfg.haveOcd = true :=
    (haltedInv_of_reachable hreach).haveOcd (by simp [Core.indebug, h.debug])
  have htrig : p.1.stallOnTrigger cfg i = true := by rw [stallOnTrigger_eq, h.debug, ho]
  have ha : p.1.advance cfg i = .trigger := advance_eq_trigger_iff.mpr htrig
  have hn : p.1.stateNext cfg i = .debugflush := by simp [stateNext, h.debug, h.resume]
  have hid : p.1.nextIdEx cfg i = p.1.idEx.triggered i.instr.instr := by rw [nextIdEx_eq, ha]
  have hslot : (p.2.clock cfg io p.1 i).slot = none := by
    change p.2.nextSlot cfg p.1 i = none
    rw [Observer.nextSlot, ha]
  have htrap : TrapInv cfg (p.1.clock cfg io i) := by
    constructor
    case debug => exact fun _ => ho
    case coherent => exact coherent_nextIdEx
    all_goals simp [clock_idEx, hid, hn, IdEx.triggered, IdEx.bubble]
    exact fun _ => IdEx.quiet_triggered _ _
  have hpipe : PipelineInv cfg (p.1.clock cfg io i) (p.2.clock cfg io p.1 i) := {
    trap := htrap
    dcsr := fun hz => by rw [ho] at hz; cases hz
    loadPc := by rw [clock_state]; exact nextControl_loadPc
    loadDpc := fun hl => by rw [clock_state]; exact (nextControl_loadDpc.mp hl).2
    stage := .resuming (by rw [clock_state, hn]) hslot }
  refine ⟨⟨hpipe, ho, ?_, by rw [clock_state, hn], ?_, CsrReg.getLsbD_next_dpc, hslot,
    empty_nextIdEx (.inl ha)⟩, ?_⟩
  · exact (nextCsr_isstepping ho fun _ => h.dcsr).trans h.step
  · exact (nextControl_step_of_resume h.debug h.resume).trans h.step
  · exact event_of_idle (by simp [hn]) (commits_of_not_leaves (by simp [leaves, htrig]))

/-- The pipeline is filled from `dpc`. -/
structure Fetching (cfg : Generics) (s : Core) (o : Observer) (dpc : DataType) : Prop where
  stepping : Stepping cfg s o
  step : s.control.step = true
  slot : o.slot = none
  empty : s.idEx.Empty
  npc : o.npc = dpc

variable (io) in
theorem Resuming.clock (h : Resuming cfg s o) (hu : Undisturbed s i) :
    Fetching cfg (s.clock cfg io i) (o.clock cfg io s i) s.csr.dpc ∧
      s.stateNext cfg i = .debugflush2 ∧ o.event cfg s i = none := by
  have hsafe : PipelineSafe cfg (s, o) i :=
    ⟨hu.trapSafe (by simp [h.state]), fun _ hs => by simp [h.state] at hs⟩
  have hn : s.stateNext cfg i = .debugflush2 := by simp [stateNext, h.state]
  have hleave := leaves_of_ignores h.pipeline.trap hu.sreset hsafe.trap
    (by simp [h.state, acceptsTrap]) (by simp [h.state])
  have ha : s.advance cfg i = .bubble :=
    advance_eq_bubble_iff.mpr ⟨hleave, by simp [flushDecode, h.state]⟩
  have hnpc : (o.clock cfg io s i).npc = s.csr.dpc := by
    change o.nextNpc cfg s i = _
    simp [Observer.nextNpc, hn, h.pipeline.loadPc.mpr h.state]
  have hindebug : s.indebug = false := by simp [Core.indebug, h.state]
  have hresume : ResumeInv cfg (s.clock cfg io i) (o.clock cfg io s i) :=
    ⟨pipelineInv_clock h.pipeline hu.sreset hsafe, CsrReg.getLsbD_next_mepc,
      CsrReg.getLsbD_next_dpc, by rw [hnpc]; exact h.dpc, by simp [hn]⟩
  refine ⟨⟨⟨hresume, h.haveOcd, ?_, by simp [hn], by simp [hn], by simp [hn]⟩, ?_, ?_,
    empty_nextIdEx (.inr (.inr ha)), hnpc⟩, hn, ?_⟩
  · exact (nextCsr_isstepping h.haveOcd fun hd => by simp [hindebug] at hd).trans h.isstepping
  · exact (nextControl_step_of_flush (.inl h.state)).trans h.step
  · change o.nextSlot cfg s i = none
    rw [Observer.nextSlot, ha]
  · exact event_of_idle (by simp [hn]) (commits_of_none h.slot)

theorem Fetching.event {dpc : DataType} (h : Fetching cfg s o dpc)
    (hs : acceptsTrap s.control.state = false) : o.event cfg s i = none :=
  event_of_idle (stateNext_ne_trap_of_ignores hs) (commits_of_none h.slot)

theorem Fetching.calm {dpc : DataType} (h : Fetching cfg s o dpc) (x : Instr) :
    Calm cfg io x (s, o) i where
  effects ha := by
    rw [affects_of_empty h.empty h.stepping.indebug] at ha
    cases ha
  interrupt := interrupt_of_stepping h.stepping.isstepping

variable (io) in
/-- The first word arrives behind the stale ones. -/
theorem Fetching.clock {dpc : DataType} (h : Fetching cfg s o dpc) (hu : Undisturbed s i)
    (hs : s.control.state = .debugflush2) :
    Fetching cfg (s.clock cfg io i) (o.clock cfg io s i) dpc ∧
      s.stateNext cfg i = .debugflush3 := by
  have hn : s.stateNext cfg i = .debugflush3 := by simp [stateNext, hs]
  have hleave := leaves_of_ignores h.stepping.resume.pipeline.trap hu.sreset
    (hu.trapSafe h.stepping.awake) (by simp [hs, acceptsTrap]) (by simp [hs])
  have ha : s.advance cfg i = .bubble :=
    advance_eq_bubble_iff.mpr ⟨hleave, by simp [flushDecode, hs]⟩
  refine ⟨⟨h.stepping.clock hu (by simp [hn]) (by simp [hn]) (by simp [hn]), ?_, ?_,
    empty_nextIdEx (.inr (.inr ha)), ?_⟩, hn⟩
  · exact (nextControl_step_of_flush (.inr (.inl hs))).trans h.step
  · change o.nextSlot cfg s i = none
    rw [Observer.nextSlot, ha]
  · exact (nextNpc_of_idle (by simp [hn]) (h.stepping.loadPc (by simp [hs]))
      (commits_of_none h.slot)).trans h.npc

variable (io) in
/-- The instruction at `dpc` is decoded. -/
theorem Fetching.decodes {dpc : DataType} (h : Fetching cfg s o dpc) (hu : Undisturbed s i)
    (hs : s.control.state = .debugflush3) :
    Stepping cfg (s.clock cfg io i) (o.clock cfg io s i) ∧ s.stateNext cfg i = .exec ∧
      (s.clock cfg io i).control.step = true ∧ ∃ x, (o.clock cfg io s i).slot = some x ∧
        x.decoded = decode cfg s.ebreakm true dpc i.instr.instr ∧
        (s.clock cfg io i).idEx = x.decoded := by
  have hn : s.stateNext cfg i = .exec := by simp [stateNext, hs]
  have hleave := leaves_of_ignores h.stepping.resume.pipeline.trap hu.sreset
    (hu.trapSafe h.stepping.awake) (by simp [hs, acceptsTrap]) (by simp [hs])
  obtain ⟨hif, hpen⟩ : s.ifIdPc = o.npc ∧ s.penalty = false := by
    cases h.stepping.resume.pipeline.stage with
    | fetched _ _ hin hif => exact ⟨hif, penalty_plain hin.plain⟩
    | target h' => simp [hs, atTarget] at h'
    | executing _ _ h' | loading _ h' | computing _ h' | computed _ h' | sleeping _ h'
    | trapping h' | halted h' | resuming h' => rw [hs] at h'; cases h'
  have ha : s.advance cfg i = .decode :=
    advance_eq_decode_iff.mpr ⟨hleave, by simp [flushDecode, flush_eq, hs, hpen]⟩
  have hid : s.nextIdEx cfg i = decode cfg s.ebreakm true dpc i.instr.instr := by
    rw [nextIdEx_eq, ha, h.stepping.isstepping, hif, h.npc]
  refine ⟨h.stepping.clock hu (by simp [hn]) (by simp [hn]) fun _ => ha, hn,
    (nextControl_step_of_flush (.inr (.inr hs))).trans h.step,
    ⟨o.seq, s.nextIdEx cfg i⟩, ?_, hid, rfl⟩
  change o.nextSlot cfg s i = _
  rw [Observer.nextSlot, ha, nextIdEx_eq, ha]

/-! ## Runs -/

section Runs

variable {run : ℕ → Core × Observer} {is : ℕ → CoreInput}
  (hrun : ∀ n, run (n + 1) = (observed cfg io).next (run n) (is n)) {x : Instr} {n : ℕ}
include hrun

/-- A clock of a run without reset. -/
theorem run_succ (h : (is n).sreset = false) : (run (n + 1)).1 = (run n).1.clock cfg io (is n) ∧
    (run (n + 1)).2 = (run n).2.clock cfg io (run n).1 (is n) := by
  rw [hrun n]
  change (run n).1.step cfg io (is n) = _ ∧ (run n).2.next cfg io (run n).1 (is n) = _
  rw [step_clock _ _ _ _ h, Observer.next, if_neg (by simp [h])]
  exact ⟨rfl, rfl⟩

theorem reaches_succ (hsafe : StepSafe cfg run is)
    (h : Reaches cfg io run is x n)
    (hs : (run n).1.control.state ≠ .exec) :
    Reaches cfg io run is x (n + 1) := by
  have hu := hsafe.undisturbed n h.pos h.away
  obtain ⟨hcore, hobs⟩ := run_succ hrun hu.sreset
  have hnext : Stepping cfg (run (n + 1)).1
      (run (n + 1)).2 ∧
      Progress cfg x (run (n + 1)).1
        (run (n + 1)).2
        (Observer.events cfg run is (n + 1)) := by
    rw [events_succ, hcore, hobs]
    cases h.progress with
    | waiting hst hslot hl =>
      rw [hl]
      refine progress_of_slot io h.stepping hu hslot (.inr hst) ?_ fun h' => absurd h' hs
      rw [stallOnTrigger_eq]
      rcases hst with hst | ⟨hst, -⟩ | hst <;> rw [hst]
    | refilling e hr _ hf => exact progress_of_refills h.stepping hu hr hf
    | stopping e hst => exact absurd hst hs
  refine ⟨by omega, h.away.succ hnext.1.running, fun k hk hlt => ?_, hnext.1, ?_, hnext.2⟩
  · rcases Nat.lt_or_ge k n with hlt' | hge
    · exact h.calm k hk hlt'
    · obtain rfl : k = n := by omega
      exact h.progress.calm h.stepping h.step
  · rw [hcore]
    exact nextControl_step h.stepping.running h.step

/-- The core comes to the executing cycle that stops it. -/
theorem reaches_of_mem (hsafe : StepSafe cfg run is) {d : ℕ}
    (hd : (is (n + d)).bus.ready = true ∨ (is (n + d)).bus.error = true)
    (h : Reaches cfg io run is x n)
    (hs : (run n).1.control.state = .mem) :
    ∃ m, Reaches cfg io run is x m ∧
      clocksLeft cfg (run m).1 <
        clocksLeft cfg (run n).1 := by
  induction d generalizing n with
  | zero =>
    have hne : (run n).1.control.state ≠ .exec := by simp [hs]
    have hnext := reaches_succ hrun hsafe h hne
    have hu := hsafe.undisturbed n h.pos h.away
    rcases clocksLeft_clock io h.stepping hu hne h.progress with hlt | ⟨-, -, hr, he⟩
    · exact ⟨n + 1, hnext, by rwa [(run_succ hrun hu.sreset).1]⟩
    · rw [Nat.add_zero, hr, he] at hd
      simp at hd
  | succ d ih =>
    have hne : (run n).1.control.state ≠ .exec := by simp [hs]
    have hnext := reaches_succ hrun hsafe h hne
    have hu := hsafe.undisturbed n h.pos h.away
    rcases clocksLeft_clock io h.stepping hu hne h.progress with hlt | ⟨-, hst, -⟩
    · exact ⟨n + 1, hnext, by rwa [(run_succ hrun hu.sreset).1]⟩
    · have hst' : (run (n + 1)).1.control.state = .mem := by
        rwa [(run_succ hrun hu.sreset).1]
      obtain ⟨m, hm, hlt⟩ := ih (by rwa [Nat.add_right_comm, Nat.add_assoc]) hnext hst'
      refine ⟨m, hm, ?_⟩
      simpa [clocksLeft, hs, hst'] using hlt

theorem reaches_stop (hsafe : StepSafe cfg run is)
    (h : Reaches cfg io run is x n) :
    ∃ m, Reaches cfg io run is x m ∧
      (run m).1.control.state = .exec := by
  induction hc : clocksLeft cfg (run n).1 using Nat.strong_induction_on
    generalizing n with
  | _ c ih =>
    subst hc
    by_cases hs : (run n).1.control.state = .exec
    · exact ⟨n, h, hs⟩
    have hu := hsafe.undisturbed n h.pos h.away
    rcases clocksLeft_clock io h.stepping hu hs h.progress with hlt | ⟨hst, -⟩
    · refine ih _ ?_ (reaches_succ hrun hsafe h hs) rfl
      rwa [(run_succ hrun hu.sreset).1]
    · obtain ⟨k, hk, hd⟩ := hsafe.answered n h.pos h.away hst
      obtain ⟨d, rfl⟩ := Nat.exists_eq_add_of_le hk
      obtain ⟨m, hm, hlt⟩ := reaches_of_mem hrun hsafe hd h hst
      exact ih _ hlt hm rfl

/-- The first clock of the instruction. -/
theorem reaches_first (hreq : StepRequest cfg io (run 0) (is 0)) (hsafe : StepSafe cfg run is) :
    ∃ x : Instr, Reaches cfg io run is x 5 ∧
      x.decoded = decode cfg (run 3).1.ebreakm true (run 1).1.csr.dpc (is 3).instr.instr := by
  -- the resume, and the three clocks in which the pipeline is filled
  obtain ⟨h1, he0⟩ := resuming_of_request hreq
  obtain ⟨hc0, ho0⟩ := run_succ hrun hreq.sreset
  rw [← hc0, ← ho0] at h1
  have ha1 : Away run 1 := by
    intro k hk hle
    obtain rfl : k = 1 := by omega
    simp [h1.state]
  have hu1 := hsafe.undisturbed 1 (by omega) ha1
  obtain ⟨h2, hs2, he1⟩ := h1.clock io hu1
  obtain ⟨hc1, ho1⟩ := run_succ hrun hu1.sreset
  rw [← clock_state, ← hc1] at hs2
  rw [← hc1, ← ho1] at h2
  have ha2 := ha1.succ h2.stepping.running
  have hu2 := hsafe.undisturbed 2 (by omega) ha2
  obtain ⟨h3, hs3⟩ := h2.clock io hu2 hs2
  obtain ⟨hc2, ho2⟩ := run_succ hrun hu2.sreset
  rw [← clock_state, ← hc2] at hs3
  rw [← hc2, ← ho2] at h3
  have ha3 := ha2.succ h3.stepping.running
  have hu3 := hsafe.undisturbed 3 (by omega) ha3
  obtain ⟨h4, hs4, hst4, x, hx, hdec, hid⟩ := h3.decodes io hu3 hs3
  obtain ⟨hc3, ho3⟩ := run_succ hrun hu3.sreset
  rw [← clock_state, ← hc3] at hs4
  rw [← hc3, ← ho3] at h4
  rw [← ho3] at hx
  rw [← hc3] at hid
  have ha4 := ha3.succ h4.running
  have hu4 := hsafe.undisturbed 4 (by omega) ha4
  -- the instruction
  have htrig : (run 4).1.stallOnTrigger cfg (is 4) = false := by
    rw [stallOnTrigger_eq, hs4]
    exact hsafe.starts
  have hw : (run 4).1.idEx.wfiRequest = false := by
    rw [hid, hdec]
    exact decode_stepping _ _ _ _
  obtain ⟨h5, hp5⟩ := progress_of_slot io h4 hu4 hx (.inl hs4) htrig fun _ => hw
  obtain ⟨hc4, ho4⟩ := run_succ hrun hu4.sreset
  rw [← hc4, ← ho4] at h5 hp5
  have hevents : Observer.events cfg run is (3 + 1) = [] := by
    have he2 := h2.event (i := is 2) (by simp [hs2, acceptsTrap])
    have he3 := h3.event (i := is 3) (by simp [hs3, acceptsTrap])
    rw [events_succ, he3, events_succ run is 2, he2, events_succ run is 1, he1,
      events_succ run is 0, he0]
    rfl
  refine ⟨x, ⟨by omega, ha4.succ h5.running, fun k hk hlt => ?_, h5, ?_, ?_⟩, hdec⟩
  · obtain rfl | rfl | rfl | rfl : k = 1 ∨ k = 2 ∨ k = 3 ∨ k = 4 := by omega
    · refine ⟨fun ha => ?_, interrupt_of_stepping h1.isstepping⟩
      rw [affects_of_empty h1.empty (by simp [Core.indebug, h1.state])] at ha
      cases ha
    · exact h2.calm x
    · exact h3.calm x
    · exact ⟨fun _ => hx, interrupt_of_stepping h4.isstepping⟩
  · rw [hc4, clock_control, nextControl, hs4]
    exact execControl_step
  · rwa [events_succ, hevents]

end Runs

/-- With `dcsr.step` set a resume executes the instruction at `dpc` or takes its trap, and the core
comes back to debug mode with the address of the next instruction in `dpc`. The cause is the step,
unless the next executing cycle has another reason to stop. -/
theorem single_step_executes_one (cfg : Generics) (io : Peripherals) {p : Core × Observer}
    {i : ℕ → CoreInput} (hreq : StepRequest cfg io p (i 0))
    (hsafe : StepSafe cfg ((observed cfg io).trace p i) i) :
    ∃ n x e, StepsOnce cfg io ((observed cfg io).trace p i) i n x e := by
  have hrun : ∀ n, (observed cfg io).trace p i (n + 1) =
      (observed cfg io).next ((observed cfg io).trace p i n) (i n) := fun _ => rfl
  obtain ⟨x, hfirst, hdec⟩ := reaches_first hrun hreq hsafe
  obtain ⟨n, hn, hs⟩ := reaches_stop hrun hsafe hfirst
  have hu := hsafe.undisturbed n hn.pos hn.away
  obtain ⟨hcore, hobs⟩ := run_succ hrun hu.sreset
  cases hn.progress with
  | waiting hst => rcases hst with hst | ⟨hst, -⟩ | hst <;> rw [hs] at hst <;> cases hst
  | refilling _ hr => simp [hs, refills] at hr
  | stopping e _ hf =>
    have hstop := stopped_clock io hn.stepping hu hn.step hs hf
    rw [← hcore, ← hobs, ← events_succ] at hstop
    have hcalm : ∀ k, 0 < k → k ≤ n → Calm cfg io x ((observed cfg io).trace p i k) (i k) := by
      intro k hk hle
      rcases Nat.lt_or_ge k n with hlt | hge
      · exact hn.calm k hk hlt
      · obtain rfl : k = n := by omega
        exact hn.progress.calm hn.stepping hn.step
    exact ⟨n, x, e, hdec, hf.instr, hstop.finished.log, fun k hk hle => (hcalm k hk hle).effects,
      fun k hk hle => (hcalm k hk hle).interrupt, hn.away, hstop.debug,
      fun hr hw => hstop.saved hr hw⟩

/-! ## Runs that come back -/

/-- Only the clocks before the core is back in debug mode matter. -/
theorem stepSafe_of_debug {run : ℕ → Core × Observer} {is : ℕ → CoreInput} {n : ℕ} (hn : 0 < n)
    (hd : (run n).1.control.state = .debug) (hs : (run 4).1.triggers cfg (is 4) = false)
    (hu : ∀ k < n, 0 < k → Undisturbed (run k).1 (is k))
    (hm : ∀ k < n, (run k).1.control.state = .mem →
      ∃ j < n, k ≤ j ∧ ((is j).bus.ready = true ∨ (is j).bus.error = true)) :
    StepSafe cfg run is := by
  have hlt : ∀ k, Away run k → k < n := by
    intro k hk
    by_contra hge
    exact hk n hn (by omega) hd
  refine ⟨hs, fun k hk ha => hu k (hlt k ha) hk, fun k _ ha hst => ?_⟩
  obtain ⟨j, -, hj⟩ := hm k (hlt k ha) hst
  exact ⟨j, hj⟩

/-- A run comes back once. -/
theorem StepsOnce.stop_eq {run : ℕ → Core × Observer} {is : ℕ → CoreInput} {n m : ℕ} {x : Instr}
    {e : Event} (h : StepsOnce cfg io run is n x e) (ha : Away run m)
    (hd : (run (m + 1)).1.control.state = .debug) : n = m := by
  have hle : ¬ n < m := fun hlt => ha (n + 1) (by omega) (by omega) h.debug
  have hge : ¬ m < n := fun hlt => h.away (m + 1) (by omega) (by omega) hd
  omega

/-- Halt before the first instruction and write `dcsr`. -/
def haltedWith (dcsr : DataType) : Core × Observer :=
  observeProgram .plain .none []
    [.quiet, .quiet, .halt, .halt, debugWriteStimulus 0x7b0 dcsr]

/-- A resume, the word at `dpc`, the word behind it, and a bus that answers late. -/
def stepInputs (word behind : DataType) : ℕ → CoreInput
  | 0 => fetchInput .plain (Core.initial .plain) 0x00000013
      { Stimulus.quiet with resumeReq := true }
  | 3 => fetchInput .plain (Core.initial .plain) word .quiet
  | 4 => fetchInput .plain (Core.initial .plain) behind .quiet
  | 5 => fetchInput .plain (Core.initial .plain) behind .ready
  | _ => fetchInput .plain (Core.initial .plain) 0x00000013 .quiet

/-- The inputs of the run from `haltedWith`. -/
theorem stepRequest_haltedWith (dcsr word behind : DataType)
    (h : (haltedWith dcsr).1.control.state = .debug ∧ (haltedWith dcsr).1.isstepping = true) :
    StepRequest .plain .none (haltedWith dcsr) (stepInputs word behind 0) where
  reachable := observeProgram_reachable _ _ _ _
  debug := h.1
  step := h.2
  resume := rfl
  sreset := rfl
  dcsr h := by cases h

/-- `lw x1, 0(x0)` with one clock of wait. -/
theorem load_steps_once :
    ∃ n x e, StepsOnce .plain .none
      ((observed .plain .none).trace (haltedWith 4) (stepInputs 0x00002083 0x00000013))
      (stepInputs 0x00002083 0x00000013) n x e :=
  single_step_executes_one .plain .none
    (stepRequest_haltedWith 4 _ _ (by decide +kernel))
    (stepSafe_of_debug (n := 7) (by decide) (by decide +kernel) (by decide +kernel)
      (by decide +kernel) (by decide +kernel))

/-- `addi x1, x0, 1` in front of an EBREAK for the debugger. -/
def stepBeforeEbreak : ℕ → Core × Observer :=
  (observed .plain .none).trace (haltedWith 0x8004) (stepInputs 0x00100093 0x00100073)

/-- The cause of the stop is the EBREAK. -/
theorem step_before_ebreak_reports_ebreak :
    ¬ ∀ p is, StepRequest .plain .none p (is 0) →
      StepSafe .plain ((observed .plain .none).trace p is) is →
      ∃ n x e, StepsOnce .plain .none ((observed .plain .none).trace p is) is n x e ∧
        ((observed .plain .none).trace p is (n + 2)).1.csr.dcsr.extractLsb' 6 3 = 0b100 := by
  intro h
  obtain ⟨n, x, e, hsteps, hcause⟩ := h (haltedWith 0x8004) (stepInputs 0x00100093 0x00100073)
    (stepRequest_haltedWith 0x8004 _ _ (by decide +kernel))
    (stepSafe_of_debug (n := 6) (by decide) (by decide +kernel) (by decide +kernel)
      (by decide +kernel) (by decide +kernel))
  have haway : Away stepBeforeEbreak 5 := by
    intro k hk hle
    have hall : ∀ k < 6, 0 < k → (stepBeforeEbreak k).1.control.state ≠ .debug := by
      decide +kernel
    exact hall k (by omega) hk
  obtain rfl : n = 5 := hsteps.stop_eq (m := 5) haway (by decide +kernel)
  exact absurd hcause (by decide +kernel)

end Core

end ThuasRiscv
