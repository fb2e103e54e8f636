import ThuasRiscv.Bus.SystemMemory

/-!
# The processor executes the program in its memories

The simulation of a computer by the core, the bus, the memories and the
instruction router. The program is what the memories hold: it may be loaded and
changed while it runs, by its own stores or by a debugger, as long as no store
changes the words that the pipeline has fetched already.
-/

namespace ThuasRiscv

open Transition
open Isa (Computer ComputerEvent Hart)

/-- The events of a computer from its start. -/
structure ComputerTrace (μ : Type*) where
  start : Computer μ
  events : List ComputerEvent

/-- What is watched of the processor. -/
structure Watch (nRom nBoot nRam : ℕ) where
  observer : Observer
  flight : Option Flight
  trace : ComputerTrace (Contents nRom nBoot nRam)

namespace System

variable {nRom nBoot nRam : ℕ} (g : SystemGenerics) (io : Peripherals)
  (s : System nRom nBoot nRam) (i : SystemInput) (o : Observer)

/-! ## The events of a clock -/

/-- What the debugger stores. -/
def debugWrites : List ComputerEvent :=
  if s.core.indebug && ((s.made g i).stb && (s.made g i).acc = .write) then
    [.write (s.made g i).size.bytes (s.made g i).addr (s.made g i).data]
  else []

def computerEvents : List ComputerEvent :=
  (s.core.accessEvents g.core (s.coreInput g i) ++
    s.core.mainEvents g.core io (s.coreInput g i) o).map .hart ++ s.debugWrites g i

/-- The trace after a clock. A reset starts a new one, with what the registers and the memories
hold. -/
def nextTrace (t : ComputerTrace (Contents nRom nBoot nRam)) :
    ComputerTrace (Contents nRom nBoot nRam) :=
  if i.core.sreset then
    ⟨⟨.start g.core.resetPc ((s.core.nextRegs g.core io (s.coreInput g i)).port1 g.core),
      (s.step g io i).settled g⟩, []⟩
  else { t with events := t.events ++ s.computerEvents g io i o }

def nextWatch (w : Watch nRom nBoot nRam) : Watch nRom nBoot nRam where
  observer := w.observer.next g.core io s.core (s.coreInput g i)
  flight := (Flight.current w.flight (s.request g i)).map Flight.older
  trace := s.nextTrace g io i w.observer w.trace

/-- The processor with its observers. -/
def watched (nRom nBoot nRam : ℕ) (le se : Bool) :
    Machine (System nRom nBoot nRam × Watch nRom nBoot nRam) SystemInput :=
  (processor g io nRom nBoot nRam le se).observe
    { observer := Observer.initial g.core
      flight := none
      trace := ⟨⟨.start g.core.resetPc fun _ => 0,
        (initial g nRom nBoot nRam le se).settled g⟩, []⟩ }
    fun s i w => s.nextWatch g io (s.routed g i) w

/-- The program that the memories hold. -/
def program : DataType → DataType := (s.settled g).fetch g.bus

variable {g io s i o} {last : Option Flight}

/-- The step is safe for the core and for the bus. What is decoded comes from one memory, means the
same to the decoder and to the instruction set, and is not changed after it has been fetched. A
division that completes is exact. -/
structure RunsProgram (g : SystemGenerics) (s : System nRom nBoot nRam) (o : Observer)
    (i : SystemInput) : Prop where
  stage : Core.StageSafe g.core (s.core, o) (s.coreInput g i)
  dm : DmChecks s i
  memory : i.core.sreset = false → s.core.advance g.core (s.coreInput g i) = .decode →
    g.bus.fetchSelect s.core.ifIdPc = g.bus.fetchSelect s.core.pc ∧
      (g.bus.fetchSelect s.core.pc).isSome = true
  word : i.core.sreset = false → s.core.advance g.core (s.coreInput g i) = .decode →
    OrcbNeedsZbb g.core i.core.instr.instr ∧ PrivilegedFieldsFixed i.core.instr.instr
  division : i.core.sreset = false → s.core.control.state = .md2 →
    s.core.idEx.mdOp.getLsbD 2 = true → Core.ExactDivision g.core s.core
  undisturbed : i.core.sreset = false → debugging s.core.control.state = false →
    Undisturbed g s i

instance : Decidable (RunsProgram g s o i) :=
  decidable_of_iff (_ ∧ _ ∧ _ ∧ _ ∧ _ ∧ _)
    ⟨fun h => ⟨h.1, h.2.1, h.2.2.1, h.2.2.2.1, h.2.2.2.2.1, h.2.2.2.2.2⟩,
      fun h => ⟨h.stage, h.dm, h.memory, h.word, h.division, h.undisturbed⟩⟩

/-- The instruction is the one that the router delivers. -/
def Routed (g : SystemGenerics) (s : System nRom nBoot nRam) (i : SystemInput) : Prop :=
  i.core.instr = s.bus.instrResponse g.bus (s.core.instrRequest g.core (s.coreInput g i)) i.bus

theorem routed_routed : Routed g s (s.routed g i) := rfl

/-- What is known about the processor in every state. -/
structure StoredInv (g : SystemGenerics) (s : System nRom nBoot nRam) (o : Observer)
    (last : Option Flight) : Prop where
  stage : Core.StageInv g.core s.core o
  bus : BusInv g s last
  read : ReadInv s last
  fetch : FetchInv g s
  program : Core.FromProgram g.core (s.program g) o

/-- The step is safe for the core with the program in the memories. -/
theorem isaSafe_of_runsProgram (hinv : StoredInv g s o last) (hi : Routed g s i)
    (h : RunsProgram g s o i) :
    Core.IsaSafe g.core (s.program g) (s.core, o) (s.coreInput g i) where
  stage := h.stage
  fetch hr ha := by
    obtain ⟨hsel, hsome⟩ := h.memory hr ha
    obtain ⟨slave, hslave⟩ := Option.isSome_iff_exists.mp hsome
    have hpre := prefetched_of_decode hinv.stage.pipeline.trap.debug ha
    have hword := hinv.fetch hpre slave (hsel.trans hslave)
    change i.core.instr.instr = _
    rw [hi, DataBus.instrResponse_eq, show (s.core.instrRequest g.core (s.coreInput g i)).pc =
      s.core.pc from rfl, hslave]
    exact hword
  word := h.word
  division := h.division

/-! ## The program in one clock -/

/-- The instruction in the execute stage stays in the storage. -/
theorem program_idEx_pc (h : RunsProgram g s o i) (hr : i.core.sreset = false)
    (hd : debugging s.core.control.state = false) :
    (s.step g io i).program g s.core.idEx.pc = s.program g s.core.idEx.pc := by
  rw [program, settled_step hr]
  exact (h.undisturbed hr hd).executed

/-- The word behind it stays in the storage. -/
theorem program_ifIdPc (h : RunsProgram g s o i) (hr : i.core.sreset = false)
    (hd : debugging s.core.control.state = false) :
    (s.step g io i).program g s.core.ifIdPc = s.program g s.core.ifIdPc := by
  rw [program, settled_step hr]
  exact (h.undisturbed hr hd).fetched

theorem debugging_of_prefetched {st : StateType} (h : prefetched st = true) :
    debugging st = false := by
  cases st <;> first | rfl | cases h

theorem state_ne_debug {st : StateType} (h : prefetched st = true) : st ≠ .debug := by
  intro hs
  rw [hs] at h
  cases h

/-- The instruction in the execute stage is still the one of the storage. -/
theorem fromProgram_step (hinv : StoredInv g s o last) (hi : Routed g s i)
    (h : RunsProgram g s o i) :
    Core.FromProgram g.core ((s.step g io i).program g)
      (o.next g.core io s.core (s.coreInput g i)) := by
  have hnew : Core.FromProgram g.core (s.program g) (o.next g.core io s.core (s.coreInput g i)) :=
    Core.fromProgram_step hinv.program (isaSafe_of_runsProgram hinv hi h)
  cases hr : i.core.sreset with
  | true =>
    intro x hx
    rw [Observer.next, if_pos (show (s.coreInput g i).sreset = true from hr)] at hx
    cases hx
  | false =>
    intro x hx
    have hkeep : (s.step g io i).program g x.decoded.pc = s.program g x.decoded.pc := by
      have hslot : o.nextSlot g.core s.core (s.coreInput g i) = some x := by
        rw [Observer.next,
          if_neg (show ¬ (s.coreInput g i).sreset = true by simp [coreInput, hr])] at hx
        exact hx
      rcases Core.nextSlot_eq_some hslot with ⟨ha, hold, -⟩ | ⟨ha, -, hdec⟩
      · have hpre := prefetched_of_stall ha
        have hfilled := hinv.stage.pipeline.filled (state_ne_debug hpre) hold
        rw [hfilled.decoded, ← hfilled.idEx]
        exact program_idEx_pc h hr (debugging_of_prefetched hpre)
      · have hpre := prefetched_of_decode hinv.stage.pipeline.trap.debug ha
        have hpc : x.decoded.pc = s.core.ifIdPc := by
          rw [hdec, Core.nextIdEx_eq, ha]
          exact (decode_shape ..).pc_eq
        rw [hpc]
        exact program_ifIdPc h hr (debugging_of_prefetched hpre)
    rw [hkeep]
    exact hnew x hx

/-! ## The events in one clock -/

/-- In debug mode the execute stage makes no access. -/
theorem not_accessesBus_of_debug (hocd : s.core.control.state = .debug → g.core.haveOcd = true)
    (hd : s.core.indebug = true) : s.core.accessesBus g.core (s.coreInput g i) = false := by
  have hs : s.core.control.state = .debug := of_decide_eq_true hd
  have htrig : s.core.stallOnTrigger g.core (s.coreInput g i) = true := by
    rw [Core.stallOnTrigger_eq, hs]
    exact hocd hs
  rw [Core.accessesBus, Core.slowDisable, Core.fastDisable, htrig, Bool.or_true, Bool.or_true,
    ite_self, Bool.not_true, Bool.and_false]

/-- The storage after the access of the execute stage. -/
def accessed (g : SystemGenerics) (s : System nRom nBoot nRam) (i : SystemInput) :
    Contents nRom nBoot nRam :=
  if s.core.indebug then s.settled g else (s.settled g).after g.bus (s.made g i)

theorem run_accessEvents (hinv : StoredInv g s o last) (hsafe : DmChecks s i)
    {c : Computer (Contents nRom nBoot nRam)} (hmem : c.mem = s.settled g) {h' : Hart}
    (hrun : Hart.run (Isa.instruction g.core.extensions) (s.program g) c.hart
      (s.core.accessEvents g.core (s.coreInput g i)) = some h') :
    Computer.run (Contents.storage nRom nBoot nRam g.bus) (Isa.instruction g.core.extensions) c
      ((s.core.accessEvents g.core (s.coreInput g i)).map .hart) = some ⟨h', s.accessed g i⟩ := by
  rw [accessed]
  cases ha : s.core.accessesBus g.core (s.coreInput g i) with
  | false =>
    rw [Core.accessEvents, ha, if_neg Bool.false_ne_true] at hrun ⊢
    obtain rfl : c.hart = h' := Option.some_injective _ hrun
    have hsame : (if s.core.indebug then s.settled g
        else (s.settled g).after g.bus (s.made g i)) = c.mem := by
      rw [hmem]
      cases hd : s.core.indebug with
      | true => rfl
      | false => exact after_made_of_not_accessesBus hinv.bus hsafe hd _ ha
    rw [hsame]
    rfl
  | true =>
    have hd : s.core.indebug = false := by
      by_contra hd
      rw [not_accessesBus_of_debug hinv.stage.pipeline.trap.debug (by simpa using hd)] at ha
      cases ha
    rw [Core.accessEvents, ha, if_pos rfl] at hrun ⊢
    have hnext : c.hart.next (Isa.instruction g.core.extensions) (s.program g)
        (.access (s.made g i).access) = some h' := by
      rw [Hart.run_cons] at hrun
      obtain ⟨h₁, hn, hnil⟩ := Option.bind_eq_some_iff.mp hrun
      obtain rfl : h₁ = h' := Option.some_injective _ hnil
      exact hn
    have hevent := Computer.next_hart (M := Contents.storage nRom nBoot nRam g.bus) (c := c)
      (e := .access (s.made g i).access) rfl (by rw [hmem]; exact hnext)
    rw [hd, if_neg Bool.false_ne_true, List.map_singleton, Computer.run_cons,
      ← afterAccess_made _ ha, ← hmem]
    exact congrArg (fun r => r.bind fun c' => some c') hevent

/-- An instruction that leaves the execute stage has the data of the storage, if it is a load from a
memory. -/
theorem gives_of_commits (hinv : StoredInv g s o last) (hsafe : DmChecks s i) {h : Hart}
    (hh : Core.Follows g.core (s.program g) s.core o h) {x : Instr}
    (hx : o.commits g.core s.core (s.coreInput g i) = some x) {r : Option Isa.Access}
    (hr : r = if s.core.accessesBus g.core (s.coreInput g i) then
      Core.nextAccess g.core (s.program g) h else h.pending) :
    (Contents.storage nRom nBoot nRam g.bus).gives (s.accessed g i) r (s.response g i).data =
      true := by
  obtain ⟨hleave, hslot⟩ := Core.commits_eq_some_iff.mp hx
  obtain ⟨m, hm, hd, hshape⟩ := Core.instruction_of_commits hinv.stage hinv.program hx
  obtain ⟨hA, -⟩ := Core.operands_eq hinv.stage hh hslot hshape
  rw [hr, Core.pending_of_commits hinv.stage hh hx hm hd hshape, Hart.accessOf, Isa.Mnemonic.access]
  cases hload : m.isLoad with
  | false =>
    rw [if_neg Bool.false_ne_true]
    split_ifs <;> rfl
  | true =>
    obtain ⟨op, size, hdec, hbytes, hplain, -⟩ := hd.load hload
    rw [if_pos rfl, hA, ← hbytes]
    by_cases hsel : ∃ slave, slave ≠ .io ∧
        g.bus.map.select (s.core.operandA + Isa.immI (s.program g o.npc)) = some slave
    · obtain ⟨slave, hio, hsel⟩ := hsel
      rcases Core.state_of_commits hinv.stage.pipeline hx with hs | hs | hs
      · have hid := hinv.stage.pipeline.decoded hs hslot
        rw [not_leaves_of_load hinv.bus hs (by rw [hid, hdec]) (by rw [hid, hdec])
          (by rw [hid, hdec]; exact hplain) (by rw [hid, hdec]; exact hsel) hio] at hleave
        cases hleave
      · have hid := (hinv.stage.waiting.mem hs x hslot).2
        have hread : (s.settled g).read g.bus size.bytes
            (s.core.operandA + Isa.immI (s.program g o.npc)) =
              some (ByteStore.bytesOf (s.response g i).data size.bytes) := by
          have hgives := load_gives hinv.bus hsafe hinv.read hs (by rw [hid, hdec]; rfl)
            (by rw [hid, hdec]; exact hsel) hio hleave
          rw [hid, hdec] at hgives
          exact hgives
        have hstay : s.accessed g i = s.settled g := by
          rw [accessed]
          cases hdbg : s.core.indebug with
          | true => rfl
          | false =>
            apply after_made_of_not_accessesBus hinv.bus hsafe hdbg
            rw [Core.accessesBus, hid]
            rfl
        rw [hstay]
        change Option.all _ ((s.settled g).read g.bus size.bytes _) = true
        rw [hread]
        exact decide_eq_true rfl
      · have hmd := (hinv.stage.waiting.md2 hs x hslot).1
        rw [hdec] at hmd
        cases hmd
    · have hnone : (s.accessed g i).read g.bus size.bytes
          (s.core.operandA + Isa.immI (s.program g o.npc)) = none := by
        rw [Contents.read]
        cases hslave : g.bus.map.select (s.core.operandA + Isa.immI (s.program g o.npc)) with
        | none => rfl
        | some slave =>
          cases slave with
          | io => rfl
          | rom | boot | ram => exact absurd ⟨_, by decide, hslave⟩ hsel
      change Option.all _ ((s.accessed g i).read g.bus size.bytes _) = true
      rw [hnone]
      rfl

/-- The rest of a clock does not change the storage. -/
theorem run_mainEvents (hinv : StoredInv g s o last) (h : RunsProgram g s o i)
    (hr : i.core.sreset = false) {h₀ h₁ h₂ : Hart}
    (hh : Core.Follows g.core (s.program g) s.core o h₀) (hpc : h₁.pc = h₀.pc)
    (hpending : h₁.pending = if s.core.accessesBus g.core (s.coreInput g i) then
      Core.nextAccess g.core (s.program g) h₀ else h₀.pending)
    (hrun : Hart.run (Isa.instruction g.core.extensions) (s.program g) h₁
      (s.core.mainEvents g.core io (s.coreInput g i) o) = some h₂) :
    Computer.run (Contents.storage nRom nBoot nRam g.bus) (Isa.instruction g.core.extensions)
      ⟨h₁, s.accessed g i⟩ ((s.core.mainEvents g.core io (s.coreInput g i) o).map .hart) =
        some ⟨h₂, s.accessed g i⟩ := by
  rw [Core.mainEvents] at hrun ⊢
  by_cases htrap : s.core.stateNext g.core (s.coreInput g i) = .trap
  · rw [if_pos htrap] at hrun ⊢
    exact Computer.run_external rfl hrun
  by_cases hload : s.core.control.loadPc = true
  · rw [if_neg htrap, if_pos hload] at hrun ⊢
    exact Computer.run_external rfl hrun
  cases hc : o.commits g.core s.core (s.coreInput g i) with
  | some x =>
    rw [hc] at hrun
    rw [if_neg htrap, if_neg hload, Option.isSome_some, if_pos rfl] at hrun ⊢
    obtain ⟨-, hslot⟩ := Core.commits_eq_some_iff.mp hc
    have hstate := Core.state_of_commits hinv.stage.pipeline hc
    have hdebug : debugging s.core.control.state = false := by
      rcases hstate with hs | hs | hs <;> rw [hs] <;> rfl
    have hd : s.core.control.state ≠ .debug := by
      rcases hstate with hs | hs | hs <;> rw [hs] <;> decide
    have hword : (s.accessed g i).fetch g.bus h₁.pc = s.program g h₁.pc := by
      have hat : h₁.pc = s.core.idEx.pc := by
        rw [hpc, hh.pc, (hinv.stage.pipeline.filled hd hslot).idEx]
      rw [accessed, Core.indebug, decide_eq_false hd, if_neg Bool.false_ne_true, hat]
      exact (h.undisturbed hr hdebug).executed
    exact Computer.run_hart hrun (Hart.next_congr _ hword)
      (gives_of_commits hinv h.dm hh hc hpending)
  | none =>
    rw [hc] at hrun
    rw [if_neg htrap, if_neg hload, Option.isSome_none, if_neg Bool.false_ne_true] at hrun ⊢
    by_cases hdm : (s.core.indebug && (s.coreInput g i).dm.writegpr) = true
    · rw [if_pos hdm] at hrun ⊢
      exact Computer.run_external rfl hrun
    · rw [if_neg hdm] at hrun ⊢
      obtain rfl : h₁ = h₂ := Option.some_injective _ hrun
      rfl

/-- What the debugger stores. -/
theorem run_debugWrites (c : Hart) : Computer.run (Contents.storage nRom nBoot nRam g.bus)
    (Isa.instruction g.core.extensions) ⟨c, s.accessed g i⟩ (s.debugWrites g i) =
      some ⟨c, (s.settled g).after g.bus (s.made g i)⟩ := by
  rw [debugWrites, accessed, Contents.after]
  cases hd : s.core.indebug with
  | false => rfl
  | true =>
    rw [Bool.true_and, if_pos rfl]
    by_cases hw : ((s.made g i).stb && decide ((s.made g i).acc = .write)) = true
    · rw [if_pos hw, if_pos hw, Computer.run_cons, Computer.next_write, Option.bind_some,
        Computer.run_nil]
      rfl
    · rw [if_neg hw, if_neg hw, Computer.run_nil]

/-! ## The simulation -/

/-- An instruction that waits for its data is at the PC. -/
theorem pc_of_mem {cfg : Generics} {c : Core} (hinv : Core.PipelineInv cfg c o)
    (hs : c.control.state = .mem) : c.idEx.pc = o.npc := by
  cases hinv.stage with
  | loading _ _ hfilled => exact hfilled.idEx
  | target h | fetched h => rw [hs] at h; cases h
  | executing _ _ h | computing _ h | computed _ h | sleeping _ h | trapping h | halted h
  | resuming h => rw [hs] at h; cases h

/-- The computer is where the processor is. -/
structure Runs (g : SystemGenerics) (s : System nRom nBoot nRam) (o : Observer)
    (c : Computer (Contents nRom nBoot nRam)) : Prop where
  mem : c.mem = s.settled g
  hart : Core.Follows g.core (s.program g) s.core o c.hart

/-- Every clock of the processor is a run of the computer. -/
theorem runs_step (io : Peripherals) (hinv : StoredInv g s o last) (hi : Routed g s i)
    (h : RunsProgram g s o i) (hr : i.core.sreset = false)
    {c : Computer (Contents nRom nBoot nRam)} (hc : Runs g s o c) :
    ∃ c', Computer.run (Contents.storage nRom nBoot nRam g.bus)
        (Isa.instruction g.core.extensions) c (s.computerEvents g io i o) = some c' ∧
      Runs g (s.step g io i) (o.next g.core io s.core (s.coreInput g i)) c' := by
  have hsafe := isaSafe_of_runsProgram hinv hi h
  obtain ⟨h₁, haccess, hpc, -, hpending⟩ := Core.run_accessEvents (i := s.coreInput g i)
    hinv.stage hinv.program hc.hart
  obtain ⟨h₂, hrun, hfollows⟩ := Core.follows_clock (i := s.coreInput g i) io hinv.stage
    hinv.program hc.hart hr hsafe
  rw [Hart.run_append haccess] at hrun
  have hcomputer := run_accessEvents hinv h.dm hc.mem haccess
  have hmain := run_mainEvents hinv h hr hc.hart hpc hpending hrun
  refine ⟨⟨h₂, (s.settled g).after g.bus (s.made g i)⟩, ?_, (settled_step hr).symm, ?_⟩
  · rw [computerEvents, List.map_append, Computer.run_append, Computer.run_append, hcomputer,
      Option.bind_some, hmain, Option.bind_some, run_debugWrites]
  · have hcore : (s.step g io i).core = s.core.clock g.core io (s.coreInput g i) := step_core hr
    have hobserver : o.next g.core io s.core (s.coreInput g i) =
        o.clock g.core io s.core (s.coreInput g i) := by
      rw [Observer.next, if_neg (show ¬ (s.coreInput g i).sreset = true by simp [coreInput, hr])]
    have hstage : Core.StageInv g.core (s.core.step g.core io (s.coreInput g i))
        (o.next g.core io s.core (s.coreInput g i)) := Core.stageInv_step hinv.stage h.stage
    rw [Core.step_clock _ _ _ _ (show (s.coreInput g i).sreset = false from hr),
      hobserver] at hstage
    rw [hcore, hobserver]
    apply hfollows.congr
    intro hs
    have hat := pc_of_mem hstage.pipeline hs
    rw [Core.clock_state] at hs
    obtain ⟨ha, -⟩ := Core.advance_of_stateNext_mem hs
    rw [Core.clock_idEx, Core.nextIdEx_eq, ha] at hat
    have hword : h₂.pc = s.core.idEx.pc := hfollows.pc.trans hat.symm
    rw [hword]
    exact program_idEx_pc h hr (debugging_of_prefetched (prefetched_of_stall ha))

/-! ## Runs -/

theorem storedInv_step (hinv : StoredInv g s o last) (hi : Routed g s i)
    (h : RunsProgram g s o i) :
    StoredInv g (s.step g io i) (o.next g.core io s.core (s.coreInput g i))
      ((Flight.current last (s.request g i)).map Flight.older) where
  stage := Core.stageInv_step hinv.stage h.stage
  bus := busInv_step hinv.bus h.dm
  read := readInv_step hinv.read
  fetch := by
    cases hr : i.core.sreset with
    | true =>
      intro hpre
      have hstate : (s.step g io i).core.control.state = .boot0 := by
        have hcore : (s.step g io i).core = { Core.initial g.core with
            regs := s.core.nextRegs g.core io (s.coreInput g i) } := Core.step_reset _ _ _ _ hr
        rw [hcore]
        rfl
      rw [hstate] at hpre
      cases hpre
    | false =>
      exact fetchInv_step hinv.fetch hinv.stage.pipeline hr h.stage.pipeline.trap (h.undisturbed hr)
  program := fromProgram_step hinv hi h

/-- What holds in every state of a run of the processor. -/
structure ProgramInv (g : SystemGenerics) (p : System nRom nBoot nRam × Watch nRom nBoot nRam) :
    Prop where
  stored : StoredInv g p.1 p.2.observer p.2.flight
  run : ∃ c, Computer.run (Contents.storage nRom nBoot nRam g.bus)
      (Isa.instruction g.core.extensions) p.2.trace.start p.2.trace.events = some c ∧
    Runs g p.1 p.2.observer c

theorem programInv_step {p : System nRom nBoot nRam × Watch nRom nBoot nRam}
    (hinv : ProgramInv g p) (hi : Routed g p.1 i) (h : RunsProgram g p.1 p.2.observer i) :
    ProgramInv g (p.1.step g io i, p.1.nextWatch g io i p.2) where
  stored := storedInv_step hinv.stored hi h
  run := by
    change ∃ c, Computer.run _ _ (p.1.nextTrace g io i p.2.observer p.2.trace).start
      (p.1.nextTrace g io i p.2.observer p.2.trace).events = some c ∧
        Runs g (p.1.step g io i) (p.2.observer.next g.core io p.1.core (p.1.coreInput g i)) c
    rw [nextTrace]
    cases hr : i.core.sreset with
    | true =>
      rw [if_pos rfl]
      refine ⟨_, rfl, rfl, ?_⟩
      have hcore : (p.1.step g io i).core = { Core.initial g.core with
          regs := p.1.core.nextRegs g.core io (p.1.coreInput g i) } := Core.step_reset _ _ _ _ hr
      rw [hcore, Observer.next, if_pos (show (p.1.coreInput g i).sreset = true from hr)]
      exact Core.follows_of_start rfl rfl rfl
    | false =>
      obtain ⟨c, hrun, hc⟩ := hinv.run
      obtain ⟨c', hrun', hc'⟩ := runs_step io hinv.stored hi h hr hc
      rw [if_neg Bool.false_ne_true]
      refine ⟨c', ?_, hc'⟩
      rw [Computer.run_append, hrun, Option.bind_some, hrun']

theorem programInv_of_reachable {le se : Bool}
    {p : System nRom nBoot nRam × Watch nRom nBoot nRam}
    (hp : (watched g io nRom nBoot nRam le se).Reachable
      (fun p i => RunsProgram g p.1 p.2.observer (p.1.routed g i)) p) : ProgramInv g p := by
  induction hp with
  | init =>
    have hstored : StoredInv g (initial g nRom nBoot nRam le se) (Observer.initial g.core)
        none := by
      constructor
      · exact Core.stageInv_of_reachable (.init (M := Core.observed g.core io))
      · exact busInv_initial nRom nBoot nRam le se
      · intro f hf
        cases hf
      · intro hpre
        cases hpre
      · intro x hx
        cases hx
    exact ⟨hstored, _, rfl, rfl, Core.follows_of_start rfl rfl rfl⟩
  | step i _ h ih => exact programInv_step ih routed_routed h

/-- In every safe run the processor executes the program in its memories: the events of the run,
from the reset on, are a run of a computer with the instruction set, in which every instruction is
the word that the memories hold at the PC at that time, every load from a memory gets the bytes that
were stored there last, and every store changes the memories when it makes its one access. The
registers and the memories hold what the computer has. -/
theorem executes_stored_program {le se : Bool}
    {p : System nRom nBoot nRam × Watch nRom nBoot nRam}
    (hp : (watched g io nRom nBoot nRam le se).Reachable
      (fun p i => RunsProgram g p.1 p.2.observer (p.1.routed g i)) p) :
    ∃ c, Computer.run (Contents.storage nRom nBoot nRam g.bus)
        (Isa.instruction g.core.extensions) p.2.trace.start p.2.trace.events = some c ∧
      c.mem = p.1.settled g ∧
      (∀ r, p.1.core.regs.port1 g.core r = c.hart.regs r ∧
        p.1.core.regs.port2 g.core r = c.hart.regs r) ∧
      (p.1.core.control.state ≠ .debug → p.2.observer.slot.isSome = true →
        p.1.core.idEx.pc = c.hart.pc) := by
  obtain ⟨hinv, c, hrun, hmem, hh⟩ := programInv_of_reachable hp
  refine ⟨c, hrun, hmem, fun r => ?_, fun hs hslot => ?_⟩
  · by_cases hr0 : r = 0
    · rw [hr0, c.hart.zero]
      exact ⟨hinv.stage.zero.port1, hinv.stage.zero.port2⟩
    · rw [hh.regs r hr0]
      exact ⟨hinv.stage.forward.port1 r hr0, hinv.stage.forward.port2 r hr0⟩
  · obtain ⟨x, hx⟩ := Option.isSome_iff_exists.mp hslot
    rw [hh.pc]
    exact (hinv.stage.pipeline.filled hs hx).idEx

/-- `lui x9, 0x20000; addi x5, x0, 45; sw x5, 4(x9); lw x6, 4(x9)` and four times
`addi x0, x0, 0`, in a ROM of eight words. -/
def storingRom : SystemGenerics where
  core := Generics.plain
  bus := { bufferedIo.bus with
    bufferIoResponse := false
    rom := ⟨true, true, [0xb7040020, 0x9302d002, 0x23a25400, 0x03a34400, 0x13000000, 0x13000000,
      0x13000000, 0x13000000], false⟩ }
  buffer := rfl

def storingRun : System 3 2 2 × Watch 3 2 2 :=
  (watched storingRom .none 3 2 2 false false).run (.replicate 14 (fetched 0))

/-- The word that the program stores is in the RAM when it is loaded. -/
theorem word_stored_and_loaded : ∃ c, Computer.run (Contents.storage 3 2 2 storingRom.bus)
    (Isa.instruction storingRom.core.extensions) storingRun.2.trace.start
      storingRun.2.trace.events = some c ∧
        c.mem.read storingRom.bus 4 0x20000004 = some [45, 0, 0, 0] := by
  have hreach : (watched storingRom .none 3 2 2 false false).Reachable
      (fun p i => RunsProgram storingRom p.1 p.2.observer (p.1.routed storingRom i)) storingRun :=
    Machine.Reachable.init.runFrom_of_meets (by decide +kernel)
  obtain ⟨c, hrun, hmem, -⟩ := executes_stored_program hreach
  refine ⟨c, hrun, ?_⟩
  rw [hmem]
  decide +kernel

end System

end ThuasRiscv
