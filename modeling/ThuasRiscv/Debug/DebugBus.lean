import ThuasRiscv.Bus.BusTermination
import ThuasRiscv.Bus.ErrorData
import ThuasRiscv.Debug.AccessRegister

/-!
# The Debug Module, the core and the data bus

The core with its Debug Module reads what the data bus answers in the same clock.
While the hart is halted the accesses on the bus are those of the Debug Module: at
once on the unregistered interface, one clock later on the registered one. Without
its Debug Module the machine is the core on its data bus, and the Debug Module
strobes as it is assumed there.
-/

namespace ThuasRiscv

open Transition

/-- What the Debug Module, the core and the bus read in one clock. The bus lines of `debug.core` are
not read. -/
structure DebugBusInput where
  debug : DebugInput
  bus : BusInput

structure DebugBus (nRom nBoot nRam : ℕ) where
  debug : DebugSystem
  bus : DataBus nRom nBoot nRam

namespace DebugBus

variable {nRom nBoot nRam : ℕ} (aam : Bool) (g : SystemGenerics) (io : Peripherals)
  (s : DebugBus nRom nBoot nRam) (i : DebugBusInput)

/-- The access that the core has on the bus in this clock. -/
def request : BusRequest := s.debug.core.busRequest g.core (s.debug.coreInput i.debug)

def response : BusResponse := s.bus.response g.bus (s.request g i) i.bus

/-- The inputs of the core and its Debug Module. -/
def debugInput : DebugInput :=
  { i.debug with core := { i.debug.core with bus := s.response g i } }

def step : DebugBus nRom nBoot nRam where
  debug := s.debug.step aam g.core io (s.debugInput g i)
  bus := s.bus.clock g.bus (s.request g i) i.bus
    (s.debug.core.instrRequest g.core (s.debug.coreInput (s.debugInput g i)))
    (s.debug.sresetSys i.debug)

/-- After the configuration and the asynchronous reset, which leaves two bits of the buffer open. -/
def initial (nRom nBoot nRam : ℕ) (loadAccessError storeAccessError : Bool) :
    DebugBus nRom nBoot nRam where
  debug := DebugSystem.initial g.core
  bus := .initial g.bus nRom nBoot nRam loadAccessError storeAccessError

/-- The Debug Module, the core and the bus as a clocked machine. -/
def machine (nRom nBoot nRam : ℕ) (loadAccessError storeAccessError : Bool) :
    Machine (DebugBus nRom nBoot nRam) DebugBusInput :=
  ⟨initial g nRom nBoot nRam loadAccessError storeAccessError, step aam g io⟩

variable {aam g io s i} {le se : Bool}

/-- A run with the bus is a run of the core and its Debug Module. -/
theorem debug_reachable (h : (machine aam g io nRom nBoot nRam le se).Reachable Machine.free s) :
    (DebugSystem.machine aam g.core io).Reachable Machine.free s.debug := by
  induction h with
  | init => exact .init
  | step i _ _ ih => exact ih.step _ trivial

end DebugBus

/-! ## The accesses of the Debug Module -/

namespace Core

variable {cfg : Generics} {io : Peripherals} {s : Core} {i : CoreInput}

/-- The access that the lines of the Debug Module ask for. -/
def debugAccess (dm : DmCoreDataRequest) : BusRequest where
  stb := dm.stb
  acc := dmMemAccess dm
  size := dmMemSize dm
  addr := dm.address
  data := dm.data

theorem dmMemAccess_of_not_drives {dm : DmCoreDataRequest} (h : dm.drives = false) :
    dmMemAccess dm = .nop := by
  simp only [DmCoreDataRequest.drives, Bool.or_eq_false_iff] at h
  simp [dmMemAccess, h]

theorem busAccess_acc_halted (hd : s.indebug = true) (ho : cfg.haveOcd = true) (disable : Bool) :
    (s.busAccess cfg i disable).acc = dmMemAccess i.dm := by
  simp [busAccess, hd, ho]

theorem busAccess_halted (hd : s.indebug = true) (ho : cfg.haveOcd = true)
    (hm : s.idEx.ismem = false) (disable : Bool) :
    s.busAccess cfg i disable = debugAccess i.dm := by
  simp [busAccess, debugAccess, addressV, hd, ho, hm]

/-- A halted hart has no access in its execute stage after one clock. -/
theorem ismem_nextIdEx_halted (hd : s.indebug = true) (ho : cfg.haveOcd = true) :
    (s.nextIdEx cfg i).ismem = false := by
  have hs : s.control.state = .debug := by simpa [indebug] using hd
  have htrig : s.stallOnTrigger cfg i = true := by rw [stallOnTrigger_eq, hs, ho]
  rw [nextIdEx_eq, advance_eq_trigger_iff.mpr htrig]
  rfl

end Core

namespace Dm

variable {aam : Bool} {d : Dm} {i : DmInput}

/-- A memory command is prepared only after it was checked, on a halted hart. -/
theorem check_of_preparemem (hr : i.sreset = false) (h : (d.step i aam).state = .preparemem) :
    d.state = .check ∧ i.haltAck = true ∧ d.isAccessMemory aam = true := by
  rw [step_state hr] at h
  cases ha : d.dmActive with
  | false =>
    rw [(execute_of_inactive ha).1] at h
    cases h
  | true =>
    rw [execute_state ha] at h
    cases hs : d.state <;> simp only [hs] at h
    case check =>
      split_ifs at h with hacc hreg
      rw [accepts, Bool.and_eq_true, Bool.or_eq_true] at hacc
      exact ⟨rfl, hacc.1, hacc.2.resolve_left hreg⟩
    all_goals first | cases h | (split_ifs at h)

/-- The strobe belongs to the first clock of a memory access. -/
def StrobeInv (d : Dm) : Prop :=
  d.request.stb = true → d.state = .readmem1 ∨ d.state = .writemem1

/-- The strobe is raised in `cmd_preparemem` and nowhere else. -/
theorem preparemem_of_stb (hinv : StrobeInv d) (hr : i.sreset = false)
    (h : (d.step i aam).request.stb = true) : d.state = .preparemem := by
  rw [step_request hr] at h
  cases ha : d.dmActive with
  | false =>
    rw [(execute_of_inactive ha).2] at h
    cases h
  | true =>
    rw [execute_request ha] at h
    cases hs : d.state <;> simp only [hs] at h
    case preparemem => rfl
    case preparegprcsr =>
      have hstb : d.prepareRegister.request.stb = d.request.stb := by
        unfold prepareRegister
        split_ifs <;> rfl
      rw [hstb] at h
      have hmem := hinv h
      rw [hs] at hmem
      rcases hmem with hmem | hmem <;> cases hmem
    case idle | readmem1 | writemem1 => cases h
    all_goals
      have hmem := hinv h
      rw [hs] at hmem
      rcases hmem with hmem | hmem <;> cases hmem

theorem strobeInv_step (hinv : StrobeInv d) : StrobeInv (d.step i aam) := by
  intro h
  cases hr : i.sreset with
  | true =>
    rw [step, if_pos hr] at h
    cases h
  | false =>
    have hs := preparemem_of_stb hinv hr h
    have ha : d.dmActive = true := by
      by_contra ha
      rw [step_request hr, (execute_of_inactive (by simpa using ha)).2] at h
      cases h
    rw [step_state hr, execute_state ha, hs]
    cases d.isWrite
    · exact .inl rfl
    · exact .inr rfl

end Dm

namespace DebugBus

variable {nRom nBoot nRam : ℕ} {aam : Bool} {g : SystemGenerics} {io : Peripherals}
  {s : DebugBus nRom nBoot nRam} {i : DebugBusInput} {le se : Bool}

theorem step_core (hr : s.debug.sresetSys i.debug = false) : (s.step aam g io i).debug.core =
    s.debug.core.clock g.core io (s.debug.coreInput (s.debugInput g i)) :=
  DebugSystem.step_core (i := s.debugInput g i) hr

theorem step_bus (hr : s.debug.sresetSys i.debug = false) : ∃ f, (s.step aam g io i).bus =
    s.bus.clock g.bus (s.request g i) i.bus f false :=
  ⟨_, by rw [step, hr]⟩

/-- A request without an access strobes no slave. -/
theorem stb_of_nop (map : AddressMap) {q : BusRequest} (h : q.acc = .nop) (slave : Slave) :
    (map.memRequest q slave).stb = false := by
  simp [AddressMap.memRequest, h]

/-- What holds when the Debug Module prepares a memory command: nothing of the core is on the way to
the bus. -/
structure Prepared (aam : Bool) (g : SystemGenerics) (s : DebugBus nRom nBoot nRam) : Prop where
  command : s.debug.dm.isAccessMemory aam = true
  ismem : s.debug.core.idEx.ismem = false
  port : g.core.fastMem = false → s.debug.core.bus.acc = .nop
  drained : g.core.fastMem = true → s.bus.Drained

/-- What holds in every run. -/
structure Inv (aam : Bool) (g : SystemGenerics) (s : DebugBus nRom nBoot nRam) : Prop where
  lines : s.debug.dm.LinesInv
  haltAck : s.debug.core.control.haltAck = true → s.debug.core.control.state = .debug
  settled : s.bus.Settled
  prepared : s.debug.dm.state = .preparemem → s.debug.core.indebug = true → Prepared aam g s

theorem inv_initial (aam : Bool) (g : SystemGenerics) (nRom nBoot nRam : ℕ) (le se : Bool) :
    Inv aam g (initial g nRom nBoot nRam le se) where
  lines := .of_idle rfl
  haltAck h := by cases h
  settled := DataBus.settled_initial _ _ _ _ _ _
  prepared h := by cases h

theorem prepared_step (h : Inv aam g s) (hcore : Core.HaltedInv g.core s.debug.core)
    (hs : (s.step aam g io i).debug.dm.state = .preparemem)
    (hd : (s.step aam g io i).debug.core.indebug = true) : Prepared aam g (s.step aam g io i) := by
  have hr : s.debug.sresetSys i.debug = false := by
    by_contra hr
    have hreset : s.debug.sresetSys (s.debugInput g i) = true := eq_true_of_ne_false hr
    have hout : (s.step aam g io i).debug.core.indebug = false :=
      DebugSystem.indebug_step_of_reset hreset
    rw [hout] at hd
    cases hd
  have hsreset : (s.debug.dmInput g.core io (s.debugInput g i)).sreset = false := by
    simp only [DebugSystem.sresetSys, Bool.or_eq_false_iff] at hr
    exact hr.1.1
  obtain ⟨hcheck, hack, hcmd⟩ := Dm.check_of_preparemem hsreset hs
  have hdebug : s.debug.core.indebug = true := by simpa [Core.indebug] using h.haltAck hack
  have ho : g.core.haveOcd = true := hcore.haveOcd hdebug
  have hlines : s.debug.dm.request.drives = false := by
    have hinv := h.lines
    rwa [Dm.LinesInv, hcheck] at hinv
  have hnop : Core.dmMemAccess s.debug.dm.request = .nop := Core.dmMemAccess_of_not_drives hlines
  have hcom : (s.step aam g io i).debug.dm.command = s.debug.dm.command :=
    Dm.command_of_busy (by simp [hcheck]) hsreset
  constructor
  · rw [Dm.isAccessMemory, hcom]
    exact hcmd
  · rw [step_core hr]
    exact Core.ismem_nextIdEx_halted hdebug ho
  · intro hf
    rw [step_core hr, Core.clock_bus, Core.nextBus, hf, if_neg Bool.false_ne_true]
    exact (Core.busAccess_acc_halted hdebug ho _).trans hnop
  · intro hf
    obtain ⟨f, hbus⟩ : ∃ f, (s.step aam g io i).bus = _ := step_bus hr
    rw [hbus]
    apply DataBus.drained_clock
    apply stb_of_nop
    rw [request, Core.busRequest, if_pos hf]
    exact (Core.busAccess_acc_halted hdebug ho _).trans hnop

theorem haltedInv (h : (machine aam g io nRom nBoot nRam le se).Reachable Machine.free s) :
    Core.HaltedInv g.core s.debug.core :=
  Core.haltedInv_of_reachable (DebugSystem.core_reachable (debug_reachable h))

theorem inv_of_reachable (h : (machine aam g io nRom nBoot nRam le se).Reachable Machine.free s) :
    Inv aam g s :=
  h.invariant (P := Inv aam g) (inv_initial _ _ _ _ _ _ _) fun _ _ hs _ hinv =>
    ⟨Dm.linesInv_step hinv.lines, DebugSystem.halted_step hinv.haltAck, DataBus.settled_clock _,
      prepared_step hinv (haltedInv hs)⟩

/-! ## The core and the bus without the Debug Module -/

/-- The core and the bus, with the last two values of `halt_ack`. -/
def system (s : DebugBus nRom nBoot nRam) (acks : Bool × Bool) : System nRom nBoot nRam :=
  ⟨s.debug.core, s.bus, acks⟩

/-- What the core and the bus read, the lines of the Debug Module among it. -/
def systemInput (s : DebugBus nRom nBoot nRam) (i : DebugBusInput) : SystemInput :=
  ⟨s.debug.coreInput i.debug, i.bus⟩

theorem system_next (acks : Bool × Bool) :
    (System.machine g io nRom nBoot nRam le se).next (s.system acks) (s.systemInput i) =
      ((machine aam g io nRom nBoot nRam le se).next s i).system
        (s.debug.core.control.haltAck, acks.1) := rfl

/-- The Debug Module has seen `halt_ack` before it strobes. -/
structure Checked (d : Dm) (acks : Bool × Bool) : Prop where
  strobe : d.StrobeInv
  prepared : d.state = .preparemem → acks.1 = true
  strobed : d.request.stb = true → acks.2 = true

theorem checked_reset (acks : Bool × Bool) : Checked .reset acks where
  strobe h := by cases h
  prepared h := by cases h
  strobed h := by cases h

theorem checked_step {acks : Bool × Bool} (h : Checked s.debug.dm acks) :
    Checked (s.step aam g io i).debug.dm (s.debug.core.control.haltAck, acks.1) := by
  cases hr : i.debug.sreset with
  | true =>
    have hdm : (s.step aam g io i).debug.dm = .reset := if_pos hr
    rw [hdm]
    exact checked_reset _
  | false =>
    constructor
    · exact Dm.strobeInv_step h.strobe
    · intro hs
      exact (Dm.check_of_preparemem (i := s.debug.dmInput g.core io (s.debugInput g i)) hr hs).2.1
    · intro hs
      exact h.prepared (Dm.preparemem_of_stb h.strobe hr hs)

/-- A run of the Debug Module, the core and the bus is a run of the core and the bus in which the
Debug Module checks that the core is halted before it strobes. -/
theorem system_reachable (h : (machine aam g io nRom nBoot nRam le se).Reachable Machine.free s) :
    ∃ acks, Checked s.debug.dm acks ∧
      (System.machine g io nRom nBoot nRam le se).Reachable System.DmChecks (s.system acks) := by
  induction h with
  | init => exact ⟨(false, false), checked_reset _, .init⟩
  | step i _ _ ih =>
    obtain ⟨acks, hchecked, hsystem⟩ := ih
    refine ⟨_, checked_step hchecked, ?_⟩
    rw [← system_next]
    exact hsystem.step _ hchecked.strobed

/-- Every access on the bus of the whole machine is answered in time. -/
theorem terminates_of_reachable
    (h : (machine aam g io nRom nBoot nRam le se).Reachable Machine.free s) :
    ∃ acks last, (System.tracked g io nRom nBoot nRam le se).Reachable
        (fun p i => System.DmChecks p.1 i) (s.system acks, last) ∧
      ∀ i, System.Terminates g (s.system acks) last (s.systemInput i) := by
  obtain ⟨acks, hchecked, hsystem⟩ := system_reachable h
  obtain ⟨last, hlast⟩ := hsystem.observed none
    fun s i last => (Flight.current last (s.request g i)).map Flight.older
  have hinv : System.BusInv g (s.system acks) last := System.busInv_of_reachable hlast
  refine ⟨acks, last, hlast, fun i => ?_⟩
  exact System.terminates_of_busInv hinv hchecked.strobed

end DebugBus

end ThuasRiscv
