import ThuasRiscv.Debug.CommandInterlock
import ThuasRiscv.Debug.DebugSystem

/-!
# Abstract commands and run control

The Debug Module checks once, in `cmd_check`, that the hart is halted. From then
on it keeps its lines to the core up to the idle state after the command. The
registers of the run control have no interlock with the command: a resume or a
system reset must not come before the lines are released.
-/

namespace ThuasRiscv

open Transition

/-- One of the lines is asserted. -/
def DmCoreDataRequest.drives (q : DmCoreDataRequest) : Bool :=
  q.stb || q.readgpr || q.readcsr || q.readmem || q.writegpr || q.writecsr || q.writemem

/-- A line that writes a register is asserted. -/
def DmCoreDataRequest.writesRegister (q : DmCoreDataRequest) : Bool := q.writegpr || q.writecsr

theorem DmCoreDataRequest.writesRegister_of_drives {q : DmCoreDataRequest} (h : q.drives = false) :
    q.writesRegister = false := by
  simp only [drives, Bool.or_eq_false_iff] at h
  simp [writesRegister, h]

namespace Dm

variable {aam : Bool} {d : Dm} {i : DmInput}

/-- A command was accepted and is not finished. -/
def inProgress (d : Dm) : Bool :=
  match d.state with
  | .preparegprcsr | .preparemem | .readreg1 | .readreg2 | .writereg1 | .readmem1 | .writemem1 =>
    true
  | .idle | .check | .error => false

/-- A command waits for its check or is in progress. -/
def pending (d : Dm) : Bool := d.state = .check || d.inProgress

/-- The command completes in this clock. -/
def completes (d : Dm) (i : DmInput) : Bool :=
  d.state = .readreg2 || d.state = .writereg1 ||
    (d.state = .readmem1 || d.state = .writemem1) && i.core.ack

/-- A command that may still fail: it is not checked yet, or it accesses the memory. -/
def mayFail (d : Dm) : Bool :=
  match d.state with
  | .check | .preparemem | .readmem1 | .writemem1 => true
  | _ => false

/-- The state machine reports an error. -/
def raises (d : Dm) : Bool := d.illegalState || d.illegalCmd || d.timeout

/-- The command in `cmd_check` is accepted. -/
def accepts (d : Dm) (aam : Bool) (i : DmInput) : Bool :=
  i.haltAck && (d.isAccessRegister || d.isAccessMemory aam)

/-- After this clock the Debug Module drives a line to the core or has a command in progress. -/
def engaged (d : Dm) (aam : Bool) (i : DmInput) : Bool :=
  match d.state with
  | .idle => false
  | .check => d.accepts aam i
  | .preparegprcsr | .preparemem | .readreg1 | .readreg2 | .readmem1 => true
  | .writereg1 => d.request.writegpr
  | .writemem1 => !i.core.ack && d.counter ≠ 0
  | .error => d.request.drives

/-- What the lines to the core are in the states of the command. -/
def LinesInv (d : Dm) : Prop :=
  match d.state with
  | .idle | .error => True
  | .check | .preparemem => d.request.drives = false
  | .preparegprcsr => d.request.drives = false ∧ d.command.getLsbD 17 = true
  | .readreg1 | .readreg2 => d.request.readgpr = !d.request.readcsr
  | .writereg1 => { d.request with writecsr := false, writegpr := false }.drives = false
  | .readmem1 => d.request.readmem = true ∧
    { d.request with stb := false, readmem := false }.drives = false
  | .writemem1 => { d.request with stb := false, writemem := false }.drives = false

theorem LinesInv.of_idle (hs : d.state = .idle) : LinesInv d := by
  rw [LinesInv, hs]
  trivial

theorem LinesInv.of_error (hs : d.state = .error) : LinesInv d := by
  rw [LinesInv, hs]
  trivial

theorem LinesInv.writesRegister (h : LinesInv d) (hf : d.mayFail = true) :
    d.request.writesRegister = false := by
  cases hs : d.state <;> simp only [LinesInv, mayFail, hs] at h hf
  case check | preparemem => exact DmCoreDataRequest.writesRegister_of_drives h
  -- The lines of a memory access are no register lines.
  case readmem1 =>
    have hq := DmCoreDataRequest.writesRegister_of_drives h.2
    exact hq
  case writemem1 =>
    have hq := DmCoreDataRequest.writesRegister_of_drives h
    exact hq
  all_goals cases hf

theorem isAccessRegister_transfer (h : d.isAccessRegister = true) :
    d.command.getLsbD 17 = true := by
  simp only [isAccessRegister, Bool.and_eq_true] at h
  exact h.2

theorem command_of_busy (hs : d.state ≠ .idle) (hr : i.sreset = false) :
    (d.step i aam).command = d.command := by
  rw [step_eq_clock hr]
  exact nextCommand_of_locked (.inl (by simpa [busy] using hs))

theorem step_request (hr : i.sreset = false) :
    (d.step i aam).request = (d.execute i aam).request := by rw [step_eq_clock hr]; rfl

theorem step_state (hr : i.sreset = false) :
    (d.step i aam).state = (d.execute i aam).state := by rw [step_eq_clock hr]; rfl

/-- The Debug Module that is not active rests. -/
theorem execute_of_inactive (ha : d.dmActive = false) :
    (d.execute i aam).state = .idle ∧ (d.execute i aam).request = .idle := by
  simp [execute, ha]

theorem checkCommand_state : (d.checkCommand i aam).state =
    if d.accepts aam i then if d.isAccessRegister then .preparegprcsr else .preparemem
    else .error := by
  unfold checkCommand accepts
  cases d.isAccessRegister <;> cases d.isAccessMemory aam <;> cases i.haltAck <;> rfl

theorem checkCommand_request : (d.checkCommand i aam).request = d.request := by
  unfold checkCommand
  split_ifs <;> rfl

theorem awaitMemory_state : (d.awaitMemory i).state =
    if d.counter = 0 then .error else if i.core.ack then .idle else d.state := by
  unfold awaitMemory
  by_cases h : d.counter = 0
  · simp [h]
  · simp [h, Nat.pos_of_ne_zero h]

theorem awaitMemory_request : (d.awaitMemory i).request = d.request := by
  unfold awaitMemory
  split_ifs <;> rfl

/-- The next state of an active Debug Module. -/
theorem execute_state (ha : d.dmActive = true) : (d.execute i aam).state = match d.state with
    | .idle => if writes i addrCommand && d.cmderr = 0 then .check else .idle
    | .check =>
      if d.accepts aam i then if d.isAccessRegister then .preparegprcsr else .preparemem
      else .error
    | .preparegprcsr =>
      if d.command.getLsbD 17 then if d.isWrite then .writereg1 else .readreg1 else .idle
    | .preparemem => if d.isWrite then .writemem1 else .readmem1
    | .readreg1 => .readreg2
    | .readreg2 | .writereg1 | .error => .idle
    | .readmem1 => if d.counter = 0 then .error else if i.core.ack then .idle else .readmem1
    | .writemem1 => if d.counter = 0 then .error else if i.core.ack then .idle else .writemem1 := by
  unfold execute
  cases hs : d.state <;> simp only [ha, Bool.not_true, Bool.false_eq_true, if_false]
  case check => exact checkCommand_state
  case preparegprcsr =>
    unfold prepareRegister isWrite
    split_ifs <;> rfl
  case preparemem => rfl
  case readmem1 => exact awaitMemory_state
  case writemem1 => exact awaitMemory_state

/-- The next lines of an active Debug Module. -/
theorem execute_request (ha : d.dmActive = true) : (d.execute i aam).request = match d.state with
    | .idle => .idle
    | .check | .readreg1 | .readreg2 | .error => d.request
    | .preparegprcsr => d.prepareRegister.request
    | .preparemem => d.prepareMemory.request
    | .writereg1 => { d.request with writecsr := false, address := 0, data := 0 }
    | .readmem1 => { d.request with stb := false }
    | .writemem1 => { d.request with stb := false, writemem := false } := by
  unfold execute
  cases hs : d.state <;> simp only [ha, Bool.not_true, Bool.false_eq_true, if_false]
  case check => exact checkCommand_request
  case preparegprcsr =>
    unfold prepareRegister isWrite
    split_ifs <;> rfl
  case preparemem => rfl
  case readmem1 => exact awaitMemory_request
  case writemem1 => exact awaitMemory_request

theorem linesInv_step (h : LinesInv d) : LinesInv (d.step i aam) := by
  cases hr : i.sreset with
  | true =>
    rw [step, if_pos hr]
    exact .of_idle rfl
  | false =>
    have hst : (d.step i aam).state = (d.execute i aam).state := step_state hr
    have hrq : (d.step i aam).request = (d.execute i aam).request := step_request hr
    cases ha : d.dmActive with
    | false => exact .of_idle (hst.trans (execute_of_inactive ha).1)
    | true =>
      rw [execute_state ha] at hst
      rw [execute_request ha] at hrq
      cases hs : d.state <;> simp only [LinesInv, hs] at h hst hrq
      case idle =>
        by_cases hc : (writes i addrCommand && d.cmderr = 0) = true
        · rw [if_pos hc] at hst
          rw [LinesInv, hst, hrq]
          rfl
        · rw [if_neg hc] at hst
          exact .of_idle hst
      case check =>
        by_cases hc : d.accepts aam i = true
        · rw [if_pos hc] at hst
          by_cases hreg : d.isAccessRegister = true
          · rw [if_pos hreg] at hst
            have hcmd : (d.step i aam).command = d.command := command_of_busy (by simp [hs]) hr
            simp only [LinesInv, hst]
            rw [hrq, hcmd]
            exact ⟨h, isAccessRegister_transfer hreg⟩
          · rw [if_neg hreg] at hst
            rw [LinesInv, hst, hrq]
            exact h
        · rw [if_neg hc] at hst
          exact .of_error hst
      case preparegprcsr =>
        rw [if_pos h.2] at hst
        have hq := h.1
        simp only [DmCoreDataRequest.drives, Bool.or_eq_false_iff] at hq
        rw [prepareRegister, if_pos h.2] at hrq
        cases hw : d.isWrite <;> simp only [hw, Bool.false_eq_true, if_false, if_true] at hst hrq
        · rw [LinesInv, hst, hrq]
          simp
        · rw [LinesInv, hst, hrq]
          simp [DmCoreDataRequest.drives, hq]
      case preparemem =>
        simp only [DmCoreDataRequest.drives, Bool.or_eq_false_iff] at h
        rw [prepareMemory] at hrq
        cases hw : d.isWrite <;>
          simp only [hw, Bool.false_eq_true, if_false, if_true, Bool.not_false, Bool.not_true]
            at hst hrq
        · rw [LinesInv, hst, hrq]
          simp [DmCoreDataRequest.drives, h]
        · rw [LinesInv, hst, hrq]
          simp [DmCoreDataRequest.drives, h]
      case readreg1 =>
        rw [LinesInv, hst, hrq]
        exact h
      case readmem1 =>
        by_cases hc : d.counter = 0
        · rw [if_pos hc] at hst
          exact .of_error hst
        · cases hk : i.core.ack <;>
            simp only [hc, hk, Bool.false_eq_true, if_false, if_true] at hst
          · rw [LinesInv, hst, hrq]
            exact h
          · exact .of_idle hst
      case writemem1 =>
        by_cases hc : d.counter = 0
        · rw [if_pos hc] at hst
          exact .of_error hst
        · cases hk : i.core.ack <;>
            simp only [hc, hk, Bool.false_eq_true, if_false, if_true] at hst
          · rw [LinesInv, hst, hrq]
            exact h
          · exact .of_idle hst
      all_goals exact .of_idle hst

/-- The Debug Module is engaged when it drives a line or has a command in progress in the next
clock. -/
theorem engaged_eq (h : LinesInv d) (ha : d.dmActive = true) (hr : i.sreset = false) :
    ((d.step i aam).request.drives || (d.step i aam).inProgress) = d.engaged aam i := by
  have hst : (d.step i aam).state = (d.execute i aam).state := step_state hr
  rw [step_request hr, execute_request ha, inProgress, hst, execute_state ha, engaged]
  cases hs : d.state <;> simp only [LinesInv, hs] at h ⊢
  case idle => cases writes i addrCommand && d.cmderr = 0 <;> rfl
  case check =>
    rw [h]
    cases d.accepts aam i <;> cases d.isAccessRegister <;> rfl
  case preparegprcsr =>
    rw [if_pos h.2]
    cases d.isWrite <;> simp
  case preparemem => cases d.isWrite <;> simp
  case readreg1 => simp
  case readreg2 => cases hq : d.request.readcsr <;> simp [DmCoreDataRequest.drives, hq, h]
  case writereg1 => simp_all [DmCoreDataRequest.drives]
  case readmem1 => simp [DmCoreDataRequest.drives, h.1]
  case writemem1 =>
    rw [h]
    by_cases hc : d.counter = 0 <;> cases hk : i.core.ack <;> simp [hc]
  case error => simp

theorem step_raises (hr : i.sreset = false) : (d.step i aam).raises = (d.execute i aam).raises := by
  rw [step_eq_clock hr]
  rfl

/-- A command that is not accepted is reported. -/
theorem checkCommand_raises (h : d.raises = false) :
    (d.checkCommand i aam).raises = !d.accepts aam i := by
  simp only [raises, Bool.or_eq_false_iff] at h
  unfold accepts checkCommand
  cases i.haltAck <;> cases d.isAccessRegister <;> cases d.isAccessMemory aam <;> simp [raises, h]

theorem awaitMemory_raises (h : d.raises = false) :
    (d.awaitMemory i).raises = decide (d.counter = 0) := by
  simp only [raises, Bool.or_eq_false_iff] at h
  by_cases hc : d.counter = 0
  · simp [awaitMemory, hc, raises]
  · simp [awaitMemory, hc, raises, h, Nat.pos_of_ne_zero hc]

theorem prepareRegister_raises (h : d.raises = false) : d.prepareRegister.raises = false := by
  unfold prepareRegister
  split_ifs <;> exact h

/-- The errors that an active Debug Module reports. -/
theorem execute_raises (ha : d.dmActive = true) : (d.execute i aam).raises = match d.state with
    | .check => !d.accepts aam i
    | .readmem1 | .writemem1 => decide (d.counter = 0)
    | _ => false := by
  unfold execute
  cases hs : d.state <;> simp only [ha, Bool.not_true, Bool.false_eq_true, if_false]
  case check => exact checkCommand_raises rfl
  case preparegprcsr => exact prepareRegister_raises rfl
  case readmem1 => exact awaitMemory_raises rfl
  case writemem1 => exact awaitMemory_raises rfl
  all_goals rfl

/-- A pending command of an active Debug Module is not lost. -/
theorem continues_of_active (h : LinesInv d) (ha : d.dmActive = true) (hr : i.sreset = false)
    (hp : d.pending = true) : (d.step i aam).pending = true ∨ d.completes i = true ∨
      (d.step i aam).raises = true ∧ d.mayFail = true := by
  have hst : (d.step i aam).state = (d.execute i aam).state := step_state hr
  rw [execute_state ha] at hst
  rw [pending, inProgress, hst, step_raises hr, execute_raises ha, completes]
  cases hs : d.state <;> simp only [pending, inProgress, LinesInv, hs] at h hp ⊢
  case idle => simp at hp
  case error => simp at hp
  case check =>
    cases hc : d.accepts aam i with
    | true => cases d.isAccessRegister <;> simp
    | false => exact .inr (.inr ⟨rfl, by rw [mayFail, hs]⟩)
  case preparegprcsr => cases d.isWrite <;> simp [h.2]
  case preparemem => cases d.isWrite <;> simp
  case readmem1 =>
    by_cases hc : d.counter = 0
    · exact .inr (.inr ⟨decide_eq_true hc, by rw [mayFail, hs]⟩)
    · cases hk : i.core.ack <;> simp [hc]
  case writemem1 =>
    by_cases hc : d.counter = 0
    · exact .inr (.inr ⟨decide_eq_true hc, by rw [mayFail, hs]⟩)
    · cases hk : i.core.ack <;> simp [hc]
  all_goals simp

/-- An error that the state machine reports is in `cmderr` one clock later, unless an older one is
being cleared. -/
theorem nextCmderr_of_raises (h : d.raises = true) :
    d.nextCmderr i = 0 ↔ d.cmderr ≠ 0 ∧ d.clrerr = true := by
  simp only [raises, Bool.or_eq_true] at h
  unfold nextCmderr
  by_cases he : d.cmderr = 0
  · split_ifs <;> simp_all
  · have he' : ¬d.cmderr = 0#3 := he
    cases d.clrerr <;> simp [he']

/-! ## The run control -/

/-- A write to `dmcontrol` that requests a resume or a system reset, or that deactivates the Debug
Module. -/
def releasesHart (i : DmInput) : Bool :=
  writes i addrDmcontrol &&
    (i.dmi.data.getLsbD 30 && !i.dmi.data.getLsbD 31 || i.dmi.data.getLsbD 1 ||
      !i.dmi.data.getLsbD 0)

theorem busy_of_pending (h : d.pending = true) : d.busy = true := by
  cases hs : d.state <;> simp [pending, inProgress, busy, hs] at h ⊢

theorem busy_of_engaged (h : d.engaged aam i = true) : d.busy = true := by
  cases hs : d.state <;> simp [engaged, busy, hs] at h ⊢

/-- A write to `dmcontrol` is no command. -/
theorem idle_of_dmcontrol (hb : d.busy = false) (hw : writes i addrDmcontrol = true)
    (hr : i.sreset = false) : (d.step i aam).busy = false := by
  have hs : d.state = .idle := by simpa [busy] using hb
  have hcommand : writes i addrCommand = false := by
    simp only [writes, Bool.and_eq_true, decide_eq_true_eq] at hw
    simp [writes, hw.2, addrDmcontrol, addrCommand]
  rw [busy, step_state hr]
  cases ha : d.dmActive with
  | false => simp [(execute_of_inactive ha).1]
  | true => simp [execute_state ha, hs, hcommand]

/-- Only an active Debug Module becomes busy. -/
theorem dmActive_of_busy (hr : i.sreset = false) (hb : (d.step i aam).busy = true) :
    d.dmActive = true := by
  by_contra ha
  have ha' : d.dmActive = false := by simpa using ha
  simp [busy, step_state hr, execute_of_inactive ha'] at hb

/-- Without a write that releases the hart the Debug Module does not request a resume. -/
theorem resumeRequest_step (hr : i.sreset = false) (hq : releasesHart i = false) :
    (d.step i aam).resumeRequest = false := by
  have hnext : (d.step i aam).resumeReq = nextResumeReq i := by rw [step_eq_clock hr]; rfl
  rw [resumeRequest, hnext, nextResumeReq, controlBit]
  cases hw : writes i addrDmcontrol with
  | false => rfl
  | true =>
    rw [releasesHart, hw, Bool.true_and, Bool.or_eq_false_iff, Bool.or_eq_false_iff] at hq
    rw [if_pos rfl, hq.1.1, Bool.false_and]

/-- Without such a write it does not begin to request a system reset. -/
theorem resetRequest_step (hr : i.sreset = false) (hq : releasesHart i = false)
    (hd : d.dmActive = true) (hn : d.resetRequest = false) :
    (d.step i aam).resetRequest = false := by
  have hnext : (d.step i aam).ndmreset = controlBit i 1 d.ndmreset := by rw [step_eq_clock hr]; rfl
  rw [resetRequest, hd, Bool.and_true] at hn
  rw [resetRequest, hnext, controlBit, hn]
  cases hw : writes i addrDmcontrol with
  | false => rfl
  | true =>
    rw [releasesHart, hw, Bool.true_and, Bool.or_eq_false_iff, Bool.or_eq_false_iff] at hq
    rw [if_pos rfl, hq.1.2, Bool.false_and]

/-- Without such a write it stays active. -/
theorem dmActive_step (hr : i.sreset = false) (hq : releasesHart i = false)
    (hd : d.dmActive = true) : (d.step i aam).dmActive = true := by
  have hnext : (d.step i aam).dmActive = controlBit i 0 d.dmActive := by rw [step_eq_clock hr]; rfl
  rw [hnext, controlBit, hd]
  cases hw : writes i addrDmcontrol with
  | false => rfl
  | true =>
    rw [releasesHart, hw, Bool.true_and, Bool.or_eq_false_iff, Bool.not_eq_false'] at hq
    rw [if_pos rfl, hq.2]

end Dm

namespace DebugSystem

variable {aam : Bool} {cfg : Generics} {io : Peripherals} {s : DebugSystem} {i : DebugInput}

/-- The hart leaves debug mode in this clock. -/
def leavesDebug (s : DebugSystem) (i : DebugInput) : Bool :=
  s.core.indebug && (s.sresetSys i || s.dm.resumeRequest)

/-- The Debug Module drives a line, and executes a command, only while the hart is in debug mode. A
command that may still fail has no register line asserted, and its error is in `cmderr` one clock
after it was raised, unless the debugger clears an older error in that clock. -/
structure DrivesHalted (aam : Bool) (cfg : Generics) (io : Peripherals)
    (s : DebugSystem) : Prop where
  lines : s.dm.request.drives = true → s.core.indebug = true
  command : s.dm.inProgress = true → s.core.indebug = true
  untouched : s.dm.mayFail = true → s.dm.request.writesRegister = false
  reported : s.dm.raises = true → ∀ i : DebugInput, i.sreset = false →
    ((s.step aam cfg io i).dm.cmderr = 0 ↔ s.dm.cmderr ≠ 0 ∧ s.dm.clrerr = true)

/-- A pending command stays pending, completes, or fails. -/
def Continues (aam : Bool) (cfg : Generics) (io : Peripherals) (s : DebugSystem) (i : DebugInput) :
    Prop :=
  s.dm.pending = true → (s.step aam cfg io i).dm.pending = true ∨
    s.dm.completes (s.dmInput cfg io i) = true ∨
    (s.step aam cfg io i).dm.raises = true ∧ s.dm.mayFail = true

/-- While a command is busy the debugger requests no resume and no system reset, it does not
deactivate the Debug Module, and no other system reset comes. -/
structure RespectsBusy (cfg : Generics) (io : Peripherals) (s : DebugSystem) (i : DebugInput) :
    Prop where
  control : i.sreset = false → s.dm.busy = true → Dm.releasesHart (s.dmInput cfg io i) = false
  reset : i.sreset = false → s.dm.busy = true → i.core.sreset = false

instance : Decidable (RespectsBusy cfg io s i) :=
  decidable_of_iff
    ((i.sreset = false → s.dm.busy = true → Dm.releasesHart (s.dmInput cfg io i) = false) ∧
      (i.sreset = false → s.dm.busy = true → i.core.sreset = false))
    ⟨fun h => ⟨h.1, h.2⟩, fun h => ⟨h.1, h.2⟩⟩

/-! ## Leaving debug mode -/

theorem step_core (hr : s.sresetSys i = false) :
    (s.step aam cfg io i).core = s.core.clock cfg io (s.coreInput i) :=
  Core.step_clock _ _ _ _ hr

theorem step_dm : (s.step aam cfg io i).dm = s.dm.step (s.dmInput cfg io i) aam := rfl

theorem indebug_step_of_reset (hr : s.sresetSys i = true) :
    (s.step aam cfg io i).core.indebug = false := by
  have h : (s.step aam cfg io i).core = _ := Core.step_reset cfg io s.core (s.coreInput i) hr
  rw [h]
  rfl

/-- The hart stays in debug mode until it leaves it. -/
theorem indebug_step (hd : s.core.indebug = true) :
    (s.step aam cfg io i).core.indebug = !s.leavesDebug i := by
  cases hr : s.sresetSys i with
  | true => rw [indebug_step_of_reset hr, leavesDebug, hd, hr, Bool.true_or, Bool.and_true]; rfl
  | false =>
    have hs : s.core.control.state = .debug := by simpa [Core.indebug] using hd
    have hq : (s.coreInput i).resumeReq = s.dm.resumeRequest := rfl
    rw [step_core hr, Core.indebug, Core.clock_state, Core.stateNext, hs, hq, leavesDebug, hd, hr]
    cases s.dm.resumeRequest <;> rfl

/-! ## The invariant -/

/-- What holds in every run in which the debugger respects that a command is busy. A request to
resume meets an idle Debug Module, and a hart in a requested reset is not halted. -/
structure RunInv (s : DebugSystem) : Prop where
  dm : s.dm.LinesInv
  halted : s.core.control.haltAck = true → s.core.control.state = .debug
  lines : s.dm.request.drives = true → s.core.indebug = true
  command : s.dm.inProgress = true → s.core.indebug = true
  active : s.dm.busy = true → s.dm.dmActive = true
  resume : s.dm.busy = true → s.dm.resumeRequest = false
  reset : s.dm.busy = true → s.dm.resetRequest = true → s.core.indebug = false

theorem runInv_initial (cfg : Generics) : RunInv (initial cfg) where
  dm := .of_idle rfl
  halted h := by cases h
  lines h := by cases h
  command h := by cases h
  active h := by cases h
  resume h := by cases h
  reset h := by cases h

theorem halted_step (h : s.core.control.haltAck = true → s.core.control.state = .debug) :
    (s.step aam cfg io i).core.control.haltAck = true →
      (s.step aam cfg io i).core.control.state = .debug := by
  intro hack
  cases hr : s.sresetSys i with
  | true =>
    have hc : (s.step aam cfg io i).core = _ := Core.step_reset cfg io s.core (s.coreInput i) hr
    rw [hc] at hack
    cases hack
  | false =>
    rw [step_core hr] at hack ⊢
    rw [Core.clock_state]
    exact Core.nextControl_haltAck h hack

/-- The Debug Module does not become engaged while the hart is not in debug mode. -/
theorem indebug_of_engaged (h : RunInv s) (he : s.dm.engaged aam (s.dmInput cfg io i) = true) :
    s.core.indebug = true := by
  by_contra hd
  have hcom : s.dm.inProgress = false := by
    by_contra hc
    exact hd (h.command (by simpa using hc))
  have hlines : s.dm.request.drives = false := by
    by_contra hc
    exact hd (h.lines (by simpa using hc))
  have hack : (s.dmInput cfg io i).haltAck = false := by
    by_contra hc
    have hc' : (s.dmInput cfg io i).haltAck = true := by simpa using hc
    exact hd (by simpa [Core.indebug] using h.halted hc')
  cases hs : s.dm.state <;> simp [Dm.engaged, Dm.inProgress, Dm.accepts, hs, hack, hlines]
    at he hcom

/-- The hart does not leave debug mode while a command is busy. -/
theorem not_leavesDebug (h : RunInv s) (hr : i.sreset = false) (hsafe : RespectsBusy cfg io s i)
    (hb : s.dm.busy = true) : s.leavesDebug i = false := by
  rw [leavesDebug, sresetSys, hr, hsafe.reset hr hb, h.resume hb]
  cases hq : s.dm.resetRequest with
  | false => simp
  | true => rw [h.reset hb hq, Bool.false_and]

theorem next_of_inactive (aam : Bool) (cfg : Generics) (io : Peripherals) (hr : i.sreset = false)
    (ha : s.dm.dmActive = false) :
    (s.step aam cfg io i).dm.request.drives = false ∧ (s.step aam cfg io i).dm.state = .idle := by
  have hr' : (s.dmInput cfg io i).sreset = false := hr
  rw [step_dm, Dm.step_request hr', Dm.step_state hr', Dm.execute, ha]
  exact ⟨rfl, rfl⟩

/-- The lines and the command stay within debug mode. -/
theorem drives_step (h : RunInv s) (hr : i.sreset = false) (hsafe : RespectsBusy cfg io s i)
    (hn : ((s.step aam cfg io i).dm.request.drives || (s.step aam cfg io i).dm.inProgress) = true) :
    (s.step aam cfg io i).core.indebug = true := by
  cases ha : s.dm.dmActive with
  | false =>
    obtain ⟨hq, hs⟩ := next_of_inactive aam cfg io hr ha
    simp [hq, Dm.inProgress, hs] at hn
  | true =>
    rw [step_dm, Dm.engaged_eq h.dm ha hr] at hn
    rw [indebug_step (indebug_of_engaged h hn),
      not_leavesDebug h hr hsafe (Dm.busy_of_engaged hn)]
    rfl

/-- A clock after which a command is busy had no write that releases the hart. -/
theorem not_releasesHart (hr : i.sreset = false) (hsafe : RespectsBusy cfg io s i)
    (hb : (s.step aam cfg io i).dm.busy = true) :
    Dm.releasesHart (s.dmInput cfg io i) = false := by
  by_contra hq
  have hwrite : Dm.writes (s.dmInput cfg io i) addrDmcontrol = true := by
    simp only [Dm.releasesHart, Bool.not_eq_false, Bool.and_eq_true] at hq
    exact hq.1
  have hidle : s.dm.busy = false := by
    by_contra hbusy
    exact hq (hsafe.control hr (by simpa using hbusy))
  rw [step_dm, Dm.idle_of_dmcontrol hidle hwrite hr] at hb
  cases hb

theorem dmActive_of_busy (hr : i.sreset = false) (hb : (s.step aam cfg io i).dm.busy = true) :
    s.dm.dmActive = true := Dm.dmActive_of_busy (i := s.dmInput cfg io i) hr hb

/-- A hart in a requested reset is not in debug mode. -/
theorem reset_step (hr : i.sreset = false) (hsafe : RespectsBusy cfg io s i)
    (hb : (s.step aam cfg io i).dm.busy = true)
    (hq : (s.step aam cfg io i).dm.resetRequest = true) :
    (s.step aam cfg io i).core.indebug = false := by
  cases hold : s.dm.resetRequest with
  | true =>
    apply indebug_step_of_reset
    rw [sresetSys, hold, Bool.or_true]
  | false =>
    -- The request would be new, but the write for it would have found the Debug Module idle.
    have hwrite := not_releasesHart hr hsafe hb
    have hactive := dmActive_of_busy hr hb
    rw [step_dm, Dm.resetRequest_step hr hwrite hactive hold] at hq
    cases hq

theorem runInv_step (h : RunInv s) (hsafe : RespectsBusy cfg io s i) :
    RunInv (s.step aam cfg io i) := by
  cases hr : i.sreset with
  | true =>
    have hdm : (s.step aam cfg io i).dm = .reset := by rw [step_dm, Dm.step]; exact if_pos hr
    have hbusy : (s.step aam cfg io i).dm.busy = false := by rw [hdm]; rfl
    constructor
    · exact Dm.linesInv_step h.dm
    · exact halted_step h.halted
    · intro hq
      rw [hdm] at hq
      cases hq
    · intro hc
      rw [hdm] at hc
      cases hc
    all_goals
      intro hb
      rw [hbusy] at hb
      cases hb
  | false =>
    constructor
    · exact Dm.linesInv_step h.dm
    · exact halted_step h.halted
    · intro hq
      exact drives_step h hr hsafe (by rw [hq, Bool.true_or])
    · intro hc
      exact drives_step h hr hsafe (by rw [hc, Bool.or_true])
    · intro hb
      exact Dm.dmActive_step hr (not_releasesHart hr hsafe hb) (dmActive_of_busy hr hb)
    · intro hb
      exact Dm.resumeRequest_step hr (not_releasesHart hr hsafe hb)
    · exact reset_step hr hsafe

theorem runInv_of_reachable (h : (machine aam cfg io).Reachable (RespectsBusy cfg io) s) :
    RunInv s :=
  h.invariant (runInv_initial cfg) fun _ _ _ hsafe hinv => runInv_step hinv hsafe

theorem drivesHalted_of_runInv (h : RunInv s) : DrivesHalted aam cfg io s where
  lines := h.lines
  command := h.command
  untouched := h.dm.writesRegister
  reported hraise i hr := by
    have hr' : (s.dmInput cfg io i).sreset = false := hr
    rw [step_dm, Dm.step_eq_clock hr']
    exact Dm.nextCmderr_of_raises hraise

/-- In a run in which the debugger requests no resume and no system reset and does not deactivate
the Debug Module while a command is busy, and no other system reset comes then, the Debug Module
drives a halted hart only, and every command that it takes stays pending until it completes or is
reported. -/
theorem debug_module_drives_halted_hart (aam : Bool) (cfg : Generics) (io : Peripherals)
    {s : DebugSystem} (h : (machine aam cfg io).Reachable (RespectsBusy cfg io) s) :
    DrivesHalted aam cfg io s ∧ ∀ i : DebugInput, i.sreset = false → Continues aam cfg io s i := by
  have hinv : RunInv s := runInv_of_reachable h
  refine ⟨drivesHalted_of_runInv hinv, fun i hr hp => ?_⟩
  exact Dm.continues_of_active hinv.dm (hinv.active (Dm.busy_of_pending hp)) hr hp

/-- Halt, read `x0` into `data0`, and resume when the command is no longer busy. -/
def haltReadResume : List DebugInput :=
  [.write addrDmcontrol 0x80000001, .wait, .wait, .wait, .write addrDmcontrol 0x00000001,
    .write addrCommand 0x00221000, .wait, .wait, .wait, .wait, .write addrDmcontrol 0x40000001,
    .wait, .wait]

theorem resume_after_command_drives_halted_hart :
    DrivesHalted false .plain .none ((machine false .plain .none).run haltReadResume) :=
  (debug_module_drives_halted_hart false .plain .none
    (Machine.Reachable.init.runFrom_of_meets (by decide +kernel))).1

/-- A resume that is requested one clock after the command: the hart has left debug mode when the
read is asserted. -/
theorem resume_meets_command :
    ¬ ∀ s, (machine false .plain .none).Reachable Machine.free s →
      DrivesHalted false .plain .none s := by
  intro h
  have hs := h _ (Machine.reachable_run
    [.write addrDmcontrol 0x80000001, .wait, .wait, .wait, .write addrDmcontrol 0x00000001,
      .write addrCommand 0x00221000, .write addrDmcontrol 0x40000001, .wait])
  exact absurd (hs.lines (by decide +kernel)) (by decide +kernel)

end DebugSystem

end ThuasRiscv
