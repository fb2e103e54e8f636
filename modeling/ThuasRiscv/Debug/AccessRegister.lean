import ThuasRiscv.Debug.RegisterCommand

/-!
# Access Register reaches the register it names

The six clocks after the DMI write of a command, on a halted hart. The command does
what it has to do exactly when it does not ask for a register that the hart selects
with fewer bits than the command has.
-/

namespace ThuasRiscv

open Transition

namespace DebugSystem

/-- A run of the command Access Register from a reachable state with a halted hart. -/
structure CommandRun (aam : Bool) (cfg : Generics) (io : Peripherals) (s : DebugSystem)
    (i : ℕ → DebugInput) (cmd : DataType) : Prop where
  reachable : (machine aam cfg io).Reachable Machine.free s
  checked : cfg.ocdCsrCheckDisable = false
  rest : s.AtRest
  issues : Issues i cmd
  cmdtype : cmd.extractLsb' 24 8 = 0x00

variable {aam : Bool} {cfg : Generics} {io : Peripherals} {s : DebugSystem}
  {i : ℕ → DebugInput} {cmd : DataType} {n : ℕ}

theorem after_dm : (after aam cfg io s i (n + 1)).dm =
    (after aam cfg io s i n).dm.step ((after aam cfg io s i n).dmInput cfg io (i n)) aam := rfl

theorem after_core : (after aam cfg io s i (n + 1)).core =
    (after aam cfg io s i n).driven cfg io (i n) := rfl

/-- A run of the Debug Module and the hart is a run of the hart. -/
theorem core_reachable (h : (machine aam cfg io).Reachable Machine.free s) :
    (Core.machine cfg io).Reachable Machine.free s.core := by
  induction h with
  | init => exact .init
  | step i _ _ ih => exact ih.step _ trivial

namespace CommandRun

variable (h : CommandRun aam cfg io s i cmd)
include h

theorem inv (n : ℕ) : Core.HaltedInv cfg (after aam cfg io s i n).core :=
  Core.haltedInv_of_reachable (core_reachable (h.reachable.trace i n))

theorem quiet (hn : 0 < n) (hn' : n < 6) :
    Dm.Quiet ((after aam cfg io s i n).dmInput cfg io (i n)) :=
  ⟨(h.issues.clocked n hn').1, h.issues.quiet n hn hn'⟩

theorem running (hn : n ≤ 6) : (after aam cfg io s i n).dm.resumeReq = false ∧
    (after aam cfg io s i n).dm.ndmreset = false := by
  induction n with
  | zero => exact h.rest.running
  | succ n ih =>
    have hlt : n < 6 := hn
    cases n with
    | zero =>
      exact (Dm.serves_of_write aam (h.issues.clocked 0 hlt).1 h.issues.command h.rest.active
        h.rest.state h.rest.cmderr h.rest.running.2).running
    | succ n => exact Dm.running_of_quiet aam (h.quiet (by omega) hlt) (ih (by omega)).2

theorem sresetSys (hn : n < 6) : (after aam cfg io s i n).sresetSys (i n) = false := by
  have hreq : (after aam cfg io s i n).dm.resetRequest = false := by
    simp [Dm.resetRequest, (h.running hn.le).2]
  rw [DebugSystem.sresetSys, (h.issues.clocked n hn).1, (h.issues.clocked n hn).2, hreq]
  rfl

/-- The hart stays halted. -/
theorem halted (hn : n ≤ 6) : (after aam cfg io s i n).core.indebug = true := by
  induction n with
  | zero => exact h.rest.halted
  | succ n ih =>
    have hreq : (after aam cfg io s i n).dm.resumeRequest = false := by
      simp [Dm.resumeRequest, (h.running (by omega : n ≤ 6)).1]
    have hstep : (after aam cfg io s i (n + 1)).core.indebug =
        !(after aam cfg io s i n).leavesDebug (i n) := indebug_step (ih (by omega))
    rw [hstep, leavesDebug, h.sresetSys hn, hreq]
    simp

theorem haveOcd : cfg.haveOcd = true := (h.inv 0).haveOcd h.rest.halted

theorem haltAck (hn : n ≤ 6) : (after aam cfg io s i n).core.control.haltAck = true :=
  (h.inv n).haltAck (h.halted hn)

theorem core_sreset (hn : n < 6) : ((after aam cfg io s i n).coreInput (i n)).sreset = false :=
  h.sresetSys hn

/-! ### What the hart answers -/

theorem excep (hn : n < 6) : ((after aam cfg io s i n).dmInput cfg io (i n)).core.excep =
    (((after aam cfg io s i n).dm.request.readcsr || (after aam cfg io s i n).dm.request.writecsr) &&
      !implementedCsr cfg true
        ((after aam cfg io s i n).dm.request.address.extractLsb' 0 12)) := by
  have hd := h.halted hn.le
  have hlegal := (h.inv n).legal hd
  change ((after aam cfg io s i n).core.indebug && (Core.illegalInstructionCsr cfg _ _ || _)) = _
  simp only [hd, hlegal, Core.illegalInstructionCsr, Core.csrAddrV, h.checked, coreInput,
    Bool.not_true, Bool.false_and, Bool.true_and, Bool.or_false, Bool.false_eq_true, if_false,
    if_true]
  cases (after aam cfg io s i n).dm.request.readcsr <;>
    cases (after aam cfg io s i n).dm.request.writecsr <;> simp

theorem buserr (hn : n < 6) :
    ((after aam cfg io s i n).dmInput cfg io (i n)).core.buserr = false := by
  change ((after aam cfg io s i n).core.indebug && (i n).core.bus.error) = false
  rw [h.issues.silent n hn, Bool.and_false]

/-- A clock without a write. -/
theorem undisturbed (hn : n < 6) (hw : (after aam cfg io s i n).dm.request.writesRegister = false) :
    Undisturbed cfg io (after aam cfg io s i n) (i n) := by
  simp only [DmCoreDataRequest.writesRegister, Bool.or_eq_false_iff] at hw
  exact ⟨Core.csr_undriven (h.halted hn.le) h.haveOcd (h.core_sreset hn) hw.2,
    Core.copy_undriven (h.halted hn.le) h.haveOcd (h.core_sreset hn) hw.1⟩

/-! ### The first clocks -/

theorem serves1 : (after aam cfg io s i 1).dm.Serves .check .idle cmd s.dm.data0 :=
  Dm.serves_of_write aam (h.issues.clocked 0 (by decide)).1 h.issues.command h.rest.active
    h.rest.state h.rest.cmderr h.rest.running.2

theorem raises1 : (after aam cfg io s i 1).dm.raises = false := by
  have hr : (s.dmInput cfg io (i 0)).sreset = false := (h.issues.clocked 0 (by decide)).1
  change (s.dm.step (s.dmInput cfg io (i 0)) aam).raises = false
  rw [Dm.step_raises hr, Dm.execute_raises h.rest.active, h.rest.state]

theorem cmderr1 : (after aam cfg io s i 1).dm.cmderr = 0 := by
  have hr : (s.dmInput cfg io (i 0)).sreset = false := (h.issues.clocked 0 (by decide)).1
  have hx : (s.dmInput cfg io (i 0)).core.excep = false := by
    have hx := h.excep (show 0 < 6 by decide)
    change (s.dmInput cfg io (i 0)).core.excep =
      ((s.dm.request.readcsr || s.dm.request.writecsr) &&
        !implementedCsr cfg true (s.dm.request.address.extractLsb' 0 12)) at hx
    rw [hx, h.rest.request]
    rfl
  have hb : (s.dmInput cfg io (i 0)).core.buserr = false := h.buserr (show 0 < 6 by decide)
  have hraise := h.rest.noError
  simp only [Dm.raises, Bool.or_eq_false_iff] at hraise
  change (s.dm.step (s.dmInput cfg io (i 0)) aam).cmderr = 0
  rw [Dm.step_eq_clock hr]
  simp [Dm.clock, Dm.nextCmderr, h.rest.cmderr, hraise, hx, hb, h.rest.noFault]

theorem serves2 : (after aam cfg io s i 2).dm.Serves
    (if RegCommand.performed cmd then .preparegprcsr else .error) .idle cmd s.dm.data0 ∧
      (after aam cfg io s i 2).dm.raises = !RegCommand.performed cmd :=
  h.serves1.check aam (h.quiet (by decide) (by decide)) (h.haltAck (by decide)) h.cmdtype

/-- The error after a clock in which nothing is reported. -/
theorem cmderr_next {st : DmState} {q : DmCoreDataRequest} {v : DataType} (hn : 0 < n) (hn' : n < 6)
    (hs : (after aam cfg io s i n).dm.Serves st q cmd v)
    (hraise : (after aam cfg io s i n).dm.raises = false) :
    (after aam cfg io s i (n + 1)).dm.cmderr =
      if (after aam cfg io s i n).dm.cmderr = 0 then
        if (q.readcsr || q.writecsr) && !implementedCsr cfg true (q.address.extractLsb' 0 12) then
          0b011 else 0
      else (after aam cfg io s i n).dm.cmderr := by
  rw [← hs.request, ← h.excep hn']
  exact hs.cmderr aam (h.quiet hn hn') hraise (h.buserr hn')

/-! ### A command that is not performed -/

section Rejected

variable (hp : RegCommand.performed cmd = false)
include hp

theorem rejected3 : (after aam cfg io s i 3).dm.Serves .idle .idle cmd s.dm.data0 ∧
    (after aam cfg io s i 3).dm.raises = false ∧ (after aam cfg io s i 3).dm.cmderr ≠ 0 := by
  obtain ⟨hs, hraise⟩ := h.serves2
  rw [hp] at hs hraise
  have hq := h.quiet (show 0 < 2 by decide) (by decide)
  obtain ⟨hs', hraise'⟩ := Dm.Serves.error aam hs hq
  refine ⟨hs', hraise', ?_⟩
  rw [after_dm, Dm.step_eq_clock hq.1]
  have hclear := hs.noClear
  intro hzero
  rw [((Dm.nextCmderr_of_raises hraise).mp hzero).2] at hclear
  cases hclear

/-- The Debug Module is idle again, with an error. -/
theorem rejected (hn : 3 ≤ n) (hn' : n ≤ 6) :
    (after aam cfg io s i n).dm.Serves .idle .idle cmd s.dm.data0 ∧
      (after aam cfg io s i n).dm.raises = false ∧ (after aam cfg io s i n).dm.cmderr ≠ 0 := by
  induction n, hn using Nat.le_induction with
  | base => exact h.rejected3 hp
  | succ n hn ih =>
    obtain ⟨hs, hraise, herr⟩ := ih (by omega)
    obtain ⟨hs', hraise'⟩ := Dm.Serves.idle aam hs (h.quiet (by omega) hn')
    refine ⟨hs', hraise', ?_⟩
    rw [h.cmderr_next (by omega) hn' hs hraise, if_neg herr]
    exact herr

theorem request_rejected (hn : 0 < n) (hn' : n < 6) :
    (after aam cfg io s i n).dm.request = .idle := by
  rcases show n = 1 ∨ n = 2 ∨ 3 ≤ n by omega with rfl | rfl | h3
  · exact h.serves1.request
  · exact h.serves2.1.request
  · exact (h.rejected hp h3 hn'.le).1.request

theorem changesNothing_rejected : ChangesNothing aam cfg io s i where
  data0 := (h.rejected hp (show 3 ≤ 6 by decide) le_rfl).1.data0
  hart n hn hn' := h.undisturbed hn' (by rw [h.request_rejected hp hn hn']; rfl)

end Rejected

/-! ### A command that is performed -/

section Performed

variable (hp : RegCommand.performed cmd = true)
include hp

theorem serves3 : (after aam cfg io s i 3).dm.Serves
    (if cmd.getLsbD 16 then .writereg1 else .readreg1) (Dm.registerLines cmd s.dm.data0) cmd
      s.dm.data0 ∧ (after aam cfg io s i 3).dm.raises = false := by
  have hs := h.serves2.1
  rw [hp] at hs
  exact Dm.Serves.prepare aam hs (h.quiet (by decide) (by decide)) hp

theorem cmderr3 : (after aam cfg io s i 3).dm.cmderr = 0 := by
  have h2 : (after aam cfg io s i 2).dm.cmderr = 0 := by
    rw [h.cmderr_next (by decide) (by decide) h.serves1 h.raises1, if_pos h.cmderr1]
    rfl
  have hraise : (after aam cfg io s i 2).dm.raises = false := by rw [h.serves2.2, hp]; rfl
  rw [h.cmderr_next (by decide) (by decide) h.serves2.1 hraise, if_pos h2]
  rfl

theorem cmderr4 : (after aam cfg io s i 4).dm.cmderr =
    if RegCommand.faults cfg cmd then 0b011 else 0 := by
  have hs := h.serves3 hp
  rw [h.cmderr_next (by decide) (by decide) hs.1 hs.2, if_pos (h.cmderr3 hp), Dm.registerLines_fault]

end Performed

/-- The error of the hart stays, and no other comes up. -/
theorem cmderr_keeps {st : DmState} {q : DmCoreDataRequest} {v : DataType} (hn : 0 < n)
    (hn' : n < 6) (hs : (after aam cfg io s i n).dm.Serves st q cmd v)
    (hraise : (after aam cfg io s i n).dm.raises = false)
    (hq : ((q.readcsr || q.writecsr) && !implementedCsr cfg true (q.address.extractLsb' 0 12)) =
      true → RegCommand.faults cfg cmd = true)
    (herr : (after aam cfg io s i n).dm.cmderr =
      if RegCommand.faults cfg cmd then 0b011 else 0) :
    (after aam cfg io s i (n + 1)).dm.cmderr =
      if RegCommand.faults cfg cmd then 0b011 else 0 := by
  rw [h.cmderr_next hn hn' hs hraise, herr]
  cases hf : RegCommand.faults cfg cmd with
  | true => simp
  | false =>
    rw [hf] at hq
    simp only [Bool.false_eq_true, imp_false] at hq
    simp [hq]

theorem settles : ((after aam cfg io s i 3).undriven cfg io (i 3)).csr = CsrReg.settle cfg
    ((after aam cfg io s i 3).core.haltedCsr cfg ((after aam cfg io s i 3).coreInput (i 3))) :=
  Core.step_csr_halted (i := { (after aam cfg io s i 3).coreInput (i 3) with dm := .idle })
    (h.halted (by decide)) h.haveOcd (h.core_sreset (by decide))

/-- Without the lines the registers stay. -/
theorem copy_undriven (hn : n < 6) (p : RegCopy) (r : RegType) :
    ((after aam cfg io s i n).undriven cfg io (i n)).regs.copy cfg p r =
      if cfg.haveRegistersInRam = false ∧ r = 0 then 0
      else (after aam cfg io s i n).core.regs.copy cfg p r :=
  Core.step_copy_halted (i := { (after aam cfg io s i n).coreInput (i n) with dm := .idle })
    (h.halted hn.le) h.haveOcd (h.core_sreset hn) p r

/-! ### Reads -/

section Reads

variable (hp : RegCommand.performed cmd = true) (hw : cmd.getLsbD 16 = false)
include hp hw

theorem reads3 : (after aam cfg io s i 3).dm.Serves .readreg1 (Dm.registerLines cmd s.dm.data0) cmd
    s.dm.data0 := by
  have hs := (h.serves3 hp).1
  rw [hw] at hs
  exact hs

theorem reads4 : (after aam cfg io s i 4).dm.Serves .readreg2 (Dm.registerLines cmd s.dm.data0) cmd
    s.dm.data0 ∧ (after aam cfg io s i 4).dm.raises = false :=
  Dm.Serves.readreg1 aam (h.reads3 hp hw) (h.quiet (by decide) (by decide))

theorem reads5 : (after aam cfg io s i 5).dm.Serves .idle (Dm.registerLines cmd s.dm.data0) cmd
    ((after aam cfg io s i 4).dmInput cfg io (i 4)).core.data ∧
      (after aam cfg io s i 5).dm.raises = false :=
  Dm.Serves.readreg2 aam (h.reads4 hp hw).1 (h.quiet (by decide) (by decide))

theorem reads6 : (after aam cfg io s i 6).dm.Serves .idle .idle cmd
    ((after aam cfg io s i 4).dmInput cfg io (i 4)).core.data :=
  (Dm.Serves.idle aam (h.reads5 hp hw).1 (h.quiet (by decide) (by decide))).1

theorem cmderr_read : (after aam cfg io s i 6).dm.cmderr =
    if RegCommand.faults cfg cmd then 0b011 else 0 := by
  have hq := (Dm.registerLines_fault cfg cmd s.dm.data0).le
  have h4 := h.reads4 hp hw
  have h5 := h.reads5 hp hw
  have herr := h.cmderr_keeps (by decide) (by decide) h4.1 h4.2 hq (h.cmderr4 hp)
  exact h.cmderr_keeps (by decide) (by decide) h5.1 h5.2 hq herr

theorem undisturbed_read (hn : 0 < n) (hn' : n < 6) :
    Undisturbed cfg io (after aam cfg io s i n) (i n) := by
  apply h.undisturbed hn'
  have hlines : (Dm.registerLines cmd s.dm.data0).writesRegister = false := by
    rw [Dm.registerLines_of_read hw]
    rfl
  rcases show n = 1 ∨ n = 2 ∨ n = 3 ∨ n = 4 ∨ n = 5 by omega with rfl | rfl | rfl | rfl | rfl
  · rw [h.serves1.request]; rfl
  · rw [h.serves2.1.request]; rfl
  · rw [(h.reads3 hp hw).request, hlines]
  · rw [(h.reads4 hp hw).1.request, hlines]
  · rw [(h.reads5 hp hw).1.request, hlines]

theorem data_csr (ht : cmd.getLsbD 12 = false) : (after aam cfg io s i 6).dm.data0 =
    (after aam cfg io s i 4).core.csr.read cfg io (Core.wires (i 4).core)
      (cmd.extractLsb' 0 12) := by
  have hreq : ((after aam cfg io s i 4).coreInput (i 4)).dm = Dm.registerLines cmd s.dm.data0 :=
    (h.reads4 hp hw).1.request
  rw [(h.reads6 hp hw).data0]
  change (Core.dmResponse cfg io _ _).data = _
  rw [Core.dmResponse, Core.csrData, Core.csrAddrV, h.halted (by decide), hreq, if_pos rfl,
    Dm.registerLines_address, Dm.registerLines_of_read hw, ht]
  rfl

theorem data_gpr (ht : cmd.getLsbD 12 = true) : (after aam cfg io s i 6).dm.data0 =
    (after aam cfg io s i 3).core.regs.copy cfg .debug (cmd.extractLsb' 0 5) := by
  have hreq : ((after aam cfg io s i 4).coreInput (i 4)).dm = Dm.registerLines cmd s.dm.data0 :=
    (h.reads4 hp hw).1.request
  have hreq3 : ((after aam cfg io s i 3).coreInput (i 3)).dm = Dm.registerLines cmd s.dm.data0 :=
    (h.reads3 hp hw).request
  have hgpr : (after aam cfg io s i 4).core.regs.dataFromGpr =
      (after aam cfg io s i 3).core.regs.copy cfg .debug (cmd.extractLsb' 0 5) := by
    rw [after_core, driven, Core.step_clock _ _ _ _ (h.core_sreset (by decide)), Core.clock_regs,
      Core.dataFromGpr_halted (h.halted (by decide)) h.haveOcd (h.core_sreset (by decide)), hreq3,
      Dm.registerLines_gpr]
    rfl
  rw [(h.reads6 hp hw).data0, ← hgpr]
  change (Core.dmResponse cfg io _ _).data = _
  rw [Core.dmResponse, hreq, Dm.registerLines_of_read hw, ht]
  rfl

end Reads

/-! ### Writes -/

section Writes

variable (hp : RegCommand.performed cmd = true) (hw : cmd.getLsbD 16 = true)
include hp hw

theorem writes3 : (after aam cfg io s i 3).dm.Serves .writereg1 (Dm.registerLines cmd s.dm.data0)
    cmd s.dm.data0 := by
  have hs := (h.serves3 hp).1
  rw [hw] at hs
  exact hs

theorem writes4 : (after aam cfg io s i 4).dm.Serves .idle
    { Dm.registerLines cmd s.dm.data0 with writecsr := false, address := 0, data := 0 } cmd
    s.dm.data0 ∧ (after aam cfg io s i 4).dm.raises = false :=
  Dm.Serves.writereg1 aam (h.writes3 hp hw) (h.quiet (by decide) (by decide))

theorem request4 : (after aam cfg io s i 4).dm.request =
    { DmCoreDataRequest.idle with writegpr := cmd.getLsbD 12 } := by
  rw [(h.writes4 hp hw).1.request, Dm.registerLines_of_write hw]
  rfl

theorem writes5 : (after aam cfg io s i 5).dm.Serves .idle .idle cmd s.dm.data0 ∧
    (after aam cfg io s i 5).dm.raises = false :=
  Dm.Serves.idle aam (h.writes4 hp hw).1 (h.quiet (by decide) (by decide))

theorem writes6 : (after aam cfg io s i 6).dm.Serves .idle .idle cmd s.dm.data0 :=
  (Dm.Serves.idle aam (h.writes5 hp hw).1 (h.quiet (by decide) (by decide))).1

theorem cmderr_write : (after aam cfg io s i 6).dm.cmderr =
    if RegCommand.faults cfg cmd then 0b011 else 0 := by
  have h4 := h.writes4 hp hw
  have h5 := h.writes5 hp hw
  have hread : (Dm.registerLines cmd s.dm.data0).readcsr = false := by
    rw [Dm.registerLines_of_write hw]
    rfl
  have herr := h.cmderr_keeps (by decide) (by decide) h4.1 h4.2 (by simp [hread]) (h.cmderr4 hp)
  exact h.cmderr_keeps (by decide) (by decide) h5.1 h5.2 (by simp [DmCoreDataRequest.idle]) herr

/-- The clocks next to the write. -/
theorem undisturbed_write (hn : 0 < n) (hn' : n < 6) (h3 : n ≠ 3)
    (h4 : n = 4 → cmd.getLsbD 12 = false) :
    Undisturbed cfg io (after aam cfg io s i n) (i n) := by
  apply h.undisturbed hn'
  rcases show n = 1 ∨ n = 2 ∨ n = 4 ∨ n = 5 by omega with rfl | rfl | rfl | rfl
  · rw [h.serves1.request]; rfl
  · rw [h.serves2.1.request]; rfl
  · rw [h.request4 hp hw, h4 rfl]; rfl
  · rw [(h.writes5 hp hw).1.request]; rfl

theorem request3 : ((after aam cfg io s i 3).coreInput (i 3)).dm =
    Dm.registerLines cmd s.dm.data0 := (h.writes3 hp hw).request

theorem settles_written (ht : cmd.getLsbD 12 = false) :
    ((after aam cfg io s i 3).driven cfg io (i 3)).csr = CsrReg.settle cfg
      (((after aam cfg io s i 3).core.haltedCsr cfg
        ((after aam cfg io s i 3).coreInput (i 3))).debugWrite (cmd.extractLsb' 0 12)
          s.dm.data0) := by
  have hline : (Dm.registerLines cmd s.dm.data0).writecsr = true := by
    rw [Dm.registerLines_of_write hw, ht]
    rfl
  have hdata : (Dm.registerLines cmd s.dm.data0).data = s.dm.data0 := by
    rw [Dm.registerLines_of_write hw]
  rw [driven, Core.step_csr_halted (h.halted (by decide)) h.haveOcd (h.core_sreset (by decide)),
    h.request3 hp hw, hline, if_pos rfl, Dm.registerLines_address, hdata]

theorem gpr_undriven (ht : cmd.getLsbD 12 = false) (p : RegCopy) (r : RegType) :
    ((after aam cfg io s i 3).driven cfg io (i 3)).regs.copy cfg p r =
      ((after aam cfg io s i 3).undriven cfg io (i 3)).regs.copy cfg p r := by
  apply Core.copy_undriven (h.halted (by decide)) h.haveOcd (h.core_sreset (by decide))
  rw [h.request3 hp hw, Dm.registerLines_of_write hw, ht]

theorem writesCsr (ht : cmd.getLsbD 12 = false) : WritesCsr cfg io (after aam cfg io s i 3) (i 3)
    (cmd.extractLsb' 0 12) s.dm.data0 where
  written := ⟨_, h.settles, h.settles_written hp hw ht⟩
  others := by
    rw [h.settles, h.settles_written hp hw ht]
    exact (CsrReg.sameExcept_debugWrite _ _ _).settle
  gpr := h.gpr_undriven hp hw ht

/-- A fault and a write change nothing, since there is no register to write. -/
theorem undisturbed_fault (hf : RegCommand.faults cfg cmd = true) (hn : 0 < n) (hn' : n < 6) :
    Undisturbed cfg io (after aam cfg io s i n) (i n) := by
  simp only [RegCommand.faults, Bool.and_eq_true, Bool.not_eq_true'] at hf
  by_cases h3 : n = 3
  · subst h3
    refine ⟨?_, h.gpr_undriven hp hw hf.1⟩
    rw [h.settles, h.settles_written hp hw hf.1,
      CsrReg.debugWrite_unimplemented h.haveOcd hf.2]
  · exact h.undisturbed_write hp hw hn hn' h3 fun _ => hf.1

theorem writesGpr (ht : cmd.getLsbD 12 = true) : WritesGpr cfg io (after aam cfg io s i 3) (i 3)
    (cmd.extractLsb' 0 5) s.dm.data0 where
  csr := by
    apply Core.csr_undriven (h.halted (by decide)) h.haveOcd (h.core_sreset (by decide))
    rw [h.request3 hp hw, Dm.registerLines_of_write hw, ht]
    rfl
  gpr p r hr := by
    have hline : (Dm.registerLines cmd s.dm.data0).writegpr = true := by
      rw [Dm.registerLines_of_write hw, ht]
    have hdata : (Dm.registerLines cmd s.dm.data0).data = s.dm.data0 := by
      rw [Dm.registerLines_of_write hw]
    rw [h.copy_undriven (by decide), driven,
      Core.step_copy_halted (h.halted (by decide)) h.haveOcd (h.core_sreset (by decide)),
      h.request3 hp hw, hline, hdata, Dm.registerLines_gpr]
    simp only [hr, and_false, if_false, true_and]

/-- The second clock of the write is one to `x0`. -/
theorem copy5 (ht : cmd.getLsbD 12 = true) (p : RegCopy) (r : RegType) :
    (after aam cfg io s i 5).core.regs.copy cfg p r =
      if r = 0 then 0 else (after aam cfg io s i 4).core.regs.copy cfg p r := by
  have hreq : ((after aam cfg io s i 4).coreInput (i 4)).dm =
      { DmCoreDataRequest.idle with writegpr := true } := by
    rw [← ht]
    exact h.request4 hp hw
  rw [after_core, driven,
    Core.step_copy_halted (h.halted (by decide)) h.haveOcd (h.core_sreset (by decide)), hreq]
  change (if _ then 0#32 else if true = true ∧ r = 0#5 then 0#32 else _) = _
  by_cases hr : r = 0#5
  · simp [hr]
  · have hne : ¬r = 0 := hr
    simp only [hr, hne, and_false, if_false]

theorem clearsZero (ht : cmd.getLsbD 12 = true) :
    WritesGpr cfg io (after aam cfg io s i 4) (i 4) 0 0 where
  csr := by
    apply Core.csr_undriven (h.halted (by decide)) h.haveOcd (h.core_sreset (by decide))
    change (after aam cfg io s i 4).dm.request.writecsr = false
    rw [h.request4 hp hw]
    rfl
  gpr p r hr := by
    rw [← after_core, h.copy5 hp hw ht, if_neg hr, if_neg hr, h.copy_undriven (by decide)]
    simp only [hr, and_false, if_false]

theorem zero6 (ht : cmd.getLsbD 12 = true) (p : RegCopy) :
    (after aam cfg io s i 6).core.regs.copy cfg p 0 = 0 := by
  have hreq : ((after aam cfg io s i 5).coreInput (i 5)).dm = .idle := (h.writes5 hp hw).1.request
  rw [after_core, driven,
    Core.step_copy_halted (h.halted (by decide)) h.haveOcd (h.core_sreset (by decide)), hreq,
    h.copy5 hp hw ht, if_pos rfl]
  simp only [DmCoreDataRequest.idle, Bool.false_eq_true, false_and, ite_self]

end Writes

end CommandRun

/-! ## The register that is named -/

/-- Bit 12 of a number below 0x1020. -/
theorem bit12_eq (h : cmd.extractLsb' 0 16 < 0x1020) :
    cmd.getLsbD 12 = decide (¬cmd.extractLsb' 0 16 < 0x1000) := by
  have hlt : (cmd.extractLsb' 0 16).toNat < 0x1020 := h
  have hle : cmd.extractLsb' 0 16 < 0x1000 ↔ (cmd.extractLsb' 0 16).toNat < 0x1000 := BitVec.lt_def
  have hbit : cmd.getLsbD 12 = (cmd.extractLsb' 0 16).getLsbD 12 := by simp
  rw [hbit, BitVec.getLsbD, Nat.testBit_eq_decide_div_mod_eq, decide_eq_decide, hle]
  omega

theorem bit12_of_csr {a : CsrAddr} (h : RegCommand.target cmd = some (.csr a)) :
    cmd.getLsbD 12 = false ∧ cmd.extractLsb' 0 12 = a := by
  rw [RegCommand.target, regnoTarget] at h
  by_cases hc : cmd.extractLsb' 0 16 < 0x1000
  · have hlt : cmd.extractLsb' 0 16 < 0x1020 := by
      rw [BitVec.lt_def] at hc ⊢
      exact hc.trans (by decide)
    rw [if_pos hc] at h
    cases h
    refine ⟨by rw [bit12_eq hlt, decide_eq_false_iff_not, not_not]; exact hc, ?_⟩
    ext k hk
    simp
  · rw [if_neg hc] at h
    split_ifs at h
    cases h

theorem bit12_of_gpr {r : RegType} (h : RegCommand.target cmd = some (.gpr r)) :
    cmd.getLsbD 12 = true ∧ cmd.extractLsb' 0 5 = r := by
  rw [RegCommand.target, regnoTarget] at h
  by_cases hc : cmd.extractLsb' 0 16 < 0x1000
  · rw [if_pos hc] at h
    cases h
  · rw [if_neg hc] at h
    split_ifs at h with hr
    cases h
    refine ⟨by rw [bit12_eq hr, decide_eq_true_iff]; exact hc, ?_⟩
    ext k hk
    simp

/-- An implemented register does not fault. -/
theorem faults_of_not_mustFail (h : RegCommand.mustFail cfg cmd = false) :
    RegCommand.faults cfg cmd = false := by
  simp only [RegCommand.mustFail, Bool.or_eq_false_iff] at h
  cases ht : RegCommand.target cmd with
  | none => simp [ht] at h
  | some x =>
    cases x with
    | csr a =>
      obtain ⟨-, rfl⟩ := bit12_of_csr ht
      rw [ht] at h
      simp [RegCommand.faults, h.2]
    | gpr r => rw [RegCommand.faults, (bit12_of_gpr ht).1]; rfl

/-! ## The theorem -/

namespace CommandRun

variable (h : CommandRun aam cfg io s i cmd)
include h

theorem cmderr6 (hp : RegCommand.performed cmd = true) : (after aam cfg io s i 6).dm.cmderr =
    if RegCommand.faults cfg cmd then 0b011 else 0 := by
  cases hw : cmd.getLsbD 16 with
  | true => exact h.cmderr_write hp hw
  | false => exact h.cmderr_read hp hw

/-- A command that cannot succeed, but is performed. -/
theorem fails_iff (hp : RegCommand.performed cmd = true) :
    ((after aam cfg io s i 6).dm.cmderr ≠ 0 ∧ ChangesNothing aam cfg io s i) ↔
      RegCommand.faults cfg cmd = true ∧ (RegCommand.write cmd = true ∨ s.dm.data0 = 0) := by
  rw [h.cmderr6 hp]
  cases hf : RegCommand.faults cfg cmd with
  | false => simp
  | true =>
    have hf' := hf
    simp only [RegCommand.faults, Bool.and_eq_true, Bool.not_eq_true'] at hf'
    simp only [if_true, true_and]
    cases hw : cmd.getLsbD 16 with
    | true =>
      refine iff_of_true ⟨by decide, ?_⟩ (.inl hw)
      exact ⟨(h.writes6 hp hw).data0, fun n hn hn' => h.undisturbed_fault hp hw hf hn hn'⟩
    | false =>
      have hzero : (after aam cfg io s i 6).dm.data0 = 0 := by
        rw [h.data_csr hp hw hf'.1]
        exact CsrReg.read_unimplemented h.haveOcd (h.inv 4).counters hf'.2
      have hw' : RegCommand.write cmd = false := hw
      rw [hw']
      simp only [Bool.false_eq_true, false_or]
      constructor
      · rintro ⟨-, hnothing⟩
        rw [← hnothing.data0, hzero]
      · intro hdata
        refine ⟨by decide, ?_⟩
        exact ⟨hzero.trans hdata.symm, fun n hn hn' => h.undisturbed_read hp hw hn hn'⟩

theorem fails_of_confined (hc : RegCommand.Confined cfg cmd s.dm.data0)
    (hm : RegCommand.mustFail cfg cmd = true) :
    (after aam cfg io s i 6).dm.cmderr ≠ 0 ∧ ChangesNothing aam cfg io s i := by
  cases hp : RegCommand.performed cmd with
  | false =>
    exact ⟨(h.rejected hp (by decide) le_rfl).2.2, h.changesNothing_rejected hp⟩
  | true => exact (h.fails_iff hp).mpr (hc hm hp)

end CommandRun

/-- A register command does what it has to do exactly when it is confined to the registers. -/
theorem access_register_confined (aam : Bool) (cfg : Generics) (io : Peripherals) (s : DebugSystem)
    (i : ℕ → DebugInput) (cmd : DataType) (h : CommandRun aam cfg io s i cmd) :
    AccessesNamed aam cfg io s i cmd ↔ RegCommand.Confined cfg cmd s.dm.data0 := by
  constructor
  · intro hacc hm hp
    exact (h.fails_iff hp).mp (hacc.fails hm)
  · intro hc
    constructor
    case fails => exact h.fails_of_confined hc
    case unperformed => exact fun _ hp => h.changesNothing_rejected hp
    case succeeds =>
      intro hm hp
      rw [h.cmderr6 hp, faults_of_not_mustFail hm]
      rfl
    case readsCsr =>
      intro a ht _ hp hw
      obtain ⟨hbit, rfl⟩ := bit12_of_csr ht
      exact ⟨h.data_csr hp hw hbit, fun n hn hn' => h.undisturbed_read hp hw hn hn'⟩
    case readsGpr =>
      intro r ht _ hp hw
      obtain ⟨hbit, rfl⟩ := bit12_of_gpr ht
      exact ⟨h.data_gpr hp hw hbit, fun n hn hn' => h.undisturbed_read hp hw hn hn'⟩
    case writesCsr =>
      intro a ht _ hp hw
      obtain ⟨hbit, rfl⟩ := bit12_of_csr ht
      exact ⟨(h.writes6 hp hw).data0, h.writesCsr hp hw hbit,
        fun n hn hn' h3 => h.undisturbed_write hp hw hn hn' h3 fun _ => hbit⟩
    case writesGpr =>
      intro r ht _ hp hw
      obtain ⟨hbit, rfl⟩ := bit12_of_gpr ht
      exact ⟨(h.writes6 hp hw).data0, h.writesGpr hp hw hbit, h.clearsZero hp hw hbit,
        fun n hn hn' h3 h4 => h.undisturbed_write hp hw hn hn' h3 fun h4' => absurd h4' h4,
        h.zero6 hp hw hbit⟩

/-- Halt, and write `data0`. -/
def haltWithData : List DebugInput :=
  [.write addrDmcontrol 0x80000001, .wait, .wait, .wait, .write addrDmcontrol 0x00000001,
    .write addrData0 0xcafe0000, .wait]

def halted : DebugSystem := (machine false .plain .none).run haltWithData

/-- The command, and then no more. -/
def issue (cmd : DataType) : ℕ → DebugInput
  | 0 => .write addrCommand cmd
  | _ + 1 => .wait

theorem commandRun_halted (hcmd : cmd.extractLsb' 24 8 = 0x00) :
    CommandRun false .plain .none halted (issue cmd) cmd where
  reachable := Machine.reachable_run haltWithData
  checked := rfl
  rest := by constructor <;> decide +kernel
  issues :=
    { command := rfl
      quiet := fun
        | 0, h, _ => absurd h (by decide)
        | _ + 1, _, _ => rfl
      clocked := fun
        | 0, _ => ⟨rfl, rfl⟩
        | _ + 1, _ => ⟨rfl, rfl⟩
      silent := fun
        | 0, _ => rfl
        | _ + 1, _ => rfl }
  cmdtype := hcmd

/-- A write of `x1`. -/
theorem write_x1_confined :
    AccessesNamed false .plain .none halted (issue 0x00231001) 0x00231001 :=
  (access_register_confined false .plain .none _ _ _ (commandRun_halted (by decide))).mpr
    (by decide)

/-- Number 0x1021 is no register, and a write of it changes `x1` without an error. -/
theorem write_of_no_register_changes_x1 :
    CommandRun false .plain .none halted (issue 0x00231021) 0x00231021 ∧
      ¬ AccessesNamed false .plain .none halted (issue 0x00231021) 0x00231021 ∧
      (after false .plain .none halted (issue 0x00231021) 6).core.regs.copy .plain .rs1 1 =
        0xcafe0000 :=
  ⟨commandRun_halted (by decide),
    fun h => (h.fails (by decide)).1 (by decide +kernel), by decide +kernel⟩

end DebugSystem

end ThuasRiscv
