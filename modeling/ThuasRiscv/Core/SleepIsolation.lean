import ThuasRiscv.Core.PreciseResume
import ThuasRiscv.Core.TrapReturn

/-!
# Sleeping on a WFI

While the core sleeps, the instruction behind the WFI is in the execute stage.
Only the write of its register is held back by the stall: its bus access, CSR
write and MD operation are suppressed by a trap and not by `state_wfi`. With an
instruction that has none of these the sleep is without effect, and the
instruction is executed once, after the handler or after the debug resume.
-/

namespace ThuasRiscv

open Transition

namespace Core

variable {cfg : Generics} {io : Peripherals} {s : Core} {o : Observer} {i : CoreInput}

/-- The instruction in the execute stage has no effect on the bus, the CSRs and the MD unit, unless
a trap suppresses it in this clock. -/
structure EffectFree (cfg : Generics) (s : Core) (i : CoreInput) : Prop where
  mem : s.idEx.ismem = true →
    (if cfg.fastMem then (s.interrupt i).isSome else s.trapRequest cfg i) = true
  csr : s.idEx.csrOp ≠ .nop → s.trapRequest cfg i = true
  md : s.idEx.mdStart = true → s.trapRequest cfg i = true

instance : Decidable (EffectFree cfg s i) :=
  decidable_of_iff
    ((s.idEx.ismem = true →
        (if cfg.fastMem then (s.interrupt i).isSome else s.trapRequest cfg i) = true) ∧
      (s.idEx.csrOp ≠ .nop → s.trapRequest cfg i = true) ∧
      (s.idEx.mdStart = true → s.trapRequest cfg i = true))
    ⟨fun h => ⟨h.1, h.2.1, h.2.2⟩, fun h => ⟨h.1, h.2, h.3⟩⟩

/-- The pipeline is not disturbed, and while the core sleeps the instruction behind the WFI is free
of effects and the Debug Module, which waits for the halt, makes no access. -/
structure SleepSafe (cfg : Generics) (p : Core × Observer) (i : CoreInput) : Prop where
  pipeline : PipelineSafe cfg p i
  aligned : i.sreset = false → (p.1.interrupt i).isSome = true → p.1.stateNext cfg i = .trap →
    p.1.idEx.pc.getLsbD 1 = false
  behind : i.sreset = false → p.1.control.state = .wfi → EffectFree cfg p.1 i
  dm : i.sreset = false → p.1.control.state = .wfi → i.dm.stb = false

instance {p : Core × Observer} : Decidable (SleepSafe cfg p i) :=
  decidable_of_iff (PipelineSafe cfg p i ∧
      (i.sreset = false → (p.1.interrupt i).isSome = true → p.1.stateNext cfg i = .trap →
        p.1.idEx.pc.getLsbD 1 = false) ∧
      (i.sreset = false → p.1.control.state = .wfi → EffectFree cfg p.1 i) ∧
      (i.sreset = false → p.1.control.state = .wfi → i.dm.stb = false))
    ⟨fun h => ⟨h.1, h.2.1, h.2.2.1, h.2.2.2⟩, fun h => ⟨h.1, h.2, h.3, h.4⟩⟩

/-- The access that the core puts on the bus in this clock, or registers for the next one. -/
def access (cfg : Generics) (s : Core) (i : CoreInput) : BusRequest :=
  s.busAccess cfg i (if cfg.fastMem then s.fastDisable cfg i else s.slowDisable cfg i)

/-- The instruction behind the WFI has no effect in this clock. -/
structure Isolated (cfg : Generics) (io : Peripherals) (s : Core) (o : Observer) (i : CoreInput) :
    Prop where
  bus : (s.access cfg i).stb = true → (s.access cfg i).acc = .nop
  csr : s.writesCsr cfg i = false
  md : s.startsMd cfg i = false
  register : s.regWrite cfg io i = none
  commits : o.commits cfg s i = none

/-- Sleep is without effect, and the instruction behind the WFI, which is the next one of the
program, is executed once: it is the one that an interrupt or a halt saves, the handler returns to
it, and the instructions commit in the order of the program. -/
structure SleepsOnce (cfg : Generics) (io : Peripherals) (s : Core) (o : Observer) (i : CoreInput) :
    Prop where
  isolated : s.control.state = .wfi → Isolated cfg io s o i
  waits : s.control.state = .wfi →
    o.issued = false ∧ ∃ x, o.slot = some x ∧ x.decoded.pc = o.npc
  interrupt : s.control.state = .wfi → (s.interrupt i).isSome = true →
    s.stateNext cfg i = .trap → o.nextFrame cfg s i = some ⟨s.csr.mstatus.getLsbD 3, o.npc⟩
  returns : s.control.state = .mret2 → ∀ f, o.frame = some f → o.nextNpc cfg s i = f.mepc
  halt : s.control.state = .wfi → s.stateNext cfg i = .debug →
    (s.nextControl cfg i).loadDpc = true ∧ (s.nextIdEx cfg i).pc = o.npc ∧
      o.nextNpc cfg s i = o.npc
  saves : s.control.loadDpc = true → (i.dm.writecsr = true → s.csrAddrV i ≠ dpcAddr) →
    (s.nextCsr cfg i).dpc = o.npc
  resumes : s.control.loadPc = true → o.nextNpc cfg s i = s.csr.dpc
  inOrder : ∀ x, o.commits cfg s i = some x → x.decoded.pc = o.npc

/-! ## No effect while sleeping -/

theorem isolated_of_effectFree (hs : s.control.state = .wfi) (h : EffectFree cfg s i)
    (hdm : i.dm.stb = false) : Isolated cfg io s o i where
  bus hstb := by
    have hmem : s.idEx.ismem = true := by simpa [access, busAccess, hdm] using hstb
    have hd : s.indebug = false := by simp [indebug, hs]
    have hdis : (if cfg.fastMem then s.fastDisable cfg i else s.slowDisable cfg i) = true := by
      have := h.mem hmem
      cases hf : cfg.fastMem <;> simp_all [fastDisable, slowDisable]
    simp [access, busAccess, hd, hdis]
  csr := by
    by_cases hop : s.idEx.csrOp = .nop
    · simp [writesCsr, CsrSignals.writes, csrSignals, hop]
    · simp [writesCsr, CsrSignals.writes, csrSignals, h.csr hop]
  md := by
    cases hmd : s.idEx.mdStart with
    | false => simp [startsMd, hmd]
    | true => simp [startsMd, h.md hmd]
  register := by simp [regWrite, indebug, stall_eq, hs]
  commits := commits_of_not_leaves (by simp [leaves, stall_eq, hs])

theorem accessesBus_of_effectFree (h : EffectFree cfg s i) : s.accessesBus cfg i = false := by
  cases hmem : s.idEx.ismem with
  | false => simp [accessesBus, hmem]
  | true =>
    have := h.mem hmem
    cases hf : cfg.fastMem <;> simp_all [accessesBus, fastDisable, slowDisable]

/-- A safe sleep disturbs no resume point. -/
theorem SleepSafe.resume {p : Core × Observer} (h : SleepSafe cfg p i) : ResumeSafe cfg p i where
  pipeline := h.pipeline
  aligned := h.aligned
  sleep hr hs _ :=
    ⟨accessesBus_of_effectFree (h.behind hr hs),
      (isolated_of_effectFree hs (h.behind hr hs) (h.dm hr hs) :
        Isolated cfg .none p.1 p.2 i).csr⟩

/-- In every run in which the instruction behind a WFI is neither a load, a store, a CSR instruction
nor a multiplication or division, it has no effect while the core sleeps and is executed once
afterwards. -/
theorem sleeps_without_effect (cfg : Generics) (io : Peripherals) {s : Core} {o : Observer}
    (h : (observed cfg io).Reachable (SleepSafe cfg) (s, o)) {i : CoreInput}
    (hr : i.sreset = false) (hsafe : SleepSafe cfg (s, o) i) : SleepsOnce cfg io s o i := by
  have hinv : ResumeInv cfg s o := resumeInv_of_reachable (h.mono fun _ _ h => h.resume)
  have hframe : FrameInv cfg s o := frameInv_of_reachable (h.mono fun _ _ h => h.pipeline)
  have hprecise := precise_of_resumeInv hinv hr hsafe.resume
  have hfilled (hs : s.control.state = .wfi) : ∃ x, Filled s o x := by
    cases hinv.pipeline.stage with
    | sleeping x _ hx => exact ⟨x, hx⟩
    | target h | fetched h => simp [hs, atTarget, atFetch] at h
    | executing _ _ h | loading _ h | computing _ h | computed _ h | trapping h | halted h
    | resuming h => rw [hs] at h; cases h
  refine ⟨fun hs => isolated_of_effectFree hs (hsafe.behind hr hs) (hsafe.dm hr hs),
    fun hs => ⟨hinv.issued (.inr hs), ?_⟩, fun hs hi hn => ?_, fun hs f hf => ?_,
    fun hs hn => ?_, hprecise.saves, fun hl => ?_, hprecise.inOrder⟩
  · obtain ⟨x, hx⟩ := hfilled hs
    exact ⟨x, hx.slot, hx.decoded⟩
  · obtain ⟨x, hx⟩ := hfilled hs
    have hpc := hx.idEx
    rw [Observer.nextFrame, if_pos hn,
      mepcOf_eq_self (hpc ▸ hinv.npc) (hsafe.aligned hr hi hn), hpc]
  · rw [nextNpc_of_mret_states hinv.pipeline (.inr hs)]
    exact hframe.mret (.inr hs) f hf
  · obtain ⟨hload, hpc, -⟩ := hprecise.enters (by simp [hs]) hn
    have hleave : s.leaves cfg i = false := by simp [leaves, stall_eq, hs]
    exact ⟨hload, hpc, nextNpc_of_idle (hn.trans_ne (by simp))
      (hinv.pipeline.loadPc_eq_false (by simp [hs])) (commits_of_not_leaves hleave)⟩
  · have hs := hinv.pipeline.loadPc.mp hl
    simp [Observer.nextNpc, stateNext, hs, hl]

/-- `wfi; addi x1, x0, 1`, in the second clock of the sleep. -/
theorem addi_behind_wfi_waits :
    Observer.commits .plain
      (observeProgram .plain .none [0x10500073, 0x00100093] (.replicate 4 .quiet)).1
      (Core.fetchInput .plain
        (observeProgram .plain .none [0x10500073, 0x00100093] (.replicate 4 .quiet)).1
        0x00000013 .quiet)
      (observeProgram .plain .none [0x10500073, 0x00100093] (.replicate 4 .quiet)).2 = none :=
  ((sleeps_without_effect .plain .none
    (s := (observeProgram .plain .none [0x10500073, 0x00100093] (.replicate 4 .quiet)).1)
    (o := (observeProgram .plain .none [0x10500073, 0x00100093] (.replicate 4 .quiet)).2)
    (Machine.Reachable.init.runFrom_of_meets (M := observed .plain .none) (by decide +kernel))
    (i := Core.fetchInput .plain
      (observeProgram .plain .none [0x10500073, 0x00100093] (.replicate 4 .quiet)).1
      0x00000013 .quiet)
    (by decide +kernel) (by decide +kernel)).isolated (by decide +kernel)).commits

/-- `lui x9, 0x20000; wfi; sw x0, 8(x9)`: the store is strobed while the core sleeps. -/
theorem store_behind_wfi_is_strobed :
    ¬ ∀ s o, (observed .plain .none).Reachable Machine.free (s, o) → ∀ i, i.sreset = false →
      i.dm = .idle → SleepsOnce .plain .none s o i := by
  intro h
  have ho := h _ _ (observeProgram_reachable .plain .none [0x200004b7, 0x10500073, 0x0004a423]
    (.replicate 4 .quiet)) (Core.fetchInput .plain (observeProgram .plain .none
      [0x200004b7, 0x10500073, 0x0004a423] (.replicate 4 .quiet)).1 0x00000013 .quiet) rfl rfl
  exact absurd ((ho.isolated (by decide +kernel)).bus (by decide +kernel)) (by decide +kernel)

end Core

end ThuasRiscv
