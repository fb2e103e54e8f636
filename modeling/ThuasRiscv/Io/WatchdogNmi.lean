import ThuasRiscv.Io.Watchdog

/-!
# NMI delivery from the watchdog

The core samples the line of the NMI in `state_exec` and `state_wfi`. A counter
that has run down holds the line, while the pulse of a bad write is over after
one clock: it is lost unless the core is interruptible in just that clock.
-/

namespace ThuasRiscv

open Transition

namespace WdtSystem

variable {nRom nBoot nRam : ℕ} (g : SystemGenerics) (io : Peripherals)
  (s : WdtSystem nRom nBoot nRam) (pending : Bool) (i : SystemInput)

/-- The watchdog, enabled in NMI mode, signals a violation while NMIs are not locked out. -/
def signals : Bool := s.wdt.en && s.wdt.irq && !s.sys.core.nmiLockout

/-- The core enters the trap of the NMI. -/
def takesNmi : Bool := s.sys.core.entersNmi g.core (s.coreInput g i)

/-- A violation for which the NMI trap has not been entered. -/
def isOpen : Bool := pending || s.signals

/-- Whether an earlier violation is still open. -/
def nextPending : Bool :=
  if s.sresetSys i then false else s.isOpen pending && !s.takesNmi g i

/-- The system with an observer of the open violation. -/
def observed (nRom nBoot nRam : ℕ) (loadAccessError storeAccessError : Bool) :
    Machine (WdtSystem nRom nBoot nRam × Bool) SystemInput :=
  (machine g io nRom nBoot nRam loadAccessError storeAccessError).observe false
    fun s i pending => s.nextPending g pending i

/-- The line of the NMI is high and not locked out. -/
def OnLine : Prop := s.wdt.irq = true ∧ s.sys.core.nmiLockout = false

/-- An open violation is not lost: an interruptible clock takes it, and as long as it is not taken
the line stays. -/
structure Delivers : Prop where
  taken : s.isOpen pending = true → s.sys.core.interruptible = true → s.takesNmi g i = true
  kept : s.nextPending g pending i = true → (s.step g io i).OnLine

/-- An interruptible clock with an open violation does not enter debug mode. In another one the
watchdog signals again, in the same mode, and no other trap is recorded. -/
structure WatchdogSafe : Prop where
  exec : s.isOpen pending = true → s.sys.core.interruptible = true →
    s.sys.core.control.state = .exec → s.sys.core.triggers g.core (s.coreInput g i) = false
  wfi : s.isOpen pending = true → s.sys.core.interruptible = true →
    s.sys.core.control.state = .wfi → (i.core.haltReq && g.core.haveOcd) = false
  again : s.isOpen pending = true → s.sys.core.interruptible = false →
    (s.wdt.badWrite (s.wdtRequest g i) || s.wdt.expired) = true ∧
      s.wdt.keepsNmi (s.wdtRequest g i) = true
  alone : s.isOpen pending = true → s.sys.core.interruptible = false →
    (s.sys.core.csrSignals g.core (s.coreInput g i)).entersTrap = false

instance : Decidable (WatchdogSafe g s pending i) :=
  decidable_of_iff
    ((s.isOpen pending = true → s.sys.core.interruptible = true →
        s.sys.core.control.state = .exec → s.sys.core.triggers g.core (s.coreInput g i) = false) ∧
      (s.isOpen pending = true → s.sys.core.interruptible = true →
        s.sys.core.control.state = .wfi → (i.core.haltReq && g.core.haveOcd) = false) ∧
      (s.isOpen pending = true → s.sys.core.interruptible = false →
        (s.wdt.badWrite (s.wdtRequest g i) || s.wdt.expired) = true ∧
          s.wdt.keepsNmi (s.wdtRequest g i) = true) ∧
      (s.isOpen pending = true → s.sys.core.interruptible = false →
        (s.sys.core.csrSignals g.core (s.coreInput g i)).entersTrap = false))
    ⟨fun h => ⟨h.1, h.2.1, h.2.2.1, h.2.2.2⟩, fun h => ⟨h.1, h.2, h.3, h.4⟩⟩

/-! ## One clock -/

variable {g io s pending i}

theorem coreInput_sreset (hr : s.sresetSys i = false) : (s.coreInput g i).sreset = false := hr

theorem coreInput_nmi : (s.coreInput g i).intrio.getLsbD 31 = s.wdt.irq := by
  change (setBit i.core.intrio 31 s.wdt.irq).getLsbD 31 = s.wdt.irq
  rw [getLsbD_setBit _ (by decide), if_pos rfl]

theorem step_wdt (hr : s.sresetSys i = false) :
    (s.step g io i).wdt = s.wdt.clock (s.wdtRequest g i) false := by
  rw [← hr]
  rfl

theorem step_lockout (hr : s.sresetSys i = false) : (s.step g io i).sys.core.nmiLockout =
    s.sys.core.nextNmiLockout g.core (s.coreInput g i) := by
  change (s.sys.core.step g.core io (s.coreInput g i)).nmiLockout = _
  rw [Core.step_clock _ _ _ _ (coreInput_sreset hr)]
  rfl

theorem onLine_of_isOpen (hinv : pending = true → s.OnLine) (h : s.isOpen pending = true) :
    s.OnLine := by
  rw [isOpen, Bool.or_eq_true] at h
  rcases h with h | h
  · exact hinv h
  · simp only [signals, Bool.and_eq_true, Bool.not_eq_true'] at h
    exact ⟨h.1.2, h.2⟩

/-- The NMI is taken unless the clock enters debug mode. -/
theorem takesNmi_iff (hline : s.OnLine) (hint : s.sys.core.interruptible = true) :
    s.takesNmi g i = true ↔
      (s.sys.core.control.state = .exec →
        s.sys.core.triggers g.core (s.coreInput g i) = false) ∧
      (s.sys.core.control.state = .wfi → (i.core.haltReq && g.core.haveOcd) = false) := by
  simp only [Core.interruptible, Bool.and_eq_true, Bool.not_eq_true'] at hint
  obtain ⟨hmay, hstep⟩ := hint
  have hirq : s.sys.core.interrupt (s.coreInput g i) = some 31 :=
    Core.interrupt_eq_nmi_iff.mpr ⟨coreInput_nmi.trans hline.1, hmay, hline.2, hstep⟩
  have hnext : s.takesNmi g i = true ↔
      s.sys.core.stateNext g.core (s.coreInput g i) ≠ .debug := by
    rw [takesNmi, Core.entersNmi, hirq]
    simp only [decide_true, Bool.true_and, decide_eq_true_eq]
    exact ⟨fun h => by simp [h],
      Core.stateNext_of_interrupt hmay (by simp [hirq])⟩
  rw [hnext]
  rw [Core.mayInterrupt_eq] at hmay
  have htrap : s.sys.core.trapRequest g.core (s.coreInput g i) = true := by
    simp [Core.trapRequest, hirq]
  cases hs : s.sys.core.control.state <;> simp only [hs, Bool.false_eq_true] at hmay
  case exec =>
    rw [Core.stateNext, hs]
    simp [Core.execNext_eq_debug_iff]
  case wfi =>
    have hhalt : (s.coreInput g i).haltReq = i.core.haltReq := rfl
    rw [Core.stateNext, hs]
    simp only [htrap, hhalt, if_true]
    cases i.core.haltReq && g.core.haveOcd <;> simp

theorem takesNmi_of_not_interruptible (h : s.sys.core.interruptible = false) :
    s.takesNmi g i = false := by
  refine Bool.eq_false_iff.mpr fun ht => ?_
  simp only [takesNmi, Core.entersNmi, Bool.and_eq_true, decide_eq_true_eq,
    Core.interrupt_eq_nmi_iff] at ht
  simp [Core.interruptible, ht.1.2.1, ht.1.2.2.2] at h

/-- What is on the line after a clock that cannot take the NMI. -/
theorem onLine_step_iff (hr : s.sresetSys i = false) (hline : s.OnLine) (io : Peripherals) :
    (s.step g io i).OnLine ↔
      ((s.wdt.badWrite (s.wdtRequest g i) || s.wdt.expired) = true ∧
        s.wdt.keepsNmi (s.wdtRequest g i) = true) ∧
      (s.sys.core.csrSignals g.core (s.coreInput g i)).entersTrap = false := by
  rw [OnLine, step_wdt hr, step_lockout hr, Wdt.irq_clock, Core.nextNmiLockout, coreInput_nmi,
    hline.1, hline.2, Bool.and_eq_true]
  cases (s.sys.core.csrSignals g.core (s.coreInput g i)).entersTrap <;> simp

/-- The law holds in a clock if and only if the clock meets the condition. -/
theorem delivers_iff (hinv : pending = true → s.OnLine) (hr : s.sresetSys i = false) :
    Delivers g io s pending i ↔ WatchdogSafe g s pending i := by
  have hnext : s.nextPending g pending i = (s.isOpen pending && !s.takesNmi g i) := by
    rw [nextPending, hr]
    rfl
  cases ho : s.isOpen pending with
  | false =>
    rw [ho] at hnext
    refine iff_of_true ⟨fun h => ?_, fun h => ?_⟩ ⟨fun h => ?_, fun h => ?_, fun h => ?_,
      fun h => ?_⟩
    · simp [ho] at h
    · simp [hnext] at h
    all_goals simp [ho] at h
  | true =>
    have hline := onLine_of_isOpen hinv ho
    cases hint : s.sys.core.interruptible with
    | false =>
      have htake : s.takesNmi g i = false := takesNmi_of_not_interruptible hint
      rw [ho, htake] at hnext
      constructor
      · intro h
        have hstep := (onLine_step_iff hr hline io).mp (h.kept hnext)
        exact ⟨fun _ h' => by simp [hint] at h', fun _ h' => by simp [hint] at h',
          fun _ _ => hstep.1, fun _ _ => hstep.2⟩
      · intro h
        exact ⟨fun _ h' => by simp [hint] at h',
          fun _ => (onLine_step_iff hr hline io).mpr ⟨h.again ho hint, h.alone ho hint⟩⟩
    | true =>
      have htake := takesNmi_iff (g := g) (i := i) hline hint
      constructor
      · intro h
        obtain ⟨hexec, hwfi⟩ := htake.mp (h.taken ho hint)
        exact ⟨fun _ _ => hexec, fun _ _ => hwfi, fun _ h' => by simp [hint] at h',
          fun _ h' => by simp [hint] at h'⟩
      · intro h
        have ht := htake.mpr ⟨h.exec ho hint, h.wfi ho hint⟩
        refine ⟨fun _ _ => ht, fun hp => ?_⟩
        rw [hnext, ht] at hp
        simp at hp

/-! ## Runs -/

theorem onLine_of_reachable {le se : Bool}
    (h : (observed g io nRom nBoot nRam le se).Reachable
      (fun p i => p.1.sresetSys i = false → WatchdogSafe g p.1 p.2 i) (s, pending)) :
    pending = true → s.OnLine := by
  refine h.invariant (P := fun p => p.2 = true → p.1.OnLine) (fun hp => by cases hp) ?_
  rintro ⟨s, pending⟩ i - hsafe hinv hp
  cases hr : s.sresetSys i with
  | true =>
    change s.nextPending g pending i = true at hp
    simp [nextPending, hr] at hp
  | false => exact ((delivers_iff hinv hr).mpr (hsafe hr)).kept hp

/-- In every run in which a violation that is not taken at once holds the line of the NMI, each
violation of the watchdog is taken in the first interruptible clock. A further clock keeps to this
if and only if it meets the condition. -/
theorem watchdog_violation_reaches_nmi (g : SystemGenerics) (io : Peripherals)
    {nRom nBoot nRam : ℕ} {le se : Bool} {s : WdtSystem nRom nBoot nRam} {pending : Bool}
    (h : (observed g io nRom nBoot nRam le se).Reachable
      (fun p i => p.1.sresetSys i = false → WatchdogSafe g p.1 p.2 i) (s, pending))
    (i : SystemInput) (hr : s.sresetSys i = false) :
    Delivers g io s pending i ↔ WatchdogSafe g s pending i :=
  delivers_iff (onLine_of_reachable h) hr

/-! ## Runs of programs -/

/-- The core without options and an unbuffered I/O. -/
def directIo : SystemGenerics where
  core := .plain
  bus := ⟨⟨false, 0x0, 0x1, 0x2, 0xf⟩, false, ⟨true, true, [], false⟩, ⟨true, false, [], false⟩,
    ⟨false, true, [], false⟩⟩
  buffer := rfl

/-- The instruction memory delivers a word, and nothing else happens. -/
def fetch (w : DataType) : SystemInput where
  core := ⟨false, ⟨w, false⟩, .silent, 0, 0, 0, .idle, false, false, false, 0⟩
  bus := ⟨fun _ => 0, 0⟩

/-- The inputs of the first clocks of a program. -/
def inputsFrom (words : List DataType) : WdtSystem 2 2 2 → DataType → ℕ → List SystemInput
  | _, _, 0 => []
  | s, w, n + 1 =>
    fetch w :: inputsFrom words (s.step directIo .none (fetch w))
      (if (s.sys.core.instrRequest .plain (s.coreInput directIo (fetch w))).stall then w
        else programWord words s.sys.core.pc) n

def programRun (words : List DataType) (n : ℕ) : WdtSystem 2 2 2 × Bool :=
  (observed directIo .none 2 2 2 false false).run
    (inputsFrom words (initial directIo 2 2 2 false false) 0 n)

/-- `lui x9, 0xf0001; addi x2, x0, 3; sw x2, -2048(x9); wfi; sw x0, -2044(x9)`: the watchdog is
enabled in NMI mode, and the wrong password is written while the core sleeps. -/
def wrongPasswordAsleep : List DataType :=
  [0xf00014b7, 0x00300113, 0x8024a023, 0x10500073, 0x8004a223]

theorem sleeping_core_takes_nmi :
    Delivers directIo .none (programRun wrongPasswordAsleep 10).1
        (programRun wrongPasswordAsleep 10).2 (fetch 0x00000013) ∧
      (programRun wrongPasswordAsleep 10).1.signals = true :=
  ⟨(watchdog_violation_reaches_nmi directIo .none
      (Machine.Reachable.init.runFrom_of_meets
        (M := observed directIo .none 2 2 2 false false) (by decide +kernel)) _ (by decide +kernel)).mpr
    (by decide +kernel), by decide +kernel⟩

/-- The same without the WFI: the pulse is over when the store has been answered. -/
theorem wrong_password_is_lost :
    ¬ ∀ s pending, (observed directIo .none 2 2 2 false false).Reachable Machine.free (s, pending) →
      ∀ i : SystemInput, s.sresetSys i = false → Delivers directIo .none s pending i := by
  intro h
  have hd := h _ _ (Machine.reachable_run (M := observed directIo .none 2 2 2 false false)
    (inputsFrom [0xf00014b7, 0x00300113, 0x8024a023, 0x8004a223]
      (initial directIo 2 2 2 false false) 0 10)) (fetch 0x00000013) (by decide +kernel)
  exact absurd (hd.taken (by decide +kernel) (by decide +kernel)) (by decide +kernel)

end WdtSystem

end ThuasRiscv
