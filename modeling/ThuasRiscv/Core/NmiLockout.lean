import ThuasRiscv.Core.TrapEntry

/-!
# The lockout of the NMI

An observer keeps the time from the entry of an NMI trap until the next MRET. The
CSR process sets the lockout on the NMI line and not on the accepted cause: it
agrees with the observer as long as no other trap is entered while the line is
high.
-/

namespace ThuasRiscv

open Transition

namespace Core

variable {cfg : Generics} {io : Peripherals} {s : Core} {i : CoreInput}

/-- The controller enters the trap of the NMI. -/
def entersNmi (cfg : Generics) (s : Core) (i : CoreInput) : Bool :=
  s.interrupt i = some 31 && s.stateNext cfg i = .trap

/-- From the entry of an NMI trap until the completion of the first following MRET. -/
def nmiWindow (cfg : Generics) (s : Core) (i : CoreInput) (w : Bool) : Bool :=
  if i.sreset then false
  else if s.entersNmi cfg i then true
  else w && !s.trapRelease

/-- The core with the observer of the NMI trap. -/
def nmiObserved (cfg : Generics) (io : Peripherals) : Machine (Core × Bool) CoreInput :=
  (machine cfg io).observe false (nmiWindow cfg)

/-- No second NMI is taken in an NMI trap, and outside of it a pending NMI is taken in the first
interruptible clock that does not enter debug mode. -/
structure NmiLockedOut (cfg : Generics) (s : Core) (w : Bool) : Prop where
  lockout : s.nmiLockout = w
  second : w = true → ∀ i, s.entersNmi cfg i = false
  accepted : w = false → ∀ i : CoreInput, i.intrio.getLsbD 31 = true → s.mayInterrupt = true →
    s.isstepping = false → s.stateNext cfg i ≠ .debug → s.entersNmi cfg i = true

/-- A trap that is recorded is the NMI, or the line of the NMI adds nothing to the lockout and no
MRET is completed. -/
def NmiSafe (cfg : Generics) (s : Core) (i : CoreInput) : Prop :=
  i.sreset = false → (s.csrSignals cfg i).entersTrap = true → s.entersNmi cfg i = false →
    (i.intrio.getLsbD 31 = true → s.nmiLockout = true) ∧
      (s.trapRelease = true → s.nmiLockout = false)

instance : Decidable (NmiSafe cfg s i) := inferInstanceAs (Decidable (_ → _))

/-- The NMI has the highest priority. -/
theorem interrupt_eq_nmi_iff : s.interrupt i = some 31 ↔
    i.intrio.getLsbD 31 = true ∧ s.mayInterrupt = true ∧ s.nmiLockout = false ∧
      s.isstepping = false := by
  constructor
  · intro h
    by_contra hn
    have hfirst : (i.intrio.getLsbD 31 && s.mayInterrupt && !s.nmiLockout && !s.isstepping) =
        false := by
      refine Bool.eq_false_iff.mpr fun h => hn ?_
      simpa [and_assoc] using h
    unfold interrupt at h
    rw [hfirst] at h
    cases hl : s.localInterrupt i with
    | none =>
      rw [hl] at h
      simp only [Bool.false_eq_true, if_false] at h
      split_ifs at h <;> cases h
    | some n =>
      rw [hl] at h
      have hmem := List.mem_of_find?_eq_some hl
      simp only [List.mem_cons, List.not_mem_nil, or_false] at hmem
      simp only [Bool.false_eq_true, if_false, Option.some.injEq] at h
      omega
  · rintro ⟨hline, hmay, hlock, hstep⟩
    simp [interrupt, hline, hmay, hlock, hstep]

/-- An interrupt that does not meet a debug entry is entered. -/
theorem stateNext_of_interrupt (hmay : s.mayInterrupt = true)
    (hi : (s.interrupt i).isSome = true) (hd : s.stateNext cfg i ≠ .debug) :
    s.stateNext cfg i = .trap := by
  have htrap : s.trapRequest cfg i = true := by simp [trapRequest, hi]
  rw [mayInterrupt_eq] at hmay
  unfold stateNext at hd ⊢
  cases hs : s.control.state <;> simp only [hs, Bool.false_eq_true] at hmay hd ⊢
  case exec =>
    unfold execNext at hd ⊢
    split_ifs at hd ⊢ <;> first | rfl | exact absurd rfl hd
  case wfi => split_ifs at hd ⊢ <;> first | rfl | exact absurd rfl hd

/-- A trap is entered by the controller only when it is recorded by the CSR process. -/
theorem entersTrap_of_stateNext (hn : s.stateNext cfg i = .trap) :
    (s.csrSignals cfg i).entersTrap = true := by
  have h : s.trapRequest cfg i = true ∧ s.stallOnTrigger cfg i = false := by
    rw [stallOnTrigger_eq]
    unfold stateNext at hn
    cases hs : s.control.state <;> simp only [hs] at hn ⊢
    case exec => exact ((execNext_eq_trap_iff).mp hn).symm
    all_goals first | cases hn | (split_ifs at hn <;> simp_all)
  simp [CsrSignals.entersTrap, csrSignals, h.1, h.2]

theorem nmiLockedOut_of_lockout : NmiLockedOut cfg s s.nmiLockout where
  lockout := rfl
  second hw i := by
    refine Bool.eq_false_iff.mpr fun h => ?_
    simp only [entersNmi, Bool.and_eq_true, decide_eq_true_eq, interrupt_eq_nmi_iff] at h
    rw [h.1.2.2.1] at hw
    cases hw
  accepted hw i hline hmay hstep hd := by
    have hi : s.interrupt i = some 31 := interrupt_eq_nmi_iff.mpr ⟨hline, hmay, hw, hstep⟩
    have hn := stateNext_of_interrupt hmay (hi ▸ rfl) hd
    simp [entersNmi, hi, hn]

/-- One clock: the lockout follows the observer exactly when the step is safe. -/
theorem nmiLockout_step_iff :
    (s.step cfg io i).nmiLockout = nmiWindow cfg s i s.nmiLockout ↔ NmiSafe cfg s i := by
  cases hr : i.sreset with
  | true =>
    rw [step_reset _ _ _ _ hr]
    simp [nmiWindow, NmiSafe, hr, Core.initial]
  | false =>
    rw [step_clock _ _ _ _ hr]
    change s.nextNmiLockout cfg i = _ ↔ _
    unfold nextNmiLockout nmiWindow NmiSafe
    cases he : s.entersNmi cfg i with
    | true =>
      have h : s.interrupt i = some 31 ∧ s.stateNext cfg i = .trap := by
        simpa [entersNmi] using he
      simp [entersTrap_of_stateNext h.2, hr, (interrupt_eq_nmi_iff.mp h.1).1]
    | false =>
      cases ht : (s.csrSignals cfg i).entersTrap with
      | false => simp [hr]
      | true =>
        cases s.nmiLockout <;> cases s.trapRelease <;> simp [hr]

theorem lockout_of_reachable {p : Core × Bool}
    (h : (nmiObserved cfg io).Reachable (fun p i => NmiSafe cfg p.1 i) p) :
    p.1.nmiLockout = p.2 := by
  apply h.invariant (P := fun p => p.1.nmiLockout = p.2) rfl
  intro p i _ hsafe hp
  change (p.1.step cfg io i).nmiLockout = nmiWindow cfg p.1 i p.2
  rw [← hp]
  exact nmiLockout_step_iff.mpr hsafe

/-- In a run in which every trap that is recorded while the line of the NMI is high is the NMI, the
lockout is set from the entry of an NMI trap until the next MRET and at no other time; the run can
be continued so by a step if and only if the step meets this condition. -/
theorem nmi_locked_out_until_mret (cfg : Generics) (io : Peripherals) {s : Core} {w : Bool}
    (h : (nmiObserved cfg io).Reachable (fun p i => NmiSafe cfg p.1 i) (s, w)) :
    NmiLockedOut cfg s w ∧
      ∀ i, (s.step cfg io i).nmiLockout = nmiWindow cfg s i w ↔ NmiSafe cfg s i := by
  have hw : s.nmiLockout = w := lockout_of_reachable h
  subst hw
  exact ⟨nmiLockedOut_of_lockout, fun _ => nmiLockout_step_iff⟩

/-- An NMI that is taken at address 0: it is locked out in its handler. -/
theorem nmi_locked_out_in_handler :
    NmiLockedOut .plain
      (runProgram .plain .none [] [.quiet, .quiet, .interrupt 31, .quiet]) true := by
  have h : (nmiObserved .plain .none).Meets (fun p i => NmiSafe .plain p.1 i)
      (Core.initial .plain, false)
      (programInputs .plain .none [] [.quiet, .quiet, .interrupt 31, .quiet]) := by
    decide +kernel
  exact (nmi_locked_out_until_mret .plain .none (Machine.Reachable.init.runFrom_of_meets h)).1

/-- `lw x1, 1(x0)`: the misaligned load is reported while the line of the NMI is high. The NMI is
not taken, and it is locked out. -/
theorem misaligned_load_locks_nmi_out :
    ¬ ∀ s w, (nmiObserved .plain .none).Reachable Machine.free (s, w) →
      NmiLockedOut .plain s w := by
  intro h
  have hs := Machine.reachable_run (M := nmiObserved .plain .none)
    (programInputs .plain .none [0x00102083] [.quiet, .quiet, .quiet,
      { Stimulus.interrupt 31 with
        bus := { BusResponse.silent with loadMisalignedError := true } }])
  exact absurd (h _ _ hs).lockout (by decide +kernel)

end Core

end ThuasRiscv
