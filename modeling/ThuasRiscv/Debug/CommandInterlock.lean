import ThuasRiscv.Debug.DebugModule

/-!
# The interlock of the abstract commands

While a command is executed, the registers that it uses are out of reach of the
DMI, and an access to them is reported. An error stays until the debugger clears
it, and no command is started before that.
-/

namespace ThuasRiscv

open Transition

/-- The same clock without an operation on the DMI. -/
def DmInput.withoutDmi (i : DmInput) : DmInput := { i with dmi := ⟨0, 0, 0⟩ }

namespace Dm

variable {aam : Bool} {d : Dm} {i j : DmInput}

/-- A read of the data registers or a write of the registers of the abstract commands. -/
def disturbs (i : DmInput) : Bool :=
  reads i addrData0 || reads i addrData1 || writes i addrAbstractcs || writes i addrCommand ||
    writes i addrData0 || writes i addrData1

/-- A clock in which the debugger does not clear `cmderr`. -/
def keepsError (i : DmInput) : Prop := i.sreset = false ∧ nextClrerr i = false

/-- The interlock in the state `d`, for all inputs that follow. -/
structure Interlocked (aam : Bool) (d : Dm) : Prop where
  held : d.busy = true → ∀ i, i.sreset = false → (d.step i aam).command = d.command ∧
    (d.step i aam).data0 = (d.step i.withoutDmi aam).data0 ∧
    (d.step i aam).data1 = (d.step i.withoutDmi aam).data1
  reported : d.busy = true → ∀ i j, i.sreset = false → j.sreset = false → disturbs i = true →
    (d.step i aam).clrerr = false → ((d.step i aam).step j aam).cmderr ≠ 0
  first : d.cmderr ≠ 0 → d.clrerr = false → ∀ is, (∀ i ∈ is, keepsError i) →
    ((machine aam).runFrom d is).cmderr = d.cmderr
  cleared : d.clrerr = true → d.cmderr ≠ 0 → ∀ i, i.sreset = false → (d.step i aam).cmderr = 0
  starts : d.cmderr ≠ 0 → ∀ i, i.sreset = false → (d.step i aam).command = d.command ∧
    (d.state = .idle → (d.step i aam).state = .idle)

/-! ## One clock -/

theorem step_eq_clock (h : i.sreset = false) : d.step i aam = d.clock i aam := by
  rw [step, h, if_neg (by decide)]

theorem nextCommand_of_locked (h : d.busy = true ∨ d.cmderr ≠ 0) : d.nextCommand i = d.command := by
  rcases h with h | h
  · simp [nextCommand, h]
  · have he : d.cmderr ≠ 0#3 := h
    simp [nextCommand, he]

theorem nextData0_of_busy (h : d.busy = true) : d.nextData0 i = d.nextData0 i.withoutDmi := by
  simp only [nextData0, h, Bool.not_true, Bool.and_false, Bool.false_eq_true, if_false]
  rfl

theorem nextData1_of_busy (h : d.busy = true) :
    d.nextData1 i aam = d.nextData1 i.withoutDmi aam := by
  simp only [nextData1, h, Bool.not_true, Bool.and_false, Bool.false_eq_true, if_false]
  rfl

/-- A disturbance while busy raises one of the two access faults. -/
theorem accFault_of_disturbs (h : d.busy = true) (hi : disturbs i = true) :
    (d.nextReadAccFault i || d.nextWriteAccFault i) = true := by
  simpa [disturbs, nextReadAccFault, nextWriteAccFault, h, or_assoc] using hi

/-- An access fault ends in an error, unless an older error is being cleared. -/
theorem nextCmderr_ne_zero (hf : (d.readAccFault || d.writeAccFault) = true)
    (hc : d.clrerr = false) : d.nextCmderr i ≠ 0 := by
  unfold nextCmderr
  split_ifs <;> simp_all

theorem nextCmderr_of_keeps (he : d.cmderr ≠ 0) (hc : d.clrerr = false) :
    d.nextCmderr i = d.cmderr := by
  rw [nextCmderr, if_neg he, hc, if_neg (by decide)]

theorem nextCmderr_of_clear (he : d.cmderr ≠ 0) (hc : d.clrerr = true) : d.nextCmderr i = 0 := by
  rw [nextCmderr, if_neg he, if_pos hc]

theorem execute_state_of_idle (he : d.cmderr ≠ 0) (hs : d.state = .idle) :
    (d.execute i aam).state = .idle := by
  have he' : d.cmderr ≠ 0#3 := he
  unfold execute
  cases d.dmActive <;> simp [hs, he']

/-! ## Runs -/

/-- Without a clear, an error outlasts every sequence of inputs. -/
theorem error_outlasts (is : List DmInput) (he : d.cmderr ≠ 0) (hc : d.clrerr = false)
    (h : ∀ i ∈ is, keepsError i) : ((machine aam).runFrom d is).cmderr = d.cmderr := by
  induction is generalizing d with
  | nil => rfl
  | cons i is ih =>
    have hi : keepsError i := h i (by simp)
    have hstep : d.step i aam = d.clock i aam := step_eq_clock hi.1
    have hcode : (d.step i aam).cmderr = d.cmderr := by
      rw [hstep]
      exact nextCmderr_of_keeps he hc
    have hclear : (d.step i aam).clrerr = false := by
      rw [hstep]
      exact hi.2
    have hrun := ih (hcode ▸ he) hclear fun k hk => h k (by simp [hk])
    exact hrun.trans hcode

/-- In every run of the Debug Module and for every sequence of DMI operations: a busy command keeps
its registers, a disturbance is reported, and the first error blocks further commands until it is
cleared. -/
theorem command_interlock (aam : Bool) (is : List DmInput) :
    Interlocked aam ((machine aam).run is) := by
  generalize (machine aam).run is = d
  refine ⟨fun hb i hi => ?_, fun hb i j hi hj hd hc => ?_, fun he hc is h => ?_,
    fun hc he i hi => ?_, fun he i hi => ⟨?_, fun hs => ?_⟩⟩
  · have hi' : i.withoutDmi.sreset = false := hi
    rw [step_eq_clock hi, step_eq_clock hi']
    exact ⟨nextCommand_of_locked (.inl hb), nextData0_of_busy hb, nextData1_of_busy hb⟩
  · rw [step_eq_clock hj]
    refine nextCmderr_ne_zero ?_ hc
    rw [step_eq_clock hi]
    exact accFault_of_disturbs hb hd
  · exact error_outlasts is he hc h
  · rw [step_eq_clock hi]
    exact nextCmderr_of_clear he hc
  · rw [step_eq_clock hi]
    exact nextCommand_of_locked (.inr he)
  · rw [step_eq_clock hi]
    exact execute_state_of_idle he hs

end Dm

end ThuasRiscv
