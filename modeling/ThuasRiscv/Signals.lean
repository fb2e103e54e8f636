import ThuasRiscv.Transition
import Mathlib.Data.Set.Defs

/-!
# Signals of a clocked process

A process may assign a signal several times in one clock. The last assignment
is the next value of the signal, and without one the signal keeps its value.
The variables of a process are assigned before they are read, so they are not
part of its state. Signals and variables have declared ranges, and every
assigned value has to lie in its range, also one that a later assignment
overrides.
-/

namespace Transition

/-- Signals and variables of the machine `M`, with what a clock assigns to them in the order of the
process. -/
structure Signals {σ ι : Type*} (M : Machine σ ι) (κ ν α : Type*) where
  value : σ → κ → α
  assigned : σ → ι → κ → List α
  range : κ → Set α
  computed : σ → ι → ν → List α
  computedRange : ν → Set α
  init_mem : ∀ k, value M.init k ∈ range k
  value_next : ∀ s i k, value (M.next s i) k = (assigned s i k).getLastD (value s k)

namespace Signals

variable {σ ι κ ν α : Type*} {M : Machine σ ι} (R : Signals M κ ν α)

/-- Every signal has a value in its range. -/
def Within (s : σ) : Prop := ∀ k, R.value s k ∈ R.range k

/-- A clock assigns no value outside the range of a signal or variable. -/
structure Legal (s : σ) (i : ι) : Prop where
  signals : ∀ k, ∀ v ∈ R.assigned s i k, v ∈ R.range k
  locals : ∀ x, ∀ v ∈ R.computed s i x, v ∈ R.computedRange x

theorem getLastD_mem {S : Set α} {l : List α} {a : α} (h : a ∈ S) (hl : ∀ v ∈ l, v ∈ S) :
    l.getLastD a ∈ S := by
  induction l generalizing a with
  | nil => exact h
  | cons v vs ih =>
    rw [List.getLastD_cons]
    apply ih
    · exact hl v List.mem_cons_self
    · intro x hx
      exact hl x (List.mem_cons_of_mem v hx)

variable {R}

theorem Within.next {s : σ} {i : ι} (h : R.Within s) (hl : R.Legal s i) :
    R.Within (M.next s i) := by
  intro k
  rw [R.value_next]
  exact getLastD_mem (h k) (hl.signals k)

/-- When a clock is legal with the values in range and the guard, all runs under the guard keep
the signals in range. -/
theorem within_of_reachable {g : σ → ι → Prop}
    (hg : ∀ s i, R.Within s → g s i → R.Legal s i) {s : σ} (h : M.Reachable g s) : R.Within s := by
  induction h with
  | init => exact R.init_mem
  | step i _ hi ih => exact ih.next (hg _ i ih hi)

end Signals

end Transition
