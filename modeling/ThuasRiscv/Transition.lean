import Mathlib.Data.Nat.Notation
import Mathlib.Logic.Basic

/-!
# Clocked machines and guarded runs

A deterministic machine reads one input in every clock. A guarded run is a run
from the initial state in which every step meets a condition on the state and
the input. An observer is a ghost state that is clocked along with the machine
and never read by it.
-/

namespace Transition

/-- A deterministic machine with an input in every clock. -/
structure Machine (σ ι : Type*) where
  init : σ
  next : σ → ι → σ

namespace Machine

variable {σ ι γ : Type*} (M : Machine σ ι)

/-- The states at the end of the runs whose steps all meet `guard`. -/
inductive Reachable (guard : σ → ι → Prop) : σ → Prop
  | init : Reachable guard M.init
  | step {s : σ} (i : ι) : Reachable guard s → guard s i → Reachable guard (M.next s i)

/-- No condition on the steps of a run. -/
def free : σ → ι → Prop := fun _ _ => True

variable {M}

theorem Reachable.mono {g h : σ → ι → Prop} (hgh : ∀ s i, g s i → h s i) {s : σ}
    (hs : M.Reachable g s) : M.Reachable h s := by
  induction hs with
  | init => exact .init
  | step i _ hg ih => exact .step i ih (hgh _ i hg)

/-- What holds initially and is preserved by every guarded step of a reachable state holds in every
reachable state. -/
theorem Reachable.invariant {g : σ → ι → Prop} {P : σ → Prop} (hinit : P M.init)
    (hstep : ∀ s i, M.Reachable g s → g s i → P s → P (M.next s i)) {s : σ}
    (hs : M.Reachable g s) : P s := by
  induction hs with
  | init => exact hinit
  | step i hr hg ih => exact hstep _ i hr hg ih

/-! ## Runs as lists of inputs -/

variable (M) in
/-- The state after a list of inputs, from any state. -/
def runFrom (s : σ) (is : List ι) : σ := is.foldl M.next s

variable (M) in
def run (is : List ι) : σ := M.runFrom M.init is

theorem runFrom_append (s : σ) (is js : List ι) :
    M.runFrom s (is ++ js) = M.runFrom (M.runFrom s is) js := by
  simp [runFrom]

theorem Reachable.runFrom {s : σ} (hs : M.Reachable free s) (is : List ι) :
    M.Reachable free (M.runFrom s is) := by
  induction is generalizing s with
  | nil => exact hs
  | cons i is ih => exact ih (.step i hs trivial)

theorem reachable_run (is : List ι) : M.Reachable free (M.run is) :=
  Reachable.runFrom .init is

variable (M) in
/-- Every step of the run on a list of inputs meets the guard. -/
def Meets (g : σ → ι → Prop) : σ → List ι → Prop
  | _, [] => True
  | s, i :: is => g s i ∧ Meets g (M.next s i) is

instance Meets.decidable {g : σ → ι → Prop} [∀ s i, Decidable (g s i)] :
    (s : σ) → (is : List ι) → Decidable (M.Meets g s is)
  | _, [] => inferInstanceAs (Decidable True)
  | s, i :: is => @instDecidableAnd _ _ _ (Meets.decidable (M.next s i) is)

theorem Reachable.runFrom_of_meets {g : σ → ι → Prop} {s : σ} (hs : M.Reachable g s)
    {is : List ι} (h : M.Meets g s is) : M.Reachable g (M.runFrom s is) := by
  induction is generalizing s with
  | nil => exact hs
  | cons i is ih => exact ih (.step i hs h.1) h.2

variable (M) in
/-- The states of a run from any state, on an endless sequence of inputs. -/
def trace (s : σ) (i : ℕ → ι) : ℕ → σ
  | 0 => s
  | n + 1 => M.next (trace s i n) (i n)

theorem Reachable.trace {s : σ} (hs : M.Reachable free s) (i : ℕ → ι) (n : ℕ) :
    M.Reachable free (M.trace s i n) := by
  induction n with
  | zero => exact hs
  | succ n ih => exact ih.step (i n) trivial

/-! ## Observers -/

variable (M) in
/-- The machine with an observer next to it. -/
def observe (g₀ : γ) (watch : σ → ι → γ → γ) : Machine (σ × γ) ι where
  init := (M.init, g₀)
  next p i := (M.next p.1 i, watch p.1 i p.2)

/-- An observer does not disturb the machine. -/
theorem Reachable.forget {g₀ : γ} {watch : σ → ι → γ → γ} {g : σ × γ → ι → Prop}
    {h : σ → ι → Prop} (hgh : ∀ p i, g p i → h p.1 i) {p : σ × γ}
    (hp : (M.observe g₀ watch).Reachable g p) : M.Reachable h p.1 := by
  induction hp with
  | init => exact .init
  | step i _ hg ih => exact .step i ih (hgh _ i hg)

/-- An observer can be put next to every run. -/
theorem Reachable.observed (g₀ : γ) (watch : σ → ι → γ → γ) {g : σ → ι → Prop} {s : σ}
    (hs : M.Reachable g s) :
    ∃ c, (M.observe g₀ watch).Reachable (fun p i => g p.1 i) (s, c) := by
  induction hs with
  | init => exact ⟨g₀, .init⟩
  | step i _ hg ih =>
    obtain ⟨c, hc⟩ := ih
    exact ⟨_, hc.step i hg⟩

end Machine

end Transition
