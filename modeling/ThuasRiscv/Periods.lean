import Mathlib.Data.Nat.Count

/-!
# Periods of a clocked counter

A counter is clocked, and makes a step in some of the clocks. Some of the steps
are the last ones of a period. The length of a period is its number of steps.
-/

namespace Periods

/-- The number of steps from clock `a` to before clock `b`. -/
def steps (tick : ℕ → Bool) (a b : ℕ) : ℕ :=
  Nat.count (fun t => tick t = true) b - Nat.count (fun t => tick t = true) a

/-- The period in progress in clock `a` ends in clock `e`, with `n` steps from clock `a` on. -/
structure Period (tick last : ℕ → Bool) (a e n : ℕ) : Prop where
  le : a ≤ e
  ends : last e = true
  first : ∀ t, a ≤ t → t < e → last t = false
  steps : steps tick a (e + 1) = n

variable {tick last : ℕ → Bool} {a e n : ℕ}

theorem steps_succ_left {b : ℕ} (h : a < b) :
    steps tick a b = steps tick (a + 1) b + if tick a then 1 else 0 := by
  have hle := Nat.count_monotone (fun t => tick t = true) (show a + 1 ≤ b from h)
  rw [steps, steps]
  rw [Nat.count_succ] at hle ⊢
  omega

/-- A clock without a step. -/
theorem Period.wait (htick : tick a = false) (hlast : last a = false)
    (h : Period tick last (a + 1) e n) : Period tick last a e n := by
  refine ⟨by have hle := h.le; omega, h.ends, fun t ha he => ?_, ?_⟩
  · rcases Nat.eq_or_lt_of_le ha with rfl | hlt
    · exact hlast
    · exact h.first t hlt he
  · rw [steps_succ_left (by have hle := h.le; omega), htick, h.steps]
    rfl

theorem Period.wait_add {k : ℕ} (hwait : ∀ j, j < k → tick (a + j) = false ∧ last (a + j) = false)
    (h : Period tick last (a + k) e n) : Period tick last a e n := by
  induction k with
  | zero => exact h
  | succ k ih =>
    obtain ⟨htick, hlast⟩ := hwait k (Nat.lt_succ_self k)
    exact ih (fun j hj => hwait j (by omega)) (h.wait htick hlast)

/-- A step that is not the last one. -/
theorem Period.step (htick : tick a = true) (hlast : last a = false)
    (h : Period tick last (a + 1) e n) : Period tick last a e (n + 1) := by
  refine ⟨by have hle := h.le; omega, h.ends, fun t ha he => ?_, ?_⟩
  · rcases Nat.eq_or_lt_of_le ha with rfl | hlt
    · exact hlast
    · exact h.first t hlt he
  · rw [steps_succ_left (by have hle := h.le; omega), htick, h.steps]
    rfl

/-- The last step. -/
theorem Period.single (htick : tick a = true) (hlast : last a = true) :
    Period tick last a a 1 := by
  refine ⟨le_rfl, hlast, fun t ha he => by omega, ?_⟩
  rw [Periods.steps, Nat.count_succ, if_pos htick]
  omega

theorem Period.unique {e' n' : ℕ} (h : Period tick last a e n) (h' : Period tick last a e' n') :
    e = e' ∧ n = n' := by
  have he : e = e' := by
    rcases Nat.lt_trichotomy e e' with hlt | heq | hgt
    · have hlast := h'.first e h.le hlt
      rw [h.ends] at hlast
      cases hlast
    · exact heq
    · have hlast := h.first e' h'.le hgt
      rw [h'.ends] at hlast
      cases hlast
  subst he
  exact ⟨rfl, h.steps.symm.trans h'.steps⟩

end Periods
