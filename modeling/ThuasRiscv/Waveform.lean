import Mathlib.Data.List.Sort
import Mathlib.Order.Monotone.Basic

/-!
# Levels over time

A line of a clocked circuit is a level in every clock. Its edges are the clocks
behind which it has another level, and a group of bits is read off a line at a
list of clocks.
-/

namespace Waveform

variable (x : ℕ → Bool)

/-- The line goes to `v` behind clock `t`. -/
def edge (v : Bool) (t : ℕ) : Bool := x t != v && x (t + 1) == v

/-- The clocks before `m` behind which the line goes to `v`. -/
def edges (v : Bool) (m : ℕ) : List ℕ := (List.range m).filter (edge x v)

variable {x}

theorem edge_iff {v : Bool} {t : ℕ} : edge x v t = true ↔ x t ≠ v ∧ x (t + 1) = v := by
  simp [edge]

/-- A line that keeps its level has no edge there. -/
theorem edge_of_eq {v : Bool} {t : ℕ} (h : x (t + 1) = x t) : edge x v t = false := by
  rw [edge, h]
  cases x t <;> cases v <;> rfl

/-- The elements of a range with a property, enumerated from below. -/
theorem filter_range_eq_map {p : ℕ → Bool} {f : ℕ → ℕ} {n m : ℕ} (hf : StrictMono f)
    (h : ∀ t, t < m → (p t = true ↔ ∃ k, k < n ∧ f k = t)) (hlt : ∀ k, k < n → f k < m) :
    (List.range m).filter p = (List.range n).map f := by
  refine List.Pairwise.eq_of_mem_iff (r := (· < ·)) ?_ ?_ fun t => ?_
  · exact List.pairwise_lt_range.filter _
  · rw [List.pairwise_map]
    exact List.pairwise_lt_range.imp fun hlt => hf hlt
  · simp only [List.mem_filter, List.mem_range, List.mem_map]
    constructor
    · rintro ⟨ht, hp⟩
      exact (h t ht).mp hp
    · rintro ⟨k, hk, rfl⟩
      exact ⟨hlt k hk, (h _ (hlt k hk)).mpr ⟨k, hk, rfl⟩⟩

end Waveform
