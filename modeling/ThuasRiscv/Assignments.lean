import Mathlib.Data.List.Induction
import Mathlib.Logic.Function.Basic

/-!
# Assignments to an array

A list of assignments, one after the other, to an array with any type of
indices. Where two of them are to one index the later one stays; all of them
stay if they agree there.
-/

namespace Assignments

variable {α β : Type*} [DecidableEq α]

/-- The array after a list of assignments. -/
def assign (f : α → β) (ws : List (α × β)) : α → β :=
  ws.foldl (fun f w => Function.update f w.1 w.2) f

/-- Assignments to one index have one value. -/
def Agree (ws : List (α × β)) : Prop := ∀ w ∈ ws, ∀ w' ∈ ws, w.1 = w'.1 → w.2 = w'.2

variable {f : α → β} {ws : List (α × β)} {x : α}

theorem assign_append (f : α → β) (ws us : List (α × β)) :
    assign f (ws ++ us) = assign (assign f ws) us := by
  rw [assign, List.foldl_append]
  rfl

theorem assign_concat (f : α → β) (ws : List (α × β)) (w : α × β) :
    assign f (ws ++ [w]) = Function.update (assign f ws) w.1 w.2 := by
  rw [assign_append]
  rfl

/-- An index that is assigned has the value of one of the assignments to it. -/
theorem exists_assign_eq (h : ∃ w ∈ ws, w.1 = x) : ∃ w ∈ ws, w.1 = x ∧ assign f ws x = w.2 := by
  induction ws using List.reverseRecOn with
  | nil =>
    obtain ⟨w, hw, -⟩ := h
    cases hw
  | append_singleton ws u ih =>
    rw [assign_concat]
    by_cases hx : u.1 = x
    · refine ⟨u, by simp, hx, ?_⟩
      rw [← hx, Function.update_self]
    · have hbefore : ∃ w ∈ ws, w.1 = x := by
        obtain ⟨w, hw, hwx⟩ := h
        rcases List.mem_append.mp hw with hmem | hmem
        · exact ⟨w, hmem, hwx⟩
        · rw [List.mem_singleton.mp hmem] at hwx
          exact absurd hwx hx
      obtain ⟨w, hw, hwx, hvalue⟩ := ih hbefore
      refine ⟨w, List.mem_append_left _ hw, hwx, ?_⟩
      rw [Function.update_of_ne (Ne.symm hx), hvalue]

/-- Every assignment stays if and only if the assignments agree. -/
theorem assign_stays_iff : (∀ w ∈ ws, assign f ws w.1 = w.2) ↔ Agree ws := by
  constructor
  · intro h w hw w' hw' heq
    rw [← h w hw, heq, h w' hw']
  · intro h w hw
    obtain ⟨w', hw', heq, hvalue⟩ := exists_assign_eq (f := f) ⟨w, hw, rfl⟩
    rw [hvalue]
    exact h w' hw' w hw heq

end Assignments
