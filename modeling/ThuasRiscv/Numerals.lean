import Mathlib.Algebra.Group.Nat.Defs
import Mathlib.Data.List.Induction
import Mathlib.Data.Nat.Init

/-!
# Numerals

The last digits of a number in any base and with any alphabet, and the number
that digits spell. Leading zeros are digits too, so a numeral has a fixed
length.
-/

namespace Numerals

variable {α : Type*} {digit : ℕ → α} {digitValue : α → ℕ} {b : ℕ}

variable (digit b) in
/-- The last `k` digits of a number, the most significant first. -/
def fixed : ℕ → ℕ → List α
  | 0, _ => []
  | k + 1, n => fixed k (n / b) ++ [digit (n % b)]

variable (digitValue b) in
/-- The number that digits spell. -/
def value (ds : List α) : ℕ := ds.foldl (fun x d => b * x + digitValue d) 0

variable (digit b) in
@[simp]
theorem length_fixed (k n : ℕ) : (fixed digit b k n).length = k := by
  induction k generalizing n with
  | zero => rfl
  | succ k ih => rw [fixed, List.length_append, ih, List.length_singleton]

theorem value_concat (ds : List α) (d : α) :
    value digitValue b (ds ++ [d]) = b * value digitValue b ds + digitValue d := by
  rw [value, List.foldl_append]
  rfl

theorem value_append (as ds : List α) : value digitValue b (as ++ ds) =
    value digitValue b as * b ^ ds.length + value digitValue b ds := by
  induction ds using List.reverseRecOn with
  | nil =>
    rw [List.append_nil, List.length_nil, Nat.pow_zero, Nat.mul_one]
    rfl
  | append_singleton ds d ih =>
    rw [← List.append_assoc, value_concat, ih, value_concat, List.length_append,
      List.length_singleton, Nat.pow_succ, Nat.mul_add, Nat.add_assoc, Nat.mul_left_comm,
      Nat.mul_comm b]

theorem value_cons (d : α) (ds : List α) : value digitValue b (d :: ds) =
    digitValue d * b ^ ds.length + value digitValue b ds := by
  rw [← List.singleton_append, value_append]
  exact congrArg (· * b ^ ds.length + value digitValue b ds) (Nat.zero_add _)

theorem value_lt {ds : List α} (h : ∀ d ∈ ds, digitValue d < b) :
    value digitValue b ds < b ^ ds.length := by
  induction ds with
  | nil => exact Nat.one_pos
  | cons d ds ih =>
    have hds := ih fun d hd => h d (List.mem_cons_of_mem _ hd)
    rw [value_cons, List.length_cons, Nat.pow_succ']
    calc digitValue d * b ^ ds.length + value digitValue b ds
        < digitValue d * b ^ ds.length + b ^ ds.length := Nat.add_lt_add_left hds _
      _ = (digitValue d + 1) * b ^ ds.length := (Nat.succ_mul _ _).symm
      _ ≤ b * b ^ ds.length := Nat.mul_le_mul_right _ (h d List.mem_cons_self)

/-- What holds of every digit holds in a numeral. -/
theorem forall_mem_fixed {p : α → Prop} (hb : 0 < b) (h : ∀ d < b, p (digit d)) (k n : ℕ) :
    ∀ a ∈ fixed digit b k n, p a := by
  induction k generalizing n with
  | zero => exact nofun
  | succ k ih =>
    intro a ha
    rcases List.mem_append.mp ha with hmem | hlast
    · exact ih (n / b) a hmem
    · rw [List.mem_singleton.mp hlast]
      exact h _ (Nat.mod_lt n hb)

variable (digitValue)

/-- A numeral spells the number up to the digits that are cut off. -/
theorem value_fixed (hb : 0 < b) (h : ∀ d < b, digitValue (digit d) = d) (k n : ℕ) :
    value digitValue b (fixed digit b k n) = n % b ^ k := by
  induction k generalizing n with
  | zero => exact (Nat.mod_one n).symm
  | succ k ih =>
    rw [fixed, value_concat, ih, h _ (Nat.mod_lt n hb), Nat.pow_succ', Nat.mod_mul, Nat.add_comm]

/-- The number in a numeral that is long enough. -/
theorem value_fixed_of_lt (hb : 0 < b) (h : ∀ d < b, digitValue (digit d) = d) {k n : ℕ}
    (hn : n < b ^ k) : value digitValue b (fixed digit b k n) = n := by
  rw [value_fixed digitValue hb h, Nat.mod_eq_of_lt hn]

end Numerals
