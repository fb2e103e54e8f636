import ThuasRiscv.Transition
import Mathlib.Algebra.Order.Group.Nat
import Mathlib.Data.Nat.Find

/-!
# Modulo counters in a clocked machine

A modulo counter counts up to a top, and restarts at zero in the step in which
it is not below the top. The clocks in which it makes a step, and the top, are
signals of the machine that it is a part of. A write of the counter takes effect
if the counter goes on as a counter that starts at the written value.
-/

namespace Transition

/-- One clock of a modulo counter with value `v`. -/
def counted {w : ℕ} (tick : Bool) (top v : BitVec w) : BitVec w :=
  if tick then if top ≤ v then 0#w else v + 1#w else v

/-- The value that a counting step assigns. -/
theorem counted_eq_iff {w : ℕ} {top c v : BitVec w} :
    counted true top c = v ↔ top ≤ c ∧ v = 0#w ∨ ¬ top ≤ c ∧ v = c + 1#w := by
  rw [counted, if_pos rfl]
  by_cases hle : top ≤ c
  · rw [if_pos hle]
    constructor
    · intro h
      exact .inl ⟨hle, h.symm⟩
    · rintro (⟨-, h⟩ | ⟨hlt, -⟩)
      · exact h.symm
      · exact absurd hle hlt
  · rw [if_neg hle]
    constructor
    · intro h
      exact .inr ⟨hle, h.symm⟩
    · rintro (⟨htop, -⟩ | ⟨-, h⟩)
      · exact absurd htop hle
      · exact h.symm

/-- A modulo counter of a machine. -/
structure ModuloCounter {σ ι : Type*} (M : Machine σ ι) (w : ℕ) where
  value : σ → BitVec w
  tick : σ → Bool
  top : σ → BitVec w
  /-- The inputs that leave the counter to itself. -/
  Quiet : ι → Prop
  value_next : ∀ s i, Quiet i → value (M.next s i) = counted (tick s) (top s) (value s)

namespace ModuloCounter

/-! ## Writes -/

section Writes

variable {σ ι : Type*} {M : Machine σ ι} {w : ℕ} (C : ModuloCounter M w)

/-- The value of a counter that starts at `v` in state `s` and is left to itself. -/
def countFrom (v : BitVec w) (s : σ) : List ι → BitVec w
  | [] => v
  | i :: is => countFrom (counted (C.tick s) (C.top s) v) (M.next s i) is

/-- Behind input `i` the counter holds `v`, and it counts on from there. -/
def TakesEffect (s : σ) (i : ι) (v : BitVec w) : Prop :=
  ∀ is : List ι, (∀ j ∈ is, C.Quiet j) →
    C.value (M.runFrom (M.next s i) is) = C.countFrom v (M.next s i) is

variable {C}

theorem value_runFrom {s : σ} {is : List ι} (h : ∀ i ∈ is, C.Quiet i) :
    C.value (M.runFrom s is) = C.countFrom (C.value s) s is := by
  induction is generalizing s with
  | nil => rfl
  | cons i is ih =>
    have hnext := C.value_next s i (h i (List.mem_cons_self))
    rw [countFrom, ← hnext, ← ih fun j hj => h j (List.mem_cons_of_mem i hj)]
    rfl

/-- A counter that holds the value counts on from there by itself. -/
theorem takesEffect_iff {s : σ} {i : ι} {v : BitVec w} :
    C.TakesEffect s i v ↔ C.value (M.next s i) = v := by
  constructor
  · intro h
    exact h [] (by simp)
  · rintro rfl is his
    exact value_runFrom his

end Writes

/-! ## Periods of a running counter with a constant top -/

section Periods

variable {w : ℕ} {N : BitVec w} {x : ℕ → BitVec w} (hx : ∀ t, x (t + 1) = counted true N (x t))

include hx

theorem next_of_le {t : ℕ} (h : N ≤ x t) : x (t + 1) = 0#w := by
  rw [hx, counted, if_pos rfl, if_pos h]

theorem next_of_lt {t : ℕ} (h : x t < N) : (x (t + 1)).toNat = (x t).toNat + 1 := by
  have hle : ¬ N ≤ x t := BitVec.not_le.mpr h
  have hlt := BitVec.lt_def.mp h
  have hN := N.isLt
  rw [hx, counted, if_pos rfl, if_neg hle, BitVec.toNat_add, BitVec.toNat_ofNat, Nat.add_mod_mod]
  exact Nat.mod_eq_of_lt (by omega)

/-- The counter gets to its top. -/
theorem exists_le (s : ℕ) : ∃ t, s ≤ t ∧ N ≤ x t := by
  induction hk : N.toNat - (x s).toNat generalizing s with
  | zero => exact ⟨s, le_rfl, BitVec.le_def.mpr (by omega)⟩
  | succ k ih =>
    have hlt : x s < N := BitVec.lt_def.mpr (by omega)
    have hnext := next_of_lt hx hlt
    obtain ⟨t, hst, ht⟩ := ih (s + 1) (by omega)
    exact ⟨t, by omega, ht⟩

theorem exists_first_match : ∃ t, N ≤ x t ∧ ∀ u, u < t → x u < N := by
  have hex : ∃ t, N ≤ x t := by
    obtain ⟨t, -, ht⟩ := exists_le hx 0
    exact ⟨t, ht⟩
  exact ⟨Nat.find hex, Nat.find_spec hex, fun u hu => BitVec.not_le.mp (Nat.find_min hex hu)⟩

variable {t₀ : ℕ} (h₀ : N ≤ x t₀)

include h₀

/-- Behind a match the counter runs through `0` to `N`. -/
theorem value_after_match (n : ℕ) : (x (t₀ + 1 + n)).toNat = n % (N.toNat + 1) := by
  induction n with
  | zero => rw [Nat.add_zero, next_of_le hx h₀, Nat.zero_mod, BitVec.toNat_zero]
  | succ n ih =>
    rcases Nat.lt_or_ge (x (t₀ + 1 + n)).toNat N.toNat with hlt | hge
    · have hnext := next_of_lt hx (BitVec.lt_def.mpr hlt)
      rw [ih] at hlt
      rw [← Nat.add_assoc, hnext, ih, ← Nat.mod_add_mod n, Nat.mod_eq_of_lt (Nat.succ_lt_succ hlt)]
    · have hnext := next_of_le hx (BitVec.le_def.mpr hge)
      have hmod : n % (N.toNat + 1) < N.toNat + 1 := Nat.mod_lt n (Nat.succ_pos N.toNat)
      have hlast : n % (N.toNat + 1) = N.toNat := by omega
      rw [← Nat.add_assoc, hnext, BitVec.toNat_zero, Nat.succ_mod_succ_eq_zero_iff.mpr hlast]

theorem le_top_after_match {t : ℕ} (ht : t₀ < t) : x t ≤ N := by
  obtain ⟨n, rfl⟩ := Nat.exists_eq_add_of_le (show t₀ + 1 ≤ t from ht)
  have hvalue := value_after_match hx h₀ n
  have hmod : n % (N.toNat + 1) < N.toNat + 1 := Nat.mod_lt n (Nat.succ_pos N.toNat)
  exact BitVec.le_def.mpr (by omega)

/-- The matches are `N + 1` clocks apart. -/
theorem match_iff {t : ℕ} (ht : t₀ ≤ t) : N ≤ x t ↔ (N.toNat + 1) ∣ t - t₀ := by
  rcases Nat.eq_or_lt_of_le ht with rfl | hlt
  · simp [h₀]
  · obtain ⟨n, rfl⟩ := Nat.exists_eq_add_of_le (show t₀ + 1 ≤ t from hlt)
    have hvalue := value_after_match hx h₀ n
    have hsub : t₀ + 1 + n - t₀ = n + 1 := by omega
    have hmod : n % (N.toNat + 1) < N.toNat + 1 := Nat.mod_lt n (Nat.succ_pos N.toNat)
    rw [BitVec.le_def, hvalue, hsub, Nat.dvd_iff_mod_eq_zero, Nat.succ_mod_succ_eq_zero_iff]
    omega

end Periods

end ModuloCounter

end Transition
