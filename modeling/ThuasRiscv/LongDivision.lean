import Mathlib.Tactic.Ring

/-!
# Long division with a shared buffer

A divider that retires `j` bits a step keeps the remainder in one register and, in
another of the dividend's width, the bits of the dividend that are left above the
digits of the quotient. A step divides the remainder, with the next digit of the
dividend behind it. Division by zero gives the largest digit in every step.
-/

namespace LongDivision

/-- The quotient in `k` bits; all ones when the divisor is zero. -/
def digits (d k x : ℕ) : ℕ := if d = 0 then 2 ^ k - 1 else x / d

/-- Whole multiples of the divisor go to the quotient. -/
theorem split_step (d j x y : ℕ) :
    x * 2 ^ j + y = d * (x / d * 2 ^ j) + (x % d * 2 ^ j + y) := by
  calc x * 2 ^ j + y = (d * (x / d) + x % d) * 2 ^ j + y := by rw [Nat.div_add_mod]
    _ = d * (x / d * 2 ^ j) + (x % d * 2 ^ j + y) := by
      rw [Nat.add_mul, Nat.mul_assoc, Nat.add_assoc]

theorem digits_step (d k j x y : ℕ) :
    digits d (k + j) (x * 2 ^ j + y) =
      digits d k x * 2 ^ j + digits d j (x % d * 2 ^ j + y) := by
  unfold digits
  split_ifs with hd
  · have hk := Nat.one_le_two_pow (n := k)
    have hj := Nat.one_le_two_pow (n := j)
    rw [Nat.pow_add, Nat.sub_mul, Nat.one_mul]
    have hle : 2 ^ j ≤ 2 ^ k * 2 ^ j := Nat.le_mul_of_pos_left _ hk
    omega
  · rw [split_step d j x y, Nat.mul_add_div (Nat.pos_of_ne_zero hd)]

theorem mod_step (d j x y : ℕ) : (x * 2 ^ j + y) % d = (x % d * 2 ^ j + y) % d := by
  rw [split_step d j x y, Nat.mul_add_mod]

theorem digits_lt {d k x : ℕ} (hx : x < 2 ^ k) : digits d k x < 2 ^ k := by
  unfold digits
  split_ifs with hd
  · exact Nat.sub_lt (Nat.two_pow_pos k) Nat.one_pos
  · exact Nat.lt_of_le_of_lt (Nat.div_le_self x d) hx

/-- The registers after `k` of `n` bits of the dividend `a` are retired: the remainder `r` and
the buffer `q`. -/
structure Retired (d n k a r q : ℕ) : Prop where
  remainder : r = a / 2 ^ (n - k) % d
  buffer : q = a % 2 ^ (n - k) * 2 ^ k + digits d k (a / 2 ^ (n - k))

theorem Retired.start {d n a : ℕ} (ha : a < 2 ^ n) : Retired d n 0 a 0 a := by
  constructor
  · rw [Nat.sub_zero, Nat.div_eq_of_lt ha, Nat.zero_mod]
  · rw [Nat.sub_zero, Nat.div_eq_of_lt ha, Nat.mod_eq_of_lt ha]
    simp [digits]

theorem Retired.done {d n a r q : ℕ} (h : Retired d n n a r q) :
    r = a % d ∧ q = digits d n a := by
  obtain ⟨hr, hq⟩ := h
  rw [Nat.sub_self, Nat.pow_zero] at hr hq
  rw [Nat.div_one] at hr hq
  rw [Nat.mod_one, Nat.zero_mul, Nat.zero_add] at hq
  exact ⟨hr, hq⟩

/-- The remainder with the next digit of the dividend behind it. -/
def window (n j r q : ℕ) : ℕ := r * 2 ^ j + q / 2 ^ (n - j)

theorem window_lt {n j r q : ℕ} (hj : j ≤ n) (hq : q < 2 ^ n) :
    window n j r q < (r + 1) * 2 ^ j := by
  have hdigit : q / 2 ^ (n - j) < 2 ^ j := by
    apply Nat.div_lt_of_lt_mul
    rw [← Nat.pow_add]
    exact Nat.lt_of_lt_of_eq hq (by congr 1; omega)
  rw [window, Nat.add_mul, Nat.one_mul]
  exact Nat.add_lt_add_left hdigit _

theorem Retired.remainder_lt {d n k a r q : ℕ} (h : Retired d n k a r q) (hk : k ≤ n)
    (ha : a < 2 ^ n) : r < 2 ^ k := by
  have hx : a / 2 ^ (n - k) < 2 ^ k := by
    apply Nat.div_lt_of_lt_mul
    rw [← Nat.pow_add]
    exact Nat.lt_of_lt_of_eq ha (by congr 1; omega)
  rw [h.remainder]
  exact Nat.lt_of_le_of_lt (Nat.mod_le _ d) hx

theorem Retired.remainder_lt_divisor {d n k a r q : ℕ} (h : Retired d n k a r q) (hd : d ≠ 0) :
    r < d := by
  rw [h.remainder]
  exact Nat.mod_lt _ (Nat.pos_of_ne_zero hd)

/-- One step of the divider, whatever it does to find the digit. -/
theorem Retired.step {d n k j a r q : ℕ} (h : Retired d n k a r q) (hk : k + j ≤ n)
    (ha : a < 2 ^ n) :
    Retired d n (k + j) a (window n j r q % d)
      (q * 2 ^ j % 2 ^ n + digits d j (window n j r q)) := by
  obtain ⟨hr, hq⟩ := h
  obtain ⟨p, rfl⟩ : ∃ p, n = k + j + p := ⟨n - (k + j), by omega⟩
  have hnk : k + j + p - k = p + j := by omega
  have hnj : k + j + p - j = k + p := by omega
  have hnkj : k + j + p - (k + j) = p := by omega
  rw [hnk] at hr hq
  set x := a / 2 ^ (p + j) with hx
  set y := a % 2 ^ (p + j) with hy
  have hxlt : x < 2 ^ k := by
    rw [hx]
    apply Nat.div_lt_of_lt_mul
    rw [← Nat.pow_add]
    exact Nat.lt_of_lt_of_eq ha (by congr 1; omega)
  have hqlt : digits d k x < 2 ^ k := digits_lt hxlt
  -- The digit that leaves the buffer is the next one of the dividend.
  have hdigit : q / 2 ^ (k + p) = y / 2 ^ p := by
    rw [hq, Nat.pow_add, ← Nat.div_div_eq_div_mul, Nat.mul_comm y,
      Nat.mul_add_div (Nat.two_pow_pos k), Nat.div_eq_of_lt hqlt, Nat.add_zero]
  have hdividend : a / 2 ^ p = x * 2 ^ j + y / 2 ^ p := by
    have ha' : a = 2 ^ p * (x * 2 ^ j) + y := by
      calc a = 2 ^ (p + j) * x + y := (Nat.div_add_mod a _).symm
        _ = 2 ^ p * (x * 2 ^ j) + y := by rw [Nat.pow_add, Nat.mul_assoc, Nat.mul_comm x]
    rw [ha', Nat.mul_add_div (Nat.two_pow_pos p)]
  have hwindow : window (k + j + p) j r q = x % d * 2 ^ j + y / 2 ^ p := by
    rw [window, hnj, hdigit, hr]
  constructor
  · rw [hnkj, hdividend, hwindow, mod_step d j x]
  · have hrest : q * 2 ^ j % 2 ^ (k + j + p) =
        a % 2 ^ p * 2 ^ (k + j) + digits d k x * 2 ^ j := by
      have hmod : y % 2 ^ p = a % 2 ^ p :=
        Nat.mod_mod_of_dvd a (Nat.pow_dvd_pow 2 (Nat.le_add_right p j))
      have hsplit : q * 2 ^ j = 2 ^ (k + j + p) * (y / 2 ^ p) +
          (a % 2 ^ p * 2 ^ (k + j) + digits d k x * 2 ^ j) := by
        calc q * 2 ^ j = (2 ^ p * (y / 2 ^ p) + y % 2 ^ p) * 2 ^ k * 2 ^ j +
              digits d k x * 2 ^ j := by rw [Nat.div_add_mod, hq, Nat.add_mul]
          _ = _ := by rw [hmod, Nat.pow_add, Nat.pow_add]; ring
      have hlt : a % 2 ^ p * 2 ^ (k + j) + digits d k x * 2 ^ j < 2 ^ (k + j + p) := by
        have hp : a % 2 ^ p + 1 ≤ 2 ^ p := Nat.mod_lt _ (Nat.two_pow_pos p)
        calc a % 2 ^ p * 2 ^ (k + j) + digits d k x * 2 ^ j
            < a % 2 ^ p * 2 ^ (k + j) + 2 ^ k * 2 ^ j :=
              Nat.add_lt_add_left (Nat.mul_lt_mul_of_pos_right hqlt (Nat.two_pow_pos j)) _
          _ = (a % 2 ^ p + 1) * 2 ^ (k + j) := by rw [Nat.add_mul, Nat.one_mul, Nat.pow_add 2 k j]
          _ ≤ 2 ^ p * 2 ^ (k + j) := Nat.mul_le_mul_right _ hp
          _ = 2 ^ (k + j + p) := by rw [← Nat.pow_add, Nat.add_comm p]
      rw [hsplit, Nat.mul_add_mod, Nat.mod_eq_of_lt hlt]
    rw [hnkj, hdividend, digits_step, hwindow, hrest, Nat.add_assoc]

end LongDivision
