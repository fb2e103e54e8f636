import Mathlib.Data.List.Basic
import Mathlib.Data.Nat.Init
import Mathlib.Logic.Basic

/-!
# Shift registers

A register that shifts towards its least significant bit: a bit enters at the
top and the lowest bit leaves. What enters and what leaves in a row of shifts is
a list of bits, the first one first.
-/

namespace ShiftRegister

variable {n : ℕ}

/-- The register after a shift that brings in `b`. -/
def shiftIn (b : Bool) (v : BitVec (n + 1)) : BitVec (n + 1) := (v.extractLsb' 1 n).cons b

/-- The register after a row of shifts. -/
def shiftsIn (bs : List Bool) (v : BitVec (n + 1)) : BitVec (n + 1) :=
  bs.foldl (fun v b => shiftIn b v) v

/-- The bits of a word, the least significant first. -/
def bits {w : ℕ} (v : BitVec w) : List Bool := (List.range w).map v.getLsbD

/-- The bits that leave at bit `k` of the register in a row of shifts. -/
def leaving (k : ℕ) : List Bool → BitVec (n + 1) → List Bool
  | [], _ => []
  | b :: bs, v => v.getLsbD k :: leaving k bs (shiftIn b v)

@[simp]
theorem shiftsIn_nil (v : BitVec (n + 1)) : shiftsIn [] v = v := rfl

@[simp]
theorem shiftsIn_cons (b : Bool) (bs : List Bool) (v : BitVec (n + 1)) :
    shiftsIn (b :: bs) v = shiftsIn bs (shiftIn b v) := rfl

theorem leaving_cons (k : ℕ) (b : Bool) (bs : List Bool) (v : BitVec (n + 1)) :
    leaving k (b :: bs) v = v.getLsbD k :: leaving k bs (shiftIn b v) := rfl

@[simp]
theorem length_bits {w : ℕ} (v : BitVec w) : (bits v).length = w := by simp [bits]

theorem getElem?_bits {w : ℕ} (v : BitVec w) {k : ℕ} (hk : k < w) :
    (bits v)[k]? = some (v.getLsbD k) := by simp [bits, hk]

theorem getLsbD_shiftIn (b : Bool) (v : BitVec (n + 1)) (k : ℕ) :
    (shiftIn b v).getLsbD k = if k = n then b else decide (k < n) && v.getLsbD (k + 1) := by
  rw [shiftIn, BitVec.getLsbD_cons, BitVec.getLsbD_extractLsb', Nat.add_comm 1 k]

/-- The lowest bits are those of the old word, and above them are the bits that came in. -/
theorem getLsbD_shiftsIn (bs : List Bool) (v : BitVec (n + 1)) {k : ℕ} (hk : k ≤ n) :
    (shiftsIn bs v).getLsbD k = if k + bs.length ≤ n then v.getLsbD (k + bs.length)
      else bs.getD (k + bs.length - (n + 1)) false := by
  induction bs generalizing v with
  | nil => simp [hk]
  | cons b bs ih =>
    rw [shiftsIn_cons, ih, List.length_cons]
    by_cases hin : k + bs.length ≤ n
    · rw [if_pos hin, getLsbD_shiftIn]
      rcases Nat.eq_or_lt_of_le hin with heq | hlt
      · have hlast : k + (bs.length + 1) - (n + 1) = 0 := by omega
        rw [if_pos heq, if_neg (by omega), hlast]
        rfl
      · rw [if_neg (Nat.ne_of_lt hlt), if_pos (by omega), decide_eq_true hlt, Bool.true_and]
        rfl
    · have hlast : k + (bs.length + 1) - (n + 1) = k + bs.length - (n + 1) + 1 := by omega
      rw [if_neg hin, if_neg (by omega), hlast]
      rfl

/-- A row of shifts as long as a field at the top of the register replaces that field. -/
theorem getLsbD_shiftsIn_bits {w : ℕ} (x : BitVec w) (v : BitVec (n + 1)) {k : ℕ} (hk : k < w)
    (hw : w ≤ n + 1) : (shiftsIn (bits x) v).getLsbD (n + 1 - w + k) = x.getLsbD k := by
  have hlen : n + 1 - w + k + w - (n + 1) = k := by omega
  rw [getLsbD_shiftsIn _ _ (by omega), length_bits, if_neg (by omega), hlen,
    List.getD_eq_getElem?_getD, getElem?_bits x hk, Option.getD_some]

theorem shiftsIn_bits (x v : BitVec (n + 1)) : shiftsIn (bits x) v = x := by
  ext k hk
  have htop := getLsbD_shiftsIn_bits x v hk (Nat.le_refl _)
  rwa [Nat.sub_self, Nat.zero_add] at htop

@[simp]
theorem length_leaving (k : ℕ) (bs : List Bool) (v : BitVec (n + 1)) :
    (leaving k bs v).length = bs.length := by
  induction bs generalizing v with
  | nil => rfl
  | cons b bs ih => rw [leaving, List.length_cons, ih, List.length_cons]

/-- At bit `k` the old word leaves from that bit on. -/
theorem getElem?_leaving (k : ℕ) (bs : List Bool) (v : BitVec (n + 1)) {j : ℕ}
    (hj : j < bs.length) (hk : k + j ≤ n) : (leaving k bs v)[j]? = some (v.getLsbD (k + j)) := by
  induction bs generalizing v j with
  | nil => cases hj
  | cons b bs ih =>
    cases j with
    | zero => rfl
    | succ j =>
      rw [leaving, List.getElem?_cons_succ, ih _ (Nat.lt_of_succ_lt_succ hj) (by omega),
        getLsbD_shiftIn, if_neg (by omega), decide_eq_true (by omega), Bool.true_and]
      rfl

/-- As many shifts as the field at the top of the register is wide bring out that field. -/
theorem leaving_eq_bits {w : ℕ} {bs : List Bool} (v : BitVec (n + 1)) (hbs : bs.length = w)
    (hw : w ≤ n + 1) : leaving (n + 1 - w) bs v = bits (v.extractLsb' (n + 1 - w) w) := by
  apply List.ext_getElem?
  intro j
  by_cases hj : j < w
  · rw [getElem?_leaving _ _ _ (by omega) (by omega), getElem?_bits _ hj,
      BitVec.getLsbD_extractLsb', decide_eq_true hj, Bool.true_and]
  · rw [List.getElem?_eq_none (by rw [length_leaving]; omega),
      List.getElem?_eq_none (by rw [length_bits]; omega)]

end ShiftRegister
