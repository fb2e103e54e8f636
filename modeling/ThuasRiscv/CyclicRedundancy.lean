import Mathlib.Algebra.Field.ZMod
import Mathlib.Algebra.Polynomial.Div
import Mathlib.Algebra.Polynomial.Monic
import Mathlib.Data.BitVec
import Mathlib.Data.ZMod.Basic
import Mathlib.Tactic.LinearCombination

/-!
# Cyclic redundancy by a shift register

A message is a polynomial over the field with two elements, its first bit the
highest coefficient. A register of `w` bits that is shifted once for every bit
of the message, with the feedback at its highest bit, holds the remainder of the
message, followed by `w` zero bits, by the generator polynomial; the initial
value of the register is added to the front of the message.
-/

namespace CyclicRedundancy

open Polynomial

/-! ## Polynomials of bits -/

def coefficient (b : Bool) : ZMod 2 := if b then 1 else 0

theorem coefficient_xor (b c : Bool) :
    coefficient (b ^^ c) = coefficient b + coefficient c := by
  revert b c
  decide

/-- The polynomial of a message. -/
noncomputable def ofBits (bits : List Bool) : (ZMod 2)[X] :=
  bits.foldl (fun p b => p * X + C (coefficient b)) 0

/-- The polynomial of a register. -/
noncomputable def ofVec {w : ℕ} (v : BitVec w) : (ZMod 2)[X] :=
  ∑ i ∈ Finset.range w, monomial i (coefficient (v.getLsbD i))

theorem foldl_bits (p : (ZMod 2)[X]) (bits : List Bool) :
    bits.foldl (fun p b => p * X + C (coefficient b)) p = p * X ^ bits.length + ofBits bits := by
  induction bits generalizing p with
  | nil => simp [ofBits]
  | cons b bits ih =>
    rw [ofBits, List.foldl_cons, List.foldl_cons, ih, ih (0 * X + C (coefficient b)),
      List.length_cons]
    ring

theorem ofBits_cons (b : Bool) (bits : List Bool) :
    ofBits (b :: bits) = C (coefficient b) * X ^ bits.length + ofBits bits := by
  rw [ofBits, List.foldl_cons, foldl_bits]
  ring

variable {w : ℕ}

theorem coeff_ofVec (v : BitVec w) (i : ℕ) : (ofVec v).coeff i = coefficient (v.getLsbD i) := by
  rw [ofVec, finsetSum_coeff]
  by_cases hi : i < w
  · rw [Finset.sum_eq_single i]
    · exact coeff_monomial_same _ _
    · intro j _ hj
      exact coeff_monomial_of_ne _ (Ne.symm hj)
    · intro h
      exact absurd (Finset.mem_range.mpr hi) h
  · rw [BitVec.getLsbD_of_ge v i (Nat.le_of_not_lt hi)]
    apply Finset.sum_eq_zero
    intro j hj
    have hne : i ≠ j := fun h => hi (h ▸ Finset.mem_range.mp hj)
    exact coeff_monomial_of_ne _ hne

theorem degree_ofVec_lt (v : BitVec w) : (ofVec v).degree < w := by
  rw [degree_lt_iff_coeff_zero]
  intro i hi
  rw [coeff_ofVec, BitVec.getLsbD_of_ge v i hi]
  rfl

theorem ofVec_injective : Function.Injective (ofVec (w := w)) := by
  intro u v h
  apply BitVec.eq_of_getLsbD_eq
  intro i _
  have hi := congrArg (fun p => p.coeff i) h
  simp only [coeff_ofVec] at hi
  cases hu : u.getLsbD i <;> cases hv : v.getLsbD i <;> simp_all [coefficient]

theorem ofVec_xor (u v : BitVec w) : ofVec (u ^^^ v) = ofVec u + ofVec v := by
  ext i
  rw [coeff_add, coeff_ofVec, coeff_ofVec, coeff_ofVec, BitVec.getLsbD_xor, coefficient_xor]

/-- A shift moves the highest bit out of the register. -/
theorem ofVec_shiftLeft (hw : 0 < w) (v : BitVec w) :
    ofVec (v <<< 1) + C (coefficient v.msb) * X ^ w = ofVec v * X := by
  ext i
  rw [coeff_add, coeff_C_mul_X_pow, coeff_ofVec]
  cases i with
  | zero =>
    have h : ¬ 0 = w := by omega
    simp [h, coefficient, hw]
  | succ i =>
    rw [coeff_mul_X, coeff_ofVec]
    by_cases hi : i + 1 = w
    · subst hi
      have hmsb : v.msb = v.getLsbD i := by rw [BitVec.msb_eq_getLsbD_last]; rfl
      simp [hmsb, coefficient]
    · have hge : w ≤ i + 1 → v.getLsbD i = false := fun h =>
        BitVec.getLsbD_of_ge v i (by omega)
      rw [BitVec.getLsbD_shiftLeft, if_neg hi, add_zero]
      by_cases hlt : i + 1 < w
      · simp only [hlt, decide_true, Nat.add_sub_cancel, Bool.true_and]
        rfl
      · simp [hlt, hge (by omega)]

/-! ## Generator and register -/

/-- The generator: its highest coefficient is not in the register. -/
noncomputable def generator (poly : BitVec w) : (ZMod 2)[X] := X ^ w + ofVec poly

theorem monic_generator (poly : BitVec w) : (generator poly).Monic :=
  monic_X_pow_add (degree_ofVec_lt poly)

theorem degree_generator (poly : BitVec w) : (generator poly).degree = w := by
  rw [generator, degree_add_eq_left_of_degree_lt]
  · exact degree_X_pow w
  · rw [degree_X_pow]
    exact degree_ofVec_lt poly

/-- The register after one more bit of the message. -/
def step (poly r : BitVec w) (b : Bool) : BitVec w :=
  if r.msb ≠ b then (r <<< 1) ^^^ poly else r <<< 1

theorem ofVec_step (hw : 0 < w) (poly r : BitVec w) (b : Bool) :
    ofVec (step poly r b) + C (coefficient (r.msb ^^ b)) * generator poly =
      ofVec r * X + C (coefficient b) * X ^ w := by
  have hshift := ofVec_shiftLeft hw r
  have hpow : (X ^ w + X ^ w : (ZMod 2)[X]) = 0 := CharTwo.add_self_eq_zero _
  have hpoly : ofVec poly + ofVec poly = 0 := CharTwo.add_self_eq_zero _
  rw [← hshift, step, generator]
  cases r.msb <;> cases b <;>
    simp only [coefficient, ofVec_xor, ne_eq, not_true_eq_false, reduceCtorEq, not_false_eq_true,
      if_true, if_false, Bool.false_eq_true, Bool.xor_self, Bool.xor_false, Bool.xor_true,
      Bool.not_false, map_one, map_zero, one_mul, zero_mul, add_zero]
  · linear_combination hpoly
  · linear_combination hpoly
  · rw [add_assoc, hpow, add_zero]

/-- The message behind the initial value of the register, followed by `w` zero bits. -/
noncomputable def augmented (r : BitVec w) (bits : List Bool) : (ZMod 2)[X] :=
  ofVec r * X ^ bits.length + ofBits bits * X ^ w

/-- The cyclic redundancy code of a message. -/
noncomputable def crc (poly r : BitVec w) (bits : List Bool) : (ZMod 2)[X] :=
  augmented r bits %ₘ generator poly

/-- The shift register divides: it holds the remainder of the message. -/
theorem ofVec_foldl (hw : 0 < w) (poly r : BitVec w) (bits : List Bool) :
    ofVec (bits.foldl (step poly) r) = crc poly r bits := by
  rw [crc, augmented]
  suffices h : ∃ q, ofVec (bits.foldl (step poly) r) + generator poly * q =
      ofVec r * X ^ bits.length + ofBits bits * X ^ w by
    obtain ⟨q, hq⟩ := h
    refine ((div_modByMonic_unique q _ (monic_generator poly) ⟨hq, ?_⟩).2).symm
    rw [degree_generator]
    exact degree_ofVec_lt _
  induction bits generalizing r with
  | nil => exact ⟨0, by simp [ofBits]⟩
  | cons b bits ih =>
    obtain ⟨q, hq⟩ := ih (step poly r b)
    have hstep := ofVec_step hw poly r b
    refine ⟨q + C (coefficient (r.msb ^^ b)) * X ^ bits.length, ?_⟩
    rw [List.foldl_cons, List.length_cons, ofBits_cons]
    linear_combination hq + X ^ bits.length * hstep

/-- Two messages have the same code when the generator divides their difference. -/
theorem crc_eq_iff (poly r : BitVec w) (bits bits' : List Bool) :
    crc poly r bits = crc poly r bits' ↔
      generator poly ∣ augmented r bits - augmented r bits' := by
  rw [← modByMonic_eq_zero_iff_dvd (monic_generator poly), sub_modByMonic, sub_eq_zero, crc, crc]

end CyclicRedundancy
