import Mathlib.Data.BitVec

/-!
# Byte stores

A store has one byte at every address of `n` bits, and addresses wrap around.
Writes put a list of bytes at consecutive addresses. After any number of writes
an address holds the byte of the last write that covered it.
-/

/-- One byte at every address. -/
abbrev ByteStore (n : ℕ) := BitVec n → BitVec 8

namespace ByteStore

variable {n : ℕ}

/-- Bytes for consecutive addresses. -/
structure Write (n : ℕ) where
  addr : BitVec n
  bytes : List (BitVec 8)

/-- The byte that a write puts at an address. -/
def Write.at (w : Write n) (b : BitVec n) : Option (BitVec 8) := w.bytes[(b - w.addr).toNat]?

def write (m : ByteStore n) (w : Write n) : ByteStore n := fun b => (w.at b).getD (m b)

/-- The store after some writes, the oldest first. -/
def after (m : ByteStore n) (ws : List (Write n)) : ByteStore n := ws.foldl write m

/-- The byte of the last write that covers an address. -/
def lastAt (ws : List (Write n)) (b : BitVec n) : Option (BitVec 8) :=
  ws.reverse.findSome? fun w => w.at b

@[simp] theorem after_nil (m : ByteStore n) : m.after [] = m := rfl

theorem after_append (m : ByteStore n) (ws vs : List (Write n)) :
    m.after (ws ++ vs) = (m.after ws).after vs := List.foldl_append

theorem lastAt_append (ws : List (Write n)) (w : Write n) (b : BitVec n) :
    lastAt (ws ++ [w]) b = (w.at b).or (lastAt ws b) := by
  simp [lastAt, List.findSome?_cons]
  cases w.at b <;> rfl

/-- Every address holds the byte of the last write that covers it. -/
theorem after_apply (m : ByteStore n) (ws : List (Write n)) (b : BitVec n) :
    m.after ws b = (lastAt ws b).getD (m b) := by
  induction ws using List.reverseRecOn with
  | nil => rfl
  | append_singleton ws w ih =>
    rw [after_append, lastAt_append]
    change (w.at b).getD (m.after ws b) = _
    rw [ih]
    cases w.at b <;> rfl

/-! ## Byte after byte -/

theorem toNat_sub_eq (a b : BitVec n) : (b - a).toNat =
    if a.toNat ≤ b.toNat then b.toNat - a.toNat else 2 ^ n - a.toNat + b.toNat := by
  have ha := a.isLt
  have hb := b.isLt
  rw [BitVec.toNat_sub]
  split_ifs
  · rw [Nat.mod_eq_sub_mod (by omega), Nat.mod_eq_of_lt (by omega)]
    omega
  · exact Nat.mod_eq_of_lt (by omega)

theorem toNat_add_one (a : BitVec n) :
    (a + 1).toNat = if a.toNat + 1 = 2 ^ n then 0 else a.toNat + 1 := by
  have ha := a.isLt
  rw [BitVec.toNat_add, show (1 : BitVec n).toNat = 1 % 2 ^ n from BitVec.toNat_ofNat 1 n,
    Nat.add_mod_mod]
  split_ifs with h
  · rw [h, Nat.mod_self]
  · exact Nat.mod_eq_of_lt (by omega)

@[simp] theorem write_nil (m : ByteStore n) (a : BitVec n) : m.write ⟨a, []⟩ = m := rfl

/-- A write that does not come around to its first address puts its bytes one after another. -/
theorem write_cons (m : ByteStore n) (a : BitVec n) (v : BitVec 8) {vs : List (BitVec 8)}
    (h : vs.length < 2 ^ n) :
    m.write ⟨a, v :: vs⟩ = ByteStore.write (Function.update m a v) ⟨a + 1, vs⟩ := by
  funext b
  have ha := a.isLt
  have hb := b.isLt
  change ((v :: vs)[(b - a).toNat]?).getD (m b) =
    (vs[(b - (a + 1)).toNat]?).getD (Function.update m a v b)
  by_cases hba : b = a
  · subst hba
    have hlast : (b - (b + 1)).toNat = 2 ^ n - 1 := by
      rw [toNat_sub_eq, toNat_add_one]
      split_ifs <;> omega
    rw [hlast, List.getElem?_eq_none (l := vs) (by omega), BitVec.sub_self, Function.update_self]
    rfl
  · have hne : b.toNat ≠ a.toNat := fun h => hba (BitVec.eq_of_toNat_eq h)
    have hnext : (b - a).toNat = (b - (a + 1)).toNat + 1 := by
      rw [toNat_sub_eq, toNat_sub_eq, toNat_add_one]
      split_ifs <;> omega
    rw [hnext, List.getElem?_cons_succ, Function.update_of_ne hba]

/-! ## Writes that do not wrap around -/

theorem at_ofNat {s : ℕ} {vs : List (BitVec 8)} (h : s + vs.length ≤ 2 ^ n) (b : BitVec n) :
    (Write.mk (BitVec.ofNat n s) vs).at b = if s ≤ b.toNat then vs[b.toNat - s]? else none := by
  have hb := b.isLt
  change vs[(b - BitVec.ofNat n s).toNat]? = _
  rcases Nat.eq_zero_or_pos vs.length with h0 | hpos
  · rw [List.length_eq_zero_iff.mp h0]
    simp
  · rw [toNat_sub_eq, BitVec.toNat_ofNat, Nat.mod_eq_of_lt (by omega)]
    split_ifs
    · rfl
    · exact List.getElem?_eq_none (by omega)

/-- The last write to an address, when the writes cover different addresses. -/
theorem lastAt_of_pairwise {ws : List (Write n)} {w : Write n} {b : BitVec n} {v : BitVec 8}
    (h : ws.Pairwise fun w w' => ∀ b, w.at b ≠ none → w'.at b = none) (hw : w ∈ ws)
    (hv : w.at b = some v) : lastAt ws b = some v := by
  induction ws using List.reverseRecOn with
  | nil => cases hw
  | append_singleton ws w' ih =>
    rw [lastAt_append]
    rw [List.pairwise_append] at h
    rcases List.mem_append.mp hw with hmem | hlast
    · have hnone : w'.at b = none := by
        apply h.2.2 w hmem w' (List.mem_singleton_self w') b
        rw [hv]
        exact Option.some_ne_none v
      rw [hnone, ih h.1 hmem]
      rfl
    · rw [List.mem_singleton] at hlast
      rw [← hlast, hv]
      rfl

/-! ## Words -/

/-- The lowest bytes of a word, the least significant first. -/
def bytesOf {w : ℕ} (v : BitVec w) (k : ℕ) : List (BitVec 8) :=
  (List.range k).map fun j => v.extractLsb' (8 * j) 8

/-- The word of two bytes, the least significant at the lowest address. -/
def read16 (m : ByteStore n) (a : BitVec n) : BitVec 16 := m (a + 1) ++ m a

/-- The word of four bytes, the least significant at the lowest address. -/
def read32 (m : ByteStore n) (a : BitVec n) : BitVec 32 :=
  ((m (a + 3) ++ m (a + 2)) ++ m (a + 1)) ++ m a

/-- The bytes at consecutive addresses. -/
def readBytes (m : ByteStore n) (a : BitVec n) (k : ℕ) : List (BitVec 8) :=
  (List.range k).map fun j => m (a + BitVec.ofNat n j)

@[simp] theorem length_bytesOf {w : ℕ} (v : BitVec w) (k : ℕ) : (bytesOf v k).length = k := by
  simp [bytesOf]

theorem getElem?_bytesOf {w : ℕ} (v : BitVec w) {k j : ℕ} (h : j < k) :
    (bytesOf v k)[j]? = some (v.extractLsb' (8 * j) 8) := by
  simp [bytesOf, h]

/-- A word of one, two or four bytes of a store has the bytes at its address. -/
theorem bytesOf_one {w : ℕ} {v : BitVec w} {m : ByteStore n} {a : BitVec n}
    (h : v.extractLsb' 0 8 = m a) : bytesOf v 1 = readBytes m a 1 := by
  change [v.extractLsb' 0 8] = [m (a + 0#n)]
  rw [h, BitVec.add_zero]

theorem bytesOf_two {w : ℕ} {v : BitVec w} {m : ByteStore n} {a : BitVec n}
    (h : v.extractLsb' 0 16 = read16 m a) : bytesOf v 2 = readBytes m a 2 := by
  have h₀ : (v.extractLsb' 0 16).extractLsb' 0 8 = v.extractLsb' 0 8 :=
    BitVec.extractLsb'_extractLsb'_of_le (by decide)
  have h₁ : (v.extractLsb' 0 16).extractLsb' 8 8 = v.extractLsb' 8 8 :=
    BitVec.extractLsb'_extractLsb'_of_le (by decide)
  change [v.extractLsb' 0 8, v.extractLsb' 8 8] = [m (a + 0#n), m (a + 1)]
  rw [← h₀, ← h₁, h, read16, BitVec.extractLsb'_append_eq_right, BitVec.extractLsb'_append_eq_left,
    BitVec.add_zero]

theorem bytesOf_read32 (m : ByteStore n) (a : BitVec n) :
    bytesOf (read32 m a) 4 = readBytes m a 4 := by
  change [(read32 m a).extractLsb' 0 8, (read32 m a).extractLsb' 8 8,
    (read32 m a).extractLsb' 16 8, (read32 m a).extractLsb' 24 8] =
      [m (a + 0#n), m (a + 1), m (a + 2), m (a + 3)]
  have h₁ : (read32 m a).extractLsb' 8 8 = m (a + 1) := by
    rw [read32, BitVec.extractLsb'_append_eq_of_le (by decide), BitVec.extractLsb'_append_eq_right]
  have h₂ : (read32 m a).extractLsb' 16 8 = m (a + 2) := by
    rw [read32, BitVec.extractLsb'_append_eq_of_le (by decide),
      BitVec.extractLsb'_append_eq_of_le (by decide), BitVec.extractLsb'_append_eq_right]
  have h₃ : (read32 m a).extractLsb' 24 8 = m (a + 3) := by
    rw [read32, BitVec.extractLsb'_append_eq_of_le (by decide),
      BitVec.extractLsb'_append_eq_of_le (by decide), BitVec.extractLsb'_append_eq_left]
  rw [h₁, h₂, h₃, BitVec.add_zero, read32, BitVec.extractLsb'_append_eq_right]

/-! ## Word addresses and offsets

An address is a word index followed by the offset of a byte in the word. -/

/-- The four bytes of a word. -/
theorem offset_cases (q : BitVec 2) : q = 0 ∨ q = 1 ∨ q = 2 ∨ q = 3 := by
  revert q
  decide

theorem toNat_append_offset (i : BitVec n) (p : BitVec 2) :
    (i ++ p).toNat = 4 * i.toNat + p.toNat := by
  rw [BitVec.toNat_append, Nat.shiftLeft_eq, Nat.mul_comm]
  exact (Nat.two_pow_add_eq_or_of_lt p.isLt i.toNat).symm

/-- The distance between two addresses, by words and offsets. -/
theorem toNat_sub_append (i j : BitVec n) (p q : BitVec 2) :
    ((i ++ p) - (j ++ q)).toNat =
      (4 * 2 ^ n - (4 * j.toNat + q.toNat) + (4 * i.toNat + p.toNat)) % (4 * 2 ^ n) := by
  rw [BitVec.toNat_sub, toNat_append_offset, toNat_append_offset, Nat.pow_add, Nat.mul_comm]

theorem toNat_sub_append_self (i : BitVec n) {p q : BitVec 2} (h : q.toNat ≤ p.toNat) :
    ((i ++ p) - (i ++ q)).toNat = p.toNat - q.toNat := by
  have hi := i.isLt
  have hp := p.isLt
  rw [toNat_sub_append, Nat.mod_eq_sub_mod (by omega), Nat.mod_eq_of_lt (by omega)]
  omega

/-- A group of bytes that stays in its word covers an address only in that word. -/
theorem eq_of_toNat_sub_lt {i j : BitVec n} {p q : BitVec 2} {k : ℕ} (hk : q.toNat + k ≤ 4)
    (h : ((i ++ p) - (j ++ q)).toNat < k) : i = j ∧ q.toNat ≤ p.toNat := by
  have hi := i.isLt
  have hj := j.isLt
  have hp := p.isLt
  rw [toNat_sub_append] at h
  rcases Nat.lt_trichotomy i.toNat j.toNat with hij | hij | hij
  · rw [Nat.mod_eq_of_lt (by omega)] at h
    omega
  · refine ⟨BitVec.eq_of_toNat_eq hij, ?_⟩
    by_contra hpq
    rw [Nat.mod_eq_of_lt (by omega)] at h
    omega
  · rw [Nat.mod_eq_sub_mod (by omega), Nat.mod_eq_of_lt (by omega)] at h
    omega

/-- The byte that a write in one word puts at an address. -/
theorem at_append {i j : BitVec n} {p q : BitVec 2} {bs : List (BitVec 8)}
    (hk : q.toNat + bs.length ≤ 4) : (Write.mk (j ++ q) bs).at (i ++ p) =
      if i = j ∧ q.toNat ≤ p.toNat then bs[p.toNat - q.toNat]? else none := by
  unfold Write.at
  split_ifs with h
  · obtain ⟨rfl, hpq⟩ := h
    rw [toNat_sub_append_self i hpq]
  · rw [List.getElem?_eq_none_iff]
    by_contra hlt
    exact h (eq_of_toNat_sub_lt hk (Nat.lt_of_not_le hlt))

end ByteStore
