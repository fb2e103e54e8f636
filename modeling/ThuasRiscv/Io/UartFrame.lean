import ThuasRiscv.Io.Uart

/-!
# Frames of the UART

The transmit buffer, bit by bit, as levels of the line: a start bit, the data
bits with the least significant one first, the parity bit and stop bits. The
shift register of the receiver is described bit by bit too.
-/

namespace ThuasRiscv

/-! ## Parity -/

theorem foldl_xor (bit : ℕ → Bool) (is : List ℕ) (b : Bool) :
    is.foldl (fun x i => x ^^ bit i) b = (b ^^ is.foldl (fun x i => x ^^ bit i) false) := by
  induction is generalizing b with
  | nil => simp
  | cons i is ih => rw [List.foldl_cons, List.foldl_cons, ih, ih (false ^^ bit i)]; simp

theorem xorReduce_append {m n : ℕ} (x : BitVec m) (y : BitVec n) :
    xorReduce (x ++ y) = (xorReduce x ^^ xorReduce y) := by
  have hlow : (List.range n).foldl (fun b i => b ^^ (x ++ y).getLsbD i) false = xorReduce y := by
    apply List.foldl_ext
    intro b i hi
    rw [BitVec.getLsbD_append, if_pos (List.mem_range.mp hi)]
  have hhigh (b : Bool) : (List.range m).foldl (fun b i => b ^^ (x ++ y).getLsbD (n + i)) b =
      (b ^^ xorReduce x) := by
    rw [foldl_xor, xorReduce]
    congr 1
    apply List.foldl_ext
    intro b i _
    rw [BitVec.getLsbD_append, if_neg (by omega), Nat.add_sub_cancel_left]
  have hrange : List.range (m + n) = List.range n ++ (List.range m).map (n + ·) := by
    rw [Nat.add_comm, List.range_add]
  change (List.range (m + n)).foldl (fun b i => b ^^ (x ++ y).getLsbD i) false = _
  rw [hrange, List.foldl_append, hlow, List.foldl_map, hhigh, Bool.xor_comm]

@[simp] theorem xorReduce_ofBool (b : Bool) : xorReduce (BitVec.ofBool b) = b := by
  cases b <;> rfl

theorem xorReduce_setWidth {m n : ℕ} (x : BitVec m) (h : m ≤ n) :
    xorReduce (x.setWidth n) = xorReduce x := by
  obtain ⟨k, rfl⟩ := Nat.exists_eq_add_of_le h
  have hlow : (List.range m).foldl (fun b i => b ^^ (x.setWidth (m + k)).getLsbD i) false =
      xorReduce x := by
    apply List.foldl_ext
    intro b i hi
    have := List.mem_range.mp hi
    rw [BitVec.getLsbD_setWidth]
    simp [show i < m + k by omega]
  have hhigh (b : Bool) :
      (List.range k).foldl (fun b i => b ^^ (x.setWidth (m + k)).getLsbD (m + i)) b = b := by
    induction (List.range k) generalizing b with
    | nil => rfl
    | cons i is ih => rw [List.foldl_cons, ih, BitVec.getLsbD_setWidth]; simp
  rw [xorReduce, List.range_add, List.foldl_append, hlow, List.foldl_map, hhigh]

/-- One bit between two parts of a vector. -/
theorem getLsbD_append_ofBool_append {m n : ℕ} (high : BitVec m) (b : Bool) (low : BitVec n)
    (i : ℕ) : (high ++ BitVec.ofBool b ++ low).getLsbD i =
      if i < n then low.getLsbD i else if i = n then b else high.getLsbD (i - n - 1) := by
  rw [BitVec.getLsbD_append, BitVec.getLsbD_append]
  split_ifs with hlow hmid hmid hmid
  · rfl
  · subst hmid; simp
  · omega
  · omega
  · rfl

namespace UartControl

variable (c : UartControl)

theorem dataBits_cases : c.size = 0b10 ∧ c.dataBits = 9 ∨
    c.size ≠ 0b10 ∧ c.size = 0b11 ∧ c.dataBits = 7 ∨
    c.size ≠ 0b10 ∧ c.size ≠ 0b11 ∧ c.dataBits = 8 := by
  unfold dataBits
  split_ifs with hnine hseven
  · exact .inl ⟨hnine, rfl⟩
  · exact .inr (.inl ⟨hnine, hseven, rfl⟩)
  · exact .inr (.inr ⟨hnine, hseven, rfl⟩)

theorem dataBits_le : c.dataBits ≤ 9 := by
  rcases c.dataBits_cases with ⟨-, h⟩ | ⟨-, -, h⟩ | ⟨-, -, h⟩ <;> rw [h] <;> omega

theorem getLsbD_shiftIn (b : Bool) (x : BitVec 9) {i : ℕ} (hi : i < 9) :
    (c.shiftIn b x).getLsbD i =
      if i + 1 < c.dataBits then x.getLsbD (i + 1)
      else if i + 1 = c.dataBits then b else x.getLsbD i := by
  rcases c.dataBits_cases with ⟨h, hn⟩ | ⟨h, h', hn⟩ | ⟨h, h', hn⟩
  · rw [shiftIn, if_pos h, hn, BitVec.getLsbD_append, BitVec.getLsbD_extractLsb']
    split_ifs with hlow
    all_goals grind
  · rw [shiftIn, if_neg h, if_pos h', hn, getLsbD_append_ofBool_append,
      BitVec.getLsbD_extractLsb', BitVec.getLsbD_extractLsb']
    grind
  · rw [shiftIn, if_neg h, if_neg h', hn, getLsbD_append_ofBool_append,
      BitVec.getLsbD_extractLsb', BitVec.getLsbD_extractLsb']
    grind

theorem getLsbD_character (data : DataType) (i : ℕ) :
    (c.character data).getLsbD i = (decide (i < c.dataBits) && data.getLsbD i) := by
  rcases c.dataBits_cases with ⟨h, hn⟩ | ⟨h, h', hn⟩ | ⟨h, h', hn⟩
  · rw [character, if_pos h, hn, BitVec.getLsbD_extractLsb', Nat.zero_add]
  · rw [character, if_neg h, if_pos h', hn, BitVec.getLsbD_setWidth, BitVec.getLsbD_extractLsb',
      Nat.zero_add]
    grind
  · rw [character, if_neg h, if_neg h', hn, BitVec.getLsbD_setWidth, BitVec.getLsbD_extractLsb',
      Nat.zero_add]
    grind

/-- The level of the line at bit `j` of a frame; it idles high. -/
def level (ch : BitVec 9) (j : ℕ) : Bool :=
  if j = 0 then false
  else if j ≤ c.dataBits then ch.getLsbD (j - 1)
  else if c.paron && j = c.dataBits + 1 then xorReduce (ch ++ BitVec.ofBool c.parnevenodd)
  else true

theorem level_character (data : DataType) {j : ℕ} (h0 : 0 < j) (hj : j ≤ c.dataBits) :
    c.level (c.character data) j = data.getLsbD (j - 1) := by
  rw [level, if_neg (by omega), if_pos hj, getLsbD_character, decide_eq_true (by omega),
    Bool.true_and]

theorem level_parity (ch : BitVec 9) :
    c.level ch (c.dataBits + 1) =
      if c.paron then xorReduce (ch ++ BitVec.ofBool c.parnevenodd) else true := by
  rw [level, if_neg (by omega), if_neg (by omega)]
  simp

theorem level_stop (ch : BitVec 9) {j : ℕ} (hj : c.dataBits + 1 + c.paron.toNat ≤ j) :
    c.level ch j = true := by
  rw [level, if_neg (by omega), if_neg (by omega), if_neg]
  intro hpar
  obtain ⟨hpar, hj'⟩ := Bool.and_eq_true_iff.mp hpar
  rw [hpar, Bool.toNat_true] at hj
  exact absurd (of_decide_eq_true hj') (by omega)

theorem xorReduce_character (data : DataType) {n : ℕ} (hn : n ≤ 9)
    (h : c.character data = (data.extractLsb' 0 n).setWidth 9) (b : BitVec 1) :
    xorReduce (data.extractLsb' 0 n ++ b) = xorReduce (c.character data ++ b) := by
  rw [h, xorReduce_append, xorReduce_append, xorReduce_setWidth _ hn]

theorem getLsbD_frame (data : DataType) {j : ℕ} (hj : j < 11) :
    (c.frame data).getLsbD j = c.level (c.character data) j := by
  have hlevel : c.level (c.character data) j =
      if j = 0 then false
      else if j ≤ c.dataBits then data.getLsbD (j - 1)
      else if j = c.dataBits + 1 then
        (if c.paron then xorReduce (c.character data ++ BitVec.ofBool c.parnevenodd) else true)
      else true := by
    split_ifs with h0 hdata hpar hon
    · rw [h0]; rfl
    · exact c.level_character data (by omega) hdata
    · rw [hpar, level_parity, if_pos hon]
    · rw [hpar, level_parity, if_neg hon]
    · exact c.level_stop _ (by cases c.paron <;> simp <;> omega)
  rcases c.dataBits_cases with ⟨h, hn⟩ | ⟨h, h', hn⟩ | ⟨h, h', hn⟩
  · have hch : c.character data = (data.extractLsb' 0 9).setWidth 9 := by
      rw [character, if_pos h, BitVec.setWidth_eq]
    rw [hlevel, frame, if_pos h, hn, ← c.xorReduce_character data (by omega) hch,
      BitVec.getLsbD_append, BitVec.getLsbD_append, BitVec.getLsbD_extractLsb']
    grind
  · have hch : c.character data = (data.extractLsb' 0 7).setWidth 9 := by
      rw [character, if_neg h, if_pos h']
    -- two literal ones fill the buffer
    have hstop : j ≤ 8 ∨ j = 9 ∨ j = 10 := by omega
    rw [hlevel, frame, if_neg h, if_pos h', hn, ← c.xorReduce_character data (by omega) hch,
      BitVec.getLsbD_append, BitVec.getLsbD_append, BitVec.getLsbD_append,
      BitVec.getLsbD_extractLsb']
    grind
  · have hch : c.character data = (data.extractLsb' 0 8).setWidth 9 := by
      rw [character, if_neg h, if_neg h']
    rw [hlevel, frame, if_neg h, if_neg h', hn, ← c.xorReduce_character data (by omega) hch,
      BitVec.getLsbD_append, BitVec.getLsbD_append, BitVec.getLsbD_append,
      BitVec.getLsbD_extractLsb']
    grind

end UartControl

end ThuasRiscv
