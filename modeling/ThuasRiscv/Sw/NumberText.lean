import ThuasRiscv.Numerals
import ThuasRiscv.Sw.LineUpload
import Mathlib.Data.Int.Basic

/-!
# Numbers as text

The functions of the library that print a number on UART1 fill a buffer of their
own from its end and send the string that starts at the last digit written;
`parsehex` reads a hex number back. An index outside of a buffer is undefined.
The negation of the most negative number wraps around, as in the program that is
in the boot ROM.
-/

namespace ThuasRiscv

open SRecord Numerals

namespace NumberText

open Bootloader (isdigit isxdigit tolower)

/-! ## Buffers -/

/-- `buf[i] = c`. -/
def store (buf : List Ascii) (i : ℤ) (c : Ascii) : Option (List Ascii) :=
  if 0 ≤ i ∧ i < buf.length then some (buf.set i.toNat c) else none

/-- `buf + i`: what the buffer has from there on. -/
def pointer (buf : List Ascii) (i : ℤ) : Option (List Ascii) :=
  if 0 ≤ i ∧ i ≤ buf.length then some (buf.drop i.toNat) else none

/-- The characters of a string up to its NUL. -/
def uart1Puts : List Ascii → Option (List Ascii)
  | [] => none
  | c :: s => if c = 0 then some [] else (uart1Puts s).map (c :: ·)

/-! ## Hex numbers -/

def hexChar (v : DataType) : Ascii :=
  let c := (v &&& 0x0f).setWidth 8 + ascii '0'
  if ascii '9' < c then c + (ascii 'a' - ascii '0' - 10) else c

/-- The loop with `k` turns to go, in which `i` counts up to `n`. -/
def printhexFrom (n : ℤ) : ℕ → ℤ → DataType → List Ascii → Option (List Ascii)
  | 0, _, _, buf => some buf
  | k + 1, i, v, buf => do
    let buf ← store buf (n - 1 - i) (hexChar v)
    printhexFrom n k (i + 1) (v >>> 4) buf

/-- The number of digits that are printed. -/
def digitCount (n : ℤ) : ℤ := if n < 1 ∨ 8 < n then 8 else n

def printhex (v : DataType) (n : ℤ) : Option (List Ascii) := do
  let n := digitCount n
  let buf ← printhexFrom n n.toNat 0 v (List.replicate 9 0)
  uart1Puts buf

def isspace (c : Ascii) : Bool := c = ascii ' ' ∨ ascii '\t' ≤ c ∧ c ≤ ascii '\r'

/-- The rest of a string behind its white space, and where it starts. -/
def skipSpace : List Ascii → ℕ → Option (List Ascii × ℕ)
  | [], _ => none
  | c :: cs, s => if isspace c then skipSpace cs (s + 1) else some (c :: cs, s)

def parseDigits : DataType → List Ascii → ℕ → Option (DataType × ℕ)
  | _, [], _ => none
  | v, c :: cs, s =>
    if isxdigit c then
      let v := v <<< 4
      let v := if isdigit c then v ||| (c.setWidth 32 - 0x30)
        else v ||| ((tolower c).setWidth 32 - 0x61 + 10)
      parseDigits v cs (s + 1)
    else some (v, s)

/-- The number at a position of an array of characters, and the position behind it. -/
def parsehex (chars : List Ascii) (s : ℕ) : Option (DataType × ℕ) := do
  let (cs, s) ← skipSpace (chars.drop s) s
  parseDigits 0 cs s

/-! ## Decimal numbers -/

section Decimal

variable {w : ℕ}

theorem toNat_udiv_ten_lt {uv : BitVec w} (h : 0 < uv) : (uv / 10).toNat < uv.toNat := by
  have hten : (10 : BitVec w).toNat ≠ 1 := by
    rw [show (10 : BitVec w) = BitVec.ofNat w 10 from rfl, BitVec.toNat_ofNat]
    match w with
    | 0 | 1 | 2 | 3 => decide
    | w + 4 =>
      have hle : 2 ^ 4 ≤ 2 ^ (w + 4) := Nat.pow_le_pow_right (by decide) (Nat.le_add_left 4 w)
      rw [Nat.mod_eq_of_lt (Nat.lt_of_lt_of_le (by decide) hle)]
      decide
  have hpos : 0 < uv.toNat := h
  rw [BitVec.toNat_udiv]
  rcases Nat.eq_zero_or_pos (10 : BitVec w).toNat with hzero | hten0
  · rw [hzero, Nat.div_zero]
    exact hpos
  · exact Nat.div_lt_self hpos (by omega)

/-- The digits of a number, written in front of position `i`. -/
def printFrom (uv : BitVec w) (i : ℤ) (buf : List Ascii) : Option (List Ascii × ℤ) :=
  if h : 0 < uv then do
    let c := (uv % 10).setWidth 8 + ascii '0'
    let buf ← store buf (i - 1) c
    printFrom (uv / 10) (i - 1) buf
  else some (buf, i)
termination_by uv.toNat
decreasing_by exact toNat_udiv_ten_lt h

/-- The digits of a number in a buffer of `size` characters, the last of which stays NUL. -/
def printDigits (size : ℕ) (uv : BitVec w) : Option (List Ascii) := do
  let (buf, i) ← printFrom uv (size - 1) (List.replicate size 0)
  let s ← pointer buf i
  uart1Puts s

def printUnsigned (size : ℕ) (uv : BitVec w) : Option (List Ascii) :=
  if uv = 0 then some [ascii '0'] else printDigits size uv

def printSigned (size : ℕ) (v : BitVec w) : Option (List Ascii) :=
  if v = 0 then some [ascii '0']
  else if v.slt 0 then (printDigits size (-v)).map (ascii '-' :: ·)
  else printDigits size v

end Decimal

/-- Print decimal number with UART1. -/
def printdec (v : BitVec 32) : Option (List Ascii) := printSigned 12 v

/-- Print signed long long number with UART1. -/
def uart1Printlonglong (v : BitVec 64) : Option (List Ascii) := printSigned 21 v

/-- Print unsigned long long number with UART1. -/
def uart1Printulonglong (uv : BitVec 64) : Option (List Ascii) := printUnsigned 21 uv

/-! ## Buffers that are filled from the end -/

variable {buf cs rest : List Ascii}

theorem store_of_lt {k : ℕ} (h : k < buf.length) (c : Ascii) :
    store buf k c = some (buf.set k c) := by
  have hk : (k : ℤ) < buf.length := Int.ofNat_lt.mpr h
  exact if_pos ⟨Int.natCast_nonneg k, hk⟩

/-- What is stored stands in front of what is behind it. -/
theorem drop_set_self {k : ℕ} (h : k < buf.length) (c : Ascii) :
    (buf.set k c).drop k = c :: buf.drop (k + 1) := by
  have hk : k < (buf.set k c).length := by rwa [List.length_set]
  rw [List.drop_eq_getElem_cons hk, List.getElem_set_self, List.drop_set_of_lt (Nat.lt_succ_self k)]

theorem pointer_append {k : ℕ} (h : buf.length = k) (rest : List Ascii) :
    pointer (buf ++ rest) k = some rest := by
  have hk : (k : ℤ) ≤ (buf ++ rest).length := by
    rw [List.length_append]
    omega
  rw [pointer, if_pos ⟨Int.natCast_nonneg k, hk⟩, Int.toNat_natCast, List.drop_left' h]

theorem uart1Puts_append (h : ∀ c ∈ cs, c ≠ 0) (rest : List Ascii) :
    uart1Puts (cs ++ 0 :: rest) = some cs := by
  induction cs with
  | nil => rfl
  | cons c cs ih =>
    have hcs := ih fun c hc => h c (List.mem_cons_of_mem _ hc)
    rw [List.cons_append, uart1Puts, if_neg (h c List.mem_cons_self), hcs]
    rfl

/-! ## Hex numbers as text -/

/-- The character of a hex digit. -/
def hexDigit (d : ℕ) : Ascii := hexChar (BitVec.ofNat 32 d)

theorem hexChar_eq (v : DataType) : hexChar v = hexDigit (v.toNat % 16) := by
  have hlow : v &&& 0x0f = BitVec.ofNat 32 (v.toNat % 16) &&& 0x0f := by
    apply BitVec.eq_of_toNat_eq
    rw [BitVec.toNat_and, BitVec.toNat_and, BitVec.toNat_ofNat,
      show (0x0f : DataType).toNat = 2 ^ 4 - 1 from rfl, Nat.and_two_pow_sub_one_eq_mod,
      Nat.and_two_pow_sub_one_eq_mod]
    omega
  rw [hexDigit, hexChar, hexChar, hlow]

/-- The loop puts the digits of the number into the buffer. -/
theorem printhexFrom_eq {n : ℤ} {k : ℕ} {i : ℤ} (hi : n - i = k) (v : DataType)
    (h : k ≤ buf.length) :
    printhexFrom n k i v buf = some (fixed hexDigit 16 k v.toNat ++ buf.drop k) := by
  induction k generalizing i v buf with
  | zero => rfl
  | succ k ih =>
    have hindex : n - 1 - i = k := by omega
    have hshift : (v >>> 4).toNat = v.toNat / 16 := by
      rw [BitVec.toNat_ushiftRight, Nat.shiftRight_eq_div_pow]
    have hlength : k ≤ (buf.set k (hexChar v)).length := by
      rw [List.length_set]
      omega
    have hnext := ih (i := i + 1) (by omega) (v >>> 4) hlength
    rw [printhexFrom, hindex, store_of_lt h]
    simp only [Option.bind_eq_bind, Option.bind_some]
    rw [hnext, hshift, drop_set_self h, hexChar_eq, fixed, List.append_assoc]
    rfl

theorem hexDigit_spec : ∀ d < 16, hexDigit d ≠ 0 ∧ isspace (hexDigit d) = false ∧
    isxdigit (hexDigit d) = true ∧ ((hexDigit? (hexDigit d)).getD 0).toNat = d := by
  decide

/-- What is printed: as many digits as are asked for, or eight of them. -/
theorem printhex_eq (v : DataType) (n : ℤ) :
    printhex v n = some (fixed hexDigit 16 (digitCount n).toNat v.toNat) := by
  have hcount : 0 ≤ digitCount n ∧ digitCount n ≤ 8 := by
    rw [digitCount]
    split_ifs <;> omega
  have hloop := printhexFrom_eq (i := 0) (show digitCount n - 0 = (digitCount n).toNat by omega) v
    (show (digitCount n).toNat ≤ (List.replicate 9 (0 : Ascii)).length by
      rw [List.length_replicate]
      omega)
  have hnul : (List.replicate 9 (0 : Ascii)).drop (digitCount n).toNat =
      0 :: List.replicate (8 - (digitCount n).toNat) 0 := by
    rw [List.drop_replicate, show 9 - (digitCount n).toNat = 8 - (digitCount n).toNat + 1 by omega,
      List.replicate_succ]
  rw [hnul] at hloop
  rw [printhex]
  simp only [Option.bind_eq_bind, hloop, Option.bind_some]
  apply uart1Puts_append
  exact forall_mem_fixed (p := fun c => c ≠ 0) (by decide)
    (fun d hd => (hexDigit_spec d hd).1) _ _

/-- The digits up to a NUL are read. -/
theorem parseDigits_append (h : ∀ c ∈ cs, isxdigit c = true) (x s : ℕ) (rest : List Ascii) :
    parseDigits (BitVec.ofNat 32 x) (cs ++ 0 :: rest) s =
      some (BitVec.ofNat 32 (cs.foldl (fun x c => 16 * x + ((hexDigit? c).getD 0).toNat) x),
        s + cs.length) := by
  induction cs generalizing x s with
  | nil => rfl
  | cons c cs ih =>
    have hc := h c List.mem_cons_self
    have hstep := LineUpload.addDigit_ofNat x c
    rw [Bootloader.addDigit, if_pos hc] at hstep
    rw [List.cons_append, parseDigits, if_pos hc]
    dsimp only
    rw [hstep, ih fun c hc => h c (List.mem_cons_of_mem _ hc)]
    rw [List.foldl_cons, List.length_cons, Nat.add_assoc, Nat.add_comm 1]

/-- Hex digits behind other characters are parsed up to their NUL. -/
theorem parsehex_append (hne : cs ≠ []) (hspace : ∀ c ∈ cs, isspace c = false)
    (h : ∀ c ∈ cs, isxdigit c = true) (front rest : List Ascii) :
    parsehex (front ++ (cs ++ 0 :: rest)) front.length =
      some (BitVec.ofNat 32 (LineUpload.number cs), front.length + cs.length) := by
  obtain ⟨c, cs, rfl⟩ := List.exists_cons_of_ne_nil hne
  have hskip : skipSpace ((c :: cs) ++ 0 :: rest) front.length =
      some ((c :: cs) ++ 0 :: rest, front.length) := by
    rw [List.cons_append, skipSpace, hspace c List.mem_cons_self]
    rfl
  have hdigits := parseDigits_append h 0 front.length rest
  rw [parsehex, List.drop_left, hskip]
  exact hdigits

/-- What `printhex` prints with `n` digits, in memory with a NUL behind it, is read back. -/
def RoundTrip (v : DataType) (n : ℕ) : Prop :=
  ∃ chars, printhex v n = some chars ∧ ∀ front rest : List Ascii,
    parsehex (front ++ (chars ++ 0 :: rest)) front.length =
      some (v, (front ++ chars).length)

theorem roundTrip_of_lt {v : DataType} {n : ℕ} (hn : 1 ≤ n) (hn' : n ≤ 8)
    (hv : v.toNat < 16 ^ n) : RoundTrip v n := by
  have hcount : (digitCount n).toNat = n := by
    rw [digitCount, if_neg (by omega), Int.toNat_natCast]
  have hprint := printhex_eq v n
  rw [hcount] at hprint
  have hvalue : LineUpload.number (fixed hexDigit 16 n v.toNat) = v.toNat :=
    value_fixed_of_lt (fun c => ((hexDigit? c).getD 0).toNat) (by decide)
      (fun d hd => (hexDigit_spec d hd).2.2.2) hv
  refine ⟨_, hprint, fun front rest => ?_⟩
  have hlength := length_fixed hexDigit 16 n v.toNat
  have hne : fixed hexDigit 16 n v.toNat ≠ [] := by
    apply List.ne_nil_of_length_pos
    omega
  rw [parsehex_append hne
    (forall_mem_fixed (by decide) (fun d hd => (hexDigit_spec d hd).2.1) _ _)
    (forall_mem_fixed (by decide) (fun d hd => (hexDigit_spec d hd).2.2.1) _ _),
    hvalue, List.length_append, BitVec.ofNat_toNat, BitVec.setWidth_eq]

/-! ## Decimal numbers as text -/

/-- A number in decimal, with a minus sign in front of a negative one. -/
def decimal (z : ℤ) : List Ascii := (toString z).toList.map ascii

/-- The digits of a number, of which zero has none. -/
def digits (u : ℕ) : List Ascii := if u = 0 then [] else (Nat.toDigits 10 u).map ascii

theorem ascii_digitChar : ∀ d < 10, ascii d.digitChar = BitVec.ofNat 8 (d + 48) := by
  decide

/-- The last digit comes first in the loop. -/
theorem digits_of_pos {u : ℕ} (h : 0 < u) :
    digits u = digits (u / 10) ++ [BitVec.ofNat 8 (u % 10 + 48)] := by
  have hlast := ascii_digitChar (u % 10) (Nat.mod_lt u (by decide))
  rw [digits, if_neg h.ne', digits, Nat.toDigits_eq_if (by decide)]
  by_cases hlt : u < 10
  · rw [if_pos hlt, if_pos (Nat.div_eq_of_lt hlt), ← hlast, Nat.mod_eq_of_lt hlt]
    rfl
  · rw [if_neg hlt, if_neg (by omega), List.map_append, ← hlast]
    rfl

theorem digits_ne_zero (u : ℕ) : ∀ c ∈ digits u, c ≠ 0 := by
  induction u using Nat.strongRecOn with
  | ind u ih =>
    rcases Nat.eq_zero_or_pos u with rfl | hpos
    · exact nofun
    · rw [digits_of_pos hpos]
      intro c hc
      rcases List.mem_append.mp hc with hmem | hlast
      · exact ih (u / 10) (Nat.div_lt_self hpos (by decide)) c hmem
      · rw [List.mem_singleton.mp hlast]
        have hdigit : ∀ d < 10, BitVec.ofNat 8 (d + 48) ≠ 0 := by decide
        exact hdigit (u % 10) (Nat.mod_lt u (by decide))

theorem length_digits_le {u k : ℕ} (h : u < 10 ^ k) : (digits u).length ≤ k := by
  induction k generalizing u with
  | zero =>
    rw [Nat.lt_one_iff.mp h]
    exact Nat.le_refl 0
  | succ k ih =>
    rcases Nat.eq_zero_or_pos u with rfl | hpos
    · exact Nat.zero_le (k + 1)
    · have hk : u / 10 < 10 ^ k := by
        rw [Nat.pow_succ] at h
        omega
      rw [digits_of_pos hpos, List.length_append]
      exact Nat.succ_le_succ (ih hk)

theorem decimal_zero : decimal 0 = [ascii '0'] := by
  rfl

theorem decimal_of_pos {z : ℤ} (h : 0 < z) : decimal z = digits z.toNat := by
  have hne : z.toNat ≠ 0 := by omega
  rw [decimal, Int.toString_eq_repr, Int.repr_eq_if, if_pos h.le, Nat.toList_repr, digits,
    if_neg hne]

theorem decimal_of_neg {z : ℤ} (h : z < 0) : decimal z = ascii '-' :: digits (-z).toNat := by
  have hne : (-z).toNat ≠ 0 := by omega
  rw [decimal, Int.toString_eq_repr, Int.repr_eq_if, if_neg (by omega), String.toList_append,
    List.map_append, Nat.toList_repr, digits, if_neg hne]
  rfl

section Decimal

variable {w : ℕ}

/-- The negation that wraps around is the absolute value of every negative number. -/
theorem toNat_neg_of_neg {v : BitVec w} (h : v.toInt < 0) : (-v).toNat = (-v.toInt).toNat := by
  have hle := BitVec.toInt_neg_iff.mp h
  have hlt := v.isLt
  rw [BitVec.toNat_neg, Nat.mod_eq_of_lt (by omega), BitVec.toInt_eq_toNat_cond, if_neg (by omega)]
  omega

theorem toNat_of_not_neg {v : BitVec w} (h : ¬ v.toInt < 0) : v.toNat = v.toInt.toNat := by
  have hlt := BitVec.toInt_neg_iff.not.mp h
  rw [BitVec.toInt_eq_toNat_cond, if_pos (by omega), Int.toNat_natCast]

variable (hw : 4 ≤ w)

include hw

theorem toNat_ten : (10 : BitVec w).toNat = 10 := by
  have hle : 2 ^ 4 ≤ 2 ^ w := Nat.pow_le_pow_right (by decide) hw
  exact Nat.mod_eq_of_lt (Nat.lt_of_lt_of_le (by decide) hle)

/-- The character of the last digit. -/
theorem setWidth_umod_ten (uv : BitVec w) :
    (uv % 10).setWidth 8 + ascii '0' = BitVec.ofNat 8 (uv.toNat % 10 + 48) := by
  apply BitVec.eq_of_toNat_eq
  rw [BitVec.toNat_add, BitVec.toNat_setWidth, BitVec.toNat_umod, toNat_ten hw,
    BitVec.toNat_ofNat, show (ascii '0').toNat = 48 from rfl]
  omega

/-- The loop puts the digits of the number in front of position `i`. -/
theorem printFrom_eq (uv : BitVec w) {i : ℕ} (h : (digits uv.toNat).length ≤ i)
    (hi : i ≤ buf.length) :
    printFrom uv i buf = some (buf.take (i - (digits uv.toNat).length) ++
      (digits uv.toNat ++ buf.drop i), ((i - (digits uv.toNat).length : ℕ) : ℤ)) := by
  induction hu : uv.toNat using Nat.strongRecOn generalizing uv i buf with
  | ind u ih =>
    subst hu
    rw [printFrom]
    by_cases hpos : 0 < uv
    · have hu : 0 < uv.toNat := hpos
      have hdiv : (uv / 10).toNat = uv.toNat / 10 := by
        rw [BitVec.toNat_udiv, toNat_ten hw]
      rw [digits_of_pos hu, List.length_append, List.length_singleton] at h ⊢
      obtain ⟨i, rfl⟩ := Nat.exists_eq_add_of_le' (Nat.le_of_add_left_le h)
      have hlt : (uv / 10).toNat < uv.toNat := toNat_udiv_ten_lt hpos
      have hindex : ((i + 1 : ℕ) : ℤ) - 1 = i := by omega
      have hroom : (digits (uv / 10).toNat).length ≤ i := by
        rw [hdiv]
        exact Nat.le_of_succ_le_succ h
      have hlength : i ≤ (buf.set i (BitVec.ofNat 8 (uv.toNat % 10 + 48))).length := by
        rw [List.length_set]
        exact Nat.le_of_succ_le hi
      -- The character that is stored is the first of what is kept from position `i` on.
      have hnext := ih _ hlt (uv / 10) hroom hlength rfl
      rw [drop_set_self hi, List.take_set_of_le (Nat.sub_le i _), hdiv] at hnext
      rw [dif_pos hpos, setWidth_umod_ten hw, hindex]
      simp only [store_of_lt hi, Option.bind_eq_bind, Option.bind_some]
      rw [hnext, Nat.add_sub_add_right, List.append_assoc, List.singleton_append]
    · have hu : uv.toNat = 0 := by
        have hle : ¬ 0 < uv.toNat := hpos
        omega
      rw [dif_neg hpos, hu]
      simp [digits]

theorem printDigits_eq {m : ℕ} {uv : BitVec w} (h : uv.toNat < 10 ^ m) :
    printDigits (m + 1) uv = some (digits uv.toNat) := by
  have hlength := length_digits_le h
  have hm : m ≤ (List.replicate (m + 1) (0 : Ascii)).length := by
    rw [List.length_replicate]
    exact Nat.le_succ m
  have hloop := printFrom_eq hw uv hlength hm
  have hindex : ((m + 1 : ℕ) : ℤ) - 1 = m := by omega
  have hnul : (List.replicate (m + 1) (0 : Ascii)).drop m = [0] := by
    rw [List.drop_replicate, Nat.add_sub_cancel_left, List.replicate_one]
  have hfront : ((List.replicate (m + 1) (0 : Ascii)).take (m - (digits uv.toNat).length)).length =
      m - (digits uv.toNat).length := by
    rw [List.length_take, List.length_replicate]
    omega
  rw [hnul] at hloop
  rw [printDigits, hindex, hloop]
  simp only [Option.bind_eq_bind, Option.bind_some]
  rw [pointer_append hfront, Option.bind_some]
  exact uart1Puts_append (digits_ne_zero uv.toNat) []

theorem printUnsigned_eq {m : ℕ} (h : 2 ^ w ≤ 10 ^ m) (uv : BitVec w) :
    printUnsigned (m + 1) uv = some (decimal uv.toNat) := by
  rw [printUnsigned]
  by_cases hzero : uv = 0
  · rw [if_pos hzero, hzero, BitVec.ofNat_eq_ofNat, BitVec.toNat_zero, Int.natCast_zero,
      decimal_zero]
  · have hpos : 0 < (uv.toNat : ℤ) := Int.natCast_pos.mpr (BitVec.toNat_pos_of_ne_zero hzero)
    rw [if_neg hzero, printDigits_eq hw (Nat.lt_of_lt_of_le uv.isLt h), decimal_of_pos hpos,
      Int.toNat_natCast]

/-- A signed number is printed, the most negative one included. -/
theorem printSigned_eq {m : ℕ} (h : 2 ^ (w - 1) < 10 ^ m) (v : BitVec w) :
    printSigned (m + 1) v = some (decimal v.toInt) := by
  have hcast : ((2 ^ (w - 1) : ℕ) : ℤ) = 2 ^ (w - 1) := by push_cast; rfl
  rw [printSigned]
  by_cases hzero : v = 0
  · rw [if_pos hzero, hzero, BitVec.ofNat_eq_ofNat, BitVec.toInt_zero, decimal_zero]
  have hslt : v.slt 0 = true ↔ v.toInt < 0 := by
    rw [BitVec.slt_iff_toInt_lt, BitVec.ofNat_eq_ofNat, BitVec.toInt_zero]
  rw [if_neg hzero]
  by_cases hneg : v.toInt < 0
  · have hbound : (-v).toNat < 10 ^ m := by
      have hle := v.le_toInt
      rw [toNat_neg_of_neg hneg]
      omega
    rw [if_pos (hslt.mpr hneg), printDigits_eq hw hbound, toNat_neg_of_neg hneg,
      decimal_of_neg hneg, Option.map_some]
  · have hnat : v.toNat = v.toInt.toNat := toNat_of_not_neg hneg
    have hbound : v.toNat < 10 ^ m := by
      have hlt := v.toInt_lt
      omega
    have hpos := BitVec.toNat_pos_of_ne_zero hzero
    rw [if_neg (hslt.not.mpr hneg), printDigits_eq hw hbound, hnat, decimal_of_pos (by omega)]

end Decimal

theorem printdec_eq (v : BitVec 32) : printdec v = some (decimal v.toInt) :=
  printSigned_eq (by decide) (by decide) v

theorem uart1Printlonglong_eq (v : BitVec 64) :
    uart1Printlonglong v = some (decimal v.toInt) :=
  printSigned_eq (by decide) (by decide) v

theorem uart1Printulonglong_eq (uv : BitVec 64) :
    uart1Printulonglong uv = some (decimal uv.toNat) :=
  printUnsigned_eq (by decide) (by decide) uv

/-- What is printed in hex is read back as the number it was, and a signed number is printed
in decimal, within the buffers. -/
theorem number_conversions (v : DataType) (d : BitVec 32) (l : BitVec 64) :
    (∀ n : ℕ, 1 ≤ n → n ≤ 8 → v.toNat < 16 ^ n → RoundTrip v n) ∧
      printdec d = some (decimal d.toInt) ∧ uart1Printlonglong l = some (decimal l.toInt) :=
  ⟨fun _ hn hn' hv => roundTrip_of_lt hn hn' hv, printdec_eq d, uart1Printlonglong_eq l⟩

/-- Eight digits, and the most negative numbers. -/
theorem number_conversions_limits :
    RoundTrip 0xfedcba98 8 ∧
      printdec (BitVec.intMin 32) = some (decimal (-2147483648)) ∧
      uart1Printlonglong (BitVec.intMin 64) = some (decimal (-9223372036854775808)) := by
  have h := number_conversions 0xfedcba98 (BitVec.intMin 32) (BitVec.intMin 64)
  exact ⟨h.1 8 (by decide) (by decide) (by decide), h.2.1, h.2.2⟩

end NumberText

end ThuasRiscv
