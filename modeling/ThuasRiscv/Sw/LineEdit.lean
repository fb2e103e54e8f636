import Mathlib.Data.Int.Notation
import Mathlib.Data.List.TakeWhile
import Mathlib.Data.Nat.Notation
import Mathlib.Logic.Function.Basic
import Mathlib.Tactic.SplitIfs

/-!
# Line input

`uart1_gets` of the library and `getline` of the bootloader read a line from
UART1 into a buffer, with backspace, delete and control-U. `getline` is the
stripped-down version: it knows no control-C and rings no bell.
-/

namespace ThuasRiscv

namespace LineEdit

/-! ## The two functions -/

/-- The state of the loop. -/
structure Line where
  buffer : ℤ → BitVec 8
  index : ℤ
  /-- The characters that are sent. -/
  output : List (BitVec 8)

/-- What a call returns, with the buffer, the characters that it has sent and those that it has not
read. -/
structure Result where
  length : ℤ
  buffer : ℤ → BitVec 8
  output : List (BitVec 8)
  rest : List (BitVec 8)

/-- A result without the characters that are sent. -/
def Result.line (r : Result) : ℤ × (ℤ → BitVec 8) × List (BitVec 8) := (r.length, r.buffer, r.rest)

def Line.start (buffer : ℤ → BitVec 8) : Line := ⟨buffer, 0, []⟩

namespace Line

variable (s : Line)

def uart1Putc (c : BitVec 8) : Line := { s with output := s.output ++ [c] }

def uart1Puts (text : String) : Line :=
  { s with output := s.output ++ text.toList.map fun c => BitVec.ofNat 8 c.toNat }

/-- Take back the last character. -/
def erase : Line :=
  let s := s.uart1Putc 0x7f
  { s with index := s.index - 1 }

/-- The loop that takes back all characters. -/
def kill (s : Line) : Line := if 0 < s.index then kill s.erase else s
termination_by s.index.toNat
decreasing_by
  change (s.index - 1).toNat < s.index.toNat
  omega

def insert (c : BitVec 8) : Line :=
  let s := { s with buffer := Function.update s.buffer s.index c, index := s.index + 1 }
  s.uart1Putc c

/-- The end of the line. -/
def finish (rest : List (BitVec 8)) : Result where
  length := s.index
  buffer := Function.update s.buffer s.index 0
  output := s.output
  rest := rest

end Line

/-- Line feed or carriage return. -/
def isEnd (c : BitVec 8) : Bool := c = 0x0a || c = 0x0d

/-- Backspace or delete. -/
def isErase (c : BitVec 8) : Bool := c = 0x7f || c = 0x08

def isPrintable (c : BitVec 8) : Bool := 0x1f < c && c < 0x7f

/-- The loop over the characters that UART1 receives; `none` while it waits for more. -/
def readLine (key : Line → BitVec 8 → Line) (s : Line) : List (BitVec 8) → Option Result
  | [] => none
  | c :: rest =>
    if isEnd c then some ((s.uart1Puts "\r\n").finish rest) else readLine key (key s c) rest

/-- A key in `uart1_gets`. -/
def getsKey (size : ℤ) (s : Line) (chr : BitVec 8) : Line :=
  if isErase chr then if 0 < s.index then s.erase else s.uart1Putc 0x07
  else if chr = 21 then s.kill
  else if chr = 0x03 then { s.uart1Puts "<break>\r\n" with index := 0 }
  else if s.index < size - 1 then if isPrintable chr then s.insert chr else s
  else s.uart1Putc 0x07

def uart1Gets (buffer : ℤ → BitVec 8) (size : ℤ) : List (BitVec 8) → Option Result :=
  readLine (getsKey size) (.start buffer)

/-- A key in `getline`. -/
def getlineKey (size : ℤ) (s : Line) (c : BitVec 8) : Line :=
  let maxlen := size - 1
  if isErase c then if 0 < s.index then s.erase else s
  else if c = 21 then s.kill
  else if s.index < maxlen then if isPrintable c then s.insert c else s
  else s

def getline (buffer : ℤ → BitVec 8) (size : ℤ) : List (BitVec 8) → Option Result :=
  readLine (getlineKey size) (.start buffer)

/-! ## The reference -/

/-- One key in the editing of a line of at most `limit` characters; `breaks` if control-C starts the
line over. -/
def edit (limit : ℕ) (breaks : Bool) (chars : List (BitVec 8)) (c : BitVec 8) : List (BitVec 8) :=
  if isErase c then chars.dropLast
  else if c = 21 then []
  else if c = 0x03 && breaks then []
  else if isPrintable c && chars.length < limit then chars ++ [c]
  else chars

/-- The line up to the first line feed or carriage return, and the characters behind it. -/
def editLine (limit : ℕ) (breaks : Bool) (stream : List (BitVec 8)) :
    Option (List (BitVec 8) × List (BitVec 8)) :=
  match stream.dropWhile fun c => !isEnd c with
  | [] => none
  | _ :: rest => some ((stream.takeWhile fun c => !isEnd c).foldl (edit limit breaks) [], rest)

/-- The bytes outside of the buffer are those of `memory`. -/
def Within (size : ℤ) (memory buffer : ℤ → BitVec 8) : Prop :=
  ∀ k, k < 0 ∨ size ≤ k → buffer k = memory k

/-- A result holds the line as a string that ends with a NUL. -/
structure Returns (size : ℤ) (memory : ℤ → BitVec 8) (chars rest : List (BitVec 8)) (r : Result) :
    Prop where
  length : r.length = chars.length
  contents : ∀ (k : ℕ) (h : k < chars.length), r.buffer k = chars[k]
  terminated : r.buffer chars.length = 0
  noNul : ∀ c ∈ chars, c ≠ 0
  fits : (chars.length : ℤ) ≤ size - 1
  within : Within size memory r.buffer
  rest : r.rest = rest

/-- A function returns the edited line as soon as there is one. -/
def Edits (size : ℤ) (memory : ℤ → BitVec 8) (breaks : Bool)
    (f : List (BitVec 8) → Option Result) : Prop :=
  ∀ stream, match editLine (size - 1).toNat breaks stream with
    | none => f stream = none
    | some (chars, rest) => ∃ r, f stream = some r ∧ Returns size memory chars rest r

/-! ## The line in the buffer -/

/-- The loop holds a line. -/
structure Holds (size : ℤ) (memory : ℤ → BitVec 8) (s : Line) (chars : List (BitVec 8)) : Prop where
  index : s.index = chars.length
  contents : ∀ (k : ℕ) (h : k < chars.length), s.buffer k = chars[k]
  printable : ∀ c ∈ chars, isPrintable c = true
  fits : (chars.length : ℤ) ≤ size - 1
  within : Within size memory s.buffer

variable {size : ℤ} {memory : ℤ → BitVec 8} {s : Line} {chars : List (BitVec 8)}

theorem Holds.start (hsize : 1 ≤ size) (memory : ℤ → BitVec 8) :
    Holds size memory (.start memory) [] where
  index := rfl
  contents k h := absurd h (Nat.not_lt_zero k)
  printable c h := by cases h
  fits := by simpa using hsize
  within k _ := rfl

theorem Holds.output (h : Holds size memory s chars) (output : List (BitVec 8)) :
    Holds size memory { s with output } chars :=
  ⟨h.index, h.contents, h.printable, h.fits, h.within⟩

theorem Holds.empty (h : Holds size memory s chars) (output : List (BitVec 8)) :
    Holds size memory ⟨s.buffer, 0, output⟩ [] where
  index := rfl
  contents k h := absurd h (Nat.not_lt_zero k)
  printable c h := by cases h
  fits := by
    have hfits := h.fits
    simp only [List.length_nil]
    omega
  within := h.within

theorem Holds.erase (h : Holds size memory s chars) (hpos : 0 < s.index) :
    Holds size memory s.erase chars.dropLast where
  index := by
    have hindex := h.index
    rw [List.length_dropLast]
    change s.index - 1 = _
    omega
  contents k hk := by
    rw [List.getElem_dropLast]
    exact h.contents k _
  printable c hc := h.printable c (List.dropLast_subset chars hc)
  fits := by
    have hfits := h.fits
    rw [List.length_dropLast]
    omega
  within := h.within

theorem kill_eq (hindex : 0 ≤ s.index) : ∃ output, s.kill = ⟨s.buffer, 0, output⟩ := by
  induction s using Line.kill.induct with
  | case1 s hpos ih =>
    rw [Line.kill, if_pos hpos]
    have hnext : 0 ≤ s.erase.index := by
      change 0 ≤ s.index - 1
      omega
    exact ih hnext
  | case2 s hzero =>
    rw [Line.kill, if_neg hzero]
    have hindex' : s.index = 0 := by omega
    exact ⟨s.output, by rw [← hindex']⟩

theorem Holds.kill (h : Holds size memory s chars) : Holds size memory s.kill [] := by
  have hindex : 0 ≤ s.index := by
    rw [h.index]
    omega
  obtain ⟨output, hkill⟩ := kill_eq hindex
  rw [hkill]
  exact h.empty output

theorem Holds.insert (h : Holds size memory s chars) {c : BitVec 8} (hc : isPrintable c = true)
    (hroom : s.index < size - 1) : Holds size memory (s.insert c) (chars ++ [c]) where
  index := by
    have hindex := h.index
    rw [List.length_append, List.length_singleton]
    change s.index + 1 = _
    omega
  contents k hk := by
    have hindex := h.index
    change Function.update s.buffer s.index c k = _
    rw [List.length_append, List.length_singleton] at hk
    rcases Nat.lt_or_ge k chars.length with hlt | hge
    · rw [Function.update_of_ne (by omega), h.contents k hlt, List.getElem_append_left hlt]
    · have hk' : k = chars.length := by omega
      subst hk'
      rw [← hindex, Function.update_self, List.getElem_append_right le_rfl]
      simp
  printable d hd := by
    rcases List.mem_append.mp hd with hmem | hmem
    · exact h.printable d hmem
    · rwa [List.mem_singleton.mp hmem]
  fits := by
    have hindex := h.index
    rw [List.length_append, List.length_singleton]
    omega
  within k hk := by
    have hindex := h.index
    change Function.update s.buffer s.index c k = _
    rw [Function.update_of_ne (by omega)]
    exact h.within k hk

/-! ## One key -/

theorem Holds.erased (h : Holds size memory s chars) {t : Line} (ht : Holds size memory t chars) :
    Holds size memory (if 0 < s.index then s.erase else t) chars.dropLast := by
  split_ifs with hpos
  · exact h.erase hpos
  · have hindex := h.index
    have hnil : chars = [] := List.eq_nil_of_length_eq_zero (by omega)
    rw [hnil] at ht ⊢
    exact ht

theorem Holds.typed (h : Holds size memory s chars) {t : Line} (ht : Holds size memory t chars)
    (c : BitVec 8) :
    Holds size memory
      (if s.index < size - 1 then if isPrintable c then s.insert c else s else t)
      (if isPrintable c && chars.length < (size - 1).toNat then chars ++ [c] else chars) := by
  have hindex := h.index
  have hroom : s.index < size - 1 ↔ chars.length < (size - 1).toNat := by omega
  cases hc : isPrintable c with
  | false =>
    simp only [Bool.false_and, Bool.false_eq_true, if_false]
    split_ifs
    · exact h
    · exact ht
  | true =>
    simp only [Bool.true_and, if_true, decide_eq_true_eq, ← hroom]
    split_ifs with hlt
    · exact h.insert hc hlt
    · exact ht

theorem Holds.getsKey (h : Holds size memory s chars) (c : BitVec 8) :
    Holds size memory (getsKey size s c) (edit (size - 1).toNat true chars c) := by
  rw [LineEdit.getsKey, edit]
  by_cases herase : isErase c = true
  · rw [if_pos herase, if_pos herase]
    exact h.erased (h.output _)
  rw [if_neg herase, if_neg herase]
  by_cases hkill : c = 21
  · rw [if_pos hkill, if_pos hkill]
    exact h.kill
  rw [if_neg hkill, if_neg hkill]
  by_cases hbreak : c = 0x03
  · rw [if_pos hbreak, if_pos (by simp [hbreak])]
    exact h.empty _
  · have hbreak' : ¬ (decide (c = 0x03) && true) = true := by simpa using hbreak
    rw [if_neg hbreak, if_neg hbreak']
    exact h.typed (h.output _) c

theorem Holds.getlineKey (h : Holds size memory s chars) (c : BitVec 8) :
    Holds size memory (getlineKey size s c) (edit (size - 1).toNat false chars c) := by
  rw [LineEdit.getlineKey, edit]
  by_cases herase : isErase c = true
  · rw [if_pos herase, if_pos herase]
    exact h.erased h
  rw [if_neg herase, if_neg herase]
  by_cases hkill : c = 21
  · rw [if_pos hkill, if_pos hkill]
    exact h.kill
  · have hbreak : ¬ (decide (c = 0x03) && false) = true := by simp
    rw [if_neg hkill, if_neg hkill, if_neg hbreak]
    exact h.typed h c

/-! ## The loop -/

theorem Holds.finish (h : Holds size memory s chars) (rest : List (BitVec 8)) :
    Returns size memory chars rest (s.finish rest) where
  length := h.index
  contents k hk := by
    have hindex := h.index
    change Function.update s.buffer s.index 0 k = _
    rw [Function.update_of_ne (by omega)]
    exact h.contents k hk
  terminated := by
    change Function.update s.buffer s.index 0 chars.length = 0
    rw [h.index, Function.update_self]
  noNul c hc := by
    rintro rfl
    have hprintable := h.printable 0 hc
    revert hprintable
    decide
  fits := h.fits
  within k hk := by
    have hindex := h.index
    have hfits := h.fits
    change Function.update s.buffer s.index 0 k = _
    rw [Function.update_of_ne (by omega)]
    exact h.within k hk
  rest := rfl

section Loop

variable {key : Line → BitVec 8 → Line} {breaks : Bool}
  (hkey : ∀ s chars c, Holds size memory s chars →
    Holds size memory (key s c) (edit (size - 1).toNat breaks chars c))

include hkey

theorem readLine_spec (stream : List (BitVec 8)) (h : Holds size memory s chars) :
    match stream.dropWhile fun c => !isEnd c with
    | [] => readLine key s stream = none
    | _ :: rest => ∃ r, readLine key s stream = some r ∧ Returns size memory
        ((stream.takeWhile fun c => !isEnd c).foldl (edit (size - 1).toNat breaks) chars) rest r := by
  induction stream generalizing s chars with
  | nil => rfl
  | cons c stream ih =>
    cases hend : isEnd c with
    | true =>
      simp only [List.dropWhile_cons, List.takeWhile_cons, hend, readLine]
      exact ⟨_, rfl, (h.output _).finish stream⟩
    | false =>
      have hnext := ih (hkey s chars c h)
      simp only [List.dropWhile_cons, List.takeWhile_cons, hend, readLine, Bool.not_false, if_true,
        List.foldl_cons, Bool.false_eq_true, if_false]
      exact hnext

theorem edits_readLine (hsize : 1 ≤ size) :
    Edits size memory breaks (readLine key (.start memory)) := by
  intro stream
  have hspec := readLine_spec hkey stream (Holds.start hsize memory)
  rw [editLine]
  split at hspec <;> simp_all

theorem holds_foldl (keys : List (BitVec 8)) (h : Holds size memory s chars) :
    Holds size memory (keys.foldl key s) (keys.foldl (edit (size - 1).toNat breaks) chars) := by
  induction keys generalizing s chars with
  | nil => exact h
  | cons c keys ih => exact ih (hkey s chars c h)

/-- No byte outside of the buffer is written, also while the loop waits for more. -/
theorem within_foldl (hsize : 1 ≤ size) (keys : List (BitVec 8)) :
    Within size memory (keys.foldl key (.start memory)).buffer :=
  (holds_foldl hkey keys (Holds.start hsize memory)).within

end Loop

/-! ## The two copies -/

/-- The same line in the same buffer; the copies may have sent different characters. -/
def Same (s t : Line) : Prop := s.index = t.index ∧ s.buffer = t.buffer

theorem Same.erase {s t : Line} (h : Same s t) : Same s.erase t.erase := by
  obtain ⟨hindex, hbuffer⟩ := h
  exact ⟨congrArg (· - 1) hindex, hbuffer⟩

theorem Same.insert {s t : Line} (h : Same s t) (c : BitVec 8) :
    Same (s.insert c) (t.insert c) := by
  obtain ⟨hindex, hbuffer⟩ := h
  constructor
  · exact congrArg (· + 1) hindex
  · simp only [Line.insert, Line.uart1Putc, hindex, hbuffer]

theorem Same.kill {s t : Line} (h : Same s t) : Same s.kill t.kill := by
  induction s using Line.kill.induct generalizing t with
  | case1 s hpos ih =>
    rw [Line.kill, if_pos hpos, Line.kill.eq_def t, if_pos (h.1 ▸ hpos)]
    exact ih h.erase
  | case2 s hzero =>
    rw [Line.kill, if_neg hzero, Line.kill.eq_def t, if_neg (h.1 ▸ hzero)]
    exact h

theorem Same.key {s t : Line} (h : Same s t) {c : BitVec 8} (hc : c ≠ 0x03) :
    Same (getsKey size s c) (getlineKey size t c) := by
  rw [getsKey, getlineKey, if_neg hc, ← h.1]
  split_ifs
  · exact h.erase
  · exact h
  · exact h.kill
  · exact h.insert c
  · exact h
  · exact h

theorem readLine_same {s t : Line} (h : Same s t) {stream : List (BitVec 8)}
    (hstream : 0x03 ∉ stream) :
    (readLine (getsKey size) s stream).map Result.line =
      (readLine (getlineKey size) t stream).map Result.line := by
  induction stream generalizing s t with
  | nil => rfl
  | cons c stream ih =>
    have hc : c ≠ 0x03 := fun hc => hstream (hc ▸ List.mem_cons_self)
    have hkey : Same (getsKey size s c) (getlineKey size t c) := h.key hc
    have hnext := ih hkey fun hmem => hstream (List.mem_cons_of_mem c hmem)
    obtain ⟨hindex, hbuffer⟩ := h
    rw [readLine, readLine]
    split_ifs
    · simp only [Option.map_some, Result.line, Line.finish, Line.uart1Puts, hindex, hbuffer]
    · exact hnext

/-- Both functions return the edited line, write to the buffer only, and agree without control-C. -/
theorem line_editing {size : ℤ} (hsize : 1 ≤ size) (memory : ℤ → BitVec 8) :
    Edits size memory true (uart1Gets memory size) ∧
    Edits size memory false (getline memory size) ∧
    (∀ keys : List (BitVec 8),
      Within size memory (keys.foldl (getsKey size) (.start memory)).buffer ∧
      Within size memory (keys.foldl (getlineKey size) (.start memory)).buffer) ∧
    ∀ stream : List (BitVec 8), 0x03 ∉ stream →
      (uart1Gets memory size stream).map Result.line =
        (getline memory size stream).map Result.line := by
  have hgets : ∀ s chars c, Holds size memory s chars →
      Holds size memory (getsKey size s c) (edit (size - 1).toNat true chars c) :=
    fun s chars c h => h.getsKey c
  have hgetline : ∀ s chars c, Holds size memory s chars →
      Holds size memory (getlineKey size s c) (edit (size - 1).toNat false chars c) :=
    fun s chars c h => h.getlineKey c
  refine ⟨edits_readLine hgets hsize, edits_readLine hgetline hsize, fun keys => ?_, ?_⟩
  · exact ⟨within_foldl hgets hsize keys, within_foldl hgetline hsize keys⟩
  · intro stream hstream
    exact readLine_same ⟨rfl, rfl⟩ hstream

/-- In a buffer of four: `ab`, a backspace, `cde`, and the end of the line. -/
theorem fourth_character_is_refused :
    ∃ r, uart1Gets (fun _ => 0xff) 4 [97, 98, 8, 99, 100, 101, 13, 10] = some r ∧
      Returns 4 (fun _ => 0xff) [97, 99, 100] [10] r := by
  have hline : editLine (4 - 1 : ℤ).toNat true [97, 98, 8, 99, 100, 101, 13, 10] =
      some ([97, 99, 100], [10]) := by decide
  have h := (line_editing (show (1 : ℤ) ≤ 4 by decide) fun _ => 0xff).1
    [97, 98, 8, 99, 100, 101, 13, 10]
  rwa [hline] at h

end LineEdit

end ThuasRiscv
