import ThuasRiscv.Sw.Bootloader

/-!
# Upload of lines with any count

The upload loop of the bootloader over any memory that answers loads and stores
of words: the bytes at all addresses of the program, or a memory behind the
address decoder. The lines are those of S-records up to what the count says. It
is an unsigned number from which the bytes of address and checksum are taken off
without a check, and the loop reads as many digits as it says, past the end of
the line if need be.
-/

namespace ThuasRiscv

open SRecord ByteStore

namespace LineUpload

open Bootloader (addDigit patch Upload)

/-! ## The program -/

/-- How a memory answers loads and stores of words. -/
structure Storage (σ : Type) where
  loadWord : DataType → σ → DataType × σ
  storeWord : DataType → DataType → σ → σ

/-- The memory, the start address of the application and the characters that are still to come. -/
structure State (σ : Type) where
  mem : σ
  appStart : DataType
  input : List Ascii

/-- A program that may wait for a character. -/
abbrev Program (σ : Type) := EStateM Unit (State σ)

section Program

variable {σ : Type} (st : Storage σ)

def uart1Getc : Program σ Ascii := fun s =>
  match s.input with
  | [] => .error () s
  | c :: cs => .ok c { s with input := cs }

def gethexFrom : ℕ → DataType → Program σ DataType
  | 0, v => pure v
  | k + 1, v => do
    let c ← uart1Getc
    gethexFrom k (addDigit (v <<< 4) c)

/-- A hex number of `k` characters. -/
def gethex (k : ℕ) : Program σ DataType := gethexFrom k 0

/-- Read in the rest of a line. -/
def skipLine : Program σ Unit := fun s =>
  match s.input.dropWhile (· ≠ ascii '\n') with
  | [] => .error () { s with input := [] }
  | _ :: rest => .ok () { s with input := rest }

/-- Get the word, patch the byte and write back the word. -/
def storeByte (v byte : DataType) (mem : σ) : σ :=
  let boun := v &&& ~~~3
  let (word, mem) := st.loadWord boun mem
  st.storeWord boun (patch v byte word) mem

/-- Process bytes. -/
def storeBytes : ℕ → DataType → Program σ Unit
  | 0, _ => pure ()
  | k + 1, v => do
    let byte ← gethex 2
    modify fun s => { s with mem := storeByte st v byte s.mem }
    storeBytes k (v + 1)

/-- A data record: the count is decreased by the bytes of address and checksum. -/
def dataRecord (overhead : DataType) (digits : ℕ) : Program σ Unit := do
  let count ← gethex 2
  let v ← gethex digits
  storeBytes st (count - overhead).toNat v
  skipLine

/-- An end record with the start address of the application. -/
def endRecord (digits : ℕ) : Program σ Unit := do
  let _ ← gethex 2
  let v ← gethex digits
  skipLine
  modify fun s => { s with appStart := v }

/-- A record, after its `S`. -/
def record : Program σ Unit := do
  let c ← uart1Getc
  if c = ascii '1' then dataRecord st 3 4
  else if c = ascii '2' then dataRecord st 4 6
  else if c = ascii '3' then dataRecord st 5 8
  else if c = ascii '7' then endRecord 8
  else if c = ascii '8' then endRecord 6
  else if c = ascii '9' then endRecord 4
  else skipLine

/-- One turn of the upload loop. -/
def turn : Program σ Upload := do
  let c ← uart1Getc
  if c = ascii 'S' then
    record st
    pure .uploading
  else if c = ascii 'J' then pure .application
  else if c = ascii '#' then pure .monitor
  else pure .uploading

/-- The state after `k` turns, if the upload goes on in all of them. -/
def turns : ℕ → State σ → Option (State σ)
  | 0, s => some s
  | k + 1, s =>
    match turn st s with
    | .ok .uploading s => turns k s
    | _ => none

end Program

/-- The memory of the program: bytes at all addresses, words with the lowest byte first. -/
def flat : Storage (ByteStore 32) where
  loadWord a mem := (read32 mem a, mem)
  storeWord a data mem := mem.write ⟨a, bytesOf data 4⟩

/-! ## Lines -/

/-- The number that characters spell; other characters than hex digits count as zero. -/
def number (cs : List Ascii) : ℕ :=
  cs.foldl (fun x c => 16 * x + ((hexDigit? c).getD 0).toNat) 0

/-- The bytes that characters spell, two for a byte. -/
def bytesAt (k : ℕ) (cs : List Ascii) : List (BitVec 8) :=
  (List.range k).map fun j => BitVec.ofNat 8 (number ((cs.drop (2 * j)).take 2))

/-- The types of the records. -/
inductive LineType where
  | data (type : DataRecordType)
  | other (type : OtherRecordType)

def LineType.char : LineType → Ascii
  | .data type => type.char
  | .other type => type.char

/-- A record on a line of its own. -/
structure Line where
  type : LineType
  text : List Ascii
  no_newline : ascii '\n' ∉ text

namespace Line

variable (line : Line)

def chars : List Ascii := ascii 'S' :: line.type.char :: (line.text ++ [ascii '\n'])

/-- The byte count field. -/
def count : ℕ := number (line.text.take 2)

/-- The bytes of the address and of the checksum. -/
def overhead (type : DataRecordType) : ℕ := type.addressLength + 1

def address (digits : ℕ) : DataType := BitVec.ofNat 32 (number ((line.text.drop 2).take digits))

/-- The bytes of the data, as many as the count says; none if it is too small. -/
def data (type : DataRecordType) : List (BitVec 8) :=
  bytesAt (line.count - overhead type) (line.text.drop (2 + 2 * type.addressLength))

/-- What a line writes. -/
def writes : List (Write 32) :=
  match line.type with
  | .data type => [⟨line.address (2 * type.addressLength), line.data type⟩]
  | .other _ => []

/-- The start address of the application behind a line. -/
def appStart (start : DataType) : DataType :=
  match line.type with
  | .data _ => start
  | .other type => (type.startDigits.map line.address).getD start

/-- The count is not below the bytes of address and checksum, and the digits of the line are
those that are counted. -/
def Complete : Prop :=
  match line.type with
  | .data type => overhead type ≤ line.count ∧
      2 + 2 * type.addressLength + 2 * (line.count - overhead type) ≤ line.text.length
  | .other type => ∀ k, type.startDigits = some k → 2 + k ≤ line.text.length

end Line

/-- The text of some lines. -/
def textOf (lines : List Line) : List Ascii := lines.flatMap Line.chars

/-- After a line the memory has its data, nothing else has changed, and the next record is read. -/
def Loads (line : Line) (mem : ByteStore 32) (start : DataType) (rest : List Ascii) : Prop :=
  turn flat ⟨mem, start, line.chars ++ rest⟩ =
    .ok .uploading ⟨mem.after line.writes, line.appStart start, rest⟩

/-! ## Characters -/

section Characters

variable {σ : Type} {st : Storage σ} {mem : σ} {start : DataType} {cs rest : List Ascii}

theorem bind_ok {α β : Type} {x : Program σ α} {f : α → Program σ β} {s s' : State σ} {a : α}
    (h : x s = .ok a s') : (x >>= f) s = f a s' := by
  change EStateM.bind x f s = _
  rw [EStateM.bind, h]

theorem bind_error {α β : Type} {x : Program σ α} {f : α → Program σ β} {s s' : State σ}
    (h : x s = .error () s') : (x >>= f) s = .error () s' := by
  change EStateM.bind x f s = _
  rw [EStateM.bind, h]

theorem addDigit_ofNat (x : ℕ) (c : Ascii) : addDigit (BitVec.ofNat 32 x <<< 4) c =
    BitVec.ofNat 32 (16 * x + ((hexDigit? c).getD 0).toNat) := by
  have hnone : ∀ c : Ascii, hexDigit? c = none →
      Bootloader.isdigit c = false ∧ Bootloader.isxdigit c = false := by decide +kernel
  have hor : addDigit (BitVec.ofNat 32 x <<< 4) c =
      BitVec.ofNat 32 x <<< 4 ||| ((hexDigit? c).getD 0).setWidth 32 := by
    cases h : hexDigit? c with
    | none =>
      obtain ⟨hdigit, hxdigit⟩ := hnone c h
      rw [addDigit, hdigit, hxdigit]
      exact BitVec.or_zero.symm
    | some d => exact Bootloader.addDigit_eq h _
  generalize (hexDigit? c).getD 0 = d at hor ⊢
  have hd := d.isLt
  rw [hor]
  apply BitVec.eq_of_toNat_eq
  rw [BitVec.toNat_or, BitVec.toNat_shiftLeft, Nat.shiftLeft_eq, BitVec.toNat_ofNat,
    BitVec.toNat_setWidth, BitVec.toNat_ofNat, Nat.mod_eq_of_lt (hd.trans (by decide))]
  have hhigh : x % 2 ^ 32 * 2 ^ 4 % 2 ^ 32 = 2 ^ 4 * (x % 2 ^ 28) := by omega
  rw [hhigh, ← Nat.two_pow_add_eq_or_of_lt hd]
  omega

theorem gethexFrom_append (cs : List Ascii) (x : ℕ) :
    gethexFrom cs.length (BitVec.ofNat 32 x) ⟨mem, start, cs ++ rest⟩ =
      .ok (BitVec.ofNat 32 (cs.foldl (fun x c => 16 * x + ((hexDigit? c).getD 0).toNat) x))
        ⟨mem, start, rest⟩ := by
  induction cs generalizing x with
  | nil => rfl
  | cons c cs ih =>
    change gethexFrom cs.length (addDigit (BitVec.ofNat 32 x <<< 4) c)
      ⟨mem, start, cs ++ rest⟩ = _
    rw [addDigit_ofNat, ih]
    rfl

theorem gethex_eq {k : ℕ} (h : k ≤ cs.length) : gethex k ⟨mem, start, cs⟩ =
    .ok (BitVec.ofNat 32 (number (cs.take k))) ⟨mem, start, cs.drop k⟩ := by
  have happend : gethexFrom (cs.take k).length 0 ⟨mem, start, cs.take k ++ cs.drop k⟩ =
      .ok (BitVec.ofNat 32 (number (cs.take k))) ⟨mem, start, cs.drop k⟩ :=
    gethexFrom_append (cs.take k) 0
  rw [List.take_append_drop, List.length_take, Nat.min_eq_left h] at happend
  exact happend

theorem gethexFrom_error {k : ℕ} (h : cs.length < k) (v : DataType) :
    gethexFrom k v ⟨mem, start, cs⟩ = .error () ⟨mem, start, []⟩ := by
  induction k generalizing cs v with
  | zero => exact absurd h (Nat.not_lt_zero _)
  | succ k ih =>
    cases cs with
    | nil => rfl
    | cons c cs => exact ih (Nat.lt_of_succ_lt_succ h) _

theorem gethex_error {k : ℕ} (h : cs.length < k) :
    gethex k ⟨mem, start, cs⟩ = .error () ⟨mem, start, []⟩ := gethexFrom_error h 0

theorem number_lt (cs : List Ascii) : number cs < 16 ^ cs.length :=
  Numerals.value_lt fun c _ => ((hexDigit? c).getD 0).isLt

theorem skipLine_eq {body : List Ascii} (h : ascii '\n' ∉ body) :
    skipLine ⟨mem, start, body ++ ascii '\n' :: rest⟩ = .ok () ⟨mem, start, rest⟩ := by
  rw [skipLine, Bootloader.dropWhile_newline h rest]

/-- The rest of a line has at least its newline. -/
theorem length_of_skipLine {s s' : State σ} (h : skipLine s = .ok () s') :
    s'.input.length < s.input.length := by
  have hle := (List.dropWhile_suffix (· ≠ ascii '\n') (l := s.input)).length_le
  rw [skipLine] at h
  split at h
  · cases h
  · next hdrop =>
    rw [hdrop, List.length_cons] at hle
    cases h
    exact hle

/-! ## Records -/

/-- The memory after some bytes at consecutive addresses. -/
def storeAll (st : Storage σ) : DataType → List (BitVec 8) → σ → σ
  | _, [], mem => mem
  | v, u :: us, mem => storeAll st (v + 1) us (storeByte st v (u.setWidth 32) mem)

theorem bytesAt_succ (k : ℕ) (cs : List Ascii) : bytesAt (k + 1) cs =
    BitVec.ofNat 8 (number (cs.take 2)) :: bytesAt k (cs.drop 2) := by
  have hnext : ∀ j, (cs.drop 2).drop (2 * j) = cs.drop (2 * (j + 1)) := by
    intro j
    rw [List.drop_drop, Nat.mul_succ, Nat.add_comm]
  rw [bytesAt, bytesAt, List.range_succ_eq_map, List.map_cons, List.map_map]
  simp only [hnext]
  rfl

theorem bytesAt_append {k : ℕ} (h : 2 * k ≤ cs.length) :
    bytesAt k (cs ++ rest) = bytesAt k cs := by
  apply List.map_congr_left
  intro j hj
  have hlt := List.mem_range.mp hj
  rw [List.drop_append_of_le_length (by omega), List.take_append_of_le_length]
  rw [List.length_drop]
  omega

theorem gethex_byte (h : 2 ≤ cs.length) : gethex 2 ⟨mem, start, cs⟩ =
    .ok ((BitVec.ofNat 8 (number (cs.take 2))).setWidth 32) ⟨mem, start, cs.drop 2⟩ := by
  have hlt : number (cs.take 2) < 2 ^ 8 := by
    have hdigits := number_lt (cs.take 2)
    rw [List.length_take, Nat.min_eq_left h] at hdigits
    exact hdigits
  have hbyte : BitVec.ofNat 32 (number (cs.take 2)) =
      (BitVec.ofNat 8 (number (cs.take 2))).setWidth 32 := by
    apply BitVec.eq_of_toNat_eq
    rw [BitVec.toNat_setWidth, BitVec.toNat_ofNat, BitVec.toNat_ofNat, Nat.mod_eq_of_lt hlt]
  rw [gethex_eq h, hbyte]

theorem storeBytes_eq {k : ℕ} (h : 2 * k ≤ cs.length) (v : DataType) :
    storeBytes st k v ⟨mem, start, cs⟩ =
      .ok () ⟨storeAll st v (bytesAt k cs) mem, start, cs.drop (2 * k)⟩ := by
  induction k generalizing mem cs v with
  | zero => rfl
  | succ k ih =>
    have hrest : 2 * k ≤ (cs.drop 2).length := by
      rw [List.length_drop]
      omega
    rw [storeBytes, bind_ok (gethex_byte (by omega)), bytesAt_succ]
    refine (ih hrest (v + 1)).trans ?_
    rw [List.drop_drop, Nat.mul_succ, Nat.add_comm 2]
    rfl

variable (st mem start) in
/-- The loop waits for more bytes when it has written those that have come. -/
theorem storeBytes_error {k : ℕ} (h : cs.length < 2 * k) (v : DataType) :
    storeBytes st k v ⟨mem, start, cs⟩ =
      .error () ⟨storeAll st v (bytesAt (cs.length / 2) cs) mem, start, []⟩ := by
  induction k generalizing mem cs v with
  | zero => exact absurd h (Nat.not_lt_zero _)
  | succ k ih =>
    rw [storeBytes]
    rcases Nat.lt_or_ge cs.length 2 with hlt | hge
    · rw [bind_error (gethex_error hlt), Nat.div_eq_of_lt hlt]
      rfl
    · have hrest : (cs.drop 2).length < 2 * k := by
        rw [List.length_drop]
        omega
      have hhalf : cs.length / 2 = (cs.drop 2).length / 2 + 1 := by
        rw [List.length_drop]
        omega
      rw [bind_ok (gethex_byte hge), hhalf, bytesAt_succ]
      exact ih _ hrest (v + 1)

/-- The number of bytes that a data record stores: an unsigned number. -/
def stored (type : DataRecordType) (cs : List Ascii) : ℕ :=
  (BitVec.ofNat 32 (number (cs.take 2)) - BitVec.ofNat 32 (Line.overhead type)).toNat

variable (st mem start rest) in
/-- A data record with all digits that it reads. -/
theorem dataRecord_eq (type : DataRecordType)
    (h : 2 + 2 * type.addressLength + 2 * stored type cs ≤ cs.length)
    (hno : ascii '\n' ∉ cs) :
    dataRecord st (BitVec.ofNat 32 (Line.overhead type)) (2 * type.addressLength)
        ⟨mem, start, cs ++ ascii '\n' :: rest⟩ =
      .ok () ⟨storeAll st (BitVec.ofNat 32 (number ((cs.drop 2).take (2 * type.addressLength))))
        (bytesAt (stored type cs) (cs.drop (2 + 2 * type.addressLength))) mem, start, rest⟩ := by
  have hcount : 2 ≤ (cs ++ ascii '\n' :: rest).length := by
    rw [List.length_append]
    omega
  have haddress : 2 * type.addressLength ≤ (cs.drop 2).length := by
    rw [List.length_drop]
    omega
  have hbytes : 2 * stored type cs ≤ (cs.drop (2 + 2 * type.addressLength)).length := by
    rw [List.length_drop]
    omega
  rw [dataRecord, bind_ok (gethex_eq hcount), List.take_append_of_le_length (by omega),
    List.drop_append_of_le_length (by omega),
    bind_ok (gethex_eq (by rw [List.length_append]; omega)),
    List.take_append_of_le_length haddress, List.drop_append_of_le_length haddress, List.drop_drop]
  change (storeBytes st (stored type cs) _ >>= fun _ => skipLine) _ = _
  rw [bind_ok (storeBytes_eq (by rw [List.length_append]; omega) _), bytesAt_append hbytes,
    List.drop_append_of_le_length hbytes, List.drop_drop]
  apply skipLine_eq
  intro hmem
  exact hno (List.mem_of_mem_drop hmem)

/-- What a data record has read when it comes to its end. -/
theorem length_of_dataRecord (type : DataRecordType) {s' : State σ}
    (h : dataRecord st (BitVec.ofNat 32 (Line.overhead type)) (2 * type.addressLength)
      ⟨mem, start, cs⟩ = .ok () s') :
    2 + 2 * type.addressLength + 2 * stored type cs + s'.input.length < cs.length := by
  rw [dataRecord] at h
  rcases Nat.lt_or_ge cs.length 2 with hlt | hcount
  · rw [bind_error (gethex_error hlt)] at h
    cases h
  · rw [bind_ok (gethex_eq hcount)] at h
    rcases Nat.lt_or_ge (cs.drop 2).length (2 * type.addressLength) with hlt | haddress
    · rw [bind_error (gethex_error hlt)] at h
      cases h
    · rw [bind_ok (gethex_eq haddress), List.drop_drop] at h
      change (storeBytes st (stored type cs) _ >>= fun _ => skipLine) _ = _ at h
      rcases Nat.lt_or_ge (cs.drop (2 + 2 * type.addressLength)).length (2 * stored type cs)
        with hlt | hbytes
      · rw [bind_error (storeBytes_error st mem start hlt _)] at h
        cases h
      · rw [bind_ok (storeBytes_eq hbytes _)] at h
        have hskip := length_of_skipLine h
        dsimp only at hskip
        rw [List.length_drop] at haddress hbytes
        rw [List.drop_drop, List.length_drop] at hskip
        omega

theorem endRecord_eq {k : ℕ} (h : 2 + k ≤ cs.length) (hno : ascii '\n' ∉ cs) :
    endRecord k ⟨mem, start, cs ++ ascii '\n' :: rest⟩ =
      .ok () ⟨mem, BitVec.ofNat 32 (number ((cs.drop 2).take k)), rest⟩ := by
  have hstart : k ≤ (cs.drop 2).length := by
    rw [List.length_drop]
    omega
  have hbody : ascii '\n' ∉ cs.drop (2 + k) := fun hmem => hno (List.mem_of_mem_drop hmem)
  rw [endRecord, bind_ok (gethex_eq (by rw [List.length_append]; omega)),
    List.drop_append_of_le_length (by omega),
    bind_ok (gethex_eq (by rw [List.length_append]; omega)),
    List.take_append_of_le_length hstart, List.drop_append_of_le_length hstart, List.drop_drop,
    bind_ok (skipLine_eq hbody)]
  rfl

theorem length_of_endRecord {k : ℕ} {s' : State σ}
    (h : endRecord k ⟨mem, start, cs⟩ = .ok () s') : 2 + k + s'.input.length < cs.length := by
  rw [endRecord] at h
  rcases Nat.lt_or_ge cs.length 2 with hlt | hcount
  · rw [bind_error (gethex_error hlt)] at h
    cases h
  · rw [bind_ok (gethex_eq hcount)] at h
    rcases Nat.lt_or_ge (cs.drop 2).length k with hlt | hstart
    · rw [bind_error (gethex_error hlt)] at h
      cases h
    · rw [bind_ok (gethex_eq hstart), List.drop_drop] at h
      cases hline : skipLine (σ := σ) ⟨mem, start, cs.drop (2 + k)⟩ with
      | ok u t =>
        rw [bind_ok hline] at h
        have hskip := length_of_skipLine hline
        dsimp only at hskip
        rw [List.length_drop] at hstart hskip
        cases h
        dsimp only
        omega
      | error e t =>
        rw [bind_error hline] at h
        cases h

/-! ## Lines -/

variable {line : Line}

/-- The record of a line. -/
def recordOf (st : Storage σ) : LineType → Program σ Unit
  | .data type => dataRecord st (BitVec.ofNat 32 (Line.overhead type)) (2 * type.addressLength)
  | .other type =>
    match type.startDigits with
    | some k => endRecord k
    | none => skipLine

theorem turn_chars (line : Line) : turn st ⟨mem, start, line.chars ++ rest⟩ =
    (recordOf st line.type >>= fun _ => pure .uploading)
      ⟨mem, start, line.text ++ ascii '\n' :: rest⟩ := by
  have hchars : line.chars ++ rest =
      ascii 'S' :: line.type.char :: (line.text ++ ascii '\n' :: rest) := by
    simp [Line.chars]
  rw [hchars]
  cases line.type with
  | data type => cases type <;> rfl
  | other type => cases type <;> rfl

/-- The memory after a line. -/
def Line.load (line : Line) (st : Storage σ) (mem : σ) : σ :=
  match line.type with
  | .data type => storeAll st (line.address (2 * type.addressLength)) (line.data type) mem
  | .other _ => mem

theorem Line.count_lt (line : Line) : line.count < 256 :=
  (number_lt (line.text.take 2)).trans_le
    (Nat.pow_le_pow_right (by decide) (List.length_take_le 2 line.text))

/-- The count is not below what is taken off. -/
theorem stored_eq {type : DataRecordType} (h : Line.overhead type ≤ line.count) :
    stored type line.text = line.count - Line.overhead type := by
  have hcount := line.count_lt
  rw [stored]
  change (BitVec.ofNat 32 line.count - _).toNat = _
  bv_omega

/-- The count is below what is taken off. -/
theorem stored_eq_of_lt {type : DataRecordType} (h : line.count < Line.overhead type) :
    stored type line.text = 2 ^ 32 + line.count - Line.overhead type := by
  have hover : Line.overhead type ≤ 5 := by cases type <;> decide
  rw [stored]
  change (BitVec.ofNat 32 line.count - _).toNat = _
  bv_omega

/-- A turn on a complete line. -/
theorem turn_of_complete (h : line.Complete) : turn st ⟨mem, start, line.chars ++ rest⟩ =
    .ok .uploading ⟨line.load st mem, line.appStart start, rest⟩ := by
  rw [turn_chars]
  rw [Line.Complete] at h
  rw [Line.load, Line.appStart]
  cases ht : line.type with
  | data type =>
    rw [ht] at h
    dsimp only at h ⊢
    have hstored := stored_eq h.1
    have hrecord := dataRecord_eq st mem start rest type
      (by rw [hstored]; exact h.2) line.no_newline
    rw [hstored] at hrecord
    exact bind_ok hrecord
  | other type =>
    rw [ht] at h
    dsimp only at h ⊢
    rw [recordOf]
    cases hk : type.startDigits with
    | some k => exact bind_ok (endRecord_eq (h k hk) line.no_newline)
    | none => exact bind_ok (skipLine_eq line.no_newline)

end Characters

/-! ## The memory of the program -/

variable {mem : ByteStore 32} {start : DataType} {rest : List Ascii} {line : Line}

theorem storeByte_flat (v : DataType) (u : BitVec 8) (mem : ByteStore 32) :
    storeByte flat v (u.setWidth 32) mem = Function.update mem v u := by
  have hpatch := Bootloader.write_patch (n := 30) mem v u
  rw [BitVec.setWidth_eq, BitVec.setWidth_eq] at hpatch
  exact hpatch

theorem storeAll_flat (v : DataType) {us : List (BitVec 8)} (h : us.length ≤ 2 ^ 32)
    (mem : ByteStore 32) : storeAll flat v us mem = mem.write ⟨v, us⟩ := by
  induction us generalizing v mem with
  | nil => rfl
  | cons u us ih =>
    rw [List.length_cons] at h
    rw [storeAll, storeByte_flat, ih _ (by omega), write_cons _ _ _ (by omega)]

theorem length_bytesAt (k : ℕ) (cs : List Ascii) : (bytesAt k cs).length = k := by
  rw [bytesAt, List.length_map, List.length_range]

theorem Line.load_flat (line : Line) (mem : ByteStore 32) :
    line.load flat mem = mem.after line.writes := by
  have hcount := line.count_lt
  rw [Line.load, Line.writes]
  cases line.type with
  | data type =>
    apply storeAll_flat
    rw [Line.data, length_bytesAt]
    omega
  | other type => rfl

theorem loads_of_complete (h : line.Complete) : Loads line mem start rest := by
  rw [Loads, turn_of_complete h, Line.load_flat]

/-- If a turn on a line ends at its end, so does the record. -/
theorem Loads.record (h : Loads line mem start rest) :
    recordOf flat line.type ⟨mem, start, line.text ++ ascii '\n' :: rest⟩ =
      .ok () ⟨mem.after line.writes, line.appStart start, rest⟩ := by
  rw [Loads, turn_chars] at h
  cases hrecord : recordOf flat line.type ⟨mem, start, line.text ++ ascii '\n' :: rest⟩ with
  | ok u s =>
    rw [bind_ok hrecord] at h
    cases h
    rfl
  | error e s =>
    rw [bind_error hrecord] at h
    cases h

theorem write_cons_self (mem : ByteStore 32) (v : DataType) (u : BitVec 8)
    (us : List (BitVec 8)) : mem.write ⟨v, u :: us⟩ v = u := by
  simp [write, Write.at]

/-- If the count is too small and the line is so long that the loop ends, some memory changes. -/
theorem exists_changed {type : DataRecordType} (ht : line.type = .data type)
    (hlt : line.count < Line.overhead type)
    (hlen : 2 + 2 * type.addressLength + 2 * stored type line.text ≤ line.text.length) :
    ∃ mem : ByteStore 32, ∀ start rest, dataRecord flat (BitVec.ofNat 32 (Line.overhead type))
      (2 * type.addressLength) ⟨mem, 0, line.text ++ [ascii '\n']⟩ ≠
        .ok () ⟨mem.after line.writes, start, rest⟩ := by
  have hpos : 0 < stored type line.text := by
    have hover : Line.overhead type ≤ 5 := by cases type <;> decide
    rw [stored_eq_of_lt hlt]
    omega
  have hlength := length_bytesAt (stored type line.text)
    (line.text.drop (2 + 2 * type.addressLength))
  obtain ⟨u, us, hus⟩ := List.exists_cons_of_length_pos (hpos.trans_eq hlength.symm)
  have hbound : (u :: us).length ≤ 2 ^ 32 := by
    rw [← hus, hlength]
    exact (BitVec.isLt _).le
  have hwrites : line.writes = [⟨line.address (2 * type.addressLength), []⟩] := by
    rw [Line.writes, ht]
    dsimp only
    rw [Line.data, Nat.sub_eq_zero_of_le hlt.le]
    rfl
  -- the first byte is written, and it is another one than the memory has there
  let mem : ByteStore 32 := fun _ => u + 1
  refine ⟨mem, fun start rest hrecord => ?_⟩
  have hrun := dataRecord_eq flat mem 0 [] type hlen line.no_newline
  rw [hrecord, hus, storeAll_flat _ hbound, hwrites] at hrun
  have hmem := congrArg (fun m => m (line.address (2 * type.addressLength)))
    (congrArg State.mem (EStateM.Result.ok.inj hrun).2)
  have hbyte : u + 1 = u := hmem.trans (write_cons_self mem _ u us)
  have hne : ∀ u : BitVec 8, u + 1 ≠ u := by decide
  exact hne u hbyte

/-- The count is too small, and the line has all the digits that the loop then reads. -/
def Line.Overlong (line : Line) : Prop :=
  ∃ type, line.type = .data type ∧ line.count < Line.overhead type ∧
    2 + 2 * type.addressLength + 2 * stored type line.text ≤ line.text.length

/-- A record that ends with its line has read nothing but the line. -/
theorem Loads.complete_or_overlong (h : Loads line mem start rest) :
    line.Complete ∨ line.Overlong := by
  have hrecord := h.record
  rw [Line.Complete]
  cases ht : line.type with
  | data type =>
    rw [ht] at hrecord
    have hread := length_of_dataRecord type hrecord
    rw [List.length_append, List.length_cons] at hread
    dsimp only at hread
    rw [stored, List.take_append_of_le_length (by omega)] at hread
    change 2 + _ + 2 * stored type line.text + rest.length < _ at hread
    rcases Nat.lt_or_ge line.count (Line.overhead type) with hlt | hge
    · exact .inr ⟨type, ht, hlt, by omega⟩
    · have hstored := stored_eq hge
      rw [hstored] at hread
      exact .inl ⟨hge, by omega⟩
  | other type =>
    refine .inl fun k hk => ?_
    rw [ht, recordOf, hk] at hrecord
    have hread := length_of_endRecord hrecord
    rw [List.length_append, List.length_cons] at hread
    dsimp only at hread
    omega

theorem Line.Overlong.le_length (h : line.Overlong) : 2 ^ 33 - 10 ≤ line.text.length := by
  obtain ⟨type, -, hlt, hlen⟩ := h
  have hover : Line.overhead type ≤ 5 := by cases type <;> decide
  rw [stored_eq_of_lt hlt] at hlen
  omega

/-- A line that is loaded into any memory is complete. -/
theorem complete_of_loads (h : ∀ mem start rest, Loads line mem start rest) : line.Complete := by
  rcases (h (fun _ => 0) 0 []).complete_or_overlong with hcomplete | ⟨type, ht, hlt, hlen⟩
  · exact hcomplete
  · obtain ⟨mem, hmem⟩ := exists_changed ht hlt hlen
    have hrecord := (h mem 0 []).record
    rw [ht] at hrecord
    exact absurd hrecord (hmem _ _)

/-! ## A memory behind the address decoder -/

section Bus

variable {n : ℕ} (map : AddressMap) (slave : Slave) (g : MemGenerics) (e : MemInput)

/-- A memory that is accessed over the bus. -/
def bus (n : ℕ) : Storage (Mem n) where
  loadWord a m := Bootloader.load map slave g e .word a m
  storeWord a data m :=
    (memMachine map slave g n).next m (Bootloader.access e true .write .word a data)

def State.toBootloader (s : State (Mem n)) : Bootloader.State n := ⟨s.mem, s.appStart, s.input⟩

/-- Two programs do the same. -/
def Same {α : Type} (x : Program (Mem n) α) (y : Bootloader.Program n α) : Prop :=
  ∀ s, y s.toBootloader =
    match x s with
    | .ok a s => .ok a s.toBootloader
    | .error () s => .error () s.toBootloader

variable {map slave g e}

theorem Same.bind {α β : Type} {x : Program (Mem n) α} {y : Bootloader.Program n α}
    {f : α → Program (Mem n) β} {h : α → Bootloader.Program n β} (hxy : Same x y)
    (hfh : ∀ a, Same (f a) (h a)) : Same (x >>= f) (y >>= h) := by
  intro s
  have hs := hxy s
  cases hx : x s with
  | ok a t =>
    rw [hx] at hs
    rw [bind_ok hx, Bootloader.bind_ok hs]
    exact hfh a t
  | error u t =>
    rw [hx] at hs
    rw [bind_error hx]
    change EStateM.bind y h _ = _
    rw [EStateM.bind, hs]

theorem Same.pure {α : Type} (a : α) :
    Same (pure a : Program (Mem n) α) (pure a : Bootloader.Program n α) := fun _ => rfl

theorem same_uart1Getc : Same (n := n) uart1Getc Bootloader.uart1Getc := by
  rintro ⟨m, start, input⟩
  cases input <;> rfl

theorem same_gethex (k : ℕ) : Same (n := n) (gethex k) (Bootloader.gethex k) := by
  have hfrom : ∀ v, Same (n := n) (gethexFrom k v) (Bootloader.gethexFrom k v) := by
    induction k with
    | zero => exact fun v => Same.pure v
    | succ k ih => exact fun v => same_uart1Getc.bind fun c => ih _
  exact hfrom 0

theorem same_skipLine : Same (n := n) skipLine Bootloader.skipLine := by
  rintro ⟨m, start, input⟩
  rw [skipLine, State.toBootloader, Bootloader.skipLine]
  dsimp only
  cases input.dropWhile (· ≠ ascii '\n') <;> rfl

theorem same_storeBytes (k : ℕ) (v : DataType) :
    Same (storeBytes (bus map slave g e n) k v) (Bootloader.storeBytes map slave g e k v) := by
  induction k generalizing v with
  | zero => exact Same.pure ()
  | succ k ih =>
    refine (same_gethex 2).bind fun byte s => ?_
    exact ih (v + 1) { s with mem := storeByte (bus map slave g e n) v byte s.mem }

theorem same_record : Same (record (bus map slave g e n)) (Bootloader.record map slave g e) := by
  have hdata : ∀ overhead digits, Same (dataRecord (bus map slave g e n) overhead digits)
      (Bootloader.dataRecord map slave g e overhead digits) := fun overhead digits =>
    (same_gethex 2).bind fun _ => (same_gethex digits).bind fun _ =>
      (same_storeBytes _ _).bind fun _ => same_skipLine
  have hend : ∀ digits, Same (n := n) (endRecord digits) (Bootloader.endRecord digits) :=
    fun digits => (same_gethex 2).bind fun _ => (same_gethex digits).bind fun _ =>
      same_skipLine.bind fun _ _ => rfl
  refine same_uart1Getc.bind fun c => ?_
  split_ifs
  · exact hdata 3 4
  · exact hdata 4 6
  · exact hdata 5 8
  · exact hend 8
  · exact hend 6
  · exact hend 4
  · exact same_skipLine

variable (map slave g e) in
/-- On this memory the loop is the one with loads and stores over the bus. -/
theorem same_turn : Same (turn (bus map slave g e n)) (Bootloader.turn map slave g e) := by
  refine same_uart1Getc.bind fun c => ?_
  split_ifs
  · exact same_record.bind fun _ => Same.pure _
  · exact Same.pure _
  · exact Same.pure _
  · exact Same.pure _

theorem storeAll_bus (hw : g.useWrite = true) (hn : n + 2 ≤ 32) (v : DataType)
    {us : List (BitVec 8)} (hsel : ∀ k < us.length, map.select (v + BitVec.ofNat 32 k) = some slave)
    (hlen : us.length ≤ 2 ^ (n + 2)) (m : Mem n) :
    (storeAll (bus map slave g e n) v us m).bytes = m.bytes.write ⟨v.setWidth (n + 2), us⟩ := by
  induction us generalizing v m with
  | nil => rfl
  | cons u us ih =>
    rw [List.length_cons] at hlen
    have hv : map.select v = some slave := by simpa using hsel 0 (Nat.zero_lt_succ _)
    have hbyte : (storeByte (bus map slave g e n) v (u.setWidth 32) m).bytes =
        Function.update m.bytes (v.setWidth (n + 2)) u := Bootloader.bytes_storeByte hw hv u
    rw [storeAll, ih, hbyte, write_cons _ _ _ (by omega), BitVec.setWidth_add _ _ hn]
    · congr 2
      apply BitVec.eq_of_toNat_eq
      simp
    · intro k hk
      have hnext := hsel (k + 1) (Nat.succ_lt_succ hk)
      rw [Nat.add_comm, BitVec.ofNat_add, ← BitVec.add_assoc] at hnext
      exact hnext
    · omega

/-- A complete line with data for a memory on the bus is written there. -/
theorem bootloader_turn_of_complete (hw : g.useWrite = true) (hn : n + 2 ≤ 32)
    (h : line.Complete) {m : Mem n}
    (hsel : ∀ w ∈ line.writes, w.bytes.length ≤ 2 ^ (n + 2) ∧
      ∀ k < w.bytes.length, map.select (w.addr + BitVec.ofNat 32 k) = some slave) :
    ∃ m', Bootloader.turn map slave g e ⟨m, start, line.chars ++ rest⟩ =
        .ok .uploading ⟨m', line.appStart start, rest⟩ ∧
      m'.bytes = m.bytes.after (line.writes.map fun w => ⟨w.addr.setWidth (n + 2), w.bytes⟩) := by
  have hsame := same_turn map slave g e ⟨m, start, line.chars ++ rest⟩
  rw [turn_of_complete h] at hsame
  refine ⟨_, hsame, ?_⟩
  rw [Line.writes] at hsel ⊢
  rw [Line.load]
  cases ht : line.type with
  | data type =>
    rw [ht] at hsel
    obtain ⟨hlen, hselect⟩ := hsel _ List.mem_cons_self
    exact storeAll_bus hw hn _ hselect hlen m
  | other type => rfl

end Bus

/-! ## Uploads -/

variable (mem start rest) in
/-- The state after some complete lines. -/
theorem turns_of_complete {lines : List Line} (h : ∀ line ∈ lines, line.Complete) :
    turns flat lines.length ⟨mem, start, textOf lines ++ rest⟩ =
      some ⟨mem.after (lines.flatMap Line.writes),
        lines.foldl (fun start line => line.appStart start) start, rest⟩ := by
  induction lines generalizing mem start with
  | nil => rfl
  | cons line lines ih =>
    have hloads : Loads line mem start (textOf lines ++ rest) :=
      loads_of_complete (h line List.mem_cons_self)
    have htext : textOf (line :: lines) ++ rest = line.chars ++ (textOf lines ++ rest) :=
      List.append_assoc _ _ _
    rw [Loads] at hloads
    rw [List.length_cons, turns, htext, hloads]
    refine (ih _ _ fun l hl => h l (List.mem_cons_of_mem line hl)).trans ?_
    rw [List.flatMap_cons, after_append]
    rfl

/-- What holds of every upload of some lines: before each record the memory has the data of the
records before it, and the record is loaded into it. -/
def Uploads (lines : List Line) : Prop :=
  ∀ (mem : ByteStore 32) (start : DataType) (rest : List Ascii) (pre post : List Line)
    (line : Line), lines = pre ++ line :: post → ∃ start',
      turns flat pre.length ⟨mem, start, textOf lines ++ rest⟩ =
        some ⟨mem.after (pre.flatMap Line.writes), start',
          line.chars ++ (textOf post ++ rest)⟩ ∧
      Loads line (mem.after (pre.flatMap Line.writes)) start' (textOf post ++ rest)

theorem uploads_of_complete {lines : List Line} (h : ∀ line ∈ lines, line.Complete) :
    Uploads lines := by
  intro mem start rest pre post line hlines
  subst hlines
  have hpre := turns_of_complete mem start (line.chars ++ (textOf post ++ rest))
    fun l hl => h l (List.mem_append_left _ hl)
  have htext : textOf (pre ++ line :: post) ++ rest =
      textOf pre ++ (line.chars ++ (textOf post ++ rest)) := by
    simp [textOf]
  rw [htext]
  exact ⟨_, hpre, loads_of_complete (h line (by simp))⟩

/-- Complete lines are uploaded one after another. Other lines are not, unless they are longer than
the loop; of one line of any length this holds for complete lines only. -/
theorem uploads_complete_lines (lines : List Line) :
    ((∀ line ∈ lines, line.Complete) → Uploads lines) ∧
    (Uploads lines → ∀ line ∈ lines, line.Complete ∨ 2 ^ 33 - 10 ≤ line.text.length) ∧
    ∀ line : Line, Uploads [line] ↔ line.Complete := by
  refine ⟨uploads_of_complete, ?_, fun line => ⟨?_, ?_⟩⟩
  · intro h line hline
    obtain ⟨pre, post, hlines⟩ := List.append_of_mem hline
    obtain ⟨start', -, hloads⟩ := h (fun _ => 0) 0 [] pre post line hlines
    exact hloads.complete_or_overlong.imp_right Line.Overlong.le_length
  · intro h
    apply complete_of_loads
    intro mem start rest
    obtain ⟨start', hturns, hloads⟩ := h mem start rest [] [] line rfl
    have hstart : start = start' := congrArg State.appStart (Option.some_inj.mp hturns)
    rw [← hstart] at hloads
    exact hloads
  · intro h
    apply uploads_of_complete
    intro l hl
    rw [List.mem_singleton.mp hl]
    exact h

/-- A record of one byte at address 0. -/
def nextLine : Line where
  type := .data .s1
  text := hexText [0x04, 0x00, 0x00, 0xaa, 0x51]
  no_newline := by decide

theorem nextLine_uploads : Uploads [nextLine, nextLine] :=
  (uploads_complete_lines [nextLine, nextLine]).1 fun line hline => by
    have hnext : line = nextLine := by simpa using hline
    rw [hnext]
    exact ⟨by decide, by decide⟩

/-- A record with a count of 2: an address, and not even a checksum. -/
def shortLine : Line where
  type := .data .s1
  text := hexText [0x02, 0x00, 0x00]
  no_newline := by decide

/-- The loader writes the characters of the next record to memory and waits for more of them. -/
theorem short_count_swallows_next_record :
    turn flat ⟨fun _ => 0, 0, textOf [shortLine, nextLine]⟩ =
      .error () ⟨ByteStore.write (fun _ => 0)
        ⟨0, [0x00, 0x10, 0x40, 0x00, 0x0a, 0xa5, 0x10]⟩, 0, []⟩ ∧
    ¬ Uploads [shortLine, nextLine] := by
  have hturn : turn flat ⟨fun _ => 0, 0, textOf [shortLine, nextLine]⟩ =
      .error () ⟨ByteStore.write (fun _ => 0)
        ⟨0, [0x00, 0x10, 0x40, 0x00, 0x0a, 0xa5, 0x10]⟩, 0, []⟩ := by
    have hchars : textOf [shortLine, nextLine] = shortLine.chars ++ textOf [nextLine] := rfl
    have hstore := storeBytes_error flat (fun _ => 0) 0
      (show (ascii '\n' :: textOf [nextLine]).length < 2 * (2 ^ 32 - 1) by decide) 0
    have hbytes : bytesAt ((ascii '\n' :: textOf [nextLine]).length / 2)
        (ascii '\n' :: textOf [nextLine]) = [0x00, 0x10, 0x40, 0x00, 0x0a, 0xa5, 0x10] := by
      decide +kernel
    rw [hbytes, storeAll_flat _ (by decide)] at hstore
    rw [hchars, turn_chars]
    apply bind_error
    change dataRecord flat _ _ _ = _
    rw [dataRecord, bind_ok (gethex_eq (by decide)), bind_ok (gethex_eq (by decide))]
    exact bind_error hstore
  refine ⟨hturn, fun h => ?_⟩
  obtain ⟨start', hturns, hloads⟩ := h (fun _ => 0) 0 [] [] [nextLine] shortLine rfl
  have hstart : 0 = start' := congrArg State.appStart (Option.some_inj.mp hturns)
  rw [Loads, ← hstart, List.append_nil] at hloads
  cases hturn.symm.trans hloads

end LineUpload

end ThuasRiscv
