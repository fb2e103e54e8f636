import ThuasRiscv.Bus.MemRefinement
import ThuasRiscv.Sw.SRecord

/-!
# Upload of S-records by the bootloader

The bootloader reads the characters of a file from the UART and writes the
bytes of the data records to memory: it loads the word with the byte, patches
the byte and stores the word. Loads and stores go through the address decoder
to a memory. A program that waits for a character that does not come stops in
the state in which it waits.
-/

namespace ThuasRiscv

open SRecord ByteStore Transition

namespace Bootloader

/-- The memory, the start address of the application and the characters that are still to come. -/
structure State (n : ℕ) where
  mem : Mem n
  appStart : DataType
  input : List Ascii

/-- A program that may wait for a character. -/
abbrev Program (n : ℕ) := EStateM Unit (State n)

/-- How the upload goes on after a character: it is uploading, the application is started, or the
monitor. -/
inductive Upload where
  | uploading | application | monitor
  deriving DecidableEq, Repr

variable {n : ℕ}

/-! ## Characters -/

def uart1Getc : Program n Ascii := fun s =>
  match s.input with
  | [] => .error () s
  | c :: cs => .ok c { s with input := cs }

def isdigit (c : Ascii) : Bool := ascii '0' ≤ c ∧ c ≤ ascii '9'

def isxdigit (c : Ascii) : Bool :=
  isdigit c || (ascii 'A' ≤ c ∧ c ≤ ascii 'F') || (ascii 'a' ≤ c ∧ c ≤ ascii 'f')

def tolower (c : Ascii) : Ascii := if ascii 'A' ≤ c ∧ c ≤ ascii 'Z' then c + 32 else c

/-- A hex digit in the lowest four bits; any other character leaves them zero. -/
def addDigit (v : DataType) (c : Ascii) : DataType :=
  if isdigit c then v ||| (c.setWidth 32 - 0x30)
  else if isxdigit c then v ||| ((tolower c).setWidth 32 - 0x61 + 10)
  else v

def gethexFrom : ℕ → DataType → Program n DataType
  | 0, v => pure v
  | k + 1, v => do
    let c ← uart1Getc
    gethexFrom k (addDigit (v <<< 4) c)

/-- A hex number of `k` characters. -/
def gethex (k : ℕ) : Program n DataType := gethexFrom k 0

/-- Read in the rest of a line. -/
def skipLine : Program n Unit := fun s =>
  match s.input.dropWhile (· ≠ ascii '\n') with
  | [] => .error () { s with input := [] }
  | _ :: rest => .ok () { s with input := rest }

/-! ## Memory -/

section Memory

variable (map : AddressMap) (slave : Slave) (g : MemGenerics) (e : MemInput)

/-- The inputs of the memory in an access; those of the instruction port and of the other slaves are
the ones of `e`. -/
def access (stb : Bool) (acc : MemAccess) (size : MemSize) (addr data : DataType) : MemInput :=
  { e with
    bus := ⟨stb, acc, size, addr, data⟩
    sreset := false }

/-- The answer to a load: it is strobed in one clock and the address is held in the next one. -/
def load (size : MemSize) (addr : DataType) (m : Mem n) : DataType × Mem n :=
  let m' := (memMachine map slave g n).next m (access e true .read size addr 0)
  ((memAnswer map slave g m' (access e false .read size addr 0)).data, m')

def loadWord (addr : DataType) : Program n DataType := fun s =>
  let (word, m) := load map slave g e .word addr s.mem
  .ok word { s with mem := m }

def storeWord (addr data : DataType) : Program n Unit := fun s =>
  .ok () { s with mem := (memMachine map slave g n).next s.mem (access e true .write .word addr data) }

/-- Patch the byte in the word. -/
def patch (v byte word : DataType) : DataType :=
  match v.extractLsb' 0 2 with
  | 0b00 => (word &&& ~~~(0xff : DataType)) ||| byte
  | 0b01 => (word &&& ~~~(0xff00 : DataType)) ||| (byte <<< 8)
  | 0b10 => (word &&& ~~~(0xff0000 : DataType)) ||| (byte <<< 16)
  | 0b11 => (word &&& ~~~(0xff000000 : DataType)) ||| (byte <<< 24)

/-! ## Records -/

/-- Process bytes: get the byte and the word, patch the byte and write back the word. -/
def storeBytes : ℕ → DataType → Program n Unit
  | 0, _ => pure ()
  | k + 1, v => do
    let boun := v &&& ~~~3
    let byte ← gethex 2
    let word ← loadWord map slave g e boun
    storeWord map slave g e boun (patch v byte word)
    storeBytes k (v + 1)

/-- A data record: the count is decreased by the bytes of address and checksum. -/
def dataRecord (overhead : DataType) (digits : ℕ) : Program n Unit := do
  let count ← gethex 2
  let v ← gethex digits
  storeBytes map slave g e (count - overhead).toNat v
  skipLine

/-- An end record with the start address of the application. -/
def endRecord (digits : ℕ) : Program n Unit := do
  let _ ← gethex 2
  let v ← gethex digits
  skipLine
  modify fun s => { s with appStart := v }

/-- A record, after its `S`. -/
def record : Program n Unit := do
  let c ← uart1Getc
  if c = ascii '1' then dataRecord map slave g e 3 4
  else if c = ascii '2' then dataRecord map slave g e 4 6
  else if c = ascii '3' then dataRecord map slave g e 5 8
  else if c = ascii '7' then endRecord 8
  else if c = ascii '8' then endRecord 6
  else if c = ascii '9' then endRecord 4
  else skipLine

/-- One turn of the upload loop. -/
def turn : Program n Upload := do
  let c ← uart1Getc
  if c = ascii 'S' then
    record map slave g e
    pure .uploading
  else if c = ascii 'J' then pure .application
  else if c = ascii '#' then pure .monitor
  else pure .uploading

/-- At most `k` turns of the upload loop. -/
def upload : ℕ → State n → State n
  | 0, s => s
  | k + 1, s =>
    match turn map slave g e s with
    | .ok .uploading s' => upload k s'
    | .ok _ s' => s'
    | .error _ s' => s'

/-- The memory after the upload of a file; every turn reads a character. -/
def main (m : Mem n) (file : List Ascii) : Mem n :=
  (upload map slave g e (file.length + 1) ⟨m, 0, file⟩).mem

end Memory

/-! ## Characters of a record -/

theorem bind_ok {α β : Type} {x : Program n α} {f : α → Program n β} {s s' : State n} {a : α}
    (h : x s = .ok a s') : (x >>= f) s = f a s' := by
  change EStateM.bind x f s = _
  rw [EStateM.bind, h]

theorem addDigit_eq {c : Ascii} {d : BitVec 4} (h : hexDigit? c = some d) (v : DataType) :
    addDigit v c = v ||| d.setWidth 32 := by
  have hall : ∀ c : Ascii, (hexDigit? c).all fun d =>
      if isdigit c then c.setWidth 32 - 0x30 = (d.setWidth 32 : DataType)
      else isxdigit c ∧ (tolower c).setWidth 32 - 0x61 + 10 = (d.setWidth 32 : DataType) := by
    decide +kernel
  have hc := hall c
  rw [h, Option.all_some] at hc
  rw [addDigit]
  split_ifs at hc ⊢ with h1 h2
  · rw [of_decide_eq_true hc]
  · rw [(of_decide_eq_true hc).2]
  · exact absurd (of_decide_eq_true hc).1 h2

variable {m : Mem n} {start : DataType} {cs rest : List Ascii} {vs : List (BitVec 8)}

/-- The number that bytes add to the digits before them. -/
def appendBytes (v : DataType) (vs : List (BitVec 8)) : DataType :=
  vs.foldl (fun x u => (x <<< 8) ||| u.setWidth 32) v

theorem gethexFrom_eq (h : hexBytes? cs = some vs) (v : DataType) :
    gethexFrom (2 * vs.length) v ⟨m, start, cs ++ rest⟩ =
      .ok (appendBytes v vs) ⟨m, start, rest⟩ := by
  induction vs generalizing cs v with
  | nil =>
    rw [List.length_eq_zero_iff.mp (length_hexBytes? h)]
    rfl
  | cons u us ih =>
    obtain ⟨a, b, cs', hi, lo, rfl, ha, hb, rfl, hcs⟩ := hexBytes?_cons h
    have hdigits : ∀ (v : DataType),
        ((v <<< 4 ||| hi.setWidth 32) <<< 4) ||| lo.setWidth 32 =
          (v <<< 8) ||| (hi ++ lo).setWidth 32 := by
      intro v
      have hpair : ∀ hi lo : BitVec 4, ((hi.setWidth 32 : DataType) <<< 4) ||| lo.setWidth 32 =
          (hi ++ lo).setWidth 32 := by decide +kernel
      rw [BitVec.shiftLeft_or_distrib, ← BitVec.shiftLeft_add, BitVec.or_assoc, hpair]
    change gethexFrom (2 * us.length) (addDigit (addDigit (v <<< 4) a <<< 4) b)
      ⟨m, start, cs' ++ rest⟩ = _
    rw [ih hcs, addDigit_eq ha, addDigit_eq hb, hdigits]
    rfl

theorem toNat_appendBytes {v : DataType} {k : ℕ} (hv : v.toNat < 256 ^ k)
    (hk : k + vs.length ≤ 4) : (appendBytes v vs).toNat =
      vs.foldl (fun x u => 256 * x + u.toNat) v.toNat := by
  induction vs generalizing v k with
  | nil => rfl
  | cons u us ih =>
    rw [List.length_cons] at hk
    have hu := u.isLt
    have hle : 256 ^ (k + 1) ≤ 256 ^ 4 := Nat.pow_le_pow_right (by decide) (by omega)
    have hlt : 256 * v.toNat + u.toNat < 256 ^ (k + 1) := by
      rw [Nat.pow_succ]
      omega
    have hstep : ((v <<< 8) ||| u.setWidth 32).toNat = 256 * v.toNat + u.toNat := by
      rw [BitVec.toNat_or, BitVec.toNat_shiftLeft, Nat.shiftLeft_eq, BitVec.toNat_setWidth,
        Nat.mod_eq_of_lt (by omega), Nat.mod_eq_of_lt (by omega), Nat.mul_comm,
        show (256 : ℕ) = 2 ^ 8 from rfl]
      exact (Nat.two_pow_add_eq_or_of_lt hu v.toNat).symm
    change (appendBytes ((v <<< 8) ||| u.setWidth 32) us).toNat = _
    rw [ih (k := k + 1) (by omega) (by omega), hstep]
    rfl

/-- A hex number of at most four bytes. -/
theorem gethex_eq (h : hexBytes? cs = some vs) (hlen : vs.length ≤ 4) :
    gethex (2 * vs.length) ⟨m, start, cs ++ rest⟩ =
      .ok (BitVec.ofNat 32 (beNat vs)) ⟨m, start, rest⟩ := by
  have hv : appendBytes 0 vs = BitVec.ofNat 32 (beNat vs) := by
    apply BitVec.eq_of_toNat_eq
    have hnat : (appendBytes 0 vs).toNat = vs.foldl (fun x u => 256 * x + u.toNat) 0 :=
      toNat_appendBytes (v := 0) (k := 0) (by decide) (by omega)
    rw [BitVec.toNat_ofNat, Nat.mod_eq_of_lt, hnat]
    · rfl
    · rw [beNat, ← hnat]
      exact (appendBytes 0 vs).isLt
  rw [gethex, gethexFrom_eq h, hv]

/-- The rest of a line ends with the first newline. -/
theorem dropWhile_newline {body : List Ascii} (h : ascii '\n' ∉ body) (rest : List Ascii) :
    (body ++ ascii '\n' :: rest).dropWhile (· ≠ ascii '\n') = ascii '\n' :: rest := by
  rw [List.dropWhile_append_of_pos]
  · rfl
  · intro c hc
    rw [decide_eq_true_eq]
    rintro rfl
    exact h hc

theorem skipLine_eq {body : List Ascii} (h : ascii '\n' ∉ body) :
    skipLine ⟨m, start, body ++ ascii '\n' :: rest⟩ = .ok () ⟨m, start, rest⟩ := by
  rw [skipLine, dropWhile_newline h rest]

/-! ## Accesses to memory -/

variable {map : AddressMap} {slave : Slave} {g : MemGenerics} {e : MemInput} {a : DataType}

theorem strobes_access (acc : MemAccess) (size : MemSize) (data : DataType)
    (h : map.select a = some slave) :
    Strobes map slave acc size (access e true acc size a data).bus := ⟨h, rfl, rfl, rfl⟩

theorem bytes_load (size : MemSize) (h : map.select a = some slave) :
    (load map slave g e size a m).2.bytes = m.bytes := by
  have hq := (strobes_access (e := e) .read size 0 h).memRequest (by decide)
  apply Mem.bytes_clock_idle
  rw [Mem.recodeWrite_idle]
  rw [hq]
  rfl

/-- A word load gets the word of the array of bytes. -/
theorem load_word (h : map.select a = some slave) (ha : NaturallyAligned .word a) :
    (load map slave g e .word a m).1 = read32 m.bytes (a.setWidth (n + 2)) :=
  (behaves_load m (i := access e true .read .word a 0) (j := access e false .read .word a 0)
    (show decodeLoad 0b010 = some (.lw, .word) from rfl) (strobes_access .read .word 0 h)
      ha rfl rfl rfl).2.2
      .plain false ⟨0, 0, 0, 0, 0⟩ 0 0

theorem load_byte (h : map.select a = some slave) :
    (load map slave g e .byte a m).1.extractLsb' 0 8 = m.bytes (a.setWidth (n + 2)) := by
  have hvalue := (behaves_load m (g := g) (i := access e true .read .byte a 0)
    (j := access e false .read .byte a 0)
    (show decodeLoad 0b100 = some (.lbu, .byte) from rfl) (strobes_access .read .byte 0 h)
      ⟨by decide, Nat.mod_one _⟩ rfl rfl rfl).2.2
      .plain false ⟨0, 0, 0, 0, 0⟩ 0 0
  change ((load map slave g e .byte a m).1.extractLsb' 0 8).setWidth 32 =
    (m.bytes (a.setWidth (n + 2))).setWidth 32 at hvalue
  have h8 := congrArg (BitVec.setWidth 8) hvalue
  rw [BitVec.setWidth_setWidth_of_le _ (by decide), BitVec.setWidth_setWidth_of_le _ (by decide),
    BitVec.setWidth_eq, BitVec.setWidth_eq] at h8
  exact h8

/-- What the patch of a byte leaves at the offsets of the word. -/
theorem extractLsb'_patch (v word : DataType) (byte : BitVec 8) (q : BitVec 2) :
    (patch v (byte.setWidth 32) word).extractLsb' (8 * q.toNat) 8 =
      if q = v.extractLsb' 0 2 then byte else word.extractLsb' (8 * q.toNat) 8 := by
  have hshift : ∀ (p q : BitVec 2) (byte : BitVec 8),
      ((byte.setWidth 32 : DataType) <<< (8 * p.toNat)).extractLsb' (8 * q.toNat) 8 =
        if q = p then byte else 0 := by decide +kernel
  have hmask : ∀ p q : BitVec 2,
      (~~~((0xff : DataType) <<< (8 * p.toNat))).extractLsb' (8 * q.toNat) 8 =
        if q = p then 0 else BitVec.allOnes 8 := by decide
  have hpatch : patch v (byte.setWidth 32) word =
      (word &&& ~~~((0xff : DataType) <<< (8 * (v.extractLsb' 0 2).toNat))) |||
        ((byte.setWidth 32 : DataType) <<< (8 * (v.extractLsb' 0 2).toNat)) := by
    rw [patch]
    generalize v.extractLsb' 0 2 = p
    match p with
    | 0b00 =>
      rw [show 8 * (0b00 : BitVec 2).toNat = 0 from rfl, BitVec.shiftLeft_zero,
        BitVec.shiftLeft_zero]
      rfl
    | 0b01 | 0b10 | 0b11 => rfl
  rw [hpatch, BitVec.extractLsb'_or, BitVec.extractLsb'_and, hshift, hmask]
  split_ifs
  · rw [show word.extractLsb' (8 * q.toNat) 8 &&& 0 = 0 from BitVec.and_zero]
    exact BitVec.zero_or
  · rw [BitVec.and_allOnes]
    exact BitVec.or_zero

/-- The word at the start of which an address is. -/
theorem read32_eq (b : ByteStore (n + 2)) (i : BitVec n) (q : BitVec 2) :
    (read32 b (i ++ (0 : BitVec 2))).extractLsb' (8 * q.toNat) 8 = b (i ++ q) := by
  have h1 := Mem.append_add i (p := 0) (k := 1) (by decide)
  have h2 := Mem.append_add i (p := 0) (k := 2) (by decide)
  have h3 := Mem.append_add i (p := 0) (k := 3) (by decide)
  obtain ⟨hb3, hb2, hb1, hb0⟩ :=
    byte_append (b (i ++ 3#2)) (b (i ++ 2#2)) (b (i ++ 1#2)) (b (i ++ 0#2))
  have hword : read32 b (i ++ (0 : BitVec 2)) =
      b (i ++ 3#2) ++ b (i ++ 2#2) ++ b (i ++ 1#2) ++ b (i ++ 0#2) := by
    rw [read32, show (1 : BitVec (n + 2)) = BitVec.ofNat (n + 2) 1 from rfl,
      show (2 : BitVec (n + 2)) = BitVec.ofNat (n + 2) 2 from rfl,
      show (3 : BitVec (n + 2)) = BitVec.ofNat (n + 2) 3 from rfl, h1, h2, h3]
    rfl
  rw [hword]
  rcases offset_cases q with rfl | rfl | rfl | rfl
  · exact hb0
  · exact hb1
  · exact hb2
  · exact hb3

theorem append_inj {i j : BitVec n} {p q : BitVec 2} (h : i ++ p = j ++ q) : i = j ∧ p = q := by
  have hword := congrArg (BitVec.extractLsb' 2 n) h
  have hoffset := congrArg (BitVec.extractLsb' 0 2) h
  rw [BitVec.extractLsb'_append_eq_left, BitVec.extractLsb'_append_eq_left] at hword
  rw [BitVec.extractLsb'_append_eq_right, BitVec.extractLsb'_append_eq_right] at hoffset
  exact ⟨hword, hoffset⟩

/-- Loading the word, patching the byte and storing the word changes that byte. -/
theorem write_patch (b : ByteStore (n + 2)) (v : DataType) (byte : BitVec 8) :
    b.write ⟨(v &&& ~~~3).setWidth (n + 2), bytesOf (patch v (byte.setWidth 32)
        (read32 b ((v &&& ~~~3).setWidth (n + 2)))) 4⟩ =
      Function.update b (v.setWidth (n + 2)) byte := by
  funext c
  obtain ⟨j, q, rfl⟩ : ∃ (j : BitVec n) (q : BitVec 2), c = j ++ q :=
    ⟨_, _, BitVec.extractLsb'_append_extractLsb'.symm⟩
  have hq := q.isLt
  rw [setWidth_and_not_three, Mem.setWidth_eq_append, ByteStore.write, at_append (by simp),
    Function.update_apply]
  by_cases hij : v.extractLsb' 2 n = j
  · subst hij
    have happend : v.extractLsb' 2 n ++ q = v.extractLsb' 2 n ++ v.extractLsb' 0 2 ↔
        q = v.extractLsb' 0 2 :=
      ⟨fun h => (append_inj h).2, fun h => by rw [h]⟩
    rw [if_pos ⟨rfl, Nat.zero_le _⟩, show q.toNat - (0b00 : BitVec 2).toNat = q.toNat from rfl,
      getElem?_bytesOf _ hq, Option.getD_some, extractLsb'_patch]
    exact if_congr happend.symm rfl (read32_eq b _ q)
  · have hne : j ++ q ≠ v.extractLsb' 2 n ++ v.extractLsb' 0 2 := by
      intro h
      exact hij (append_inj h).1.symm
    rw [if_neg (fun h => hij h.1.symm), if_neg hne, Option.getD_none]

theorem select_boun (v : DataType) : map.select (v &&& ~~~3) = map.select v := by
  have hnibble : (v &&& ~~~3).extractLsb' 28 4 = v.extractLsb' 28 4 := by
    rw [BitVec.extractLsb'_and, show (~~~3 : DataType).extractLsb' 28 4 =
        BitVec.allOnes 4 by decide,
      BitVec.and_allOnes]
  rw [AddressMap.select, AddressMap.select, hnibble]

theorem naturallyAligned_boun (v : DataType) : NaturallyAligned .word (v &&& ~~~3) := by
  rw [Mem.naturallyAligned_iff, BitVec.extractLsb'_and,
    show (~~~3 : DataType).extractLsb' 0 2 = 0 by decide,
    show v.extractLsb' 0 2 &&& 0 = 0 from BitVec.and_zero]
  exact ⟨by decide, rfl⟩

/-- The memory after one byte of a record. -/
def storeByte (map : AddressMap) (slave : Slave) (g : MemGenerics) (e : MemInput) (v byte : DataType)
    (m : Mem n) : Mem n :=
  let (word, m) := load map slave g e .word (v &&& ~~~3) m
  (memMachine map slave g n).next m
    (access e true .write .word (v &&& ~~~3) (patch v byte word))

theorem bytes_storeByte (hw : g.useWrite = true) {v : DataType} (hv : map.select v = some slave)
    (u : BitVec 8) : (storeByte map slave g e v (u.setWidth 32) m).bytes =
      Function.update m.bytes (v.setWidth (n + 2)) u := by
  have hboun : map.select (v &&& ~~~3) = some slave := (select_boun v).trans hv
  have halign := naturallyAligned_boun v
  have hload := load_word (m := m) (g := g) (e := e) hboun halign
  have hbytes := bytes_load (m := m) (g := g) (e := e) .word hboun
  have hstore := (behaves_store hw (load map slave g e .word (v &&& ~~~3) m).2
    (strobes_access (e := e) .write .word
      (patch v (u.setWidth 32) (load map slave g e .word (v &&& ~~~3) m).1) hboun) halign).2.2
  refine hstore.trans ?_
  rw [hbytes, hload]
  exact write_patch m.bytes v u

/-! ## Records of a file -/

variable (m start rest e) in
theorem storeBytes_eq (hw : g.useWrite = true) (hn : n + 2 ≤ 32) {us : List (BitVec 8)}
    {v : DataType} (h : hexBytes? cs = some (vs ++ us))
    (hsel : ∀ k < vs.length, map.select (v + BitVec.ofNat 32 k) = some slave)
    (hlen : vs.length ≤ 2 ^ (n + 2)) :
    ∃ (m' : Mem n) (cs' : List Ascii),
      storeBytes map slave g e vs.length v ⟨m, start, cs ++ rest⟩ =
        .ok () ⟨m', start, cs' ++ rest⟩ ∧
        hexBytes? cs' = some us ∧ m'.bytes = m.bytes.write ⟨v.setWidth (n + 2), vs⟩ := by
  induction vs generalizing m cs v with
  | nil => exact ⟨m, cs, rfl, h, rfl⟩
  | cons u vs ih =>
    obtain ⟨as, bs, rfl, has, hbs⟩ := hexBytes?_append [u] h
    rw [List.length_cons] at hlen
    have hget : gethex 2 ⟨m, start, (as ++ bs) ++ rest⟩ =
        .ok (u.setWidth 32) ⟨m, start, bs ++ rest⟩ := by
      have hu : (u.setWidth 32 : DataType) = BitVec.ofNat 32 (beNat [u]) := by
        apply BitVec.eq_of_toNat_eq
        have := u.isLt
        simp [beNat]
      rw [List.append_assoc, hu]
      exact gethex_eq has (by simp)
    have hv : map.select v = some slave := by simpa using hsel 0 (Nat.zero_lt_succ _)
    obtain ⟨m', cs', hrun, hcs', hbytes⟩ :=
      ih (m := storeByte map slave g e v (u.setWidth 32) m) (v := v + 1) hbs
        (fun k hk => by
          have hk' := hsel (k + 1) (Nat.succ_lt_succ hk)
          rw [Nat.add_comm, BitVec.ofNat_add, ← BitVec.add_assoc] at hk'
          exact hk') (by omega)
    refine ⟨m', cs', ?_, hcs', ?_⟩
    · rw [List.length_cons, storeBytes, bind_ok hget]
      exact hrun
    · rw [hbytes, bytes_storeByte hw hv, write_cons _ _ _ (by omega),
        BitVec.setWidth_add _ _ hn]
      congr 2
      apply BitVec.eq_of_toNat_eq
      simp

/-- The write of a data record to a memory. -/
def write (n : ℕ) (r : DataRecord) : Write (n + 2) := ⟨BitVec.ofNat (n + 2) r.addr, r.data⟩

/-- All data bytes of a record are in the memory. -/
structure InMemory (map : AddressMap) (slave : Slave) (n : ℕ) (r : DataRecord) : Prop where
  select : ∀ k < r.data.length, map.select (BitVec.ofNat 32 (r.addr + k)) = some slave
  length_le : r.data.length ≤ 2 ^ (n + 2)

variable {r : DataRecord}

theorem eol_cases (r : DataRecord) : ∃ body, r.eol = body ++ [ascii '\n'] ∧ ascii '\n' ∉ body := by
  rcases r.eol_eq with h | h
  · exact ⟨[], h, List.not_mem_nil⟩
  · exact ⟨[ascii '\r'], h, by decide⟩

theorem dataRecord_eq (hw : g.useWrite = true) (hn : n + 2 ≤ 32) (hr : InMemory map slave n r)
    {overhead : DataType} {digits : ℕ} (hover : overhead = BitVec.ofNat 32 (r.address.length + 1))
    (hdigits : digits = 2 * r.address.length) :
    ∃ m', dataRecord map slave g e overhead digits ⟨m, start, r.digits ++ r.eol ++ rest⟩ =
        .ok () ⟨m', start, rest⟩ ∧
      m'.bytes = m.bytes.write (write n r) := by
  have hlt := r.count_lt
  have haddress := r.length_address
  have hwidth : r.type.addressLength ≤ 4 := by cases r.type <;> decide
  obtain ⟨as, bs, hdig, has, hbs⟩ :=
    hexBytes?_append [BitVec.ofNat 8 (r.address.length + r.data.length + 1)] r.spells
  obtain ⟨as', bs', rfl, has', hbs'⟩ := hexBytes?_append r.address hbs
  obtain ⟨body, heol, hbody⟩ := eol_cases r
  have hcount : gethex 2 ⟨m, start, as ++ (as' ++ (bs' ++ (r.eol ++ rest)))⟩ =
      .ok (BitVec.ofNat 32 (r.address.length + r.data.length + 1))
        ⟨m, start, as' ++ (bs' ++ (r.eol ++ rest))⟩ := by
    have hnat : beNat [BitVec.ofNat 8 (r.address.length + r.data.length + 1)] =
        r.address.length + r.data.length + 1 := by
      simp [beNat]
      omega
    rw [← hnat]
    exact gethex_eq has (by simp)
  have hv : gethex digits ⟨m, start, as' ++ (bs' ++ (r.eol ++ rest))⟩ =
      .ok (BitVec.ofNat 32 r.addr) ⟨m, start, bs' ++ (r.eol ++ rest)⟩ := by
    rw [hdigits]
    exact gethex_eq has' (by omega)
  have hval : (BitVec.ofNat 32 (r.address.length + r.data.length + 1) - overhead).toNat =
      r.data.length := by
    rw [hover]
    bv_omega
  obtain ⟨m', cs', hrun, hcs', hbytes⟩ := storeBytes_eq m start (r.eol ++ rest) e hw hn
    (v := BitVec.ofNat 32 r.addr) hbs'
    (fun k hk => by
      have h := hr.select k hk
      rw [BitVec.ofNat_add] at h
      exact h) hr.length_le
  refine ⟨m', ?_, ?_⟩
  · have hinput : r.digits ++ r.eol ++ rest = as ++ (as' ++ (bs' ++ (r.eol ++ rest))) := by
      simp [hdig]
    have hline : cs' ++ (r.eol ++ rest) = (cs' ++ body) ++ ascii '\n' :: rest := by
      simp [heol]
    have hnone : ascii '\n' ∉ cs' ++ body := by
      rw [List.mem_append, not_or]
      exact ⟨not_mem_of_hexBytes? hcs' (by decide), hbody⟩
    rw [hinput, dataRecord, bind_ok hcount, bind_ok hv, hval, bind_ok hrun, hline,
      skipLine_eq hnone]
  · have haddr : (BitVec.ofNat 32 r.addr).setWidth (n + 2) = BitVec.ofNat (n + 2) r.addr :=
      BitVec.setWidth_ofNat_of_le hn r.addr
    rw [hbytes, haddr]
    rfl

theorem gethexFrom_length (v : DataType) :
    ∃ v', gethexFrom cs.length v ⟨m, start, cs ++ rest⟩ = .ok v' ⟨m, start, rest⟩ := by
  induction cs generalizing v with
  | nil => exact ⟨v, rfl⟩
  | cons c cs ih => exact ih _

variable (m start rest) in
/-- The number of an end record may have any characters. -/
theorem gethex_length {k : ℕ} (h : cs.length = k) :
    ∃ v, gethex k ⟨m, start, cs ++ rest⟩ = .ok v ⟨m, start, rest⟩ := by
  rw [← h]
  exact gethexFrom_length 0

theorem endRecord_eq {digits : ℕ} {body : List Ascii} (hlen : 2 + digits ≤ body.length)
    (hbody : ascii '\n' ∉ body) :
    ∃ start', endRecord digits ⟨m, start, body ++ ascii '\n' :: rest⟩ =
      .ok () ⟨m, start', rest⟩ := by
  obtain ⟨as, bs, cs, rfl, has, hbs⟩ : ∃ as bs cs : List Ascii, body = as ++ (bs ++ cs) ∧
      as.length = 2 ∧ bs.length = digits := by
    refine ⟨body.take 2, (body.drop 2).take digits, (body.drop 2).drop digits, ?_, ?_, ?_⟩
    · rw [List.take_append_drop, List.take_append_drop]
    · rw [List.length_take]
      omega
    · rw [List.length_take, List.length_drop]
      omega
  have hcs : ascii '\n' ∉ cs := fun h =>
    hbody (List.mem_append_right _ (List.mem_append_right _ h))
  obtain ⟨x, hx⟩ := gethex_length m start (bs ++ (cs ++ ascii '\n' :: rest)) has
  obtain ⟨v, hv⟩ := gethex_length m start (cs ++ ascii '\n' :: rest) hbs
  refine ⟨v, ?_⟩
  rw [List.append_assoc, List.append_assoc, endRecord, bind_ok hx, bind_ok hv,
    bind_ok (skipLine_eq hcs)]
  rfl

variable (m start rest e) in
theorem turn_data (hw : g.useWrite = true) (hn : n + 2 ≤ 32) (hr : InMemory map slave n r) :
    ∃ m', turn map slave g e ⟨m, start, r.line ++ rest⟩ = .ok .uploading ⟨m', start, rest⟩ ∧
      m'.bytes = m.bytes.write (write n r) := by
  have hlen := r.length_address
  have hrecord : ∃ m', record map slave g e ⟨m, start, r.type.char :: (r.digits ++ r.eol ++ rest)⟩ =
      .ok () ⟨m', start, rest⟩ ∧ m'.bytes = m.bytes.write (write n r) := by
    cases ht : r.type with
    | s1 =>
      rw [ht] at hlen
      exact dataRecord_eq hw hn hr (by rw [hlen]; rfl) (by rw [hlen]; rfl)
    | s2 =>
      rw [ht] at hlen
      exact dataRecord_eq hw hn hr (by rw [hlen]; rfl) (by rw [hlen]; rfl)
    | s3 =>
      rw [ht] at hlen
      exact dataRecord_eq hw hn hr (by rw [hlen]; rfl) (by rw [hlen]; rfl)
  obtain ⟨m', hrun, hbytes⟩ := hrecord
  refine ⟨m', ?_, hbytes⟩
  have hget : uart1Getc ⟨m, start, r.line ++ rest⟩ =
      .ok (ascii 'S') ⟨m, start, r.type.char :: (r.digits ++ r.eol ++ rest)⟩ := rfl
  rw [turn, bind_ok hget, if_pos rfl, bind_ok hrun]
  rfl

variable (m start rest map slave g e) in
theorem turn_other (r : OtherRecord) :
    ∃ start', turn map slave g e ⟨m, start, r.line ++ rest⟩ =
      .ok .uploading ⟨m, start', rest⟩ := by
  have hrecord : ∃ start', record map slave g e
      ⟨m, start, r.type.char :: (r.text ++ ascii '\n' :: rest)⟩ = .ok () ⟨m, start', rest⟩ := by
    have hno := r.no_newline
    have hstart := r.startDigits_le
    cases ht : r.type <;> rw [ht] at hstart
    case s7 => exact endRecord_eq (hstart 8 rfl) hno
    case s8 => exact endRecord_eq (hstart 6 rfl) hno
    case s9 => exact endRecord_eq (hstart 4 rfl) hno
    all_goals exact ⟨start, skipLine_eq hno⟩
  obtain ⟨start', hrun⟩ := hrecord
  refine ⟨start', ?_⟩
  have hget : uart1Getc ⟨m, start, r.line ++ rest⟩ =
      .ok (ascii 'S') ⟨m, start, r.type.char :: (r.text ++ ascii '\n' :: rest)⟩ := by
    simp [OtherRecord.line, uart1Getc]
  rw [turn, bind_ok hget, if_pos rfl, bind_ok hrun]
  rfl

/-- After the upload of a file the data records are written in order. -/
theorem upload_eq (hw : g.useWrite = true) (hn : n + 2 ≤ 32) {file : List Record} {k : ℕ}
    (hk : file.length < k) (hfile : ∀ r ∈ dataRecords file, InMemory map slave n r) :
    (upload map slave g e k ⟨m, start, text file⟩).mem.bytes =
      m.bytes.after ((dataRecords file).map (write n)) := by
  induction file generalizing k m start with
  | nil =>
    obtain ⟨k, rfl⟩ := Nat.exists_eq_succ_of_ne_zero (Nat.ne_zero_of_lt hk)
    rfl
  | cons line file ih =>
    obtain ⟨k, rfl⟩ := Nat.exists_eq_succ_of_ne_zero (Nat.ne_zero_of_lt hk)
    rw [List.length_cons] at hk
    rw [upload]
    cases line with
    | data r =>
      obtain ⟨m', hturn, hbytes⟩ := turn_data m start (text file) e hw hn
        (hfile r List.mem_cons_self)
      rw [show text (.data r :: file) = r.line ++ text file from rfl, hturn]
      dsimp only
      rw [ih (Nat.lt_of_succ_lt_succ hk) (fun r' hr' => hfile r' (List.mem_cons_of_mem r hr')),
        hbytes]
      rfl
    | other r =>
      obtain ⟨start', hturn⟩ := turn_other m start (text file) map slave g e r
      rw [show text (.other r :: file) = r.line ++ text file from rfl, hturn]
      exact ih (Nat.lt_of_succ_lt_succ hk) hfile

end Bootloader

end ThuasRiscv
