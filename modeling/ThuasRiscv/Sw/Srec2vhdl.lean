import ThuasRiscv.ByteStore
import ThuasRiscv.ProcessorCommon
import ThuasRiscv.Sw.SRecord

/-!
# Converter from S-records to a VHDL table

The converter reads a file line by line into a buffer, puts the bytes of the
data records in an array at their distance from the address of the first data
record, and writes the array up to the end of the last data record as a table
of words. `unsigned long` has 64 bits and `char` is signed. An access outside
of the buffer or of the array is undefined, which is `none` here.
-/

namespace ThuasRiscv

open SRecord ByteStore

namespace Srec2vhdl

/-- The length of the line buffer. -/
def lenBuffer : ℕ := 1000

/-- The length of the array. -/
def lenCode : ℕ := 10000000

/-- The variables of the program. -/
structure State where
  code : ℕ → BitVec 8
  address : BitVec 64
  offset : BitVec 64
  first : Bool
  buffer : ℕ → Ascii

/-- The state before the first line, with whatever is in the buffer. -/
def State.initial (buffer : ℕ → Ascii) : State where
  code _ := 0
  address := 0
  offset := 0
  first := true
  buffer := buffer

/-! ## Hex digits -/

def toupper (c : Ascii) : Ascii := if ascii 'a' ≤ c ∧ c ≤ ascii 'z' then c - 32 else c

/-- The number that a character adds. -/
def hexChar (c : Ascii) : BitVec 64 :=
  let c := toupper c
  let efkes : BitVec 64 := if (ascii 'A').sle c then 0x41 - 10 else 0x30
  c.signExtend 64 - efkes

variable (s : State)

/-- Two characters of the buffer. That their upper case is written back shows nowhere. -/
def hex2 (pos : ℕ) : Option (BitVec 64) :=
  if pos + 1 < lenBuffer then
    some ((hexChar (s.buffer pos) <<< 4) + hexChar (s.buffer (pos + 1)))
  else none

def hex4 (pos : ℕ) : Option (BitVec 64) := do
  let a ← hex2 s pos
  let b ← hex2 s (pos + 2)
  some ((a <<< 8) + b)

def hex6 (pos : ℕ) : Option (BitVec 64) := do
  let a ← hex2 s pos
  let b ← hex2 s (pos + 2)
  let c ← hex2 s (pos + 4)
  some ((a <<< 16) + (b <<< 8) + c)

def hex8 (pos : ℕ) : Option (BitVec 64) := do
  let a ← hex2 s pos
  let b ← hex2 s (pos + 2)
  let c ← hex2 s (pos + 4)
  let d ← hex2 s (pos + 6)
  some ((a <<< 24) + (b <<< 16) + (c <<< 8) + d)

/-! ## Records -/

/-- One byte of a record, at the address that is counted up. -/
def storeByte (pos : ℕ) : Option State := do
  let byte ← hex2 s pos
  let index := (s.address - s.offset).toNat
  if index < lenCode then
    some
      { s with
        code := Function.update s.code index (byte.setWidth 8)
        address := s.address + 1 }
  else none

/-- A number of bytes, the digits of which start at `pos`. -/
def storeBytes (pos : ℕ) : ℕ → State → Option State
  | 0, s => some s
  | k + 1, s => (storeByte s pos).bind (storeBytes (pos + 2) k)

/-- The address of a data record, and the offset if it is the first one. -/
def setAddress (address : BitVec 64) : State :=
  let s := { s with address := address }
  if s.first then { s with offset := address, first := false } else s

/-- A data record: `val` is decreased by the bytes of address and checksum. -/
def dataRecord (overhead : BitVec 64) (hexAddress : State → ℕ → Option (BitVec 64)) (pos : ℕ) :
    Option State := do
  let val ← hex2 s 2
  let val := val - overhead
  let address ← hexAddress s 4
  storeBytes pos val.toNat (setAddress s address)

def record1 : Option State := dataRecord s 3 hex4 8

def record2 : Option State := dataRecord s 4 hex6 10

def record3 : Option State := dataRecord s 5 hex8 12

/-- One line in the buffer; a record without data is only reported. -/
def record : Option State :=
  if s.buffer 0 ≠ ascii 'S' then some s
  else if s.buffer 1 = ascii '1' then record1 s
  else if s.buffer 1 = ascii '2' then record2 s
  else if s.buffer 1 = ascii '3' then record3 s
  else some s

/-! ## The file -/

/-- At most `n` characters, up to and with the first newline, and what is left. -/
def fgets : ℕ → List Ascii → List Ascii × List Ascii
  | 0, file => ([], file)
  | _ + 1, [] => ([], [])
  | n + 1, c :: file =>
    if c = ascii '\n' then ([c], file)
    else
      let (line, rest) := fgets n file
      (c :: line, rest)

/-- A line in the buffer ends with a zero, and behind it the buffer is unchanged. -/
def load (line : List Ascii) : State :=
  { s with
    buffer := fun j =>
      if j < line.length then line.getD j 0 else if j = line.length then 0 else s.buffer j }

/-- The lines of a file; a file has at most as many lines as characters. -/
def convert : ℕ → State → List Ascii → Option State
  | 0, s, _ => some s
  | _ + 1, s, [] => some s
  | k + 1, s, file =>
    let (line, rest) := fgets (lenBuffer - 1) file
    (record (load s line)).bind fun s => convert k s rest

/-! ## The table -/

/-- The number of exported bytes, which is aligned to `size`. -/
def exported (size : BitVec 64) : BitVec 64 :=
  let address := s.address - s.offset
  let address := if BitVec.ofNat 64 lenCode < address then BitVec.ofNat 64 lenCode else address
  (address + size - 1) &&& ~~~(size - 1)

/-- The table of words: the first byte of a word is printed first. -/
def table : List DataType :=
  (List.range ((exported s 4).toNat / 4)).map fun k =>
    s.code (4 * k) ++ s.code (4 * k + 1) ++ s.code (4 * k + 2) ++ s.code (4 * k + 3)

/-- The table for a file, with the option `-w`. -/
def main (buffer : ℕ → Ascii) (file : List Ascii) : Option (List DataType) :=
  (convert file.length (.initial buffer) file).map table

/-! ## Hex digits of a record -/

theorem hexChar_eq {c : Ascii} {d : BitVec 4} (h : hexDigit? c = some d) :
    hexChar c = d.setWidth 64 := by
  have hall : ∀ c : Ascii, (hexDigit? c).all fun d => hexChar c = d.setWidth 64 := by
    decide +kernel
  have hc := hall c
  rw [h] at hc
  exact of_decide_eq_true hc

/-- A text is in the buffer. -/
structure Holds (buffer : ℕ → Ascii) (pos : ℕ) (cs : List Ascii) : Prop where
  fits : pos + cs.length ≤ lenBuffer
  char : ∀ j, ∀ h : j < cs.length, buffer (pos + j) = cs[j]

variable {buffer : ℕ → Ascii} {pos : ℕ} {as cs : List Ascii}

theorem Holds.left (h : Holds buffer pos (as ++ cs)) : Holds buffer pos as := by
  have hfits := h.fits
  rw [List.length_append] at hfits
  refine ⟨by omega, fun j hj => ?_⟩
  rw [h.char j (by rw [List.length_append]; omega), List.getElem_append_left hj]

theorem Holds.right (h : Holds buffer pos (as ++ cs)) : Holds buffer (pos + as.length) cs := by
  have hfits := h.fits
  rw [List.length_append] at hfits
  refine ⟨by omega, fun j hj => ?_⟩
  rw [Nat.add_assoc, h.char (as.length + j) (by rw [List.length_append]; omega),
    List.getElem_append_right (Nat.le_add_right _ _)]
  simp

theorem Holds.tail {c : Ascii} (h : Holds buffer pos (c :: cs)) : Holds buffer (pos + 1) cs := by
  have happend : Holds buffer pos ([c] ++ cs) := h
  exact happend.right

theorem Holds.head {c : Ascii} (h : Holds buffer pos (c :: cs)) : buffer pos = c :=
  h.char 0 (Nat.zero_lt_succ _)

variable {s : State} {vs : List (BitVec 8)} {v : BitVec 8}

theorem hex2_eq (h : Holds s.buffer pos cs) (hv : hexBytes? cs = some (v :: vs)) :
    hex2 s pos = some (v.setWidth 64) ∧ ∃ cs', Holds s.buffer (pos + 2) cs' ∧
      hexBytes? cs' = some vs := by
  obtain ⟨a, b, cs', hi, lo, rfl, ha, hb, rfl, hcs⟩ := hexBytes?_cons hv
  have hfits := h.fits
  simp only [List.length_cons] at hfits
  refine ⟨?_, cs', h.tail.tail, hcs⟩
  have happend : ∀ hi lo : BitVec 4,
      (hi.setWidth 64 <<< 4) + lo.setWidth 64 = (hi ++ lo).setWidth 64 := by decide +kernel
  rw [hex2, if_pos (by omega), h.head, h.tail.head, hexChar_eq ha, hexChar_eq hb, happend]

theorem hex4_eq (h : Holds s.buffer pos cs) (hv : hexBytes? cs = some vs) (hlen : vs.length = 2) :
    hex4 s pos = some (BitVec.ofNat 64 (beNat vs)) := by
  match vs, hlen with
  | [a, b], _ =>
    obtain ⟨ha, cs₁, h₁, hv₁⟩ := hex2_eq h hv
    obtain ⟨hb, -⟩ := hex2_eq h₁ hv₁
    rw [hex4, ha, hb]
    simp only [ofNat_beNat_cons (show 8 ≤ 64 by decide), List.length_cons, List.length_nil]
    simp [beNat]

theorem hex6_eq (h : Holds s.buffer pos cs) (hv : hexBytes? cs = some vs) (hlen : vs.length = 3) :
    hex6 s pos = some (BitVec.ofNat 64 (beNat vs)) := by
  match vs, hlen with
  | [a, b, c], _ =>
    obtain ⟨ha, cs₁, h₁, hv₁⟩ := hex2_eq h hv
    obtain ⟨hb, cs₂, h₂, hv₂⟩ := hex2_eq h₁ hv₁
    obtain ⟨hc, -⟩ := hex2_eq h₂ hv₂
    rw [hex6, ha, hb, hc]
    simp only [ofNat_beNat_cons (show 8 ≤ 64 by decide), List.length_cons, List.length_nil]
    simp [BitVec.add_assoc, beNat]

theorem hex8_eq (h : Holds s.buffer pos cs) (hv : hexBytes? cs = some vs) (hlen : vs.length = 4) :
    hex8 s pos = some (BitVec.ofNat 64 (beNat vs)) := by
  match vs, hlen with
  | [a, b, c, d], _ =>
    obtain ⟨ha, cs₁, h₁, hv₁⟩ := hex2_eq h hv
    obtain ⟨hb, cs₂, h₂, hv₂⟩ := hex2_eq h₁ hv₁
    obtain ⟨hc, cs₃, h₃, hv₃⟩ := hex2_eq h₂ hv₂
    obtain ⟨hd, -⟩ := hex2_eq h₃ hv₃
    rw [hex8, ha, hb, hc, hd]
    simp only [ofNat_beNat_cons (show 8 ≤ 64 by decide), List.length_cons, List.length_nil]
    simp [BitVec.add_assoc, beNat]

/-! ## Bytes of a record -/

/-- The start of the array as the bytes of a memory. -/
def bytes (n : ℕ) (s : State) : ByteStore n := fun a => s.code a.toNat

theorem bytes_update {n index : ℕ} (s : State) (u : BitVec 8) (h : index < 2 ^ n) :
    bytes n { s with code := Function.update s.code index u, address := s.address + 1 } =
      Function.update (bytes n s) (BitVec.ofNat n index) u := by
  funext a
  have hiff : a.toNat = index ↔ a = BitVec.ofNat n index := by
    rw [← BitVec.toNat_inj, BitVec.toNat_ofNat, Nat.mod_eq_of_lt h]
  change Function.update s.code index u a.toNat = _
  rw [Function.update_apply, Function.update_apply]
  exact if_congr hiff rfl rfl

/-- The bytes of a record are a write at the distance from the offset. -/
theorem storeBytes_eq (n : ℕ) {index : ℕ} (h : Holds s.buffer pos cs)
    (hv : hexBytes? cs = some (vs ++ [v])) (hindex : (s.address - s.offset).toNat = index)
    (hcode : index + vs.length ≤ lenCode) (hn : index + vs.length ≤ 2 ^ n) :
    ∃ s', storeBytes pos vs.length s = some s' ∧
      bytes n s' = (bytes n s).write ⟨BitVec.ofNat n index, vs⟩ ∧
      s'.address = s.address + BitVec.ofNat 64 vs.length ∧ s'.offset = s.offset ∧
      s'.first = s.first ∧ s'.buffer = s.buffer := by
  induction vs generalizing s pos cs index with
  | nil => exact ⟨s, rfl, rfl, by simp, rfl, rfl, rfl⟩
  | cons u us ih =>
    obtain ⟨hu, cs', h', hus⟩ := hex2_eq h hv
    simp only [List.length_cons] at hcode hn
    have hsmall : lenCode < 2 ^ 64 := by decide
    have hnext : (s.address + 1 - s.offset).toNat = index + 1 := by bv_omega
    have hstore : storeByte s pos =
        some { s with
          code := Function.update s.code index u
          address := s.address + 1 } := by
      simp only [storeByte, hu, Option.bind_eq_bind, Option.bind_some, hindex]
      rw [if_pos (by omega)]
      simp
    obtain ⟨s', hs', hbytes, haddr, hoff, hfirst, hbuf⟩ :=
      ih (s := { s with
        code := Function.update s.code index u
        address := s.address + 1 }) h' hus hnext (by omega) (by omega)
    refine ⟨s', ?_, ?_, ?_, hoff, hfirst, hbuf⟩
    · rw [List.length_cons, storeBytes, hstore]
      exact hs'
    · rw [hbytes, write_cons _ _ _ (by omega)]
      have hone : BitVec.ofNat n index + 1 = BitVec.ofNat n (index + 1) :=
        (BitVec.ofNat_add index 1).symm
      rw [hone]
      congr 1
      exact bytes_update s u (by omega)
    · rw [haddr, List.length_cons, Nat.add_comm, BitVec.ofNat_add, BitVec.add_assoc]
      rfl

/-! ## Records of a file -/

/-- The write of a data record to a memory, the addresses of which start at `base`. -/
def write (n base : ℕ) (r : DataRecord) : Write n := ⟨BitVec.ofNat n (r.addr - base), r.data⟩

/-- The data records that were converted. -/
structure Converted (n base : ℕ) (rs : List DataRecord) (s : State) : Prop where
  bytes : bytes n s = ByteStore.after (fun _ => 0) (rs.map (write n base))
  first : s.first = rs.isEmpty
  offset : rs ≠ [] → s.offset = BitVec.ofNat 64 base
  address : ∀ r ∈ rs.getLast?, s.address = BitVec.ofNat 64 r.last

/-- A data record fits in the array and in the memory. -/
structure Fits (n base : ℕ) (r : DataRecord) : Prop where
  base_le : base ≤ r.addr
  array : r.last ≤ base + lenCode
  memory : r.last ≤ base + 2 ^ n

variable {n base : ℕ} {r : DataRecord} {rs : List DataRecord}

theorem Converted.setAddress (hs : Converted n base rs s) (hbase : rs = [] → r.addr = base) :
    Srec2vhdl.bytes n (setAddress s (BitVec.ofNat 64 r.addr)) = Srec2vhdl.bytes n s ∧
      setAddress s (BitVec.ofNat 64 r.addr) =
        { s with
          address := BitVec.ofNat 64 r.addr
          offset := BitVec.ofNat 64 base
          first := false } := by
  have hfirst := hs.first
  cases rs with
  | nil =>
    rw [Srec2vhdl.setAddress, hfirst, hbase rfl]
    exact ⟨rfl, rfl⟩
  | cons r' rs =>
    have hoff := hs.offset (List.cons_ne_nil r' rs)
    rw [Srec2vhdl.setAddress, hfirst]
    constructor
    · rfl
    · simp [← hoff]

theorem addr_lt (r : DataRecord) : r.addr < 2 ^ 32 := by
  have h := beNat_lt r.address
  rw [r.length_address] at h
  have hle : 256 ^ r.type.addressLength ≤ 2 ^ 32 := by cases r.type <;> decide
  exact Nat.lt_of_lt_of_le h hle

theorem dataRecord_eq {hexAddress : State → ℕ → Option (BitVec 64)} {overhead : BitVec 64}
    (hs : Converted n base rs s) (hr : Fits n base r) (hbase : rs = [] → r.addr = base)
    (hover : overhead = BitVec.ofNat 64 (r.address.length + 1))
    (hpos : pos = 4 + 2 * r.address.length) (h : Holds s.buffer 2 (r.digits ++ cs))
    (hx : hexAddress s 4 = some (BitVec.ofNat 64 r.addr)) :
    ∃ s', dataRecord s overhead hexAddress pos = some s' ∧ Converted n base (rs ++ [r]) s' := by
  obtain ⟨hcount, ds, hds, hspells⟩ := hex2_eq h.left r.spells
  obtain ⟨as, bs, rfl, has, hbs⟩ := hexBytes?_append _ hspells
  have hdata : Holds s.buffer pos bs := by
    have hright := hds.right
    rw [length_hexBytes? has] at hright
    rw [hpos]
    exact hright
  have hlt := r.count_lt
  have hval : (((BitVec.ofNat 8 (r.address.length + r.data.length + 1)).setWidth 64) -
      overhead).toNat = r.data.length := by
    have hcast : (BitVec.ofNat 8 (r.address.length + r.data.length + 1)).setWidth 64 =
        BitVec.ofNat 64 (r.address.length + r.data.length + 1) := by
      apply BitVec.eq_of_toNat_eq
      simp
      omega
    rw [hover, hcast]
    bv_omega
  obtain ⟨hbytes, hset⟩ := hs.setAddress hbase
  have haddr := addr_lt r
  have hle := hr.base_le
  have harray := hr.array
  have hmemory := hr.memory
  have hdiff : (BitVec.ofNat 64 r.addr - BitVec.ofNat 64 base).toNat = r.addr - base := by
    bv_omega
  have hindex : ((setAddress s (BitVec.ofNat 64 r.addr)).address -
      (setAddress s (BitVec.ofNat 64 r.addr)).offset).toNat = r.addr - base := by
    rw [hset]
    exact hdiff
  have hholds : Holds (setAddress s (BitVec.ofNat 64 r.addr)).buffer pos bs := by
    rw [hset]
    exact hdata
  obtain ⟨s', hs', hwrite, hlast, hoff, hfirst, -⟩ :=
    storeBytes_eq n hholds hbs hindex
      (by rw [DataRecord.last] at harray; omega) (by rw [DataRecord.last] at hmemory; omega)
  refine ⟨s', ?_, ?_⟩
  · rw [dataRecord, hcount, hx]
    simp only [Option.bind_eq_bind, Option.bind_some, hval]
    exact hs'
  · rw [hset] at hlast hoff hfirst
    constructor
    · rw [hwrite, hbytes, hs.bytes, List.map_append, after_append]
      rfl
    · rw [hfirst]
      simp
    · exact fun _ => hoff
    · intro r' hr'
      rw [List.getLast?_append, List.getLast?_singleton] at hr'
      cases hr'
      rw [hlast, DataRecord.last, BitVec.ofNat_add]

/-! ## Lines of a file -/

theorem holds_load {line : List Ascii} (h : line.length ≤ lenBuffer) :
    Holds (load s line).buffer 0 line := by
  refine ⟨by omega, fun j hj => ?_⟩
  rw [Nat.zero_add, load]
  simp [hj]

/-- A line with a data record of one of the three types. -/
theorem record_data (hs : Converted n base rs s) (hr : Fits n base r)
    (hbase : rs = [] → r.addr = base) (h : Holds s.buffer 0 r.line) :
    ∃ s', record s = some s' ∧ Converted n base (rs ++ [r]) s' := by
  have hS : s.buffer 0 = ascii 'S' := h.head
  have htype : s.buffer 1 = r.type.char := h.tail.head
  have htext : Holds s.buffer 2 (r.digits ++ r.eol) := h.tail.tail
  obtain ⟨hcount, ds, hds, hspells⟩ := hex2_eq htext.left r.spells
  obtain ⟨as, bs, rfl, has, hbs⟩ := hexBytes?_append _ hspells
  have hlen := r.length_address
  rw [record, if_neg (not_not.mpr hS), htype]
  cases ht : r.type with
  | s1 =>
    rw [ht] at hlen
    exact dataRecord_eq hs hr hbase (by rw [hlen]; rfl) (by rw [hlen]; rfl) htext
      (hex4_eq hds.left has hlen)
  | s2 =>
    rw [ht] at hlen
    exact dataRecord_eq hs hr hbase (by rw [hlen]; rfl) (by rw [hlen]; rfl) htext
      (hex6_eq hds.left has hlen)
  | s3 =>
    rw [ht] at hlen
    exact dataRecord_eq hs hr hbase (by rw [hlen]; rfl) (by rw [hlen]; rfl) htext
      (hex8_eq hds.left has hlen)

theorem record_other {r : OtherRecord} (h : Holds s.buffer 0 r.line) : record s = some s := by
  have htype : s.buffer 1 = r.type.char := h.tail.head
  have hne : r.type.char ≠ ascii '1' ∧ r.type.char ≠ ascii '2' ∧ r.type.char ≠ ascii '3' := by
    cases r.type <;> decide
  rw [record, htype, if_neg hne.1, if_neg hne.2.1, if_neg hne.2.2, ite_self]

theorem fgets_line {k : ℕ} {body : List Ascii} (rest : List Ascii) (hbody : ascii '\n' ∉ body)
    (h : body.length < k) :
    fgets k (body ++ ascii '\n' :: rest) = (body ++ [ascii '\n'], rest) := by
  induction body generalizing k with
  | nil =>
    obtain ⟨k, rfl⟩ := Nat.exists_eq_succ_of_ne_zero (Nat.ne_zero_of_lt h)
    rfl
  | cons c body ih =>
    obtain ⟨k, rfl⟩ := Nat.exists_eq_succ_of_ne_zero (Nat.ne_zero_of_lt h)
    rw [List.mem_cons, not_or] at hbody
    rw [List.cons_append, fgets, if_neg (Ne.symm hbody.1), ih hbody.2 (Nat.lt_of_succ_lt_succ h)]
    rfl

theorem Converted.load {line : List Ascii} (h : Converted n base rs s) :
    Converted n base rs (load s line) := ⟨h.bytes, h.first, h.offset, h.address⟩

theorem convert_succ (k : ℕ) (s : State) {file : List Ascii} (h : file ≠ []) :
    convert (k + 1) s file =
      (record (load s (fgets (lenBuffer - 1) file).1)).bind fun s =>
        convert k s (fgets (lenBuffer - 1) file).2 := by
  cases file with
  | nil => exact absurd rfl h
  | cons c file => rfl

/-- A line with a record. -/
theorem convert_line (n base k : ℕ) (rs : List DataRecord) (s : State) (line : Record)
    (file : List Record) :
    ∃ s₀, Holds s₀.buffer 0 line.line ∧
      (Converted n base rs s → Converted n base rs s₀) ∧
      convert (k + 1) s (text (line :: file)) =
        (record s₀).bind fun s => convert k s (text file) := by
  obtain ⟨body, hline, hbody, hlen⟩ := line.line_eq
  have htext : text (line :: file) = body ++ ascii '\n' :: text file := by
    simp [text, hline]
  have hget := fgets_line (k := lenBuffer - 1) (text file) hbody
    (Nat.lt_of_le_of_lt hlen (by decide))
  refine ⟨load s line.line, ?_, Converted.load, ?_⟩
  · apply holds_load
    rw [hline, List.length_append]
    exact Nat.le_trans (Nat.add_le_add_right hlen 1) (by decide)
  · rw [convert_succ _ _ (by simp [htext]), htext, hget, hline]

/-- All data records of a file are converted. -/
theorem convert_eq {k : ℕ} {file : List Record} (hk : file.length ≤ k)
    (hs : Converted n base rs s) (hfits : ∀ r ∈ dataRecords file, Fits n base r)
    (hbase : ∀ r ∈ (rs ++ dataRecords file).head?, r.addr = base) :
    ∃ s', convert k s (text file) = some s' ∧ Converted n base (rs ++ dataRecords file) s' := by
  induction file generalizing k s rs with
  | nil =>
    refine ⟨s, by cases k <;> rfl, ?_⟩
    simpa [dataRecords] using hs
  | cons line file ih =>
    rw [List.length_cons] at hk
    obtain ⟨k, rfl⟩ := Nat.exists_eq_succ_of_ne_zero (Nat.ne_zero_of_lt hk)
    obtain ⟨s₀, hholds, hconv, hstep⟩ :=
      convert_line n base k rs s line file
    rw [hstep]
    cases line with
    | data r =>
      have hfirst : rs = [] → r.addr = base := by
        rintro rfl
        exact hbase r rfl
      obtain ⟨s₁, hrec, hs₁⟩ :=
        record_data (hconv hs) (hfits r List.mem_cons_self) hfirst hholds
      have hbase' : ∀ r' ∈ ((rs ++ [r]) ++ dataRecords file).head?, r'.addr = base := by
        rw [List.append_assoc]
        exact hbase
      obtain ⟨s', hs', hdone⟩ :=
        ih (Nat.le_of_succ_le_succ hk) hs₁
          (fun r' hr' => hfits r' (List.mem_cons_of_mem r hr')) hbase'
      refine ⟨s', ?_, ?_⟩
      · rw [hrec]
        exact hs'
      · rw [List.append_assoc] at hdone
        exact hdone
    | other r =>
      rw [record_other hholds]
      exact ih (Nat.le_of_succ_le_succ hk) (hconv hs) hfits hbase

/-! ## Words of the table -/

theorem toNat_and_not_three (x : BitVec 64) : (x &&& ~~~3).toNat = 4 * (x.toNat / 4) := by
  have happend : x &&& ~~~3 = x.extractLsb' 2 62 ++ (0 : BitVec 2) := by
    apply BitVec.eq_of_getLsbD_eq
    intro j hj
    have hthree : ∀ j < 64, (~~~3 : BitVec 64).getLsbD j = decide (2 ≤ j) := by decide
    rw [BitVec.getLsbD_and, hthree j hj, BitVec.getLsbD_append, BitVec.getLsbD_extractLsb']
    by_cases h : j < 2
    · simp [h]
    · rw [if_neg h, decide_eq_true (Nat.le_of_not_lt h), decide_eq_true (by omega),
        Nat.add_sub_cancel' (Nat.le_of_not_lt h)]
      simp
  have hx := x.isLt
  rw [happend, toNat_append_offset, BitVec.extractLsb'_toNat, Nat.shiftRight_eq_div_pow,
    Nat.mod_eq_of_lt (by omega)]
  rfl

theorem exported_eq {len : ℕ} (h : (s.address - s.offset).toNat = len) (hlen : len ≤ lenCode) :
    (exported s 4).toNat = 4 * ((len + 3) / 4) := by
  have hcode : lenCode = 10000000 := rfl
  have hnot : ¬BitVec.ofNat 64 lenCode < s.address - s.offset := by
    rw [BitVec.lt_def, h]
    simp [hcode]
    omega
  have hsum : (s.address - s.offset + 4 - 1).toNat = len + 3 := by bv_omega
  rw [exported, if_neg hnot, show (4 : BitVec 64) - 1 = 3 by decide, toNat_and_not_three, hsum]

/-- The byte of the array at a position, in the word that the table has for it. -/
theorem table_getElem? {len i : ℕ} (h : (s.address - s.offset).toNat = len) (hlen : len ≤ lenCode) :
    (table s)[i]? = if 4 * i < len then
      some (s.code (4 * i) ++ s.code (4 * i + 1) ++ s.code (4 * i + 2) ++ s.code (4 * i + 3))
    else none := by
  rw [table, exported_eq h hlen, List.getElem?_map]
  split_ifs with hi
  · rw [List.getElem?_range (by omega)]
    rfl
  · rw [List.getElem?_eq_none (by simp; omega)]
    rfl

end Srec2vhdl

end ThuasRiscv
