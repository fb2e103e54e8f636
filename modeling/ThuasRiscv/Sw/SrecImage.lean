import ThuasRiscv.Assignments
import ThuasRiscv.Sw.Srec2vhdl

/-!
# Tables from S-records

`srec2vhdl` and `srec2mif` have the same code up to the text of their tables. A
table has a line for each word of one, two, four or eight bytes. The model reads
any file at all: a count may be smaller than the header it stands for, digits
may be missing or be other characters, and addresses may go anywhere.
-/

namespace ThuasRiscv

open SRecord Assignments

namespace SrecImage

open Srec2vhdl (State hex2 hex4 hex6 hex8 fgets lenBuffer lenCode)

/-! ## The programs -/

/-- The width of the words of a table. -/
inductive Width where
  | byte | halfword | word | dword
  deriving DecidableEq, Repr

def Width.size : Width → ℕ
  | .byte => 1
  | .halfword => 2
  | .word => 4
  | .dword => 8

/-- The options that show in the table. -/
structure Options where
  verbose : Bool
  rev : Bool
  width : Width

/-- The vendor text of an S0 record is read in verbose mode. -/
def vendorText (s : State) (pos : ℕ) : ℕ → Option Unit
  | 0 => some ()
  | k + 1 => (hex2 s pos).bind fun _ => vendorText s (pos + 2) k

def record0 (s : State) : Option State := do
  let val ← hex2 s 2
  let _ ← vendorText s 8 (val - 3).toNat
  some s

/-- One line in the buffer. -/
def record (verbose : Bool) (s : State) : Option State :=
  if s.buffer 0 = ascii 'S' ∧ s.buffer 1 = ascii '0' ∧ verbose = true then record0 s
  else Srec2vhdl.record s

/-- The lines of a file; a file has at most as many lines as characters. -/
def convert (verbose : Bool) : ℕ → State → List Ascii → Option State
  | 0, s, _ => some s
  | _ + 1, s, [] => some s
  | k + 1, s, file =>
    let (line, rest) := fgets (lenBuffer - 1) file
    (record verbose (Srec2vhdl.load s line)).bind fun s => convert verbose k s rest

/-- The length of the data in the array. -/
def shifted (s : State) : BitVec 64 := s.address - s.offset

/-- The internal buffer is too small. -/
def warns (s : State) : Bool := decide (BitVec.ofNat 64 lenCode < shifted s)

/-- The number of bytes that are exported. -/
def exported (s : State) : BitVec 64 := if warns s then BitVec.ofNat 64 lenCode else shifted s

/-- Align to the next address. -/
def align (size address : BitVec 64) : BitVec 64 := (address + size - 1) &&& ~~~(size - 1)

/-- The bytes of a line in the order in which they are printed; the array ends at `lenCode`. -/
def bytesAt (o : Options) (code : ℕ → BitVec 8) (i : ℕ) : Option (List (BitVec 8)) :=
  if i + o.width.size ≤ lenCode then
    let bytes := (List.range o.width.size).map fun j => code (i + j)
    some (if o.rev then bytes.reverse else bytes)
  else none

/-- The lines from byte `i` on: the number of a line and its bytes. -/
def outputFrom (o : Options) (code : ℕ → BitVec 8) (address : ℕ) :
    ℕ → ℕ → Option (List (ℕ × List (BitVec 8)))
  | 0, _ => some []
  | fuel + 1, i =>
    if i < address then do
      let bytes ← bytesAt o code i
      let lines ← outputFrom o code address fuel (i + o.width.size)
      some ((i / o.width.size, bytes) :: lines)
    else some []

/-- The loop that outputs the data. -/
def output (o : Options) (s : State) : Option (List (ℕ × List (BitVec 8))) :=
  let address := (align (BitVec.ofNat 64 o.width.size) (exported s)).toNat
  outputFrom o s.code address address 0

/-- What a program prints, the texts around it left out. -/
structure Table where
  warns : Bool
  lines : List (ℕ × List (BitVec 8))

/-- `srec2vhdl` on a file; `buffer` is what the line buffer holds at first. -/
def srec2vhdl (o : Options) (buffer : ℕ → Ascii) (file : List Ascii) : Option Table := do
  let s ← convert o.verbose file.length (.initial buffer) file
  let lines ← output o s
  some ⟨warns s, lines⟩

/-- A table with its header. -/
structure Mif extends Table where
  depth : ℕ
  width : ℕ

/-- `srec2mif` on a file. The depth is printed before the length is aligned. -/
def srec2mif (o : Options) (buffer : ℕ → Ascii) (file : List Ascii) : Option Mif := do
  let s ← convert o.verbose file.length (.initial buffer) file
  let depth := (exported s).toNat / o.width.size
  let lines ← output o s
  some ⟨⟨warns s, lines⟩, depth, o.width.size * 8⟩

/-! ## The records of a file -/

/-- A data record as the programs read it: `length` bytes from `address` on. -/
structure Parsed where
  /-- The position of the digits of the first byte. -/
  pos : ℕ
  address : BitVec 64
  length : ℕ
  byte : ℕ → BitVec 8

/-- A line with a data record, the digits of which may be behind the end of the buffer. -/
def parseData (overhead : BitVec 64) (hexAddress : State → ℕ → Option (BitVec 64)) (pos : ℕ)
    (buffer : ℕ → Ascii) : Option Parsed := do
  let s := State.initial buffer
  let val ← hex2 s 2
  let address ← hexAddress s 4
  some ⟨pos, address, (val - overhead).toNat,
    fun j => ((hex2 s (pos + 2 * j)).getD 0).setWidth 8⟩

def parse (buffer : ℕ → Ascii) : Option Parsed :=
  if buffer 0 ≠ ascii 'S' then none
  else if buffer 1 = ascii '1' then parseData 3 hex4 8 buffer
  else if buffer 1 = ascii '2' then parseData 4 hex6 10 buffer
  else if buffer 1 = ascii '3' then parseData 5 hex8 12 buffer
  else none

/-- The contents of the buffer in each line of a file. -/
def buffers : ℕ → (ℕ → Ascii) → List Ascii → List (ℕ → Ascii)
  | 0, _, _ => []
  | _ + 1, _, [] => []
  | k + 1, buffer, file =>
    let (line, rest) := fgets (lenBuffer - 1) file
    let buffer := (Srec2vhdl.load (.initial buffer) line).buffer
    buffer :: buffers k buffer rest

/-- The data records of a file. -/
def records (buffer : ℕ → Ascii) (file : List Ascii) : List Parsed :=
  (buffers file.length buffer file).filterMap parse

/-- The base of the image: the address of the first record. -/
def base : List Parsed → BitVec 64
  | [] => 0
  | r :: _ => r.address

/-- The address behind the last record. -/
def endAddress (rs : List Parsed) : BitVec 64 :=
  match rs.getLast? with
  | none => 0
  | some r => r.address + BitVec.ofNat 64 r.length

/-- The length of the image up to the end of the last record. -/
def imageLength (rs : List Parsed) : ℕ := (endAddress rs - base rs).toNat

namespace Parsed

variable (b : BitVec 64) (r : Parsed)

/-- The position of a byte relative to the base. -/
def position (j : ℕ) : ℕ := (r.address + BitVec.ofNat 64 j - b).toNat

/-- The assignments to the array. -/
def stores : List (ℕ × BitVec 8) :=
  (List.range r.length).map fun j => (r.position b j, r.byte j)

/-- The digits of a record are in the buffer and its bytes in the array. -/
structure InBounds : Prop where
  buffer : r.pos + 2 * r.length ≤ lenBuffer
  code : ∀ j, j < r.length → r.position b j < lenCode

end Parsed

def stores (b : BitVec 64) (rs : List Parsed) : List (ℕ × BitVec 8) := rs.flatMap (·.stores b)

/-- The length of the vendor text of an S0 record. -/
def vendorLength (buffer : ℕ → Ascii) : ℕ :=
  (((hex2 (.initial buffer) 2).getD 0) - 3).toNat

/-- The programs read a line within the bounds of the buffer and of the array. -/
structure LineInBounds (verbose : Bool) (b : BitVec 64) (buffer : ℕ → Ascii) : Prop where
  vendor : buffer 0 = ascii 'S' → buffer 1 = ascii '0' → verbose = true →
    8 + 2 * vendorLength buffer ≤ lenBuffer
  data : ∀ r, parse buffer = some r → r.InBounds b

/-! ## One record -/

variable {s : State} {pos n : ℕ}

/-- The assignment of one byte of a record. -/
def storeAt (s : State) (pos j : ℕ) : ℕ × BitVec 8 :=
  ((s.address + BitVec.ofNat 64 j - s.offset).toNat,
    ((hex2 s (pos + 2 * j)).getD 0).setWidth 8)

theorem ofNat_succ_add (x : BitVec 64) (j : ℕ) :
    x + 1 + BitVec.ofNat 64 j = x + BitVec.ofNat 64 (j + 1) := by
  rw [BitVec.add_assoc, Nat.add_comm j 1, BitVec.ofNat_add]
  rfl

theorem storeByte_eq (hbuffer : pos + 2 ≤ lenBuffer) (hcode : (storeAt s pos 0).1 < lenCode) :
    Srec2vhdl.storeByte s pos = some { s with
      code := Function.update s.code (storeAt s pos 0).1 (storeAt s pos 0).2
      address := s.address + 1 } := by
  have hdigits : hex2 s pos = some ((hex2 s pos).getD 0) := by
    rw [hex2, if_pos (by omega)]
    rfl
  have hzero : (s.address + BitVec.ofNat 64 0 - s.offset) = s.address - s.offset := by simp
  rw [storeAt, hzero] at hcode ⊢
  rw [Srec2vhdl.storeByte, hdigits]
  exact if_pos hcode

theorem storeBytes_of_inBounds (hbuffer : pos + 2 * n ≤ lenBuffer)
    (hcode : ∀ j, j < n → (storeAt s pos j).1 < lenCode) :
    Srec2vhdl.storeBytes pos n s = some { s with
      code := assign s.code ((List.range n).map (storeAt s pos))
      address := s.address + BitVec.ofNat 64 n } := by
  induction n generalizing pos s with
  | zero => simp [Srec2vhdl.storeBytes, assign]
  | succ n ih =>
    have hbyte := storeByte_eq (s := s) (show pos + 2 ≤ lenBuffer by omega)
      (hcode 0 (Nat.succ_pos n))
    rw [Srec2vhdl.storeBytes, hbyte, Option.bind_some]
    set t : State := { s with
      code := Function.update s.code (storeAt s pos 0).1 (storeAt s pos 0).2
      address := s.address + 1 } with ht
    have hstore : ∀ j, storeAt t (pos + 2) j = storeAt s pos (j + 1) := by
      intro j
      rw [storeAt, storeAt, ← ofNat_succ_add, Nat.mul_succ, Nat.add_comm (2 * j), ← Nat.add_assoc]
      rfl
    rw [ih (by omega) fun j hj => by rw [hstore]; exact hcode (j + 1) (Nat.succ_lt_succ hj)]
    have hlist : (List.range n).map (storeAt t (pos + 2)) =
        (List.range n).map (storeAt s pos ∘ Nat.succ) :=
      List.map_congr_left fun j _ => hstore j
    have haddress : t.address + BitVec.ofNat 64 n = s.address + BitVec.ofNat 64 (n + 1) :=
      ofNat_succ_add s.address n
    rw [hlist, haddress, List.range_succ_eq_map, List.map_cons, List.map_map]
    rfl

/-- Out of the bounds the program is undefined. -/
theorem storeBytes_eq_none (hpos : pos ≤ lenBuffer)
    (h : ¬ (pos + 2 * n ≤ lenBuffer ∧ ∀ j, j < n → (storeAt s pos j).1 < lenCode)) :
    Srec2vhdl.storeBytes pos n s = none := by
  induction n generalizing pos s with
  | zero => exact absurd ⟨by omega, fun j hj => absurd hj (Nat.not_lt_zero j)⟩ h
  | succ n ih =>
    rw [Srec2vhdl.storeBytes]
    by_cases hbuffer : pos + 1 < lenBuffer
    · by_cases hindex : (storeAt s pos 0).1 < lenCode
      · rw [storeByte_eq hbuffer hindex, Option.bind_some]
        apply ih hbuffer
        rintro ⟨hrest, hcode⟩
        refine h ⟨by omega, fun j hj => ?_⟩
        cases j with
        | zero => exact hindex
        | succ j =>
          have hlater := hcode j (Nat.lt_of_succ_lt_succ hj)
          rw [storeAt, ofNat_succ_add] at hlater
          exact hlater
      · have hzero : (s.address + BitVec.ofNat 64 0 - s.offset) = s.address - s.offset := by simp
        rw [storeAt, hzero] at hindex
        rw [Srec2vhdl.storeByte, hex2, if_pos hbuffer]
        simp only [Option.bind_eq_bind, Option.bind_some, if_neg hindex, Option.bind_none]
    · rw [Srec2vhdl.storeByte, hex2, if_neg hbuffer]
      rfl

/-! ## One line -/

theorem hex2_eq_some (h : pos + 1 < lenBuffer) : hex2 s pos = some ((hex2 s pos).getD 0) := by
  rw [hex2, if_pos h]
  rfl

/-- The digits of an address are in the buffer. -/
theorem exists_hex4 (s : State) : ∃ a, hex4 s 4 = some a := by
  rw [hex4, hex2_eq_some (by decide), hex2_eq_some (by decide)]
  exact ⟨_, rfl⟩

theorem exists_hex6 (s : State) : ∃ a, hex6 s 4 = some a := by
  rw [hex6, hex2_eq_some (by decide), hex2_eq_some (by decide), hex2_eq_some (by decide)]
  exact ⟨_, rfl⟩

theorem exists_hex8 (s : State) : ∃ a, hex8 s 4 = some a := by
  rw [hex8, hex2_eq_some (by decide), hex2_eq_some (by decide), hex2_eq_some (by decide),
    hex2_eq_some (by decide)]
  exact ⟨_, rfl⟩

/-- A line with a data record is the record that is parsed. -/
structure Reads (s : State) (r : Parsed) (next : Option State) : Prop where
  pos_le : r.pos ≤ lenBuffer
  byte : ∀ t : State, t.buffer = s.buffer → ∀ j, (storeAt t r.pos j).2 = r.byte j
  next : next = Srec2vhdl.storeBytes r.pos r.length (Srec2vhdl.setAddress s r.address)

theorem reads_parseData (overhead : BitVec 64) (hexAddress : State → ℕ → Option (BitVec 64))
    (hpos : pos ≤ lenBuffer) (hsome : ∃ a, hexAddress s 4 = some a)
    (hbuffer : hexAddress (.initial s.buffer) 4 = hexAddress s 4) :
    ∃ r, parseData overhead hexAddress pos s.buffer = some r ∧
      Reads s r (Srec2vhdl.dataRecord s overhead hexAddress pos) := by
  obtain ⟨a, ha⟩ := hsome
  have hval : hex2 s 2 = some ((hex2 s 2).getD 0) := hex2_eq_some (by decide)
  refine ⟨⟨pos, a, ((hex2 s 2).getD 0 - overhead).toNat,
    fun j => ((hex2 s (pos + 2 * j)).getD 0).setWidth 8⟩, ?_, hpos, ?_, ?_⟩
  · rw [parseData, hbuffer, ha, show hex2 (.initial s.buffer) 2 = hex2 s 2 from rfl, hval]
    rfl
  · intro t ht j
    simp only [storeAt, hex2, ht]
  · rw [Srec2vhdl.dataRecord, ha, hval]
    rfl

/-- A line has a data record, or it changes nothing. -/
theorem parse_cases (s : State) : (parse s.buffer = none ∧ Srec2vhdl.record s = some s) ∨
    ∃ r, parse s.buffer = some r ∧ Reads s r (Srec2vhdl.record s) := by
  rw [parse, Srec2vhdl.record]
  split_ifs
  · exact .inl ⟨rfl, rfl⟩
  · exact .inr (reads_parseData 3 hex4 (by decide) (exists_hex4 s) rfl)
  · exact .inr (reads_parseData 4 hex6 (by decide) (exists_hex6 s) rfl)
  · exact .inr (reads_parseData 5 hex8 (by decide) (exists_hex8 s) rfl)
  · exact .inl ⟨rfl, rfl⟩

theorem vendorText_eq (hpos : pos ≤ lenBuffer) : vendorText s pos n =
    if pos + 2 * n ≤ lenBuffer then some () else none := by
  induction n generalizing pos with
  | zero => exact (if_pos (by omega)).symm
  | succ n ih =>
    rw [vendorText]
    by_cases hbuffer : pos + 1 < lenBuffer
    · rw [hex2_eq_some hbuffer, Option.bind_some, ih hbuffer]
      exact if_congr (by omega) rfl rfl
    · rw [hex2, if_neg hbuffer, if_neg (by omega)]
      rfl

theorem record0_eq (s : State) : record0 s =
    if 8 + 2 * vendorLength s.buffer ≤ lenBuffer then some s else none := by
  have hval : hex2 s 2 = some ((hex2 s 2).getD 0) := hex2_eq_some (by decide)
  have htext := vendorText_eq (s := s) (n := vendorLength s.buffer) (show 8 ≤ lenBuffer by decide)
  have hlength : ((hex2 s 2).getD 0 - 3).toNat = vendorLength s.buffer := rfl
  rw [record0, hval]
  simp only [Option.bind_eq_bind, Option.bind_some, hlength, htext]
  split_ifs <;> rfl

/-! ## The records of a file -/

/-- The state after the records `rs`. -/
structure Loaded (rs : List Parsed) (s : State) : Prop where
  first : s.first = rs.isEmpty
  offset : s.offset = base rs
  address : s.address = endAddress rs
  code : s.code = assign (fun _ => 0) (stores (base rs) rs)

variable {rs : List Parsed} {r : Parsed}

theorem base_append (h : rs ≠ []) (ts : List Parsed) : base (rs ++ ts) = base rs := by
  cases rs with
  | nil => exact absurd rfl h
  | cons r rs => rfl

theorem stores_append (b : BitVec 64) (rs ts : List Parsed) :
    stores b (rs ++ ts) = stores b rs ++ stores b ts := List.flatMap_append

theorem Loaded.setAddress (h : Loaded rs s) (r : Parsed) :
    Srec2vhdl.setAddress s r.address = { s with
      address := r.address
      offset := base (rs ++ [r])
      first := false } := by
  have hfirst := h.first
  have hoffset := h.offset
  cases rs with
  | nil => simp [Srec2vhdl.setAddress, hfirst, base]
  | cons r' rs => simp [Srec2vhdl.setAddress, hfirst, hoffset, base]

theorem stores_base_append (rs ts : List Parsed) :
    stores (base rs) rs = stores (base (rs ++ ts)) rs := by
  cases rs with
  | nil => rfl
  | cons r rs => rfl

/-- The assignments of a record that is read. -/
theorem Reads.storeAt_eq {next : Option State} (hreads : Reads s r next) (h : Loaded rs s)
    (j : ℕ) : storeAt (Srec2vhdl.setAddress s r.address) r.pos j =
      (r.position (base (rs ++ [r])) j, r.byte j) := by
  rw [← hreads.byte (Srec2vhdl.setAddress s r.address) (by rw [h.setAddress]) j, h.setAddress]
  rfl

/-- A record within the bounds. -/
theorem Loaded.reads {next : Option State} (h : Loaded rs s) (hreads : Reads s r next)
    (hr : r.InBounds (base (rs ++ [r]))) :
    ∃ s', next = some s' ∧ Loaded (rs ++ [r]) s' ∧ s'.buffer = s.buffer := by
  have hstore := hreads.storeAt_eq h
  have hbytes := storeBytes_of_inBounds (s := Srec2vhdl.setAddress s r.address) hr.buffer
    fun j hj => by rw [hstore]; exact hr.code j hj
  have hlist : (List.range r.length).map (storeAt (Srec2vhdl.setAddress s r.address) r.pos) =
      r.stores (base (rs ++ [r])) :=
    List.map_congr_left fun j _ => hstore j
  rw [hlist, h.setAddress] at hbytes
  have hnext := hreads.next
  rw [h.setAddress, hbytes] at hnext
  refine ⟨_, hnext, ?_, rfl⟩
  constructor
  case first => simp
  case offset => rfl
  case address => simp [endAddress]
  case code =>
    have hstores : stores (base (rs ++ [r])) [r] = r.stores (base (rs ++ [r])) :=
      List.flatMap_singleton _ r
    change assign s.code _ = _
    rw [h.code, stores_base_append rs [r], ← assign_append, stores_append, hstores]

/-- A record out of the bounds. -/
theorem Loaded.reads_none {next : Option State} (h : Loaded rs s) (hreads : Reads s r next)
    (hr : ¬ r.InBounds (base (rs ++ [r]))) : next = none := by
  have hstore := hreads.storeAt_eq h
  rw [hreads.next]
  apply storeBytes_eq_none hreads.pos_le
  rintro ⟨hbuffer, hcode⟩
  refine hr ⟨hbuffer, fun j hj => ?_⟩
  have hindex := hcode j hj
  rw [hstore] at hindex
  exact hindex

/-- An S0 record has no data. -/
theorem parse_record0 {buffer : ℕ → Ascii} (h : buffer 1 = ascii '0') : parse buffer = none := by
  rw [parse, h]
  split_ifs with hS h1 h2 h3
  · rfl
  · exact absurd h1 (by decide)
  · exact absurd h2 (by decide)
  · exact absurd h3 (by decide)
  · rfl

theorem record_of_parse_eq_none (h : parse s.buffer = none)
    (hrecord : Srec2vhdl.record s = some s) (verbose : Bool) (b : BitVec 64) :
    (LineInBounds verbose b s.buffer → record verbose s = some s) ∧
    (¬ LineInBounds verbose b s.buffer → record verbose s = none) := by
  have hdata : ∀ r, parse s.buffer = some r → r.InBounds b := by
    intro r hr
    rw [h] at hr
    cases hr
  rw [record, record0_eq, hrecord]
  constructor
  · intro hline
    split_ifs with hvendor hfits
    · rfl
    · exact absurd (hline.vendor hvendor.1 hvendor.2.1 hvendor.2.2) hfits
    · rfl
  · intro hline
    split_ifs with hvendor hfits
    · exact absurd ⟨fun _ _ _ => hfits, hdata⟩ hline
    · rfl
    · exact absurd ⟨fun hS h0 hv => absurd ⟨hS, h0, hv⟩ hvendor, hdata⟩ hline

/-- One line of a file, within the bounds or not. -/
theorem Loaded.line (h : Loaded rs s) (verbose : Bool) :
    (LineInBounds verbose (base (rs ++ (parse s.buffer).toList)) s.buffer →
      ∃ s', record verbose s = some s' ∧ Loaded (rs ++ (parse s.buffer).toList) s' ∧
        s'.buffer = s.buffer) ∧
    (¬ LineInBounds verbose (base (rs ++ (parse s.buffer).toList)) s.buffer →
      record verbose s = none) := by
  rcases parse_cases s with ⟨hparse, hrecord⟩ | ⟨r, hparse, hreads⟩
  · obtain ⟨hin, hout⟩ := record_of_parse_eq_none hparse hrecord verbose (base rs)
    rw [hparse, Option.toList_none, List.append_nil]
    exact ⟨fun hline => ⟨s, hin hline, h, rfl⟩, hout⟩
  · have hne : s.buffer 1 ≠ ascii '0' := by
      intro h0
      rw [parse_record0 h0] at hparse
      cases hparse
    have hrecord : record verbose s = Srec2vhdl.record s := if_neg fun h0 => hne h0.2.1
    rw [hparse, Option.toList_some, hrecord]
    constructor
    · intro hline
      exact h.reads hreads (hline.data r hparse)
    · intro hline
      apply h.reads_none hreads
      intro hr
      refine hline ⟨fun _ h0 _ => absurd h0 hne, fun r' hr' => ?_⟩
      rw [hparse] at hr'
      cases hr'
      exact hr

/-! ## The lines of a file -/

/-- The programs read a file within the bounds. -/
def InBounds (verbose : Bool) (buffer : ℕ → Ascii) (file : List Ascii) : Prop :=
  ∀ b ∈ buffers file.length buffer file, LineInBounds verbose (base (records buffer file)) b

/-- The base that a line is checked against is known behind it. -/
theorem lineInBounds_base {verbose : Bool} {b : ℕ → Ascii} (rs ts : List Parsed) :
    LineInBounds verbose (base (rs ++ (parse b).toList ++ ts)) b ↔
      LineInBounds verbose (base (rs ++ (parse b).toList)) b := by
  cases hparse : parse b with
  | none =>
    have hdata : ∀ x r, parse b = some r → r.InBounds x := by
      intro x r hr
      rw [hparse] at hr
      cases hr
    exact ⟨fun h => ⟨h.vendor, hdata _⟩, fun h => ⟨h.vendor, hdata _⟩⟩
  | some r => rw [base_append (by simp)]

theorem buffers_succ (k : ℕ) (b : ℕ → Ascii) {file : List Ascii} (h : file ≠ []) :
    buffers (k + 1) b file =
      (Srec2vhdl.load (.initial b) (fgets (lenBuffer - 1) file).1).buffer ::
        buffers k (Srec2vhdl.load (.initial b) (fgets (lenBuffer - 1) file).1).buffer
          (fgets (lenBuffer - 1) file).2 := by
  cases file with
  | nil => exact absurd rfl h
  | cons c file => rfl

theorem convert_succ (verbose : Bool) (k : ℕ) (s : State) {file : List Ascii} (h : file ≠ []) :
    convert verbose (k + 1) s file =
      (record verbose (Srec2vhdl.load s (fgets (lenBuffer - 1) file).1)).bind fun s =>
        convert verbose k s (fgets (lenBuffer - 1) file).2 := by
  cases file with
  | nil => exact absurd rfl h
  | cons c file => rfl

theorem filterMap_parse_cons (b : ℕ → Ascii) (bs : List (ℕ → Ascii)) :
    (b :: bs).filterMap parse = (parse b).toList ++ bs.filterMap parse := by
  rw [List.filterMap_cons]
  cases parse b <;> rfl

/-- A file is read within the bounds, or the program is undefined. -/
theorem Loaded.convert {k : ℕ} {file : List Ascii} (h : Loaded rs s) (verbose : Bool) :
    ((∀ b ∈ buffers k s.buffer file,
        LineInBounds verbose (base (rs ++ (buffers k s.buffer file).filterMap parse)) b) →
      ∃ s', convert verbose k s file = some s' ∧
        Loaded (rs ++ (buffers k s.buffer file).filterMap parse) s') ∧
    ((¬ ∀ b ∈ buffers k s.buffer file,
        LineInBounds verbose (base (rs ++ (buffers k s.buffer file).filterMap parse)) b) →
      convert verbose k s file = none) := by
  induction k generalizing rs s file with
  | zero =>
    have hnil : buffers 0 s.buffer file = [] := rfl
    rw [hnil, List.filterMap_nil, List.append_nil]
    exact ⟨fun _ => ⟨s, rfl, h⟩, fun hout => absurd (by simp) hout⟩
  | succ k ih =>
    by_cases hfile : file = []
    · subst hfile
      have hnil : buffers (k + 1) s.buffer [] = [] := rfl
      rw [hnil, List.filterMap_nil, List.append_nil]
      exact ⟨fun _ => ⟨s, rfl, h⟩, fun hout => absurd (by simp) hout⟩
    · rw [buffers_succ k s.buffer hfile, convert_succ verbose k s hfile]
      generalize fgets (lenBuffer - 1) file = chunk
      set s₀ := Srec2vhdl.load s chunk.1 with hs₀
      have hb : (Srec2vhdl.load (.initial s.buffer) chunk.1).buffer = s₀.buffer := rfl
      have hloaded : Loaded rs s₀ := ⟨h.first, h.offset, h.address, h.code⟩
      rw [hb, filterMap_parse_cons, ← List.append_assoc, List.forall_mem_cons, lineInBounds_base]
      obtain ⟨hin, hout⟩ := hloaded.line verbose
      constructor
      · rintro ⟨hline, hrest⟩
        obtain ⟨s₁, hs₁, hloaded₁, hbuffer⟩ := hin hline
        have hnext := @ih s₁ _ chunk.2 hloaded₁
        rw [hbuffer] at hnext
        rw [hs₁, Option.bind_some]
        exact hnext.1 hrest
      · intro hnot
        by_cases hline : LineInBounds verbose (base (rs ++ (parse s₀.buffer).toList)) s₀.buffer
        · obtain ⟨s₁, hs₁, hloaded₁, hbuffer⟩ := hin hline
          have hnext := @ih s₁ _ chunk.2 hloaded₁
          rw [hbuffer] at hnext
          rw [hs₁, Option.bind_some]
          exact hnext.2 fun hrest => hnot ⟨hline, hrest⟩
        · rw [hout hline]
          rfl

theorem Loaded.initial (buffer : ℕ → Ascii) : Loaded [] (.initial buffer) := ⟨rfl, rfl, rfl, rfl⟩

/-- The state behind a file. -/
theorem convert_eq {verbose : Bool} {buffer : ℕ → Ascii} {file : List Ascii}
    (h : InBounds verbose buffer file) :
    ∃ s, convert verbose file.length (.initial buffer) file = some s ∧
      Loaded (records buffer file) s :=
  ((Loaded.initial buffer).convert verbose).1 h

theorem convert_eq_none {verbose : Bool} {buffer : ℕ → Ascii} {file : List Ascii}
    (h : ¬ InBounds verbose buffer file) :
    convert verbose file.length (.initial buffer) file = none :=
  ((Loaded.initial buffer).convert verbose).2 h

/-! ## The table -/

variable {o : Options}

theorem Loaded.shifted (h : Loaded rs s) : (shifted s).toNat = imageLength rs := by
  rw [SrecImage.shifted, h.offset, h.address]
  rfl

theorem Loaded.warns (h : Loaded rs s) : warns s = decide (lenCode < imageLength rs) := by
  rw [SrecImage.warns, decide_eq_decide, BitVec.lt_def, h.shifted]
  rfl

/-- The length that is exported. -/
def exportLength (rs : List Parsed) : ℕ := min (imageLength rs) lenCode

theorem Loaded.exported (h : Loaded rs s) : (exported s).toNat = exportLength rs := by
  rw [SrecImage.exported, h.warns, exportLength]
  by_cases hlt : lenCode < imageLength rs
  · rw [if_pos (decide_eq_true hlt), min_eq_right hlt.le]
    rfl
  · rw [if_neg (by simpa using hlt), min_eq_left (Nat.le_of_not_lt hlt), h.shifted]

theorem Width.size_pos (w : Width) : 0 < w.size := by cases w <;> decide

theorem Width.size_dvd (w : Width) : w.size ∣ lenCode := by cases w <;> decide

/-- A power of two less one masks the low bits. -/
theorem toNat_and_not_mask (x : BitVec 64) (n : ℕ) :
    (x &&& ~~~BitVec.ofNat 64 (2 ^ n - 1)).toNat = 2 ^ n * (x.toNat / 2 ^ n) := by
  have hshift : x &&& ~~~BitVec.ofNat 64 (2 ^ n - 1) = x >>> n <<< n := by
    apply BitVec.eq_of_getLsbD_eq
    intro i hi
    rw [BitVec.getLsbD_and, BitVec.getLsbD_not, BitVec.getLsbD_ofNat,
      Nat.testBit_two_pow_sub_one, BitVec.getLsbD_shiftLeft, BitVec.getLsbD_ushiftRight]
    by_cases hin : i < n
    · simp [hin]
    · rw [Nat.add_sub_cancel' (Nat.le_of_not_lt hin)]
      simp [hin, hi]
  have hle := Nat.mul_div_le x.toNat (2 ^ n)
  rw [hshift, BitVec.toNat_shiftLeft, BitVec.toNat_ushiftRight, Nat.shiftLeft_eq,
    Nat.shiftRight_eq_div_pow, Nat.mul_comm]
  exact Nat.mod_eq_of_lt (hle.trans_lt x.isLt)

/-- The number of lines of a table. -/
def lineCount (o : Options) (rs : List Parsed) : ℕ :=
  (exportLength rs + o.width.size - 1) / o.width.size

theorem toNat_align {n len : ℕ} {x : BitVec 64} (hx : x.toNat = len) (hlen : len ≤ lenCode)
    (hn : n ≤ 3) : (align (BitVec.ofNat 64 (2 ^ n)) x).toNat =
      2 ^ n * ((len + 2 ^ n - 1) / 2 ^ n) := by
  have hcode : lenCode = 10000000 := rfl
  have hpow : 2 ^ n ≤ 8 := Nat.pow_le_pow_right (by decide) hn
  have hpos := Nat.two_pow_pos n
  have hmask : BitVec.ofNat 64 (2 ^ n) - 1 = BitVec.ofNat 64 (2 ^ n - 1) := by
    apply BitVec.eq_of_toNat_eq
    rw [BitVec.toNat_sub, BitVec.toNat_ofNat, BitVec.toNat_ofNat,
      show (1 : BitVec 64).toNat = 1 from rfl]
    omega
  have hsum : (x + BitVec.ofNat 64 (2 ^ n) - 1).toNat = len + 2 ^ n - 1 := by
    rw [BitVec.toNat_sub, BitVec.toNat_add, BitVec.toNat_ofNat, hx,
      show (1 : BitVec 64).toNat = 1 from rfl]
    omega
  rw [align, hmask, toNat_and_not_mask, hsum]

theorem Width.exists_pow (w : Width) : ∃ n, n ≤ 3 ∧ w.size = 2 ^ n := by
  cases w
  · exact ⟨0, by decide, rfl⟩
  · exact ⟨1, by decide, rfl⟩
  · exact ⟨2, by decide, rfl⟩
  · exact ⟨3, by decide, rfl⟩

theorem Loaded.aligned (h : Loaded rs s) (o : Options) :
    (align (BitVec.ofNat 64 o.width.size) (SrecImage.exported s)).toNat =
      o.width.size * lineCount o rs := by
  obtain ⟨n, hn, hsize⟩ := o.width.exists_pow
  rw [lineCount, hsize]
  exact toNat_align h.exported (min_le_right _ _) hn

/-- Line `k` of a table. -/
def tableLine (o : Options) (code : ℕ → BitVec 8) (k : ℕ) : ℕ × List (BitVec 8) :=
  let bytes := (List.range o.width.size).map fun j => code (o.width.size * k + j)
  (k, if o.rev then bytes.reverse else bytes)

theorem outputFrom_eq (code : ℕ → BitVec 8) {m fuel k : ℕ} (hm : o.width.size * m ≤ lenCode)
    (hfuel : m - k ≤ fuel) :
    outputFrom o code (o.width.size * m) fuel (o.width.size * k) =
      some ((List.range' k (m - k)).map (tableLine o code)) := by
  have hpos := o.width.size_pos
  induction fuel generalizing k with
  | zero =>
    rw [Nat.le_zero.mp hfuel]
    rfl
  | succ fuel ih =>
    rw [outputFrom]
    rcases Nat.lt_or_ge k m with hlt | hge
    · have hnext : o.width.size * k + o.width.size = o.width.size * (k + 1) := rfl
      have hle : o.width.size * (k + 1) ≤ lenCode := (Nat.mul_le_mul_left _ hlt).trans hm
      have hbytes : bytesAt o code (o.width.size * k) = some (tableLine o code k).2 :=
        if_pos hle
      rw [if_pos (Nat.mul_lt_mul_of_pos_left hlt hpos), hbytes, hnext, ih (by omega),
        Nat.mul_div_cancel_left k hpos, show m - k = (m - (k + 1)) + 1 by omega,
        List.range'_succ, List.map_cons]
      rfl
    · rw [if_neg (Nat.not_lt.mpr (Nat.mul_le_mul_left _ hge)), Nat.sub_eq_zero_of_le hge]
      rfl

/-- Every line of the table is in the array. -/
theorem Loaded.output (h : Loaded rs s) (o : Options) :
    output o s = some ((List.range (lineCount o rs)).map (tableLine o s.code)) := by
  have hm : o.width.size * lineCount o rs ≤ lenCode := by
    obtain ⟨q, hq⟩ := o.width.size_dvd
    have hle : exportLength rs ≤ o.width.size * q := hq ▸ min_le_right _ _
    have hpos := o.width.size_pos
    have hcount : lineCount o rs ≤ q := by
      rw [lineCount, Nat.div_le_iff_le_mul_add_pred hpos]
      omega
    exact (Nat.mul_le_mul_left _ hcount).trans hq.ge
  have hfuel : lineCount o rs - 0 ≤ o.width.size * lineCount o rs :=
    Nat.le_mul_of_pos_left _ o.width.size_pos
  have hout := outputFrom_eq s.code hm hfuel
  rw [SrecImage.output, h.aligned, List.range_eq_range']
  exact hout

end SrecImage

end ThuasRiscv
