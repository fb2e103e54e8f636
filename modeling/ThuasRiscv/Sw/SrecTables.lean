import ThuasRiscv.Sw.SrecImage

/-!
# What the tables keep of a file

The base of an image is the address of the first record of a file, and its
length ends with the last record. A file keeps its data if no record goes below
the base or behind that end, and if records that overlap agree. The depth in the
header of `srec2mif` is rounded down, and the number of its lines up.
-/

namespace ThuasRiscv

open SRecord Assignments

namespace SrecImage

open Srec2vhdl (State lenCode)

/-! ## The tables of a file -/

variable {o : Options} {buffer : ℕ → Ascii} {file : List Ascii} {rs : List Parsed}

/-- The array after the records. -/
def imageCode (rs : List Parsed) : ℕ → BitVec 8 := assign (fun _ => 0) (stores (base rs) rs)

/-- The table of some records. -/
def tableOf (o : Options) (rs : List Parsed) : Table where
  warns := decide (lenCode < imageLength rs)
  lines := (List.range (lineCount o rs)).map (tableLine o (imageCode rs))

def mifOf (o : Options) (rs : List Parsed) : Mif where
  toTable := tableOf o rs
  depth := exportLength rs / o.width.size
  width := o.width.size * 8

theorem srec2vhdl_eq (h : InBounds o.verbose buffer file) :
    srec2vhdl o buffer file = some (tableOf o (records buffer file)) := by
  obtain ⟨s, hs, hloaded⟩ := convert_eq h
  rw [srec2vhdl, hs]
  simp only [Option.bind_eq_bind, Option.bind_some, hloaded.output, hloaded.warns, hloaded.code]
  rfl

theorem srec2vhdl_eq_none (h : ¬ InBounds o.verbose buffer file) :
    srec2vhdl o buffer file = none := by
  rw [srec2vhdl, convert_eq_none h]
  rfl

theorem srec2mif_eq (h : InBounds o.verbose buffer file) :
    srec2mif o buffer file = some (mifOf o (records buffer file)) := by
  obtain ⟨s, hs, hloaded⟩ := convert_eq h
  rw [srec2mif, hs]
  simp only [Option.bind_eq_bind, Option.bind_some, hloaded.output, hloaded.warns, hloaded.code,
    hloaded.exported]
  rfl

theorem srec2mif_eq_none (h : ¬ InBounds o.verbose buffer file) :
    srec2mif o buffer file = none := by
  rw [srec2mif, convert_eq_none h]
  rfl

/-! ## Bytes in a table -/

/-- A table shows a byte at a position: in the line of that number, from the left or the right. -/
def Shows (o : Options) (t : Table) (x : ℕ) (v : BitVec 8) : Prop :=
  ∃ line ∈ t.lines, line.1 = x / o.width.size ∧
    line.2[if o.rev then o.width.size - 1 - x % o.width.size else x % o.width.size]? = some v

/-- A program runs within the bounds and, unless it warns, shows every byte of every record. -/
def Keeps (o : Options) (t : Option Table) (rs : List Parsed) : Prop :=
  ∃ t', t = some t' ∧ (t'.warns = false →
    ∀ r ∈ rs, ∀ j, j < r.length → Shows o t' (r.position (base rs) j) (r.byte j))

/-- Every byte lies before the end of the last record, rounded up to a word, and bytes at one
position are the same. -/
structure Covered (o : Options) (rs : List Parsed) : Prop where
  position_lt : ∀ r ∈ rs, ∀ j, j < r.length →
    r.position (base rs) j < o.width.size * lineCount o rs
  agree : Agree (stores (base rs) rs)

theorem tableLine_getElem? (code : ℕ → BitVec 8) (x : ℕ) :
    (tableLine o code (x / o.width.size)).2[
      if o.rev then o.width.size - 1 - x % o.width.size else x % o.width.size]? =
      some (code x) := by
  have hpos := o.width.size_pos
  have hlt := Nat.mod_lt x hpos
  have hx : o.width.size * (x / o.width.size) + x % o.width.size = x := Nat.div_add_mod x _
  have hbytes : ((List.range o.width.size).map fun j =>
      code (o.width.size * (x / o.width.size) + j))[x % o.width.size]? = some (code x) := by
    rw [List.getElem?_map, List.getElem?_range hlt, Option.map_some, hx]
  rw [tableLine]
  cases o.rev with
  | false => exact hbytes
  | true =>
    simp only [if_true]
    rw [List.getElem?_reverse (by simp; omega), List.length_map, List.length_range,
      show o.width.size - 1 - (o.width.size - 1 - x % o.width.size) = x % o.width.size by omega]
    exact hbytes

theorem shows_iff {x : ℕ} {v : BitVec 8} : Shows o (tableOf o rs) x v ↔
    x < o.width.size * lineCount o rs ∧ imageCode rs x = v := by
  have hdiv : x / o.width.size < lineCount o rs ↔ x < o.width.size * lineCount o rs := by
    rw [Nat.div_lt_iff_lt_mul o.width.size_pos, Nat.mul_comm]
  constructor
  · rintro ⟨line, hline, hnumber, hbyte⟩
    obtain ⟨k, hk, rfl⟩ := List.mem_map.mp hline
    have hk' : k = x / o.width.size := hnumber
    subst hk'
    rw [tableLine_getElem?] at hbyte
    exact ⟨hdiv.mp (List.mem_range.mp hk), Option.some_inj.mp hbyte⟩
  · rintro ⟨hx, hv⟩
    refine ⟨_, List.mem_map.mpr ⟨_, List.mem_range.mpr (hdiv.mpr hx), rfl⟩, rfl, ?_⟩
    rw [tableLine_getElem?, hv]

theorem mem_stores {b : BitVec 64} {w : ℕ × BitVec 8} : w ∈ stores b rs ↔
    ∃ r ∈ rs, ∃ j, j < r.length ∧ (r.position b j, r.byte j) = w := by
  simp [stores, Parsed.stores]

theorem keeps_tableOf_iff : Keeps o (some (tableOf o rs)) rs ↔
    (imageLength rs ≤ lenCode → Covered o rs) := by
  have hwarns : (tableOf o rs).warns = false ↔ imageLength rs ≤ lenCode := by
    simp [tableOf]
  have hstays : (∀ w ∈ stores (base rs) rs, imageCode rs w.1 = w.2) ↔ Agree (stores (base rs) rs) :=
    assign_stays_iff
  have hkeeps : Keeps o (some (tableOf o rs)) rs ↔ ((tableOf o rs).warns = false →
      ∀ r ∈ rs, ∀ j, j < r.length →
        Shows o (tableOf o rs) (r.position (base rs) j) (r.byte j)) := by
    simp [Keeps]
  rw [hkeeps, hwarns]
  refine imp_congr_right fun _ => ?_
  constructor
  · intro h
    constructor
    · intro r hr j hj
      exact (shows_iff.mp (h r hr j hj)).1
    · rw [← hstays]
      intro w hw
      obtain ⟨r, hr, j, hj, rfl⟩ := mem_stores.mp hw
      exact (shows_iff.mp (h r hr j hj)).2
  · intro h r hr j hj
    have hmem : (r.position (base rs) j, r.byte j) ∈ stores (base rs) rs :=
      mem_stores.mpr ⟨r, hr, j, hj, rfl⟩
    exact shows_iff.mpr ⟨h.position_lt r hr j hj, hstays.mpr h.agree _ hmem⟩

/-- The condition on a file. -/
def Sound (o : Options) (buffer : ℕ → Ascii) (file : List Ascii) : Prop :=
  InBounds o.verbose buffer file ∧
    (imageLength (records buffer file) ≤ lenCode → Covered o (records buffer file))

theorem keeps_of_table {run : Option Table}
    (hin : InBounds o.verbose buffer file → run = some (tableOf o (records buffer file)))
    (hout : ¬ InBounds o.verbose buffer file → run = none) :
    Keeps o run (records buffer file) ↔ Sound o buffer file := by
  by_cases h : InBounds o.verbose buffer file
  · rw [hin h, keeps_tableOf_iff, Sound]
    exact (and_iff_right h).symm
  · rw [hout h, Sound]
    constructor
    · rintro ⟨t, ht, -⟩
      cases ht
    · intro hsound
      exact absurd hsound.1 h

/-- Both programs keep the data of exactly the sound files. -/
theorem tables_keep_data_iff (o : Options) (buffer : ℕ → Ascii) (file : List Ascii) :
    (Keeps o (srec2vhdl o buffer file) (records buffer file) ↔ Sound o buffer file) ∧
    (Keeps o ((srec2mif o buffer file).map Mif.toTable) (records buffer file) ↔
      Sound o buffer file) := by
  constructor
  · exact keeps_of_table srec2vhdl_eq srec2vhdl_eq_none
  · refine keeps_of_table (fun h => ?_) fun h => ?_
    · rw [srec2mif_eq h]
      rfl
    · rw [srec2mif_eq_none h]
      rfl

/-- Three records of one byte, at the addresses 0, 16 and 1. -/
def unsortedFile : List Ascii :=
  text [.data (.ofBytes .s1 [0x00, 0x00] [0xaa] 0x51 rfl (by decide)),
    .data (.ofBytes .s1 [0x00, 0x10] [0xbb] 0x30 rfl (by decide)),
    .data (.ofBytes .s1 [0x00, 0x01] [0xcc] 0x2e rfl (by decide))]

/-- The table ends with the last record: the byte at 16 is lost, and nothing warns of it. -/
theorem unsorted_file_loses_a_byte : ∃ t, srec2vhdl ⟨false, false, .byte⟩ (fun _ => 0)
    unsortedFile = some t ∧ t.warns = false ∧ t.lines.map Prod.fst = [0, 1] ∧
      (records (fun _ => 0) unsortedFile).map (fun r => (r.address, r.length, r.byte 0)) =
        [(0, 1, 0xaa), (16, 1, 0xbb), (1, 1, 0xcc)] ∧
      ¬ Keeps ⟨false, false, .byte⟩
        (srec2vhdl ⟨false, false, .byte⟩ (fun _ => 0) unsortedFile)
        (records (fun _ => 0) unsortedFile) := by
  have hprinted : (srec2vhdl ⟨false, false, .byte⟩ (fun _ => 0) unsortedFile).map
      (fun t => (t.warns, t.lines.map Prod.fst)) = some (false, [0, 1]) := by
    decide +kernel
  have hrecords : (records (fun _ => 0) unsortedFile).map
      (fun r => (r.address, r.length, r.byte 0)) =
        [(0, 1, 0xaa), (16, 1, 0xbb), (1, 1, 0xcc)] := by
    decide +kernel
  obtain ⟨t, ht, hpair⟩ := Option.map_eq_some_iff.mp hprinted
  obtain ⟨hwarns, hlines⟩ := Prod.mk.inj hpair
  refine ⟨t, ht, hwarns, hlines, hrecords, ?_⟩
  rintro ⟨t', ht', hkeeps⟩
  rw [ht] at ht'
  cases ht'
  -- the second record, the byte of which is at position 16
  have hmem : (16, 1, 0xbb) ∈ (records (fun _ => 0) unsortedFile).map
      (fun r => (r.address, r.length, r.byte 0)) := by
    rw [hrecords]
    decide
  obtain ⟨r, hr, heq⟩ := List.mem_map.mp hmem
  simp only [Prod.mk.injEq] at heq
  have hposition : r.position (base (records (fun _ => 0) unsortedFile)) 0 = 16 := by
    have hbase : base (records (fun _ => 0) unsortedFile) = 0 := by decide +kernel
    rw [Parsed.position, heq.1, hbase]
    rfl
  obtain ⟨line, hline, hnumber, -⟩ := hkeeps hwarns r hr 0 (heq.2.1 ▸ Nat.one_pos)
  have hnumbers : line.1 ∈ t.lines.map Prod.fst := List.mem_map_of_mem hline
  rw [hnumber, hposition, hlines] at hnumbers
  exact absurd hnumbers (by decide)

/-! ## The header of a table -/

theorem lineCount_eq_iff : exportLength rs / o.width.size = lineCount o rs ↔
    o.width.size ∣ exportLength rs := by
  rw [lineCount]
  generalize exportLength rs = len
  cases o.width with
  | byte | halfword | word | dword =>
    rw [Width.size]
    omega

/-- The depth in the header is the number of lines, and it is above the numbers of all lines. -/
def HeaderAgrees (mif : Mif) : Prop :=
  mif.depth = mif.lines.length ∧ ∀ line ∈ mif.lines, line.1 < mif.depth

theorem headerAgrees_mifOf_iff : HeaderAgrees (mifOf o rs) ↔ o.width.size ∣ exportLength rs := by
  have hlength : (mifOf o rs).lines.length = lineCount o rs := by
    simp [mifOf, tableOf]
  rw [HeaderAgrees, hlength]
  constructor
  · rintro ⟨hdepth, -⟩
    exact lineCount_eq_iff.mp hdepth
  · intro hdvd
    have hdepth : (mifOf o rs).depth = lineCount o rs := lineCount_eq_iff.mpr hdvd
    refine ⟨hdepth, ?_⟩
    intro line hline
    obtain ⟨k, hk, rfl⟩ := List.mem_map.mp hline
    rw [hdepth]
    exact List.mem_range.mp hk

/-- The header of `srec2mif` agrees with the lines exactly if the length of the image is a multiple
of the width. -/
theorem header_agrees_iff (o : Options) (buffer : ℕ → Ascii) (file : List Ascii) :
    (∃ mif, srec2mif o buffer file = some mif ∧ HeaderAgrees mif) ↔
      InBounds o.verbose buffer file ∧ o.width.size ∣ exportLength (records buffer file) := by
  by_cases h : InBounds o.verbose buffer file
  · rw [srec2mif_eq h, and_iff_right h, ← headerAgrees_mifOf_iff (o := o)]
    constructor
    · rintro ⟨mif, hmif, hagrees⟩
      cases hmif
      exact hagrees
    · intro hagrees
      exact ⟨_, rfl, hagrees⟩
  · rw [srec2mif_eq_none h]
    constructor
    · rintro ⟨mif, hmif, -⟩
      cases hmif
    · rintro ⟨hin, -⟩
      exact absurd hin h

/-- One byte in a table of words has a depth of 0 and a line of number 0. -/
theorem depth_of_one_byte : ∃ mif, srec2mif ⟨false, false, .word⟩ (fun _ => 0)
    (text [.data (.ofBytes .s1 [0x00, 0x00] [0xaa] 0x51 rfl (by decide))]) = some mif ∧
      mif.depth = 0 ∧ mif.lines.map Prod.fst = [0] ∧ ¬ HeaderAgrees mif := by
  have hprinted : (srec2mif ⟨false, false, .word⟩ (fun _ => 0)
      (text [.data (.ofBytes .s1 [0x00, 0x00] [0xaa] 0x51 rfl (by decide))])).map
        (fun mif => (mif.depth, mif.lines.map Prod.fst)) = some (0, [0]) := by
    decide +kernel
  obtain ⟨mif, hmif, hpair⟩ := Option.map_eq_some_iff.mp hprinted
  obtain ⟨hdepth, hlines⟩ := Prod.mk.inj hpair
  refine ⟨mif, hmif, hdepth, hlines, ?_⟩
  rintro ⟨hlength, -⟩
  have hone : mif.lines.length = 1 := by rw [← List.length_map, hlines]; rfl
  rw [hdepth, hone] at hlength
  cases hlength

end SrecImage

end ThuasRiscv
