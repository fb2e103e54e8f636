import ThuasRiscv.Sw.Srec2vhdl
import ThuasRiscv.Sw.Bootloader

/-!
# One file, two ways into the memory

The table that the converter makes of a file, loaded into the arrays of a
memory, and the upload of the same file by the bootloader put the same bytes at
the addresses of the data records: both are the writes of the records, in the
order of the file.
-/

namespace ThuasRiscv

open SRecord ByteStore

namespace SRecord

/-- A file for a memory: the first data record is at the base address, the addresses do not
decrease or overlap, and all data is in the memory. -/
structure Loadable (map : AddressMap) (slave : Slave) (n : ℕ) (base : DataType)
    (file : List Record) : Prop where
  base_setWidth : base.setWidth (n + 2) = 0
  first : ∀ r ∈ (dataRecords file).head?, r.addr = base.toNat
  ordered : (dataRecords file).Pairwise fun r r' => r.last ≤ r'.addr
  last_le : ∀ r ∈ dataRecords file, r.last ≤ base.toNat + 2 ^ (n + 2)
  select : ∀ r ∈ dataRecords file, ∀ k < r.data.length,
    map.select (BitVec.ofNat 32 (r.addr + k)) = some slave

variable {map : AddressMap} {slave : Slave} {n : ℕ} {base : DataType} {file : List Record}
  {rs : List DataRecord} {r : DataRecord} {k : ℕ} {v : BitVec 8}

theorem addr_le_last (r : DataRecord) : r.addr ≤ r.last := Nat.le_add_right _ _

/-- The first record is at the lowest address. -/
theorem le_addr_of_ordered {b : ℕ} (hfirst : ∀ r ∈ rs.head?, r.addr = b)
    (h : rs.Pairwise fun r r' => r.last ≤ r'.addr) (hr : r ∈ rs) : b ≤ r.addr := by
  cases rs with
  | nil => cases hr
  | cons r₀ rs =>
    have h₀ : r₀.addr = b := hfirst r₀ rfl
    rcases List.mem_cons.mp hr with rfl | hmem
    · exact h₀.ge
    · have hle := (List.pairwise_cons.mp h).1 r hmem
      have := addr_le_last r₀
      omega

/-- The last record ends at the highest address. -/
theorem last_le_of_ordered {r' : DataRecord} (h : rs.Pairwise fun r r' => r.last ≤ r'.addr)
    (hr : r ∈ rs) (hr' : r' ∈ rs.getLast?) : r.last ≤ r'.last := by
  obtain ⟨us, rfl⟩ := List.getLast?_eq_some_iff.mp hr'
  rw [List.pairwise_append] at h
  rcases List.mem_append.mp hr with hmem | hmem
  · exact (h.2.2 r hmem r' (List.mem_singleton_self r')).trans (addr_le_last r')
  · rw [List.mem_singleton] at hmem
    rw [hmem]

theorem Loadable.base_le (h : Loadable map slave n base file) (hr : r ∈ dataRecords file) :
    base.toNat ≤ r.addr := le_addr_of_ordered h.first h.ordered hr

theorem Loadable.base_mod (h : Loadable map slave n base file) : base.toNat % 2 ^ (n + 2) = 0 := by
  have hbase := congrArg BitVec.toNat h.base_setWidth
  rw [BitVec.toNat_setWidth] at hbase
  simpa using hbase

/-- In the memory, addresses count from the base address. -/
theorem Loadable.ofNat_eq (h : Loadable map slave n base file) {a : ℕ} (ha : base.toNat ≤ a) :
    BitVec.ofNat (n + 2) a = BitVec.ofNat (n + 2) (a - base.toNat) := by
  apply BitVec.eq_of_toNat_eq
  rw [BitVec.toNat_ofNat, BitVec.toNat_ofNat]
  obtain ⟨d, rfl⟩ := Nat.exists_eq_add_of_le ha
  rw [Nat.add_sub_cancel_left, Nat.add_mod, h.base_mod, Nat.zero_add, Nat.mod_mod]

theorem Loadable.write_eq (h : Loadable map slave n base file) (hr : r ∈ dataRecords file) :
    Srec2vhdl.write (n + 2) base.toNat r = Bootloader.write n r := by
  rw [Srec2vhdl.write, Bootloader.write, h.ofNat_eq (h.base_le hr)]

theorem length_le_text (file : List Record) : file.length ≤ (text file).length := by
  induction file with
  | nil => exact Nat.zero_le _
  | cons line file ih =>
    obtain ⟨body, hline, -⟩ := line.line_eq
    rw [text, List.flatMap_cons, List.length_append, List.length_cons, hline, List.length_append,
      List.length_singleton]
    rw [text] at ih
    omega

/-- The byte of the writes at an address of a record is the one of the record. -/
theorem Loadable.lastAt_eq (h : Loadable map slave n base file) (hr : r ∈ dataRecords file)
    (hv : r.data[k]? = some v) :
    lastAt ((dataRecords file).map (Srec2vhdl.write (n + 2) base.toNat))
      (BitVec.ofNat (n + 2) (r.addr + k)) = some v := by
  have hat : ∀ r' ∈ dataRecords file, ∀ b : BitVec (n + 2),
      (Srec2vhdl.write (n + 2) base.toNat r').at b =
        if r'.addr - base.toNat ≤ b.toNat then r'.data[b.toNat - (r'.addr - base.toNat)]?
        else none := by
    intro r' hr' b
    have hlast := h.last_le r' hr'
    have hle := h.base_le hr'
    rw [DataRecord.last] at hlast
    exact at_ofNat (by omega) b
  have hk : k < r.data.length := (List.getElem?_eq_some_iff.mp hv).1
  have hle := h.base_le hr
  have hlast := h.last_le r hr
  rw [DataRecord.last] at hlast
  apply lastAt_of_pairwise (w := Srec2vhdl.write (n + 2) base.toNat r)
  · rw [List.pairwise_map]
    refine h.ordered.imp_of_mem ?_
    intro r₁ r₂ h₁ h₂ hord b hb
    rw [hat r₁ h₁] at hb
    rw [hat r₂ h₂]
    have hle₁ := h.base_le h₁
    have hle₂ := h.base_le h₂
    split_ifs at hb with hb₁
    · have hlt : b.toNat - (r₁.addr - base.toNat) < r₁.data.length := by
        by_contra hge
        exact hb (List.getElem?_eq_none (Nat.le_of_not_lt hge))
      rw [DataRecord.last] at hord
      rw [if_neg (by omega)]
    · exact absurd rfl hb
  · exact List.mem_map_of_mem hr
  · rw [h.ofNat_eq (by omega), hat r hr, BitVec.toNat_ofNat, Nat.mod_eq_of_lt (by omega),
      if_pos (by omega)]
    rw [← hv]
    congr 1
    omega

end SRecord

/-! ## The table in the memory -/

namespace Srec2vhdl

variable {n : ℕ} {g : MemGenerics} {s : State} {len : ℕ}

/-- The image of the table has the bytes of the array. -/
theorem image_table (h : (s.address - s.offset).toNat = len) (hcode : len ≤ lenCode)
    (hmem : len ≤ 2 ^ (n + 2)) {a : BitVec (n + 2)} (ha : a.toNat < len) :
    Mem.image { g with contents := table s } n a = bytes (n + 2) s a := by
  obtain ⟨i, p, rfl⟩ : ∃ (i : BitVec n) (p : BitVec 2), a = i ++ p :=
    ⟨_, _, BitVec.extractLsb'_append_extractLsb'.symm⟩
  have hi := i.isLt
  have hp := p.isLt
  rw [toNat_append_offset] at ha
  have hlength : ¬(table s).length > 2 ^ n := by
    rw [table, List.length_map, List.length_range, exported_eq h hcode]
    rw [Nat.pow_add] at hmem
    omega
  have hword := table_getElem? (i := i.toNat) h hcode
  rw [if_pos (by omega)] at hword
  rw [Mem.image, BitVec.extractLsb'_append_eq_right, BitVec.extractLsb'_append_eq_left,
    Mem.initializeMemorybyte]
  simp only [hlength, if_false, hword]
  obtain ⟨h3, h2, h1, h0⟩ := byte_append (s.code (4 * i.toNat)) (s.code (4 * i.toNat + 1))
    (s.code (4 * i.toNat + 2)) (s.code (4 * i.toNat + 3))
  rw [bytes, toNat_append_offset]
  rcases offset_cases p with rfl | rfl | rfl | rfl
  · exact h3
  · exact h2
  · exact h1
  · exact h0

/-- The table of a file gives the bytes of the writes of its data records. -/
theorem main_eq {map : AddressMap} {slave : Slave} {base : DataType} {file : List Record}
    (hn : n + 2 ≤ 32) (h : Loadable map slave n base file)
    (hsize : ∀ r ∈ dataRecords file, r.last ≤ base.toNat + lenCode) (buffer : ℕ → Ascii) :
    ∃ image, main buffer (text file) = some image ∧ ∀ r ∈ dataRecords file, ∀ k v,
      r.data[k]? = some v →
        Mem.image { g with contents := image } n (BitVec.ofNat (n + 2) (r.addr + k)) = v := by
  have hinitial : Converted (n + 2) base.toNat [] (.initial buffer) :=
    ⟨rfl, rfl, fun h => absurd rfl h, nofun⟩
  obtain ⟨s, hs, hconv⟩ := convert_eq (length_le_text file) hinitial
    (fun r hr => ⟨h.base_le hr, hsize r hr, h.last_le r hr⟩) h.first
  refine ⟨table s, by rw [main, hs]; rfl, ?_⟩
  intro r hr k v hv
  obtain ⟨r', hr'⟩ : ∃ r', (dataRecords file).getLast? = some r' :=
    ⟨_, List.getLast?_eq_some_getLast (List.ne_nil_of_mem hr)⟩
  have hmem' : r' ∈ dataRecords file := List.mem_of_getLast? hr'
  have haddr := hconv.address r' hr'
  have hoff := hconv.offset (List.ne_nil_of_mem hr)
  have hlast := last_le_of_ordered h.ordered hr hr'
  have hfits := h.last_le r' hmem'
  have hcode := hsize r' hmem'
  have hle := h.base_le hr
  have hk : k < r.data.length := (List.getElem?_eq_some_iff.mp hv).1
  have hlen : (s.address - s.offset).toNat = r'.last - base.toNat := by
    have hpow : 2 ^ (n + 2) ≤ 2 ^ 32 := Nat.pow_le_pow_right (by decide) hn
    have hbase := base.isLt
    have hle' := (h.base_le hmem').trans (addr_le_last r')
    rw [haddr, hoff]
    bv_omega
  rw [DataRecord.last] at hlast
  rw [image_table hlen (by omega) (by omega), hconv.bytes, after_apply, List.nil_append,
    h.lastAt_eq hr hv]
  · rfl
  · rw [h.ofNat_eq (by omega), BitVec.toNat_ofNat, Nat.mod_eq_of_lt] <;> omega

end Srec2vhdl

/-! ## Both ways -/

/-- What a byte load returns. -/
def loadByte {n : ℕ} (map : AddressMap) (slave : Slave) (g : MemGenerics) (e : MemInput) (a : ℕ)
    (m : Mem n) : BitVec 8 :=
  (Bootloader.load map slave g e .byte (BitVec.ofNat 32 a) m).1.extractLsb' 0 8

theorem loadByte_eq {n a : ℕ} {map : AddressMap} {slave : Slave} {g : MemGenerics} {e : MemInput}
    {m : Mem n} (hn : n + 2 ≤ 32) (h : map.select (BitVec.ofNat 32 a) = some slave) :
    loadByte map slave g e a m = m.bytes (BitVec.ofNat (n + 2) a) := by
  rw [loadByte, Bootloader.load_byte h, BitVec.setWidth_ofNat_of_le hn]

/-- For a file that fits in the array of the converter, a byte load from the memory with the table
of the file and from a memory to which the file was uploaded returns at every address of a data
record the byte of the record. -/
theorem table_agrees_with_upload {map : AddressMap} {slave : Slave} {n : ℕ} {base : DataType}
    {file : List Record} {g g' : MemGenerics} (hn : n + 2 ≤ 32) (hwrite : g'.useWrite = true)
    (hfile : Loadable map slave n base file)
    (hsize : ∀ r ∈ dataRecords file, r.last ≤ base.toNat + Srec2vhdl.lenCode)
    (buffer : ℕ → Ascii) (e : MemInput) (m : Mem n) :
    ∃ image, Srec2vhdl.main buffer (text file) = some image ∧
      ∀ r ∈ dataRecords file, ∀ k v, r.data[k]? = some v →
        loadByte map slave { g with contents := image } e (r.addr + k)
            (Mem.initial { g with contents := image } n) = v ∧
          loadByte map slave g' e (r.addr + k)
            (Bootloader.main map slave g' e m (text file)) = v := by
  obtain ⟨image, hmain, himage⟩ := Srec2vhdl.main_eq (g := g) hn hfile hsize buffer
  refine ⟨image, hmain, fun r hr k v hv => ?_⟩
  have hk : k < r.data.length := (List.getElem?_eq_some_iff.mp hv).1
  have hselect := hfile.select r hr k hk
  constructor
  · rw [loadByte_eq hn hselect, Mem.bytes_initial]
    exact himage r hr k v hv
  · have hmemory : ∀ r ∈ dataRecords file, Bootloader.InMemory map slave n r := by
      intro r hr
      have hle := hfile.base_le hr
      have hlast := hfile.last_le r hr
      rw [DataRecord.last] at hlast
      exact ⟨hfile.select r hr, by omega⟩
    have hwrites : (dataRecords file).map (Bootloader.write n) =
        (dataRecords file).map (Srec2vhdl.write (n + 2) base.toNat) :=
      List.map_congr_left fun r hr => (hfile.write_eq hr).symm
    rw [loadByte_eq hn hselect, Bootloader.main,
      Bootloader.upload_eq hwrite hn (Nat.lt_succ_of_le (length_le_text file)) hmemory, hwrites,
      after_apply, hfile.lastAt_eq hr hv]
    rfl

/-- Two records with a gap of one byte. -/
def twoRecords : List Record :=
  [.data (.ofBytes .s1 (List.replicate 2 0x00) [0x11, 0x22, 0x33] 0x93 rfl (by decide)),
    .data (.ofBytes .s2 [0x00, 0x00, 0x04] [0x44] 0xb2 rfl (by decide))]

/-- The byte of the second record in a memory of 16 bytes. -/
theorem second_record_agrees :
    let map : AddressMap := ⟨true, 0x0, 0x1, 0x2, 0xf⟩
    let ram : MemGenerics := ⟨true, true, [], true⟩
    let e := accessInput .nop .byte 0 0
    ∃ image, Srec2vhdl.main (fun _ => 0) (text twoRecords) = some image ∧
      loadByte map .rom ⟨true, true, image, false⟩ e 4
          (Mem.initial ⟨true, true, image, false⟩ 2) = 0x44 ∧
        loadByte map .rom ram e 4
          (Bootloader.main map .rom ram e (.initial ram 2) (text twoRecords)) = 0x44 := by
  intro map ram e
  have hfile : Loadable map .rom 2 0 twoRecords :=
    ⟨by decide, by decide, by decide, by decide, by decide⟩
  have hsize : ∀ r ∈ dataRecords twoRecords,
      r.last ≤ (0 : DataType).toNat + Srec2vhdl.lenCode := by decide
  obtain ⟨image, hmain, hbytes⟩ := table_agrees_with_upload (g := ⟨true, true, [], false⟩)
    (by decide) (show ram.useWrite = true from rfl) hfile hsize (fun _ => 0) e (.initial ram 2)
  exact ⟨image, hmain, hbytes _ (List.mem_cons_of_mem _ (List.mem_singleton_self _)) 0 0x44 rfl⟩

/-- Two bytes, the second one behind the array of the converter. -/
def farRecords : List Record :=
  [.data (.ofBytes .s2 [0x00, 0x00, 0x00] [0x01] 0xfa rfl (by decide)),
    .data (.ofBytes .s2 [0x98, 0x96, 0x80] [0x01] 0x4c rfl (by decide))]

/-- In a memory of 16 MB the converter leaves its array. -/
theorem far_record_leaves_the_array :
    ¬∀ (map : AddressMap) (slave : Slave) (n : ℕ) (base : DataType) (file : List Record)
      (g g' : MemGenerics), n + 2 ≤ 32 → g'.useWrite = true → Loadable map slave n base file →
      ∀ (buffer : ℕ → Ascii) (e : MemInput) (m : Mem n),
        ∃ image, Srec2vhdl.main buffer (text file) = some image ∧
          ∀ r ∈ dataRecords file, ∀ k v, r.data[k]? = some v →
            loadByte map slave { g with contents := image } e (r.addr + k)
                (Mem.initial { g with contents := image } n) = v ∧
              loadByte map slave g' e (r.addr + k)
                (Bootloader.main map slave g' e m (text file)) = v := by
  intro h
  have hfile : Loadable ⟨true, 0x0, 0x1, 0x2, 0xf⟩ .rom 22 0 farRecords :=
    ⟨by decide, by decide, by decide, by decide, by decide⟩
  obtain ⟨image, hmain, -⟩ := h _ _ _ _ _ ⟨true, true, [], false⟩ ⟨true, true, [], false⟩
    (by decide) rfl hfile (fun _ => 0) (accessInput .nop .byte 0 0)
    (.initial ⟨true, true, [], false⟩ 22)
  have hnone : Srec2vhdl.main (fun _ => 0) (text farRecords) = none := by decide +kernel
  rw [hnone] at hmain
  cases hmain

end ThuasRiscv
