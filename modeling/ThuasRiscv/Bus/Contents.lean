import ThuasRiscv.Bus.InstrRouter
import ThuasRiscv.Bus.TrapIsolation
import ThuasRiscv.Isa.Computer

/-!
# The memories as one storage

The ROM, the boot ROM and the RAM behind the address decoder are the storage of
a computer: the address selects the memory, a store that the memory accepts
changes its bytes in the clock of the strobe, a load gets them one clock later,
and the fetch ports deliver their words.
-/

namespace ThuasRiscv

open ByteStore

/-- The address bits of the word index of a slave. -/
def wordBits (nRom nBoot nRam : ℕ) : Slave → ℕ
  | .rom => nRom
  | .boot => nBoot
  | .ram => nRam
  | .io => 0

/-- The bytes of the memories. -/
abbrev Contents (nRom nBoot nRam : ℕ) :=
  (slave : Slave) → ByteStore (wordBits nRom nBoot nRam slave + 2)

/-- The fetch port of a memory delivers instructions. -/
def BusGenerics.useInstructions (g : BusGenerics) : Slave → Bool
  | .rom => g.rom.useInstructions
  | .boot => g.boot.useInstructions
  | .ram => g.ram.useInstructions
  | .io => false

namespace Contents

variable {nRom nBoot nRam : ℕ} (g : BusGenerics) (c : Contents nRom nBoot nRam)

/-- The word of a memory that holds the byte at an address. -/
def word (slave : Slave) (a : DataType) : DataType :=
  if g.useInstructions slave then read32 (c slave) (a.extractLsb' 2 _ ++ (0b00 : BitVec 2)) else 0

def fetch (a : DataType) : DataType :=
  match g.fetchSelect a with
  | some slave => c.word g slave a
  | none => 0

def read (k : ℕ) (a : DataType) : Option (List (BitVec 8)) :=
  match g.map.select a with
  | some .io | none => none
  | some slave => some (readBytes (c slave) (a.setWidth _) k)

/-- A store of some bytes; a memory accepts it if it is writable and the store naturally aligned. -/
def write (k : ℕ) (a data : DataType) : Contents nRom nBoot nRam :=
  match g.map.select a with
  | some .io | none => c
  | some slave =>
    if g.useWrite slave && a.toNat % k = 0 then
      Function.update c slave ((c slave).write ⟨a.setWidth _, bytesOf data k⟩)
    else c

/-- What a request on the data bus stores. -/
def after (q : BusRequest) : Contents nRom nBoot nRam :=
  if q.stb && q.acc = .write then c.write g q.size.bytes q.addr q.data else c

variable (nRom nBoot nRam) in
/-- The memories of the processor as the storage of a computer. -/
def storage : Isa.Storage (Contents nRom nBoot nRam) := ⟨fetch g, read g, write g⟩

end Contents

namespace Contents

variable {nRom nBoot nRam : ℕ} {g : BusGenerics} {c : Contents nRom nBoot nRam} {q : BusRequest}

theorem write_eq {slave : Slave} {k : ℕ} {a data : DataType}
    (hsel : g.map.select a = some slave) (hs : slave ≠ .io) : c.write g k a data =
      if g.useWrite slave && a.toNat % k = 0 then
        Function.update c slave ((c slave).write ⟨a.setWidth _, bytesOf data k⟩)
      else c := by
  rw [write, hsel]
  cases slave with
  | io => exact absurd rfl hs
  | rom | boot | ram => rfl

/-- The memories that an address does not select stay. -/
theorem write_of_ne {slave : Slave} {k : ℕ} {a data : DataType}
    (hsel : g.map.select a ≠ some slave) : c.write g k a data slave = c slave := by
  cases h : g.map.select a with
  | none => rw [write, h]
  | some other =>
    have hne : slave ≠ other := fun hs => hsel (hs ▸ h)
    by_cases hio : other = .io
    · rw [write, h, hio]
    · rw [write_eq h hio]
      split_ifs
      · exact Function.update_of_ne hne _ _
      · rfl

/-- What a request stores at a slave. -/
theorem after_apply {slave : Slave} (hs : slave ≠ .io) : c.after g q slave =
    if (g.map.select q.addr = some slave ∧ q.stb = true ∧ q.acc = .write) ∧
        g.useWrite slave = true ∧ NaturallyAligned q.size q.addr then
      (c slave).write ⟨q.addr.setWidth _, bytesOf q.data q.size.bytes⟩
    else c slave := by
  rw [after]
  by_cases hq : (q.stb && decide (q.acc = .write)) = true
  · rw [if_pos hq]
    rw [Bool.and_eq_true, decide_eq_true_eq] at hq
    by_cases hsel : g.map.select q.addr = some slave
    · rw [write_eq hsel hs]
      by_cases hsize : q.size = .unknown
      · -- A request without a size has no bytes.
        have hno : ¬ NaturallyAligned q.size q.addr := fun h => h.1 hsize
        rw [if_neg (fun h : _ ∧ _ ∧ _ => hno h.2.2), hsize]
        split_ifs
        · rw [Function.update_self]
          rfl
        · rfl
      · by_cases ha : (g.useWrite slave && decide (q.addr.toNat % q.size.bytes = 0)) = true
        · rw [if_pos ha, Function.update_self]
          rw [Bool.and_eq_true, decide_eq_true_eq] at ha
          rw [if_pos ⟨⟨hsel, hq⟩, ha.1, hsize, ha.2⟩]
        · rw [if_neg ha, if_neg]
          rintro ⟨-, hw, -, halign⟩
          exact ha (by rw [hw, decide_eq_true halign]; rfl)
    · rw [write_of_ne hsel, if_neg (fun h => hsel h.1.1)]
  · rw [if_neg hq, if_neg]
    rintro ⟨⟨-, hstb, hacc⟩, -⟩
    exact hq (by rw [hstb, decide_eq_true hacc]; rfl)

theorem after_of_not_write (h : (q.stb && decide (q.acc = .write)) = false) : c.after g q = c := by
  rw [after, if_neg (by simp [h])]

end Contents

/-! ## One memory -/

namespace Mem

variable {n : ℕ} {g : MemGenerics} {x : DataType} {m : Mem n} {q : MemRequest} {f : InstrRequest}

/-- A load of a word that has just been read gives the bytes of the memory. -/
theorem bytesOf_response (hs : m.stbDly = true)
    (hread : m.dataread = m.wordAt (q.addr.extractLsb' 2 n)) (ha : NaturallyAligned q.size q.addr) :
    bytesOf (m.response g x q).data q.size.bytes =
      readBytes m.bytes (q.addr.setWidth (n + 2)) q.size.bytes := by
  rw [response, hs, if_pos rfl, hread, setWidth_eq_append]
  cases hsize : q.size with
  | unknown => exact absurd hsize ha.1
  | byte => exact bytesOf_one (recodeRead_byte hsize _).2
  | halfword => exact bytesOf_two (recodeRead_halfword hsize ha _).2
  | word =>
    rw [(recodeRead_word hsize ha _).2]
    exact bytesOf_read32 m.bytes _

/-- A clock without a store reads a word that the memory still has afterwards. -/
theorem dataread_clock (r : Bool) (hq : (q.stb && q.wren) = false) :
    (m.clock g x q f r).dataread = (m.clock g x q f r).wordAt (q.addr.extractLsb' 2 n) := by
  have hlane (k : ℕ) : (g.useWrite && (recodeWrite x q).byteena.getLsbD k) = false := by
    rw [recodeWrite_idle hq]
    simp
  simp only [clock, wordAt, hlane, Bool.false_eq_true, if_false]

theorem instrResponse_clock_eq (r : Bool) : (m.clock g x q f r).instrResponse g =
    if f.stall then m.instrResponse g
    else if g.useInstructions then read32 m.bytes (f.pc.extractLsb' 2 n ++ (0b00 : BitVec 2))
    else 0 := by
  cases hi : g.useInstructions with
  | false => simp [instrResponse, hi]
  | true =>
    cases hf : f.stall with
    | false => exact instrResponse_clock r hi hf
    | true => simp [instrResponse, clock, hi, hf]

/-- What a clock does to the bytes of a memory behind the address decoder. -/
theorem bytes_clock_request (b : BusGenerics) {slave : Slave} {q : BusRequest} (r : Bool) :
    (m.clock g x (b.map.memRequest q slave) f r).bytes =
      if (b.map.select q.addr = some slave ∧ q.stb = true ∧ q.acc = .write) ∧
          g.useWrite = true ∧ NaturallyAligned q.size q.addr then
        m.bytes.write ⟨q.addr.setWidth (n + 2), bytesOf q.data q.size.bytes⟩
      else m.bytes := by
  by_cases h : (b.map.select q.addr = some slave ∧ q.stb = true ∧ q.acc = .write) ∧
      g.useWrite = true ∧ NaturallyAligned q.size q.addr
  · rw [if_pos h]
    exact bytes_clock_store r h.2.1 ((DataBus.stores_memRequest slave).mpr h.1) h.2.2
  · rw [if_neg h]
    apply bytes_clock_of_not_writes
    apply Bool.eq_false_of_not_eq_true
    exact fun hw => h (DataBus.writesMemory_iff.mp hw)

end Mem

/-! ## The memories on the bus -/

namespace DataBus

variable {nRom nBoot nRam : ℕ} {g : BusGenerics} {b : DataBus nRom nBoot nRam} {q : BusRequest}
  {x : BusInput} {f : InstrRequest}

/-- The bytes of the memories on the bus. -/
def contents (b : DataBus nRom nBoot nRam) : Contents nRom nBoot nRam
  | .rom => b.rom.bytes
  | .boot => b.boot.bytes
  | .ram => b.ram.bytes
  | .io => fun _ => 0

theorem contents_clock (r : Bool) : (b.clock g q x f r).contents = b.contents.after g q := by
  funext slave
  cases slave with
  | rom | boot | ram =>
    rw [Contents.after_apply (by decide)]
    exact Mem.bytes_clock_request g r
  | io =>
    rw [Contents.after]
    split_ifs
    · by_cases hsel : g.map.select q.addr = some .io
      · rw [Contents.write, hsel]
        rfl
      · rw [Contents.write_of_ne hsel]
        rfl
    · rfl

/-- The word that a slave has read is the one at an address. -/
def Reads (b : DataBus nRom nBoot nRam) (a : DataType) : Slave → Prop
  | .rom => b.rom.dataread = b.rom.wordAt (a.extractLsb' 2 nRom)
  | .boot => b.boot.dataread = b.boot.wordAt (a.extractLsb' 2 nBoot)
  | .ram => b.ram.dataread = b.ram.wordAt (a.extractLsb' 2 nRam)
  | .io => True

/-- The clock of a request that is no store reads a word in every memory. -/
theorem reads_clock (r : Bool) (hq : q.acc ≠ .write) (slave : Slave) :
    (b.clock g q x f r).Reads q.addr slave := by
  have hno (slave : Slave) :
      ((g.map.memRequest q slave).stb && (g.map.memRequest q slave).wren) = false := by
    simp [AddressMap.memRequest, hq]
  cases slave with
  | rom | boot | ram => exact Mem.dataread_clock r (hno _)
  | io => trivial

/-- The answer to a load that was strobed in the clock before. -/
theorem bytesOf_response {slave : Slave} (hsel : g.map.select q.addr = some slave)
    (hio : slave ≠ .io) (hs : b.stbDly slave = true) (hread : b.Reads q.addr slave)
    (ha : NaturallyAligned q.size q.addr) :
    b.contents.read g q.size.bytes q.addr =
      some (bytesOf (b.response g q x).data q.size.bytes) := by
  rw [Contents.read, response, AddressMap.busResponse, hsel]
  cases slave with
  | rom =>
    exact congrArg some
      (Mem.bytesOf_response (g := g.rom) (q := g.map.memRequestRom q) hs hread ha).symm
  | boot =>
    exact congrArg some
      (Mem.bytesOf_response (g := g.boot) (q := g.map.memRequestBoot q) hs hread ha).symm
  | ram =>
    exact congrArg some
      (Mem.bytesOf_response (g := g.ram) (q := g.map.memRequestRam q) hs hread ha).symm
  | io => exact absurd rfl hio

/-- A fetch delivers a word of the memories; a stalled one keeps the last word. -/
theorem instrWord_clock (r : Bool) (slave : Slave) : (b.clock g q x f r).instrWord g slave =
    if f.stall then b.instrWord g slave else b.contents.word g slave f.pc := by
  cases slave with
  | rom => exact Mem.instrResponse_clock_eq r
  | boot => exact Mem.instrResponse_clock_eq r
  | ram => exact Mem.instrResponse_clock_eq r
  | io => cases f.stall <;> rfl

end DataBus

end ThuasRiscv
