import ThuasRiscv.Bus.AddressDecode
import ThuasRiscv.Bus.Mem
import ThuasRiscv.ByteStore
import ThuasRiscv.Core.Program

/-!
# A memory is one array of bytes

The four arrays of a memory are the bytes of one store with little-endian words:
stores, loads and fetches through the address decoder do to the arrays what they
do to the store, and the addresses are taken modulo the size of the memory.
-/

namespace ThuasRiscv

open ByteStore Transition

/-- The bytes that an access of a size takes. -/
def MemSize.bytes : MemSize → ℕ
  | .unknown => 0
  | .byte => 1
  | .halfword => 2
  | .word => 4

/-- The access does not cross a boundary of its own size. -/
def NaturallyAligned (size : MemSize) (addr : DataType) : Prop :=
  size ≠ .unknown ∧ addr.toNat % size.bytes = 0

instance (size : MemSize) (addr : DataType) : Decidable (NaturallyAligned size addr) :=
  inferInstanceAs (Decidable (_ ∧ _))

open BitVec in
/-- The bytes of a word that is built of bytes. -/
theorem byte_append (a b c d : BitVec 8) :
    (a ++ b ++ c ++ d).extractLsb' 24 8 = a ∧ (a ++ b ++ c ++ d).extractLsb' 16 8 = b ∧
      (a ++ b ++ c ++ d).extractLsb' 8 8 = c ∧ (a ++ b ++ c ++ d).extractLsb' 0 8 = d := by
  refine ⟨?_, ?_, ?_, ?_⟩
  · rw [extractLsb'_append_eq_of_le (by decide), extractLsb'_append_eq_of_le (by decide),
      extractLsb'_append_eq_left]
  · rw [extractLsb'_append_eq_of_le (by decide), extractLsb'_append_eq_of_le (by decide),
      extractLsb'_append_eq_right]
  · rw [extractLsb'_append_eq_of_le (by decide), extractLsb'_append_eq_right]
  · rw [extractLsb'_append_eq_right]

/-- A big-endian word, recoded to little-endian. -/
theorem recode_append (a b c d : BitVec 8) :
    (a ++ b ++ c ++ d).extractLsb' 0 8 ++ (a ++ b ++ c ++ d).extractLsb' 8 8 ++
      (a ++ b ++ c ++ d).extractLsb' 16 8 ++ (a ++ b ++ c ++ d).extractLsb' 24 8 =
        d ++ c ++ b ++ a := by
  obtain ⟨ha, hb, hc, hd⟩ := byte_append a b c d
  rw [ha, hb, hc, hd]

namespace Mem

variable {n : ℕ} {g : MemGenerics} {x : DataType} {m : Mem n} {q : MemRequest} {f : InstrRequest}

/-! ## Stores -/

/-- The enabled arrays are those of the offsets from `o` to `o + k`, and they get the bytes of `data`
in order. -/
structure Places (w : WriteLanes) (data : DataType) (o k : ℕ) : Prop where
  enable : ∀ p : BitVec 2, w.byteena.getLsbD (3 - p.toNat) = decide (o ≤ p.toNat ∧ p.toNat - o < k)
  data : ∀ p : BitVec 2, o ≤ p.toNat → p.toNat - o < k →
    w.data.extractLsb' (8 * (3 - p.toNat)) 8 = data.extractLsb' (8 * (p.toNat - o)) 8
  misaligned : w.misaligned = false

theorem toNat_offset (addr : DataType) : (addr.extractLsb' 0 2).toNat = addr.toNat % 4 := by
  simp [BitVec.extractLsb']

theorem naturallyAligned_iff {size : MemSize} {addr : DataType} : NaturallyAligned size addr ↔
    size ≠ .unknown ∧ (addr.extractLsb' 0 2).toNat % size.bytes = 0 := by
  rw [toNat_offset]
  cases size <;> simp [NaturallyAligned, MemSize.bytes]

/-- Data for the four arrays, offset by offset. -/
theorem places_lanes {a b c d : BitVec 8} {byteena : BitVec 4} {data : DataType} {o k : ℕ}
    (henable : ∀ p : BitVec 2,
      byteena.getLsbD (3 - p.toNat) = decide (o ≤ p.toNat ∧ p.toNat - o < k))
    (h0 : o ≤ 0 → 0 - o < k → a = data.extractLsb' (8 * (0 - o)) 8)
    (h1 : o ≤ 1 → 1 - o < k → b = data.extractLsb' (8 * (1 - o)) 8)
    (h2 : o ≤ 2 → 2 - o < k → c = data.extractLsb' (8 * (2 - o)) 8)
    (h3 : o ≤ 3 → 3 - o < k → d = data.extractLsb' (8 * (3 - o)) 8) :
    Places ⟨a ++ b ++ c ++ d, byteena, false⟩ data o k where
  enable := henable
  data p := by
    obtain ⟨ha, hb, hc, hd⟩ := byte_append a b c d
    match p with
    | 0b00 => exact fun h h' => ha.trans (h0 h h')
    | 0b01 => exact fun h h' => hb.trans (h1 h h')
    | 0b10 => exact fun h h' => hc.trans (h2 h h')
    | 0b11 => exact fun h h' => hd.trans (h3 h h')
  misaligned := rfl

theorem recodeWrite_aligned (hq : (q.stb && q.wren) = true) (ha : NaturallyAligned q.size q.addr) :
    Places (recodeWrite x q) q.data (q.addr.extractLsb' 0 2).toNat q.size.bytes := by
  rw [naturallyAligned_iff] at ha
  unfold recodeWrite
  rw [if_pos hq]
  generalize q.addr.extractLsb' 0 2 = o at ha ⊢
  cases hs : q.size with
  | unknown => exact absurd hs ha.1
  | byte =>
    match o with
    | 0b00 =>
      exact places_lanes (by decide) (fun _ _ => rfl) (fun _ h => absurd h (by decide))
        (fun _ h => absurd h (by decide)) (fun _ h => absurd h (by decide))
    | 0b01 =>
      exact places_lanes (by decide) (fun h => absurd h (by decide)) (fun _ _ => rfl)
        (fun _ h => absurd h (by decide)) (fun _ h => absurd h (by decide))
    | 0b10 =>
      exact places_lanes (by decide) (fun h => absurd h (by decide)) (fun h => absurd h (by decide))
        (fun _ _ => rfl) (fun _ h => absurd h (by decide))
    | 0b11 =>
      exact places_lanes (by decide) (fun h => absurd h (by decide)) (fun h => absurd h (by decide))
        (fun h => absurd h (by decide)) (fun _ _ => rfl)
  | halfword =>
    rw [hs] at ha
    match o with
    | 0b01 | 0b11 => exact absurd ha.2 (by decide)
    | 0b00 =>
      exact places_lanes (by decide) (fun _ _ => rfl) (fun _ _ => rfl)
        (fun _ h => absurd h (by decide)) (fun _ h => absurd h (by decide))
    | 0b10 =>
      exact places_lanes (by decide) (fun h => absurd h (by decide)) (fun h => absurd h (by decide))
        (fun _ _ => rfl) (fun _ _ => rfl)
  | word =>
    rw [hs] at ha
    match o with
    | 0b01 | 0b10 | 0b11 => exact absurd ha.2 (by decide)
    | 0b00 =>
      exact places_lanes (by decide) (fun _ _ => rfl) (fun _ _ => rfl) (fun _ _ => rfl)
        (fun _ _ => rfl)

theorem recodeWrite_idle (hq : (q.stb && q.wren) = false) : recodeWrite x q = ⟨x, 0, false⟩ := by
  rw [recodeWrite, if_neg (by simp [hq])]

/-- A store that is not naturally aligned enables no array. -/
theorem recodeWrite_misaligned (hq : (q.stb && q.wren) = true) (hs : q.size ≠ .unknown)
    (ha : ¬ NaturallyAligned q.size q.addr) : recodeWrite x q = ⟨x, 0, true⟩ := by
  rw [naturallyAligned_iff] at ha
  unfold recodeWrite
  rw [if_pos hq]
  generalize q.addr.extractLsb' 0 2 = o at ha ⊢
  cases hsize : q.size <;> rw [hsize] at ha hs
  case unknown => exact absurd rfl hs
  case byte => exact absurd ⟨hs, Nat.mod_one _⟩ ha
  case halfword =>
    match o with
    | 0b00 | 0b10 => exact absurd (by decide) ha
    | 0b01 | 0b11 => rfl
  case word =>
    match o with
    | 0b00 => exact absurd (by decide) ha
    | 0b01 | 0b10 | 0b11 => rfl

theorem recodeWrite_unknown (hs : q.size = .unknown) : recodeWrite x q = ⟨x, 0, false⟩ := by
  unfold recodeWrite
  rw [hs]
  exact ite_self _

/-- The array that holds the bytes at an offset. -/
def lane (m : Mem n) (p : BitVec 2) : BitVec n → BitVec 8 :=
  match p with
  | 0b00 => m.memhh
  | 0b01 => m.memhl
  | 0b10 => m.memlh
  | 0b11 => m.memll

/-- The arrays as one array of bytes. -/
def bytes (m : Mem n) : ByteStore (n + 2) := fun a =>
  m.lane (a.extractLsb' 0 2) (a.extractLsb' 2 n)

theorem bytes_append (i : BitVec n) (p : BitVec 2) : m.bytes (i ++ p) = m.lane p i := by
  rw [bytes, BitVec.extractLsb'_append_eq_right, BitVec.extractLsb'_append_eq_left]

theorem lane_clock (r : Bool) (p : BitVec 2) : (m.clock g x q f r).lane p =
    if g.useWrite && (recodeWrite x q).byteena.getLsbD (3 - p.toNat) then
      Function.update (m.lane p) (q.addr.extractLsb' 2 n)
        ((recodeWrite x q).data.extractLsb' (8 * (3 - p.toNat)) 8)
    else m.lane p := by
  match p with
  | 0b00 | 0b01 | 0b10 | 0b11 => rfl

/-- An address in the memory: the index of the word and the offset of the byte. -/
theorem setWidth_eq_append (addr : DataType) :
    addr.setWidth (n + 2) = addr.extractLsb' 2 n ++ addr.extractLsb' 0 2 := by
  apply BitVec.eq_of_getLsbD_eq
  intro k hk
  rw [BitVec.getLsbD_append, BitVec.getLsbD_setWidth, decide_eq_true hk, Bool.true_and]
  split_ifs with h
  · simp [h]
  · rw [BitVec.getLsbD_extractLsb', decide_eq_true (by omega), Bool.true_and]
    congr 1
    omega

/-- What a request writes: the bytes of a store that is naturally aligned. -/
def write (n : ℕ) (q : MemRequest) : Option (Write (n + 2)) :=
  if (q.stb && q.wren) = true ∧ NaturallyAligned q.size q.addr then
    some ⟨q.addr.setWidth (n + 2), bytesOf q.data q.size.bytes⟩
  else none

theorem bytes_clock_idle (r : Bool) (h : (recodeWrite x q).byteena = 0) :
    (m.clock g x q f r).bytes = m.bytes := by
  funext a
  rw [bytes, lane_clock, h, if_neg (by simp)]
  rfl

theorem offset_add_bytes_le (ha : NaturallyAligned q.size q.addr) :
    (q.addr.extractLsb' 0 2).toNat + q.size.bytes ≤ 4 := by
  rw [naturallyAligned_iff] at ha
  have := (q.addr.extractLsb' 0 2).isLt
  cases hs : q.size <;> simp only [hs, MemSize.bytes] at ha ⊢ <;> omega

/-- An aligned store writes its bytes at consecutive addresses. -/
theorem bytes_clock_store (r : Bool) (hw : g.useWrite = true) (hq : (q.stb && q.wren) = true)
    (ha : NaturallyAligned q.size q.addr) : (m.clock g x q f r).bytes =
      m.bytes.write ⟨q.addr.setWidth (n + 2), bytesOf q.data q.size.bytes⟩ := by
  funext a
  obtain ⟨i, p, rfl⟩ : ∃ (i : BitVec n) (p : BitVec 2), a = i ++ p :=
    ⟨_, _, BitVec.extractLsb'_append_extractLsb'.symm⟩
  have hp := recodeWrite_aligned (x := x) hq ha
  rw [bytes_append, lane_clock, hw, Bool.true_and, hp.enable, ByteStore.write, setWidth_eq_append,
    at_append (by simpa using offset_add_bytes_le ha), bytes_append]
  by_cases hle : (q.addr.extractLsb' 0 2).toNat ≤ p.toNat
  · by_cases hlt : p.toNat - (q.addr.extractLsb' 0 2).toNat < q.size.bytes
    · rw [if_pos (decide_eq_true ⟨hle, hlt⟩), Function.update_apply, hp.data p hle hlt]
      by_cases hi : i = q.addr.extractLsb' 2 n
      · rw [if_pos hi, if_pos ⟨hi, hle⟩, getElem?_bytesOf _ hlt, Option.getD_some]
      · rw [if_neg hi, if_neg (fun h => hi h.1), Option.getD_none]
    · rw [if_neg (fun h => hlt (of_decide_eq_true h).2), List.getElem?_eq_none (by simpa using hlt),
        ite_self,
        Option.getD_none]
  · rw [if_neg (fun h => hle (of_decide_eq_true h).1), if_neg (fun h => hle h.2), Option.getD_none]

/-- A clock applies the write of its request to the array of bytes. -/
theorem bytes_clock (r : Bool) (hw : g.useWrite = true) :
    (m.clock g x q f r).bytes = m.bytes.after (write n q).toList := by
  unfold write
  split_ifs with h
  · exact bytes_clock_store r hw h.1 h.2
  · refine bytes_clock_idle r ?_
    cases hq : q.stb && q.wren with
    | false => rw [recodeWrite_idle hq]
    | true =>
      by_cases hs : q.size = .unknown
      · rw [recodeWrite_unknown hs]
      · rw [recodeWrite_misaligned hq hs fun ha => h ⟨hq, ha⟩]

/-! ## Loads and fetches -/

theorem wordAt_eq (i : BitVec n) : m.wordAt i =
    m.lane 0b00 i ++ m.lane 0b01 i ++ m.lane 0b10 i ++ m.lane 0b11 i := rfl

/-- The next addresses in a word. -/
theorem append_add (i : BitVec n) {p : BitVec 2} {k : ℕ} (h : p.toNat + k < 4) :
    (i ++ p) + BitVec.ofNat (n + 2) k = i ++ (p + BitVec.ofNat 2 k) := by
  have hi := i.isLt
  have hk : 2 ^ (n + 2) = 4 * 2 ^ n := by rw [Nat.pow_add, Nat.mul_comm]
  apply BitVec.eq_of_toNat_eq
  rw [BitVec.toNat_add, toNat_append_offset, toNat_append_offset, BitVec.toNat_add,
    BitVec.toNat_ofNat, BitVec.toNat_ofNat, Nat.mod_eq_of_lt (a := k) (by omega),
    Nat.mod_eq_of_lt (a := k) (by omega), Nat.mod_eq_of_lt (by omega), Nat.mod_eq_of_lt (by omega)]
  omega

theorem read16_append {i : BitVec n} {p : BitVec 2} (h : p.toNat + 1 < 4) :
    read16 m.bytes (i ++ p) = m.lane (p + 1) i ++ m.lane p i := by
  rw [read16, show (1 : BitVec (n + 2)) = BitVec.ofNat (n + 2) 1 from rfl, append_add i h,
    bytes_append, bytes_append]
  rfl

theorem read32_append (i : BitVec n) : read32 m.bytes (i ++ (0b00 : BitVec 2)) =
    m.lane 0b11 i ++ m.lane 0b10 i ++ m.lane 0b01 i ++ m.lane 0b00 i := by
  rw [read32, show (1 : BitVec (n + 2)) = BitVec.ofNat (n + 2) 1 from rfl,
    show (2 : BitVec (n + 2)) = BitVec.ofNat (n + 2) 2 from rfl,
    show (3 : BitVec (n + 2)) = BitVec.ofNat (n + 2) 3 from rfl, append_add i (by decide),
    append_add i (by decide), append_add i (by decide), bytes_append, bytes_append, bytes_append,
    bytes_append]
  rfl

/-- The value that a load operation gets from the array of bytes. -/
def loadValue (op : AluOp) (b : ByteStore (n + 2)) (a : BitVec (n + 2)) : DataType :=
  match op with
  | .lw => read32 b a
  | .lh => (read16 b a).signExtend 32
  | .lhu => (read16 b a).setWidth 32
  | .lb => (b a).signExtend 32
  | .lbu => (b a).setWidth 32
  | _ => 0

theorem recodeRead_byte (hs : q.size = .byte) (i : BitVec n) :
    (recodeRead x q (m.wordAt i)).2 = false ∧ (recodeRead x q (m.wordAt i)).1.extractLsb' 0 8 =
      m.bytes (i ++ q.addr.extractLsb' 0 2) := by
  obtain ⟨h0, h1, h2, h3⟩ :=
    byte_append (m.lane 0b00 i) (m.lane 0b01 i) (m.lane 0b10 i) (m.lane 0b11 i)
  rw [bytes_append, wordAt_eq, recodeRead, hs]
  generalize q.addr.extractLsb' 0 2 = o
  match o with
  | 0b00 => exact ⟨rfl, BitVec.extractLsb'_append_eq_right.trans h0⟩
  | 0b01 => exact ⟨rfl, BitVec.extractLsb'_append_eq_right.trans h1⟩
  | 0b10 => exact ⟨rfl, BitVec.extractLsb'_append_eq_right.trans h2⟩
  | 0b11 => exact ⟨rfl, BitVec.extractLsb'_append_eq_right.trans h3⟩

theorem recodeRead_halfword (hs : q.size = .halfword) (ha : NaturallyAligned q.size q.addr)
    (i : BitVec n) : (recodeRead x q (m.wordAt i)).2 = false ∧
      (recodeRead x q (m.wordAt i)).1.extractLsb' 0 16 =
        read16 m.bytes (i ++ q.addr.extractLsb' 0 2) := by
  obtain ⟨h0, h1, h2, h3⟩ :=
    byte_append (m.lane 0b00 i) (m.lane 0b01 i) (m.lane 0b10 i) (m.lane 0b11 i)
  rw [naturallyAligned_iff, hs] at ha
  rw [wordAt_eq, recodeRead, hs]
  generalize q.addr.extractLsb' 0 2 = o at ha ⊢
  match o with
  | 0b00 =>
    rw [read16_append (by decide)]
    exact ⟨rfl, BitVec.extractLsb'_append_eq_right.trans (congrArg₂ _ h1 h0)⟩
  | 0b10 =>
    rw [read16_append (by decide)]
    exact ⟨rfl, BitVec.extractLsb'_append_eq_right.trans (congrArg₂ _ h3 h2)⟩
  | 0b01 | 0b11 => exact absurd ha.2 (by decide)

theorem recodeRead_word (hs : q.size = .word) (ha : NaturallyAligned q.size q.addr)
    (i : BitVec n) : (recodeRead x q (m.wordAt i)).2 = false ∧
      (recodeRead x q (m.wordAt i)).1 = read32 m.bytes (i ++ q.addr.extractLsb' 0 2) := by
  rw [naturallyAligned_iff, hs] at ha
  rw [wordAt_eq, recodeRead, hs]
  generalize q.addr.extractLsb' 0 2 = o at ha ⊢
  match o with
  | 0b00 =>
    rw [read32_append]
    exact ⟨rfl, recode_append _ _ _ _⟩
  | 0b01 | 0b10 | 0b11 => exact absurd ha.2 (by decide)

/-- An aligned load reports no error, and its extended value is the one of the array of bytes. -/
theorem recodeRead_aligned {f3 : BitVec 3} {op : AluOp} (hop : decodeLoad f3 = some (op, q.size))
    (ha : NaturallyAligned q.size q.addr) :
    let r := recodeRead x q (m.wordAt (q.addr.extractLsb' 2 n))
    r.2 = false ∧ ∀ cfg u (src : AluSources) a b,
      aluResult cfg op u { src with busData := r.1 } a b =
        loadValue op m.bytes (q.addr.setWidth (n + 2)) := by
  intro r
  rw [setWidth_eq_append]
  unfold decodeLoad at hop
  split at hop <;> simp only [Option.some.injEq, Prod.mk.injEq, reduceCtorEq] at hop <;>
    obtain ⟨rfl, hs⟩ := hop
  · obtain ⟨he, hv⟩ := recodeRead_byte (x := x) (m := m) hs.symm (q.addr.extractLsb' 2 n)
    exact ⟨he, fun _ _ _ _ _ => congrArg (BitVec.signExtend 32) hv⟩
  · obtain ⟨he, hv⟩ := recodeRead_halfword (x := x) (m := m) hs.symm ha (q.addr.extractLsb' 2 n)
    exact ⟨he, fun _ _ _ _ _ => congrArg (BitVec.signExtend 32) hv⟩
  · obtain ⟨he, hv⟩ := recodeRead_word (x := x) (m := m) hs.symm ha (q.addr.extractLsb' 2 n)
    exact ⟨he, fun _ _ _ _ _ => hv⟩
  · obtain ⟨he, hv⟩ := recodeRead_byte (x := x) (m := m) hs.symm (q.addr.extractLsb' 2 n)
    exact ⟨he, fun _ _ _ _ _ => congrArg (BitVec.setWidth 32) hv⟩
  · obtain ⟨he, hv⟩ := recodeRead_halfword (x := x) (m := m) hs.symm ha (q.addr.extractLsb' 2 n)
    exact ⟨he, fun _ _ _ _ _ => congrArg (BitVec.setWidth 32) hv⟩

/-- A fetch that is not stalled gets the word that a load of the aligned address gets. -/
theorem instrResponse_clock (r : Bool) (hi : g.useInstructions = true) (hf : f.stall = false) :
    (m.clock g x q f r).instrResponse g =
      read32 m.bytes (f.pc.extractLsb' 2 n ++ (0b00 : BitVec 2)) := by
  rw [instrResponse, if_pos hi, clock, hf, read32_append]
  exact recode_append _ _ _ _

/-! ## The contents after reconfiguration -/

/-- The byte that the memory image has at an address. -/
def image (g : MemGenerics) (n : ℕ) : ByteStore (n + 2) := fun a =>
  initializeMemorybyte g n (3 - (a.extractLsb' 0 2).toNat) (a.extractLsb' 2 n)

theorem bytes_initial : (initial g n).bytes = image g n := by
  funext a
  unfold bytes image
  generalize a.extractLsb' 0 2 = p
  match p with
  | 0b00 | 0b01 | 0b10 | 0b11 => rfl

end Mem

/-! ## The memory behind the address decoder -/

/-- What the memory and the address decoder read in one clock; `openBits` are the bits that the
memory leaves open. -/
structure MemInput where
  bus : BusRequest
  instr : InstrRequest
  sreset : Bool
  openBits : DataType
  others : Slave → MemResponse

variable {map : AddressMap} {slave : Slave} {g : MemGenerics} {n : ℕ}

/-- A memory behind the address decoder. -/
def memMachine (map : AddressMap) (slave : Slave) (g : MemGenerics) (n : ℕ) :
    Machine (Mem n) MemInput where
  init := .initial g n
  next m i := m.clock g i.openBits (map.memRequest i.bus slave) i.instr i.sreset

/-- The response that the core gets. -/
def memAnswer (map : AddressMap) (slave : Slave) (g : MemGenerics) (m : Mem n) (i : MemInput) :
    BusResponse :=
  map.busResponse i.bus
    (Function.update i.others slave (m.response g i.openBits (map.memRequest i.bus slave)))

/-- The stores that the core strobes at a slave, as writes of bytes. -/
def storesTo (map : AddressMap) (slave : Slave) (n : ℕ) (is : List MemInput) :
    List (Write (n + 2)) :=
  is.filterMap fun i => Mem.write n (map.memRequest i.bus slave)

/-- The core strobes an access to the slave. -/
structure Strobes (map : AddressMap) (slave : Slave) (acc : MemAccess) (size : MemSize)
    (q : BusRequest) : Prop where
  selected : map.select q.addr = some slave
  stb : q.stb = true
  acc : q.acc = acc
  size : q.size = size

theorem Strobes.memRequest {acc : MemAccess} {size : MemSize} {q : BusRequest}
    (h : Strobes map slave acc size q) (hacc : acc ≠ .nop) :
    map.memRequest q slave = ⟨true, size, q.addr, q.data, acc = .write⟩ := by
  simp [AddressMap.memRequest, h.selected, h.stb, h.acc, h.size, hacc]

/-- The memory does what an array of bytes does. Addresses are taken modulo the size of the memory. -/
structure BehavesAs (map : AddressMap) (slave : Slave) (g : MemGenerics) (m : Mem n)
    (array : ByteStore (n + 2)) : Prop where
  /-- A load that is strobed in clock `i` and held in clock `j` gives the value of the array. -/
  load : ∀ (i j : MemInput) (f3 : BitVec 3) (op : AluOp) (size : MemSize),
    decodeLoad f3 = some (op, size) → Strobes map slave .read size i.bus →
    NaturallyAligned size i.bus.addr → i.sreset = false →
    j.bus.addr = i.bus.addr → j.bus.size = size →
    let m' := (memMachine map slave g n).next m i
    let r := memAnswer map slave g m' j
    r.ready = true ∧
      (m'.response g j.openBits (map.memRequest j.bus slave)).loadMisalignedError = false ∧
      ∀ cfg u (src : AluSources) a b, aluResult cfg op u { src with busData := r.data } a b =
        Mem.loadValue op array (i.bus.addr.setWidth (n + 2))
  /-- A fetch gives the value of a word load; a stalled one keeps the last value. -/
  fetch : ∀ i : MemInput, g.useInstructions = true →
    let m' := (memMachine map slave g n).next m i
    m'.instrResponse g =
      if i.instr.stall then m.instrResponse g
      else Mem.loadValue .lw array ((i.instr.pc &&& ~~~3).setWidth (n + 2))
  /-- A store changes the array at once, if it is naturally aligned. -/
  store : ∀ (i : MemInput) (size : MemSize), Strobes map slave .write size i.bus →
    NaturallyAligned size i.bus.addr → (memAnswer map slave g m i).ready = true ∧
      (m.response g i.openBits (map.memRequest i.bus slave)).storeMisalignedError = false ∧
      ((memMachine map slave g n).next m i).bytes =
        array.write ⟨i.bus.addr.setWidth (n + 2), bytesOf i.bus.data size.bytes⟩
  /-- A misaligned store is reported and changes nothing. -/
  misaligned : ∀ (i : MemInput) (size : MemSize), Strobes map slave .write size i.bus →
    size ≠ .unknown → ¬ NaturallyAligned size i.bus.addr →
    (memAnswer map slave g m i).storeMisalignedError = true ∧
      ((memMachine map slave g n).next m i).bytes = array

/-- One clock applies the store that is strobed in it. -/
theorem bytes_memMachine_next (hw : g.useWrite = true) (m : Mem n) (i : MemInput) :
    ((memMachine map slave g n).next m i).bytes = m.bytes.after (storesTo map slave n [i]) := by
  rw [storesTo, List.filterMap_cons, List.filterMap_nil]
  refine (Mem.bytes_clock i.sreset hw).trans ?_
  cases Mem.write n (map.memRequest i.bus slave) <;> rfl

/-- After any run the arrays hold the image with the stores of the run applied in order. -/
theorem bytes_memMachine_run (hw : g.useWrite = true) (is : List MemInput) :
    ((memMachine map slave g n).run is).bytes =
      (Mem.image g n).after (storesTo map slave n is) := by
  induction is using List.reverseRecOn with
  | nil => exact Mem.bytes_initial
  | append_singleton is i ih =>
    rw [Machine.run, Machine.runFrom_append]
    refine (bytes_memMachine_next hw _ i).trans ?_
    rw [storesTo, storesTo, List.filterMap_append, after_append]
    exact congrArg (ByteStore.after · _) ih

/-! ## Every clock behaves as one of the array of bytes -/

theorem memAnswer_data {m : Mem n} {i : MemInput} (h : map.select i.bus.addr = some slave) :
    (memAnswer map slave g m i).data =
      (m.response g i.openBits (map.memRequest i.bus slave)).data := by
  simp [memAnswer, AddressMap.busResponse, h]

theorem memAnswer_ready {m : Mem n} {i : MemInput} (h : map.select i.bus.addr = some slave) :
    (memAnswer map slave g m i).ready =
      (m.response g i.openBits (map.memRequest i.bus slave)).ready := by
  simp [memAnswer, AddressMap.busResponse, h]

/-- An error of the memory reaches the core. -/
theorem memAnswer_storeMisalignedError {m : Mem n} {i : MemInput}
    (h : (m.response g i.openBits (map.memRequest i.bus slave)).storeMisalignedError = true) :
    (memAnswer map slave g m i).storeMisalignedError = true := by
  cases slave <;> simp [memAnswer, AddressMap.busResponse, h]

theorem behaves_load (m : Mem n) {i j : MemInput} {f3 : BitVec 3} {op : AluOp} {size : MemSize}
    (hop : decodeLoad f3 = some (op, size)) (hi : Strobes map slave .read size i.bus)
    (ha : NaturallyAligned size i.bus.addr) (hr : i.sreset = false)
    (haddr : j.bus.addr = i.bus.addr) (hsize : j.bus.size = size) :
    let m' := (memMachine map slave g n).next m i
    let r := memAnswer map slave g m' j
    r.ready = true ∧
      (m'.response g j.openBits (map.memRequest j.bus slave)).loadMisalignedError = false ∧
      ∀ cfg u (src : AluSources) a b, aluResult cfg op u { src with busData := r.data } a b =
        Mem.loadValue op m.bytes (i.bus.addr.setWidth (n + 2)) := by
  intro m' r
  have hselected : map.select j.bus.addr = some slave := haddr ▸ hi.selected
  have hstb : m'.stbDly = true := by
    simp [m', memMachine, Mem.clock, hi.memRequest (by decide), hr]
  have hread : m'.dataread = m.wordAt (j.bus.addr.extractLsb' 2 n) := by
    rw [haddr]
    rfl
  have hq : (map.memRequest j.bus slave).size = size := hsize
  obtain ⟨herror, hvalue⟩ := Mem.recodeRead_aligned (m := m) (x := j.openBits)
    (q := map.memRequest j.bus slave) (by rw [hq]; exact hop)
    (by rw [hq]; exact (congrArg _ haddr).mpr ha)
  refine ⟨?_, ?_, fun cfg u src a b => ?_⟩
  · rw [memAnswer_ready hselected, Mem.response, hstb, Bool.true_or]
  · rw [Mem.response, hstb, Bool.true_and, hread]
    exact herror
  · rw [memAnswer_data hselected, Mem.response, hstb, if_pos rfl, hread, ← haddr]
    exact hvalue cfg u src a b

/-- The address of the word that holds a byte. -/
theorem setWidth_and_not_three (pc : DataType) :
    (pc &&& ~~~3).setWidth (n + 2) = pc.extractLsb' 2 n ++ (0b00 : BitVec 2) := by
  have hthree (k : ℕ) : (3 : DataType).getLsbD (2 + k) = false :=
    Nat.testBit_lt_two_pow (Nat.lt_of_lt_of_le (by decide : 3 < 2 ^ 2)
      (Nat.pow_le_pow_right (by decide) (Nat.le_add_right 2 k)))
  rw [Mem.setWidth_eq_append]
  congr 1
  · apply BitVec.eq_of_getLsbD_eq
    intro k hk
    simp only [BitVec.getLsbD_extractLsb', BitVec.getLsbD_and, BitVec.getLsbD_not, hthree]
    cases hb : pc.getLsbD (2 + k) with
    | false => simp
    | true => simp [BitVec.lt_of_getLsbD hb]
  · have h : (~~~3 : DataType).extractLsb' 0 2 = 0 := by decide
    rw [BitVec.extractLsb'_and, h]
    exact BitVec.and_zero

theorem behaves_fetch (m : Mem n) (i : MemInput) (hu : g.useInstructions = true) :
    ((memMachine map slave g n).next m i).instrResponse g =
      if i.instr.stall then m.instrResponse g
      else Mem.loadValue .lw m.bytes ((i.instr.pc &&& ~~~3).setWidth (n + 2)) := by
  cases hs : i.instr.stall with
  | true =>
    simp [Mem.instrResponse, memMachine, Mem.clock, hs]
  | false =>
    rw [setWidth_and_not_three, if_neg Bool.false_ne_true]
    exact Mem.instrResponse_clock i.sreset hu hs

theorem behaves_store (hw : g.useWrite = true) (m : Mem n) {i : MemInput} {size : MemSize}
    (hi : Strobes map slave .write size i.bus) (ha : NaturallyAligned size i.bus.addr) :
    (memAnswer map slave g m i).ready = true ∧
      (m.response g i.openBits (map.memRequest i.bus slave)).storeMisalignedError = false ∧
      ((memMachine map slave g n).next m i).bytes =
        m.bytes.write ⟨i.bus.addr.setWidth (n + 2), bytesOf i.bus.data size.bytes⟩ := by
  have hq := hi.memRequest (by decide)
  refine ⟨?_, ?_, ?_⟩
  · rw [memAnswer_ready hi.selected, hq]
    exact Bool.or_true _
  · have hp := Mem.recodeWrite_aligned (x := i.openBits) (q := map.memRequest i.bus slave)
      (by rw [hq]; rfl) (by rw [hq]; exact ha)
    rw [Mem.response, hp.misaligned, Bool.and_false]
  · rw [memMachine, Mem.bytes_clock_store i.sreset hw (by rw [hq]; rfl) (by rw [hq]; exact ha), hq]

theorem behaves_misaligned (hw : g.useWrite = true) (m : Mem n) {i : MemInput} {size : MemSize}
    (hi : Strobes map slave .write size i.bus) (hs : size ≠ .unknown)
    (ha : ¬ NaturallyAligned size i.bus.addr) :
    (memAnswer map slave g m i).storeMisalignedError = true ∧
      ((memMachine map slave g n).next m i).bytes = m.bytes := by
  have hq := hi.memRequest (by decide)
  have hm := Mem.recodeWrite_misaligned (x := i.openBits) (q := map.memRequest i.bus slave)
    (by rw [hq]; rfl) (by rw [hq]; exact hs) (by rw [hq]; exact ha)
  constructor
  · apply memAnswer_storeMisalignedError
    rw [Mem.response, hm, hw]
    rfl
  · exact Mem.bytes_clock_idle i.sreset (by rw [hm])

/-- After any run of stores, loads and fetches the memory behaves as the array of bytes that holds
the image with the stores of the run applied: every address has the byte stored last. -/
theorem memory_is_byte_array (map : AddressMap) (slave : Slave) {g : MemGenerics} (n : ℕ)
    (hw : g.useWrite = true) (is : List MemInput) :
    let array := (Mem.image g n).after (storesTo map slave n is)
    BehavesAs map slave g ((memMachine map slave g n).run is) array ∧
      ∀ a, array a = (lastAt (storesTo map slave n is) a).getD (Mem.image g n a) := by
  intro array
  have harray : array = ((memMachine map slave g n).run is).bytes :=
    (bytes_memMachine_run hw is).symm
  refine ⟨?_, fun a => after_apply _ _ a⟩
  rw [harray]
  exact
    { load := fun _ _ _ _ _ => behaves_load _
      fetch := behaves_fetch _
      store := fun _ _ => behaves_store hw _
      misaligned := fun _ _ => behaves_misaligned hw _ }

/-- A clock in which the core strobes one access and fetches from address 0. -/
def accessInput (acc : MemAccess) (size : MemSize) (addr data : DataType) : MemInput where
  bus := ⟨true, acc, size, addr, data⟩
  instr := ⟨0, false⟩
  sreset := false
  openBits := 0
  others _ := ⟨0, false, false, false, false, false⟩

/-- In a RAM of 16 words at 0x20000000 a byte store to 0x20000043 is seen by a signed load of byte
3, because addresses wrap around after 64 bytes. -/
theorem signed_load_after_store :
    let map : AddressMap := ⟨true, 0x0, 0x1, 0x2, 0xf⟩
    let ram := memMachine map .ram ⟨true, true, [], false⟩ 4
    let m := ram.run [accessInput .write .byte 0x20000043 0x80,
      accessInput .read .byte 0x20000003 0]
    let r := memAnswer map .ram ⟨true, true, [], false⟩ m (accessInput .nop .byte 0x20000003 0)
    r.ready = true ∧ aluResult .plain .lb false ⟨0, r.data, 0, 0, 0⟩ 0 0 = 0xffffff80 := by
  intro map ram m r
  obtain ⟨hbehaves, -⟩ := memory_is_byte_array map .ram (g := ⟨true, true, [], false⟩) 4 rfl
    [accessInput .write .byte 0x20000043 0x80]
  obtain ⟨hready, -, hvalue⟩ := hbehaves.load (accessInput .read .byte 0x20000003 0)
    (accessInput .nop .byte 0x20000003 0) 0b000 .lb .byte rfl ⟨by decide, rfl, rfl, rfl⟩
    (by decide) rfl rfl rfl
  exact ⟨hready, (hvalue .plain false ⟨0, 0, 0, 0, 0⟩ 0 0).trans (by decide)⟩

end ThuasRiscv
