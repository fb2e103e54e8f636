import ThuasRiscv.Core.State

/-!
# Memory

One memory of the processor: four arrays of bytes, one for each byte of a word,
with the first byte of the word in the highest array. Stores are recoded to the
arrays that they write, loads are recoded from the word that was read in the
clock before, and instructions are fetched through a port of their own.
-/

namespace ThuasRiscv

/-- The generics of a memory, except for its size: a memory of type `Mem n` has `2 ^ n` words, which
is `MEMORY_ADDRESS_BITS = n + 2`. -/
structure MemGenerics where
  useInstructions : Bool
  useWrite : Bool
  contents : List DataType
  default : Bool

/-- The arrays, the register of the read port, the delayed strobe and the fetched word. -/
structure Mem (n : ℕ) where
  memhh : BitVec n → BitVec 8
  memhl : BitVec n → BitVec 8
  memlh : BitVec n → BitVec 8
  memll : BitVec n → BitVec 8
  dataread : DataType
  stbDly : Bool
  instr : DataType

/-- The arrays that a store writes, and the data for them. -/
structure WriteLanes where
  data : DataType
  byteena : BitVec 4
  misaligned : Bool

namespace Mem

variable {n : ℕ} (g : MemGenerics)

/-- The contents of one array after reconfiguration: byte `byte` of the words of the image. -/
def initializeMemorybyte (n byte : ℕ) : BitVec n → BitVec 8 :=
  let dflt := if g.default then BitVec.allOnes 8 else 0
  if g.contents.length > 2 ^ n then fun _ => dflt
  else fun i => match g.contents[i.toNat]? with
    | some word => word.extractLsb' (byte * 8) 8
    | none => dflt

def initial (n : ℕ) : Mem n where
  memhh := initializeMemorybyte g n 3
  memhl := initializeMemorybyte g n 2
  memlh := initializeMemorybyte g n 1
  memll := initializeMemorybyte g n 0
  dataread := 0
  stbDly := false
  instr := 0

/-! ## Recoding -/

/-- Place the data of a store; `x` are the bits that are left open. -/
def recodeWrite (x : DataType) (q : MemRequest) : WriteLanes :=
  let byte (k : ℕ) : BitVec 8 := q.data.extractLsb' (8 * k) 8
  let open_ (k : ℕ) : BitVec 8 := x.extractLsb' (8 * k) 8
  let offset : BitVec 2 := q.addr.extractLsb' 0 2
  if q.stb && q.wren then
    match q.size with
    | .byte =>
      match offset with
      | 0b00 => ⟨byte 0 ++ open_ 2 ++ open_ 1 ++ open_ 0, 0b1000, false⟩
      | 0b01 => ⟨open_ 3 ++ byte 0 ++ open_ 1 ++ open_ 0, 0b0100, false⟩
      | 0b10 => ⟨open_ 3 ++ open_ 2 ++ byte 0 ++ open_ 0, 0b0010, false⟩
      | 0b11 => ⟨open_ 3 ++ open_ 2 ++ open_ 1 ++ byte 0, 0b0001, false⟩
    | .halfword =>
      if offset = 0b00 then ⟨byte 0 ++ byte 1 ++ open_ 1 ++ open_ 0, 0b1100, false⟩
      else if offset = 0b10 then ⟨open_ 3 ++ open_ 2 ++ byte 0 ++ byte 1, 0b0011, false⟩
      else ⟨x, 0b0000, true⟩
    | .word =>
      if offset = 0b00 then ⟨byte 0 ++ byte 1 ++ byte 2 ++ byte 3, 0b1111, false⟩
      else ⟨x, 0b0000, true⟩
    | .unknown => ⟨x, 0b0000, false⟩
  else ⟨x, 0b0000, false⟩

/-- Pick the data of a load out of the word that was read, and report whether it is misaligned. -/
def recodeRead (x : DataType) (q : MemRequest) (dataread : DataType) : DataType × Bool :=
  let lane (k : ℕ) : BitVec 8 := dataread.extractLsb' (8 * k) 8
  let offset : BitVec 2 := q.addr.extractLsb' 0 2
  match q.size with
  | .byte =>
    match offset with
    | 0b00 => (x.extractLsb' 8 24 ++ lane 3, false)
    | 0b01 => (x.extractLsb' 8 24 ++ lane 2, false)
    | 0b10 => (x.extractLsb' 8 24 ++ lane 1, false)
    | 0b11 => (x.extractLsb' 8 24 ++ lane 0, false)
  | .halfword =>
    if offset = 0b00 then (x.extractLsb' 16 16 ++ (lane 2 ++ lane 3), false)
    else if offset = 0b10 then (x.extractLsb' 16 16 ++ (lane 0 ++ lane 1), false)
    else (x, true)
  | .word =>
    if offset = 0b00 then (lane 0 ++ lane 1 ++ lane 2 ++ lane 3, false)
    else (x, true)
  | .unknown => (x, false)

/-- The word at an index, in big-endian format. -/
def wordAt (m : Mem n) (i : BitVec n) : DataType := m.memhh i ++ m.memhl i ++ m.memlh i ++ m.memll i

/-! ## One clock -/

variable (x : DataType) (m : Mem n) (q : MemRequest) (f : InstrRequest)

/-- One clock: write the arrays, read a word, fetch an instruction and delay the strobe. -/
def clock (sreset : Bool) : Mem n :=
  let w := recodeWrite x q
  let i : BitVec n := q.addr.extractLsb' 2 n
  let writeByte (lane : ℕ) (array : BitVec n → BitVec 8) : BitVec n → BitVec 8 :=
    if g.useWrite && w.byteena.getLsbD lane then
      Function.update array i (w.data.extractLsb' (8 * lane) 8)
    else array
  { memhh := writeByte 3 m.memhh
    memhl := writeByte 2 m.memhl
    memlh := writeByte 1 m.memlh
    memll := writeByte 0 m.memll
    dataread := m.wordAt i
    stbDly := !sreset && (q.stb && !q.wren)
    instr := if f.stall then m.instr else m.wordAt (f.pc.extractLsb' 2 n) }

def response : MemResponse where
  data := if m.stbDly then (recodeRead x q m.dataread).1 else x
  ready := m.stbDly || q.stb && q.wren
  loadAccessError := false
  storeAccessError := !g.useWrite && (q.stb && q.wren)
  loadMisalignedError := m.stbDly && (recodeRead x q m.dataread).2
  storeMisalignedError := g.useWrite && (recodeWrite x q).misaligned

/-- The fetched word, recoded to little-endian. -/
def instrResponse : DataType :=
  if g.useInstructions then
    m.instr.extractLsb' 0 8 ++ m.instr.extractLsb' 8 8 ++ m.instr.extractLsb' 16 8 ++
      m.instr.extractLsb' 24 8
  else 0

end Mem

end ThuasRiscv
