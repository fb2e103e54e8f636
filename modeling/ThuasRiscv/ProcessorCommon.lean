import Mathlib.Data.BitVec

/-!
# Shared data types of the processor

The types, the records that travel over the buses and the constants of
`processor_common.vhd`. A `std_logic` is a `Bool` and a `std_logic_vector` a
`BitVec`; the bits that VHDL leaves at `'-'` are inputs of the functions that
produce them.
-/

namespace ThuasRiscv

/-- The common 32-bit data type. -/
abbrev DataType := BitVec 32

/-- For selecting registers. -/
abbrev RegType := BitVec 5

/-- The four most significant address bits, which select a memory region. -/
abbrev MemoryHighNibble := BitVec 4

/-- Size of a memory access. -/
inductive MemSize where
  | unknown | byte | halfword | word
  deriving DecidableEq, Repr

/-- Memory access type. -/
inductive MemAccess where
  | nop | write | read
  deriving DecidableEq, Repr

/-- ALU operations. -/
inductive AluOp where
  | unknown | nop
  | add | sub | and | or | xor
  | slt | sltu
  | addi | andi | ori | xori
  | slti | sltiu
  | sll | srl | sra
  | slli | srli | srai
  | lui | auipc
  | lw | lh | lhu | lb | lbu
  | sw | sh | sb
  | jalJalr
  | beq | bne | blt | bge | bltu | bgeu
  | trap | mret
  | multiply | divrem
  | csr
  | sh1add | sh2add | sh3add
  | bclr | bclri | bext | bexti
  | binv | binvi | bset | bseti
  | czeroeqz | czeronez
  | andn | orn | xnor
  | clz | ctz | cpop
  | max | maxu | min | minu
  | sextb | sexth | zexth
  | rol | ror | rori
  | orcb
  | rev8
  | mop
  | pack | packh | brev8 | zip | unzip
  deriving DecidableEq, Repr

/-- Control and State register operations. -/
inductive CsrOp where
  | nop | rw | rs | rc | rwi | rsi | rci
  deriving DecidableEq, Repr

/-- Access from the core to the address decoder. -/
structure BusRequest where
  stb : Bool
  acc : MemAccess
  size : MemSize
  addr : DataType
  data : DataType
  deriving DecidableEq

/-- Response from the address decoder to the core. -/
structure BusResponse where
  data : DataType
  ready : Bool
  loadAccessError : Bool
  storeAccessError : Bool
  loadMisalignedError : Bool
  storeMisalignedError : Bool
  deriving DecidableEq

/-- Access from the address decoder to a memory. The `cs` wires are not used anymore. -/
structure MemRequest where
  stb : Bool
  size : MemSize
  addr : DataType
  data : DataType
  wren : Bool
  deriving DecidableEq

/-- Response from a memory to the address decoder. -/
structure MemResponse where
  data : DataType
  ready : Bool
  loadAccessError : Bool
  storeAccessError : Bool
  loadMisalignedError : Bool
  storeMisalignedError : Bool
  deriving DecidableEq

/-- Request for an instruction from memory. -/
structure InstrRequest where
  pc : DataType
  stall : Bool
  deriving DecidableEq

/-- Response of an instruction to the core. -/
structure InstrResponse where
  instr : DataType
  instrAccessError : Bool
  deriving DecidableEq

/-- Data request from the Debug Module to the core. -/
structure DmCoreDataRequest where
  stb : Bool
  address : DataType
  readgpr : Bool
  readcsr : Bool
  readmem : Bool
  writegpr : Bool
  writecsr : Bool
  writemem : Bool
  size : BitVec 2
  data : DataType
  deriving DecidableEq

/-- Data response from the core to the Debug Module. -/
structure DmCoreDataResponse where
  data : DataType
  excep : Bool
  buserr : Bool
  ack : Bool
  deriving DecidableEq

/-- The request lines of an idle Debug Module. -/
def DmCoreDataRequest.idle : DmCoreDataRequest where
  stb := false
  address := 0
  readgpr := false
  readcsr := false
  readmem := false
  writegpr := false
  writecsr := false
  writemem := false
  size := 0
  data := 0

/-- Any of the four error lines of the data bus. -/
def BusResponse.error (r : BusResponse) : Bool :=
  r.loadAccessError || r.storeAccessError || r.loadMisalignedError || r.storeMisalignedError

/-- A bus on which nothing answers. -/
def BusResponse.silent : BusResponse where
  data := 0
  ready := false
  loadAccessError := false
  storeAccessError := false
  loadMisalignedError := false
  storeMisalignedError := false

/-! ## Bit functions -/

/-- The exclusive or of all bits. -/
def xorReduce {n : ℕ} (input : BitVec n) : Bool :=
  (List.range n).foldl (fun x i => x ^^ input.getLsbD i) false

/-- Number of ones in the input; the all-ones input is answered before the count. -/
def countOnes (input : DataType) : DataType :=
  if input = BitVec.allOnes 32 then 32
  else BitVec.ofNat 32 <|
    (List.range 32).foldl (fun count i => if input.getLsbD i then count + 1 else count) 0

/-- One halving step of the leading zero count: `n` bits are skipped when they are all zero. -/
def leadingStep (n : ℕ) (p : ℕ × DataType) : ℕ × DataType :=
  if p.2 >>> (32 - n) = 0 then (p.1 + n, p.2 <<< n) else p

def countLeadingZeros (input : DataType) : DataType :=
  if input = 0 then 32
  else
    let p := leadingStep 2 (leadingStep 4 (leadingStep 8 (leadingStep 16 (0, input))))
    BitVec.ofNat 32 (if p.2.getLsbD 31 then p.1 else p.1 + 1)

/-- One halving step of the trailing zero count. -/
def trailingStep (n : ℕ) (p : ℕ × DataType) : ℕ × DataType :=
  if p.2 <<< (32 - n) = 0 then (p.1 + n, p.2 >>> n) else p

def countTrailingZeros (input : DataType) : DataType :=
  if input = 0 then 32
  else
    let p := trailingStep 2 (trailingStep 4 (trailingStep 8 (trailingStep 16 (0, input))))
    BitVec.ofNat 32 (if p.2.getLsbD 0 then p.1 else p.1 + 1)

/-- The bits of one byte in reverse order. -/
def bitReverse (input : BitVec 8) : BitVec 8 := input.reverse

end ThuasRiscv
