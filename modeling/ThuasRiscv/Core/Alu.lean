import ThuasRiscv.Core.State

/-!
# The ALU

The combinational process that computes the result of the execute stage, and
the penalty that a jump or a taken branch costs.
-/

namespace ThuasRiscv

/-- Compare less-than on operands that are extended by one bit, with their sign for signed
operations and with a zero for unsigned ones. -/
def cmplt (isunsigned : Bool) (a b : DataType) : Bool :=
  (BitVec.cons (a.msb && !isunsigned) a).slt (BitVec.cons (b.msb && !isunsigned) b)

/-- A jump or branch request: the next instructions are flushed. -/
def aluPenalty (op : AluOp) (isunsigned : Bool) (a b : DataType) : Bool :=
  match op with
  | .mret | .jalJalr => true
  | .beq => a == b
  | .bne => !(a == b)
  | .blt | .bltu => cmplt isunsigned a b
  | .bge | .bgeu => !cmplt isunsigned a b
  | _ => false

/-! ## Shifts -/

/-- One stage of the left shifter: the bits that enter come from the top of `signs`. -/
def shiftLeftStage (n : ℕ) (enable : Bool) (p : DataType × DataType) : DataType × DataType :=
  if enable then (p.1 <<< n ||| p.2 >>> (32 - n), p.2 <<< n) else p

/-- One stage of the right shifter: the bits that enter come from the bottom of `signs`. -/
def shiftRightStage (n : ℕ) (enable : Bool) (p : DataType × DataType) : DataType × DataType :=
  if enable then (p.1 >>> n ||| p.2 <<< (32 - n), p.2 >>> n) else p

def shiftLeft (signs a b : DataType) : DataType :=
  let p := shiftLeftStage 16 (b.getLsbD 4) (a, signs)
  let p := shiftLeftStage 8 (b.getLsbD 3) p
  let p := shiftLeftStage 4 (b.getLsbD 2) p
  let p := shiftLeftStage 2 (b.getLsbD 1) p
  (shiftLeftStage 1 (b.getLsbD 0) p).1

def shiftRight (signs a b : DataType) : DataType :=
  let p := shiftRightStage 16 (b.getLsbD 4) (a, signs)
  let p := shiftRightStage 8 (b.getLsbD 3) p
  let p := shiftRightStage 4 (b.getLsbD 2) p
  let p := shiftRightStage 2 (b.getLsbD 1) p
  (shiftRightStage 1 (b.getLsbD 0) p).1

/-! ## Bit manipulation -/

/-- The single bit that the low five bits of `b` select. -/
def bitsft (b : DataType) : DataType := 1#32 <<< (b.extractLsb' 0 5).toNat

/-- Byte `i` of a word. -/
def byteAt (a : DataType) (i : ℕ) : BitVec 8 := a.extractLsb' (8 * i) 8

/-- A byte of ORC.B: all ones unless the byte is zero. -/
def orByte (x : BitVec 8) : BitVec 8 := if x = 0 then 0 else 0xff

def orcb (a : DataType) : DataType :=
  orByte (byteAt a 3) ++ orByte (byteAt a 2) ++ orByte (byteAt a 1) ++ orByte (byteAt a 0)

def rev8 (a : DataType) : DataType := byteAt a 0 ++ byteAt a 1 ++ byteAt a 2 ++ byteAt a 3

def brev8 (a : DataType) : DataType :=
  bitReverse (byteAt a 3) ++ bitReverse (byteAt a 2) ++ bitReverse (byteAt a 1) ++
    bitReverse (byteAt a 0)

/-- ZIP: bit `i` of the low half goes to `2i`, bit `i` of the high half to `2i+1`. -/
def zipBits (a : DataType) : DataType :=
  (BitVec.ofBoolListLE <| (List.range 32).map fun k =>
    a.getLsbD (if k % 2 = 0 then k / 2 else 16 + k / 2)).setWidth 32

def unzipBits (a : DataType) : DataType :=
  (BitVec.ofBoolListLE <| (List.range 32).map fun k =>
    a.getLsbD (if k < 16 then 2 * k else 2 * (k - 16) + 1)).setWidth 32

/-- A condition as a word. -/
def flagWord (b : Bool) : DataType := (BitVec.ofBool b).setWidth 32

/-! ## The result -/

/-- What the ALU reads besides its two operands. -/
structure AluSources where
  pc : DataType
  busData : DataType
  csrData : DataType
  mul : DataType
  div : DataType

/-- The result of the execute stage. An operation of an extension that is not present gives 0. -/
def aluResult (cfg : Generics) (op : AluOp) (isunsigned : Bool) (src : AluSources)
    (a b : DataType) : DataType :=
  let zbbOrZbkb := cfg.haveZbb || cfg.haveZbkb
  match op with
  | .unknown | .nop | .sw | .sh | .sb | .trap | .mop | .mret => 0
  | .add | .addi => a + b
  | .sh1add => (if cfg.haveZba then a <<< 1 else a) + b
  | .sh2add => (if cfg.haveZba then a <<< 2 else a) + b
  | .sh3add => (if cfg.haveZba then a <<< 3 else a) + b
  | .sub => a - b
  | .and | .andi => a &&& b
  | .andn => a &&& (if zbbOrZbkb then ~~~b else b)
  | .or | .ori => a ||| b
  | .orn => a ||| (if zbbOrZbkb then ~~~b else b)
  | .xor | .xori => a ^^^ b
  | .xnor => a ^^^ (if zbbOrZbkb then ~~~b else b)
  | .czeroeqz => if cfg.haveZicond then (if b = 0 then 0 else a) else 0
  | .czeronez => if cfg.haveZicond then (if b ≠ 0 then 0 else a) else 0
  | .bclr | .bclri => if cfg.haveZbs then a &&& ~~~bitsft b else 0
  | .binv | .binvi => if cfg.haveZbs then a ^^^ bitsft b else 0
  | .bset | .bseti => if cfg.haveZbs then a ||| bitsft b else 0
  | .bext | .bexti =>
    if cfg.haveZbs then flagWord (a.getLsbD (b.extractLsb' 0 5).toNat) else 0
  | .orcb => if cfg.haveZbb then orcb a else 0
  | .slt | .slti | .sltu | .sltiu => flagWord (cmplt isunsigned a b)
  | .min | .minu => if cfg.haveZbb then (if cmplt isunsigned a b then a else b) else 0
  | .max | .maxu => if cfg.haveZbb then (if cmplt isunsigned a b then b else a) else 0
  | .sll | .slli => shiftLeft 0 a b
  | .rol => shiftLeft (if zbbOrZbkb then a else 0) a b
  | .srl | .srli => shiftRight 0 a b
  | .sra | .srai => shiftRight (if a.msb then BitVec.allOnes 32 else 0) a b
  | .ror | .rori =>
    shiftRight (if zbbOrZbkb then a else if a.msb then BitVec.allOnes 32 else 0) a b
  | .rev8 => if zbbOrZbkb then rev8 a else 0
  | .brev8 => if cfg.haveZbkb then brev8 a else 0
  | .pack => if cfg.haveZbkb then b.extractLsb' 0 16 ++ a.extractLsb' 0 16 else 0
  | .packh => if cfg.haveZbkb then (byteAt b 0 ++ byteAt a 0).setWidth 32 else 0
  | .zip => if cfg.haveZbkb then zipBits a else 0
  | .unzip => if cfg.haveZbkb then unzipBits a else 0
  | .cpop => if cfg.haveZbb then countOnes a else 0
  | .clz => if cfg.haveZbb then countLeadingZeros a else 0
  | .ctz => if cfg.haveZbb then countTrailingZeros a else 0
  | .sextb => if cfg.haveZbb then (byteAt a 0).signExtend 32 else 0
  | .sexth => if cfg.haveZbb then (a.extractLsb' 0 16).signExtend 32 else 0
  | .zexth => if cfg.haveZbb then (a.extractLsb' 0 16).setWidth 32 else 0
  | .lui => b
  | .auipc => src.pc + b
  | .lw => src.busData
  | .lh => (src.busData.extractLsb' 0 16).signExtend 32
  | .lhu => (src.busData.extractLsb' 0 16).setWidth 32
  | .lb => (byteAt src.busData 0).signExtend 32
  | .lbu => (byteAt src.busData 0).setWidth 32
  | .jalJalr => src.pc + 4
  | .beq => flagWord (a == b)
  | .bne => flagWord (!(a == b))
  | .blt | .bltu => flagWord (cmplt isunsigned a b)
  | .bge | .bgeu => flagWord (!cmplt isunsigned a b)
  | .csr => src.csrData
  | .multiply => src.mul
  | .divrem => src.div

end ThuasRiscv
