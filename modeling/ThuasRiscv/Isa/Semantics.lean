import ThuasRiscv.Isa.Encoding

/-!
# Values of RISC-V instructions

What the register-register and register-immediate instructions write to `rd`,
when a branch is taken and where jumps and branches go, as functions of the
word, its address and the values of the two source registers.
-/

namespace Isa

/-! ## Immediates -/

section Immediates
variable (w : BitVec 32)

def immI : BitVec 32 := (w.extractLsb' 20 12).signExtend 32

def immB : BitVec 32 :=
  (w.extractLsb' 31 1 ++ w.extractLsb' 7 1 ++ w.extractLsb' 25 6 ++ w.extractLsb' 8 4 ++
    0#1).signExtend 32

def immU : BitVec 32 := w.extractLsb' 12 20 ++ 0#12

def immJ : BitVec 32 :=
  (w.extractLsb' 31 1 ++ w.extractLsb' 12 8 ++ w.extractLsb' 20 1 ++ w.extractLsb' 21 10 ++
    0#1).signExtend 32

/-- The shift amount of an immediate shift. -/
def shamt : ℕ := (w.extractLsb' 20 5).toNat

end Immediates

/-! ## Operations -/

section Operations
variable (a b : BitVec 32)

/-- A condition as a word. -/
def flag (c : Prop) [Decidable c] : BitVec 32 := if c then 1 else 0

/-- The shift amount in a register. -/
def amount : ℕ := b.toNat % 32

/-- The word with a single bit. -/
def bit (n : ℕ) : BitVec 32 := BitVec.twoPow 32 n

/-- A word, bit by bit. -/
def ofBits (f : ℕ → Bool) : BitVec 32 :=
  (BitVec.ofBoolListLE ((List.range 32).map f)).setWidth 32

/-- Every byte with a bit set becomes all ones. -/
def orBytes : BitVec 32 :=
  ofBits fun k => (List.range 8).any fun j => a.getLsbD (8 * (k / 8) + j)

def reverseBytes : BitVec 32 := ofBits fun k => a.getLsbD (8 * (3 - k / 8) + k % 8)

def reverseBitsInBytes : BitVec 32 := ofBits fun k => a.getLsbD (8 * (k / 8) + (7 - k % 8))

/-- The low half goes to the even bits and the high half to the odd bits. -/
def interleave : BitVec 32 := ofBits fun k => a.getLsbD (if k % 2 = 0 then k / 2 else 16 + k / 2)

def deinterleave : BitVec 32 :=
  ofBits fun k => a.getLsbD (if k < 16 then 2 * k else 2 * (k - 16) + 1)

/-- The exact product under the signedness of the two operands. -/
def product (signedA signedB : Bool) : ℤ :=
  (if signedA then a.toInt else a.toNat) * (if signedB then b.toInt else b.toNat)

/-- The high word of a product. -/
def highWord (p : ℤ) : BitVec 32 := BitVec.ofInt 32 (p / 2 ^ 32)

/-- Truncating division; the quotient of a division by zero has all bits set. -/
def divSigned : BitVec 32 :=
  if b = 0 then BitVec.allOnes 32 else BitVec.ofInt 32 (a.toInt.tdiv b.toInt)

def divUnsigned : BitVec 32 :=
  if b = 0 then BitVec.allOnes 32 else BitVec.ofNat 32 (a.toNat / b.toNat)

/-- The remainder has the sign of the dividend; of a division by zero it is the dividend. -/
def remSigned : BitVec 32 := if b = 0 then a else BitVec.ofInt 32 (a.toInt.tmod b.toInt)

def remUnsigned : BitVec 32 := if b = 0 then a else BitVec.ofNat 32 (a.toNat % b.toNat)

end Operations

theorem getLsbD_ofBits {f : ℕ → Bool} {k : ℕ} (hk : k < 32) :
    (ofBits f).getLsbD k = f k := by
  rw [ofBits, BitVec.getLsbD_setWidth, BitVec.getLsbD_ofBoolListLE]
  simp [hk]

theorem ofInt_tdiv (a b : BitVec 32) : BitVec.ofInt 32 (a.toInt.tdiv b.toInt) = a.sdiv b := by
  apply BitVec.eq_of_toInt_eq
  rw [BitVec.toInt_ofInt, BitVec.toInt_sdiv]

theorem ofInt_tmod (a b : BitVec 32) : BitVec.ofInt 32 (a.toInt.tmod b.toInt) = a.srem b := by
  rw [← BitVec.toInt_srem, BitVec.ofInt_toInt]

theorem rotateLeft_eq_rotateRight (a : BitVec 32) {n : ℕ} (hn : n < 32) :
    a.rotateLeft n = a.rotateRight ((32 - n) % 32) := by
  have hmod : (32 - n) % 32 < 32 := Nat.mod_lt _ (by decide)
  apply BitVec.eq_of_getLsbD_eq
  intro k hk
  rw [BitVec.getLsbD_rotateLeft, BitVec.getLsbD_rotateRight, Nat.mod_eq_of_lt hn,
    Nat.mod_eq_of_lt hmod]
  rcases Nat.eq_zero_or_pos n with rfl | hpos
  · simp [hk]
  · rw [Nat.mod_eq_of_lt (by omega)]
    by_cases h : k < n
    · rw [cond_eq_ite, cond_eq_ite, if_pos (decide_eq_true h), if_pos (decide_eq_true (by omega))]
    · rw [cond_eq_ite, cond_eq_ite, if_neg (by simpa using h), if_neg (by simp; omega),
        decide_eq_true hk]
      congr 2
      omega

/-! ## Instructions -/

namespace Mnemonic

/-- What an instruction at `pc` writes to `rd`, from the values `a` of `rs1` and `b` of `rs2`.
Loads and CSR instructions do not get their value from these. -/
def value (m : Mnemonic) (w pc a b : BitVec 32) : Option (BitVec 32) :=
  match m with
  | lui => some (immU w)
  | auipc => some (pc + immU w)
  | jal | jalr => some (pc + 4)
  | addi => some (a + immI w)
  | slti => some (flag (a.toInt < (immI w).toInt))
  | sltiu => some (flag (a.toNat < (immI w).toNat))
  | xori => some (a ^^^ immI w)
  | ori => some (a ||| immI w)
  | andi => some (a &&& immI w)
  | slli => some (a <<< shamt w)
  | srli => some (a >>> shamt w)
  | srai => some (a.sshiftRight (shamt w))
  | add => some (a + b)
  | sub => some (a - b)
  | sll => some (a <<< amount b)
  | slt => some (flag (a.toInt < b.toInt))
  | sltu => some (flag (a.toNat < b.toNat))
  | xor => some (a ^^^ b)
  | srl => some (a >>> amount b)
  | sra => some (a.sshiftRight (amount b))
  | or => some (a ||| b)
  | and => some (a &&& b)
  | mul => some (BitVec.ofInt 32 (product a b true true))
  | mulh => some (highWord (product a b true true))
  | mulhsu => some (highWord (product a b true false))
  | mulhu => some (highWord (product a b false false))
  | div => some (divSigned a b)
  | divu => some (divUnsigned a b)
  | rem => some (remSigned a b)
  | remu => some (remUnsigned a b)
  | sh1add => some (a <<< 1 + b)
  | sh2add => some (a <<< 2 + b)
  | sh3add => some (a <<< 3 + b)
  | andn => some (a &&& ~~~b)
  | orn => some (a ||| ~~~b)
  | xnor => some (~~~(a ^^^ b))
  | clz => some a.clz
  | ctz => some a.ctz
  | cpop => some a.cpop
  | max => some (if a.toInt < b.toInt then b else a)
  | maxu => some (if a.toNat < b.toNat then b else a)
  | min => some (if a.toInt < b.toInt then a else b)
  | minu => some (if a.toNat < b.toNat then a else b)
  | sextb => some ((a.setWidth 8).signExtend 32)
  | sexth => some ((a.setWidth 16).signExtend 32)
  | zexth => some ((a.setWidth 16).setWidth 32)
  | rol => some (a.rotateLeft (amount b))
  | ror => some (a.rotateRight (amount b))
  | rori => some (a.rotateRight (shamt w))
  | orcb => some (orBytes a)
  | rev8 => some (reverseBytes a)
  | bclr => some (a &&& ~~~bit (amount b))
  | bclri => some (a &&& ~~~bit (shamt w))
  | bext => some (flag (a.getLsbD (amount b)))
  | bexti => some (flag (a.getLsbD (shamt w)))
  | binv => some (a ^^^ bit (amount b))
  | binvi => some (a ^^^ bit (shamt w))
  | bset => some (a ||| bit (amount b))
  | bseti => some (a ||| bit (shamt w))
  | pack => some (b.setWidth 16 ++ a.setWidth 16)
  | packh => some ((b.setWidth 8 ++ a.setWidth 8).setWidth 32)
  | brev8 => some (reverseBitsInBytes a)
  | zip => some (interleave a)
  | unzip => some (deinterleave a)
  | czeroeqz => some (if b = 0 then 0 else a)
  | czeronez => some (if b ≠ 0 then 0 else a)
  | mopr | moprr => some 0
  | beq | bne | blt | bge | bltu | bgeu | lb | lh | lw | lbu | lhu | sb | sh | sw | fence | fenceI
  | ecall | ebreak | mret | wfi | csrrw | csrrs | csrrc | csrrwi | csrrsi | csrrci => none

/-- The shifts and rotates. -/
def isShift : Mnemonic → Bool
  | sll | slli | srl | srli | sra | srai | rol | ror | rori => true
  | _ => false

def isMultiply : Mnemonic → Bool
  | mul | mulh | mulhsu | mulhu => true
  | _ => false

/-- Divide and remainder. -/
def isDivide : Mnemonic → Bool
  | div | divu | rem | remu => true
  | _ => false

/-- The instructions that access a CSR. -/
def isCsr : Mnemonic → Bool
  | csrrw | csrrs | csrrc | csrrwi | csrrsi | csrrci => true
  | _ => false

/-- Swap a CSR, without regard to its old value. -/
def isSwap : Mnemonic → Bool
  | csrrw | csrrwi => true
  | _ => false

/-- The operand of a CSR instruction: a register, or the number in its place. -/
def csrOperand (m : Mnemonic) (w a : BitVec 32) : BitVec 32 :=
  match m with
  | csrrwi | csrrsi | csrrci => (rs1 w).setWidth 32
  | _ => a

/-- What a CSR instruction writes to a CSR with the value `old`: swap, set or clear bits. -/
def csrResult (m : Mnemonic) (old x : BitVec 32) : BitVec 32 :=
  match m with
  | csrrs | csrrsi => old ||| x
  | csrrc | csrrci => old &&& ~~~x
  | _ => x

/-- A CSR instruction that sets or clears no bits. -/
def onlyReads (m : Mnemonic) (w : BitVec 32) : Bool :=
  match m with
  | csrrs | csrrc | csrrsi | csrrci => rs1 w = 0
  | _ => false

/-- Arithmetic and logic without the shifts, jumps and branches: instructions that need their
operands and the PC only. -/
def isComputation : Mnemonic → Bool
  | sll | slli | srl | srli | sra | srai | rol | ror | rori
  | mul | mulh | mulhsu | mulhu | div | divu | rem | remu
  | lb | lh | lw | lbu | lhu | sb | sh | sw | fence | fenceI | ecall | ebreak | mret | wfi
  | csrrw | csrrs | csrrc | csrrwi | csrrsi | csrrci => false
  | _ => true

/-- The next instruction is not the one at the next address. -/
def jumps (m : Mnemonic) (a b : BitVec 32) : Bool :=
  match m with
  | jal | jalr => true
  | beq => a = b
  | bne => a ≠ b
  | blt => a.toInt < b.toInt
  | bge => b.toInt ≤ a.toInt
  | bltu => a.toNat < b.toNat
  | bgeu => b.toNat ≤ a.toNat
  | _ => false

/-- Where a jump or a taken branch goes. -/
def target (m : Mnemonic) (w pc a : BitVec 32) : BitVec 32 :=
  match m with
  | jal => pc + immJ w
  | jalr => (a + immI w) &&& ~~~1
  | _ => pc + immB w

end Mnemonic

end Isa
