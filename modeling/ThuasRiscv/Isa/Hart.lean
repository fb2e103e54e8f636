import ThuasRiscv.Isa.Semantics
import Mathlib.Logic.Function.Basic

/-!
# One instruction at a time

A hart executes the instructions of a program one after another. What comes from
outside is in the events: the word that a load gets, the old value of a CSR, the
return address of a trap, and the addresses at which a trap handler or a debugger
goes on. A load or a store completes after its one access to the memory.
-/

namespace Isa

def immS (w : BitVec 32) : BitVec 32 := (w.extractLsb' 25 7 ++ w.extractLsb' 7 5).signExtend 32

/-- An access to the memory with a number of bytes. -/
inductive Access where
  | load (bytes : ℕ) (addr : BitVec 32)
  | store (bytes : ℕ) (addr data : BitVec 32)
  deriving DecidableEq

namespace Mnemonic

def isLoad : Mnemonic → Bool
  | lb | lh | lw | lbu | lhu => true
  | _ => false

def isStore : Mnemonic → Bool
  | sb | sh | sw => true
  | _ => false

/-- The number of bytes of a load or a store. -/
def bytes : Mnemonic → ℕ
  | lb | lbu | sb => 1
  | lh | lhu | sh => 2
  | _ => 4

/-- The access of a load or a store. -/
def access (m : Mnemonic) (w a b : BitVec 32) : Option Access :=
  if m.isLoad then some (.load m.bytes (a + immI w))
  else if m.isStore then some (.store m.bytes (a + immS w) b)
  else none

/-- What a load makes of the bytes that it gets. -/
def loaded (m : Mnemonic) (data : BitVec 32) : BitVec 32 :=
  match m with
  | lb => (data.setWidth 8).signExtend 32
  | lbu => (data.setWidth 8).setWidth 32
  | lh => (data.setWidth 16).signExtend 32
  | lhu => (data.setWidth 16).setWidth 32
  | _ => data

/-- What an instruction writes to `rd`, if it gets `data` from the memory and `csr` from a CSR. -/
def written (m : Mnemonic) (w pc a b data csr : BitVec 32) : Option (BitVec 32) :=
  if m.isLoad then some (m.loaded data) else if m.isCsr then some csr else m.value w pc a b

/-- The address of the next instruction. -/
def successor (m : Mnemonic) (w pc a b mepc : BitVec 32) : BitVec 32 :=
  if m = .mret then mepc else if m.jumps a b then m.target w pc a else pc + 4

end Mnemonic

/-- The PC, the registers, and the access that the instruction at the PC has made already. -/
@[ext] structure Hart where
  pc : BitVec 32
  regs : BitVec 5 → BitVec 32
  pending : Option Access
  zero : regs 0 = 0

/-- What happens to a hart. -/
inductive Event where
  | access (r : Access)
  | instr (data csr mepc : BitVec 32)
  | trap (pc : BitVec 32)
  | resume (pc : BitVec 32)
  | write (r : BitVec 5) (v : BitVec 32)
  deriving DecidableEq

namespace Hart

/-- A hart that has done nothing yet, with the registers `x1` to `x31`. -/
def start (pc : BitVec 32) (regs : BitVec 5 → BitVec 32) : Hart :=
  ⟨pc, Function.update regs 0 0, none, Function.update_self 0 0 regs⟩

variable (isa : BitVec 32 → Option Mnemonic) (prog : BitVec 32 → BitVec 32) (h : Hart)

/-- A write to `x0` has no effect. -/
def write (r : BitVec 5) (v : BitVec 32) : Hart where
  pc := h.pc
  regs := if r = 0 then h.regs else Function.update h.regs r v
  pending := h.pending
  zero := by
    split_ifs with hr
    · exact h.zero
    · rw [Function.update_of_ne (Ne.symm hr), h.zero]

/-- Go on at an address. -/
def jump (pc : BitVec 32) : Hart := { h with pc := pc, pending := none }

/-- The access that the instruction `m` makes with the registers. -/
def accessOf (m : Mnemonic) (w : BitVec 32) : Option Access :=
  m.access w (h.regs (rs1 w)) (h.regs (rs2 w))

def execute (m : Mnemonic) (w data csr mepc : BitVec 32) : Hart :=
  ((m.written w h.pc (h.regs (rs1 w)) (h.regs (rs2 w)) data csr).elim h (h.write (rd w))).jump
    (m.successor w h.pc (h.regs (rs1 w)) (h.regs (rs2 w)) mepc)

/-- The hart after an event, if the event belongs to the program: a load or a store makes its
access once and before it completes. -/
def next : Event → Option Hart
  | .access r =>
    if h.pending = none ∧ (isa (prog h.pc)).bind (h.accessOf · (prog h.pc)) = some r then
      some { h with pending := some r }
    else none
  | .instr data csr mepc =>
    (isa (prog h.pc)).bind fun m =>
      if h.pending = h.accessOf m (prog h.pc) then some (h.execute m (prog h.pc) data csr mepc)
      else none
  | .trap pc | .resume pc => some (h.jump pc)
  | .write r v => some (h.write r v)

/-- The hart after some events. -/
def run (es : List Event) : Option Hart := es.foldlM (next isa prog) h

variable {isa prog h}

theorem run_append {es es' : List Event} {h' : Hart} (hr : run isa prog h es = some h') :
    run isa prog h (es ++ es') = run isa prog h' es' := by
  rw [run, List.foldlM_append]
  change (run isa prog h es).bind _ = _
  rw [hr]
  rfl

@[simp] theorem run_nil : run isa prog h [] = some h := rfl

@[simp] theorem run_cons (e : Event) (es : List Event) :
    run isa prog h (e :: es) = (next isa prog h e).bind fun h' => run isa prog h' es := rfl

@[simp] theorem start_pc (pc : BitVec 32) (regs : BitVec 5 → BitVec 32) :
    (start pc regs).pc = pc := rfl

@[simp] theorem write_pc (r : BitVec 5) (v : BitVec 32) : (h.write r v).pc = h.pc := rfl

@[simp] theorem write_pending (r : BitVec 5) (v : BitVec 32) :
    (h.write r v).pending = h.pending := rfl

theorem write_regs (r : BitVec 5) (v : BitVec 32) {k : BitVec 5} (hk : k ≠ 0) :
    (h.write r v).regs k = Function.update h.regs r v k := by
  change (if r = 0 then h.regs else Function.update h.regs r v) k = _
  by_cases hr : r = 0
  · rw [if_pos hr, hr, Function.update_of_ne hk]
  · rw [if_neg hr]

@[simp] theorem jump_pc (pc : BitVec 32) : (h.jump pc).pc = pc := rfl

@[simp] theorem jump_regs (pc : BitVec 32) : (h.jump pc).regs = h.regs := rfl

@[simp] theorem jump_pending (pc : BitVec 32) : (h.jump pc).pending = none := rfl

end Hart

end Isa
