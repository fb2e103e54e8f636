import ThuasRiscv.BreakHeap
import ThuasRiscv.Transition
import Mathlib.Algebra.Group.Int.Defs

/-!
# The heap of the C library

`_sbrk` moves the end of the heap for `malloc`. It protects the reserved stack
space above the heap. An increment that takes the end of the heap below `_end`,
or around the address space, passes the check.
-/

namespace ThuasRiscv

open Transition BreakHeap

namespace Sbrk

/-- The symbols that the linker script defines. -/
structure Linker where
  heapStart : BitVec 32
  stackPointer : BitVec 32
  stackSize : BitVec 32

/-- The error number for lack of memory. -/
def ENOMEM : ℕ := 12

/-- The static variable of `_sbrk`, null before the first call, and `errno`. -/
structure Heap where
  heapEnd : BitVec 32
  errno : ℕ
  deriving DecidableEq

def Heap.initial : Heap := ⟨0, 0⟩

variable (l : Linker) (s : Heap) (incr : BitVec 32)

def Linker.stackLimit : BitVec 32 := l.stackPointer - l.stackSize

/-- Initialize the heap end at the first call. -/
def Heap.init : Heap := if s.heapEnd = 0 then { s with heapEnd := l.heapStart } else s

/-- The pointer that a call returns, and the heap behind it. -/
def sbrk : BitVec 32 × Heap :=
  let s := s.init l
  if l.stackLimit < s.heapEnd + incr then (-1, { s with errno := ENOMEM })
  else (s.heapEnd, { s with heapEnd := s.heapEnd + incr })

/-! ## What a caller may rely on -/

/-- The end of the heap: `_end` before the first call. -/
def Heap.top : BitVec 32 := (s.init l).heapEnd

/-- The call does not run into the stack space. -/
def passes : Bool := !decide (l.stackLimit < s.top l + incr)

/-- The blocks that are returned and not given back, behind a call. -/
def nextBlocks (blocks : List (Block ℤ)) : List (Block ℤ) :=
  let p : ℤ := (sbrk l s incr).1.toNat
  if passes l s incr then
    if 0 < incr.toInt then ⟨p, p + incr.toInt⟩ :: blocks
    else giveBack (p + incr.toInt) blocks
  else blocks

/-- The calls of a run, with the blocks. -/
def machine (l : Linker) : Machine (Heap × List (Block ℤ)) (BitVec 32) :=
  Machine.observe ⟨.initial, fun s incr => (sbrk l s incr).2⟩ [] (nextBlocks l)

/-- A call fails, or returns the previous end of the heap. -/
structure CallCorrect : Prop where
  failing : passes l s incr = false → (sbrk l s incr).1 = -1 ∧
    (sbrk l s incr).2.errno = ENOMEM ∧ (sbrk l s incr).2.top l = s.top l
  successful : passes l s incr = true → (sbrk l s incr).1 = s.top l ∧
    (sbrk l s incr).2.errno = s.errno

/-- The end of the heap that a call asks for. -/
def target : ℤ := (s.top l).toNat + incr.toInt

/-- A call that passes the check asks for an end of the heap from `_end` on, without a wrap of the
address space. -/
def Stays : Prop := passes l s incr = true →
  (l.heapStart.toNat : ℤ) ≤ target l s incr ∧ target l s incr < 2 ^ 32

instance : Decidable (Stays l s incr) :=
  inferInstanceAs (Decidable (passes l s incr = true →
    (l.heapStart.toNat : ℤ) ≤ target l s incr ∧ target l s incr < 2 ^ 32))

/-- The heap, its blocks and its next call are correct. -/
def Correct (p : Heap × List (Block ℤ)) : Prop :=
  Valid (l.heapStart.toNat : ℤ) l.stackLimit.toNat (p.1.top l).toNat p.2 ∧
    ∀ incr, CallCorrect l p.1 incr

/-! ## One call -/

variable {l s incr}

theorem sbrk_of_not_passes (h : passes l s incr = false) :
    sbrk l s incr = (-1, { s.init l with errno := ENOMEM }) := by
  have hlt : l.stackLimit < s.top l + incr := by simpa [passes] using h
  exact if_pos hlt

theorem sbrk_of_passes (h : passes l s incr = true) :
    sbrk l s incr = (s.top l, { s.init l with heapEnd := s.top l + incr }) := by
  have hle : ¬ l.stackLimit < s.top l + incr := by simpa [passes] using h
  exact if_neg hle

theorem top_init (errno : ℕ) : Heap.top l { s.init l with errno } = s.top l := by
  rw [Heap.top, Heap.top, Heap.init, Heap.init]
  split_ifs <;> simp_all

theorem callCorrect (l : Linker) (s : Heap) (incr : BitVec 32) : CallCorrect l s incr := by
  constructor
  case failing =>
    intro h
    rw [sbrk_of_not_passes h]
    exact ⟨rfl, rfl, top_init _⟩
  case successful =>
    intro h
    rw [sbrk_of_passes h]
    refine ⟨rfl, ?_⟩
    rw [Heap.init]
    split_ifs <;> rfl

theorem toNat_add_incr {a : BitVec 32} (hlo : 0 ≤ (a.toNat : ℤ) + incr.toInt)
    (hhi : (a.toNat : ℤ) + incr.toInt < 2 ^ 32) :
    ((a + incr).toNat : ℤ) = a.toNat + incr.toInt := by
  have hincr := incr.isLt
  rw [BitVec.toNat_add]
  rw [BitVec.toInt_eq_toNat_cond] at hlo hhi ⊢
  split_ifs at hlo hhi ⊢ <;> omega

/-- Without a wrap the sum of the pointers is the sum of the numbers. -/
theorem toNat_target (hpass : passes l s incr = true) (h : Stays l s incr) :
    ((s.top l + incr).toNat : ℤ) = target l s incr := by
  obtain ⟨hlo, hhi⟩ := h hpass
  exact toNat_add_incr (by rw [target] at hlo; omega) hhi

/-- A call that stays moves the end of the heap to where it asks for. -/
theorem top_sbrk (hpass : passes l s incr = true) (h : Stays l s incr) :
    (((sbrk l s incr).2.top l).toNat : ℤ) = target l s incr := by
  have htarget := toNat_target hpass h
  rw [← htarget, sbrk_of_passes hpass, Heap.top, Heap.init]
  split_ifs with hzero
  · have hstart := (h hpass).1
    have hnull : (s.top l + incr).toNat = 0 := congrArg BitVec.toNat hzero
    change (l.heapStart.toNat : ℤ) = _
    omega
  · rfl

/-- A call that passes the check stays below the stack. -/
theorem target_le (hpass : passes l s incr = true) (h : Stays l s incr) :
    target l s incr ≤ l.stackLimit.toNat := by
  have hle : s.top l + incr ≤ l.stackLimit := by simpa [passes] using hpass
  rw [← toNat_target hpass h]
  exact_mod_cast hle

theorem valid_step {blocks : List (Block ℤ)} (h : Stays l s incr)
    (hvalid : Valid (l.heapStart.toNat : ℤ) l.stackLimit.toNat (s.top l).toNat blocks) :
    Valid (l.heapStart.toNat : ℤ) l.stackLimit.toNat ((sbrk l s incr).2.top l).toNat
      (nextBlocks l s incr blocks) := by
  rw [nextBlocks]
  cases hpass : passes l s incr with
  | false =>
    rw [((callCorrect l s incr).failing hpass).2.2]
    exact hvalid
  | true =>
    have hle := target_le hpass h
    obtain ⟨hlo, -⟩ := h hpass
    rw [top_sbrk hpass h, if_pos rfl, ((callCorrect l s incr).successful hpass).1]
    change Valid _ _ _ (if 0 < incr.toInt then ⟨_, target l s incr⟩ :: blocks
      else giveBack (target l s incr) blocks)
    have htarget : target l s incr = (s.top l).toNat + incr.toInt := rfl
    split_ifs with hpos
    · exact hvalid.grow (by omega) hle
    · exact hvalid.giveBack hlo (by omega)

/-- The heap of a run whose calls all stay, for every linker script with room for a heap. -/
theorem sbrk_heap_invariant (hlinker : l.heapStart ≤ l.stackLimit) {p : Heap × List (Block ℤ)}
    (h : (machine l).Reachable (fun p incr => Stays l p.1 incr) p) : Correct l p := by
  refine ⟨?_, callCorrect l p.1⟩
  induction h with
  | init => exact Valid.empty le_rfl (by exact_mod_cast hlinker)
  | step incr _ hstays ih => exact valid_step hstays ih

/-- A RAM of 32 KiB at `0x20000000` with 256 bytes of data. -/
def ram : Linker := ⟨0x20000100, 0x20008000, 0x400⟩

/-- Two blocks, half of the second one given back, and a request for too much. -/
def growAndShrink : List (BitVec 32) := [16, 32, -16, 0x8000]

theorem grow_and_shrink : ram.heapStart ≤ ram.stackLimit ∧
    (machine ram).Meets (fun p incr => Stays ram p.1 incr) (machine ram).init growAndShrink ∧
    Correct ram ((machine ram).run growAndShrink) := by
  have hlinker : ram.heapStart ≤ ram.stackLimit := by decide
  have hmeets : (machine ram).Meets (fun p incr => Stays ram p.1 incr) (machine ram).init
      growAndShrink := by decide
  exact ⟨hlinker, hmeets,
    sbrk_heap_invariant hlinker (Machine.Reachable.init.runFrom_of_meets hmeets)⟩

/-- More is given back than there is. -/
theorem heap_end_falls_below_end : ¬ ∀ l : Linker, l.heapStart ≤ l.stackLimit →
    ∀ p, (machine l).Reachable Machine.free p → Correct l p := by
  intro h
  have hvalid := (h ram (by decide) _ (Machine.reachable_run [-0x200])).1
  have hlower := hvalid.lower
  revert hlower
  decide

end Sbrk

end ThuasRiscv
