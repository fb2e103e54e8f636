import ThuasRiscv.ByteStore
import ThuasRiscv.Isa.Hart

/-!
# A hart with its memory

A computer is a hart and a memory that holds the program and the data. The
instruction at the PC is the word that the memory has there at that time. A store
changes the memory when it makes its access, and a load completes with the bytes
of the memory. What comes from elsewhere, as from a device, is left open, and
the memory may be written from outside.
-/

namespace Isa

/-- What a hart does with a memory. Where there is no memory nothing is read; a write that is not
accepted changes nothing. -/
structure Storage (μ : Type*) where
  fetch : μ → BitVec 32 → BitVec 32
  read : μ → ℕ → BitVec 32 → Option (List (BitVec 8))
  write : μ → ℕ → BitVec 32 → BitVec 32 → μ

namespace Storage

variable {μ : Type*} (M : Storage μ) (m : μ)

/-- The memory after an access. -/
def afterAccess : Access → μ
  | .load _ _ => m
  | .store bytes addr data => M.write m bytes addr data

/-- The memory after an event of the hart. -/
def afterEvent : Event → μ
  | .access r => M.afterAccess m r
  | _ => m

/-- A word has the bytes that an access reads. -/
def gives (r : Option Access) (data : BitVec 32) : Bool :=
  match r with
  | some (.load bytes addr) => (M.read m bytes addr).all fun bs => ByteStore.bytesOf data bytes = bs
  | _ => true

/-- An instruction gets the data of its load from the memory. -/
def allows (h : Hart) : Event → Bool
  | .instr data _ _ => M.gives m h.pending data
  | _ => true

end Storage

/-- What comes from outside of the program: the hart does not look at the memory. -/
def Event.external : Event → Bool
  | .access _ | .instr _ _ _ => false
  | .trap _ | .resume _ | .write _ _ => true

structure Computer (μ : Type*) where
  hart : Hart
  mem : μ

/-- An event of the hart, or a write from outside. -/
inductive ComputerEvent where
  | hart (e : Event)
  | write (bytes : ℕ) (addr data : BitVec 32)
  deriving DecidableEq

namespace Hart

variable {isa : BitVec 32 → Option Mnemonic} {prog prog' : BitVec 32 → BitVec 32} {h : Hart}

/-- Only the instruction at the PC decides what happens. -/
theorem next_congr (e : Event) (hw : prog h.pc = prog' h.pc) :
    next isa prog h e = next isa prog' h e := by
  cases e with
  | access | instr => simp only [next, hw]
  | trap | resume | write => rfl

end Hart

namespace Computer

variable {μ : Type*} (M : Storage μ) (isa : BitVec 32 → Option Mnemonic) (c : Computer μ)

/-- The computer after an event, if the hart executes the program in the memory. -/
def next : ComputerEvent → Option (Computer μ)
  | .hart e =>
    if M.allows c.mem c.hart e then
      (c.hart.next isa (M.fetch c.mem) e).map fun h => ⟨h, M.afterEvent c.mem e⟩
    else none
  | .write bytes addr data => some ⟨c.hart, M.write c.mem bytes addr data⟩

/-- The computer after some events. -/
def run (es : List ComputerEvent) : Option (Computer μ) := es.foldlM (next M isa) c

variable {M isa c}

@[simp] theorem run_nil : run M isa c [] = some c := rfl

@[simp] theorem run_cons (e : ComputerEvent) (es : List ComputerEvent) :
    run M isa c (e :: es) = (next M isa c e).bind fun c' => run M isa c' es := rfl

theorem run_append (es es' : List ComputerEvent) :
    run M isa c (es ++ es') = (run M isa c es).bind fun c' => run M isa c' es' :=
  List.foldlM_append

theorem next_hart {e : Event} {h : Hart} (ha : M.allows c.mem c.hart e = true)
    (hn : c.hart.next isa (M.fetch c.mem) e = some h) :
    next M isa c (.hart e) = some ⟨h, M.afterEvent c.mem e⟩ := by
  rw [next, if_pos ha, hn]
  rfl

@[simp] theorem next_write (bytes : ℕ) (addr data : BitVec 32) :
    next M isa c (.write bytes addr data) = some ⟨c.hart, M.write c.mem bytes addr data⟩ := rfl

/-- An event of the hart that the memory allows, with the program that the memory has. -/
theorem run_hart {e : Event} {h : Hart} {prog : BitVec 32 → BitVec 32}
    (hrun : Hart.run isa prog c.hart [e] = some h)
    (hnext : c.hart.next isa (M.fetch c.mem) e = c.hart.next isa prog e)
    (ha : M.allows c.mem c.hart e = true) :
    run M isa c [.hart e] = some ⟨h, M.afterEvent c.mem e⟩ := by
  rw [Hart.run_cons] at hrun
  obtain ⟨h', hn, hnil⟩ := Option.bind_eq_some_iff.mp hrun
  rw [Hart.run_nil] at hnil
  cases hnil
  rw [run_cons, next_hart ha (hnext.trans hn), Option.bind_some, run_nil]

theorem run_external {e : Event} {h : Hart} {prog : BitVec 32 → BitVec 32}
    (he : e.external = true) (hrun : Hart.run isa prog c.hart [e] = some h) :
    run M isa c [.hart e] = some ⟨h, c.mem⟩ := by
  cases e with
  | access | instr => cases he
  | trap | resume | write => exact run_hart hrun rfl rfl

end Computer

end Isa
