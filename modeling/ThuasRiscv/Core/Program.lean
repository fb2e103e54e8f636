import ThuasRiscv.Core.Step

/-!
# Programs

The inputs that the core sees while it runs a program from a synchronous
instruction memory: the word at the address of the previous clock, which is kept
while the core stalls, and an access error outside of the memory's region.
-/

namespace ThuasRiscv

/-- What arrives at the core in one clock besides the instruction. -/
structure Stimulus where
  bus : BusResponse
  intrio : DataType
  haltReq : Bool
  resumeReq : Bool
  dm : DmCoreDataRequest

/-- Nothing happens. -/
def Stimulus.quiet : Stimulus := ⟨.silent, 0, false, false, .idle⟩

def Stimulus.ready : Stimulus := { Stimulus.quiet with bus := { BusResponse.silent with ready := true } }

def Stimulus.interrupt (n : ℕ) : Stimulus := { Stimulus.quiet with intrio := 1#32 <<< n }

def Stimulus.halt : Stimulus := { Stimulus.quiet with haltReq := true }

/-- The words of a program, from address 0 of its region on; `addi x0, x0, 0` elsewhere. -/
def programWord (words : List DataType) (pc : DataType) : DataType :=
  words.getD (pc.extractLsb' 2 26).toNat 0x00000013

namespace Core

variable (cfg : Generics) (io : Peripherals)

/-- The input port while the memory holds the word `w`. -/
def fetchInput (s : Core) (w : DataType) (x : Stimulus) : CoreInput where
  sreset := false
  instr := if s.pc.extractLsb' 28 4 = cfg.romHighNibble then ⟨w, false⟩ else ⟨0, true⟩
  bus := x.bus
  intrio := x.intrio
  mtime := 0
  mtimeh := 0
  dm := x.dm
  haltReq := x.haltReq
  resumeReq := x.resumeReq
  ackhavereset := false
  csrDontCare := 0

/-- The inputs of a run from the state `s`. -/
def inputsFrom (words : List DataType) : Core → DataType → List Stimulus → List CoreInput
  | _, _, [] => []
  | s, w, x :: xs =>
    let i := s.fetchInput cfg w x
    i :: inputsFrom words (s.step cfg io i)
      (if (s.instrRequest cfg i).stall then w else programWord words s.pc) xs

/-- The inputs of a run from reset. -/
def programInputs (words : List DataType) (xs : List Stimulus) : List CoreInput :=
  inputsFrom cfg io words (Core.initial cfg) 0 xs

/-- The state after a run from reset. -/
def runProgram (words : List DataType) (xs : List Stimulus) : Core :=
  (machine cfg io).run (programInputs cfg io words xs)

theorem runProgram_reachable (words : List DataType) (xs : List Stimulus) :
    (machine cfg io).Reachable Transition.Machine.free (runProgram cfg io words xs) :=
  Transition.Machine.reachable_run _

/-- The inputs of a run from the state `s` in which the words `ws` arrive, one in each clock. -/
def wordInputs : Core → List DataType → List CoreInput
  | _, [] => []
  | s, w :: ws =>
    let i := s.fetchInput cfg w .quiet
    i :: wordInputs (s.step cfg io i) ws

end Core

/-! ## A configuration -/

/-- On-chip debugger, multiplier and divider, no boot ROM and no extensions. -/
def Generics.plain : Generics where
  systemFrequency := 50000000
  hwVersion := 0
  haveOcd := true
  haveBootloaderRom := false
  ocdCsrCheckDisable := false
  haveRiscvE := false
  haveMuldiv := true
  fastDivide := true
  haveZba := false
  haveZbb := false
  haveZbs := false
  haveZicond := false
  haveZimop := false
  haveZbkb := false
  haveZihpm := false
  vectoredMtvec := true
  haveRegistersInRam := true
  romHighNibble := 0x0
  bootHighNibble := 0x1
  bufferIoResponse := false
  fastMem := false

/-- The same with the registers in flip-flops. -/
def Generics.flops : Generics := { Generics.plain with haveRegistersInRam := false }

/-- No optional peripherals. -/
def Peripherals.none : Peripherals :=
  ⟨false, false, false, false, false, false, false, false, false, false, false, false⟩

end ThuasRiscv
