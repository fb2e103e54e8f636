import ThuasRiscv.Bus.System

/-!
# Instruction router

The four most significant bits of the PC of this clock select the memory whose
fetched word goes to the core. The word itself was fetched in the clock before.
With the router the core, the data bus and the memories are the processor
without its devices.
-/

namespace ThuasRiscv

open Transition

/-- The response to the core, from the fetched words of the memories; `x` are the bits that are left
open. -/
def AddressMap.instrResponse (map : AddressMap) (haveInstInRam : Bool) (pc : DataType)
    (rom boot ram x : DataType) : InstrResponse :=
  let nibble := pc.extractLsb' 28 4
  if nibble = map.romHighNibble then ⟨rom, false⟩
  else if nibble = map.bootHighNibble ∧ map.haveBootloaderRom then ⟨boot, false⟩
  else if nibble = map.ramHighNibble ∧ haveInstInRam then ⟨ram, false⟩
  else ⟨x, true⟩

namespace DataBus

variable {nRom nBoot nRam : ℕ} (g : BusGenerics) (b : DataBus nRom nBoot nRam)

/-- The word that a memory has fetched. -/
def instrWord : Slave → DataType
  | .rom => b.rom.instrResponse g.rom
  | .boot => b.boot.instrResponse g.boot
  | .ram => b.ram.instrResponse g.ram
  | .io => 0

/-- The response of the instruction router; the RAM has instructions when its fetch port has. -/
def instrResponse (f : InstrRequest) (x : BusInput) : InstrResponse :=
  g.map.instrResponse g.ram.useInstructions f.pc (b.instrWord g .rom) (b.instrWord g .boot)
    (b.instrWord g .ram) x.openBits

end DataBus

/-- The memory that the instruction router selects. -/
def BusGenerics.fetchSelect (g : BusGenerics) (pc : DataType) : Option Slave :=
  match g.map.select pc with
  | some .ram => if g.ram.useInstructions then some .ram else none
  | some .io | none => none
  | some slave => some slave

theorem DataBus.instrResponse_eq {nRom nBoot nRam : ℕ} (g : BusGenerics)
    (b : DataBus nRom nBoot nRam) (f : InstrRequest) (x : BusInput) :
    b.instrResponse g f x = match g.fetchSelect f.pc with
      | some slave => ⟨b.instrWord g slave, false⟩
      | none => ⟨x.openBits, true⟩ := by
  unfold instrResponse AddressMap.instrResponse BusGenerics.fetchSelect AddressMap.select
  dsimp only
  generalize f.pc.extractLsb' 28 4 = nibble
  by_cases hrom : nibble = g.map.romHighNibble
  · rw [if_pos hrom, if_pos hrom]
  by_cases hboot : nibble = g.map.bootHighNibble ∧ g.map.haveBootloaderRom = true
  · rw [if_neg hrom, if_neg hrom, if_pos hboot, if_pos hboot]
  by_cases hram : nibble = g.map.ramHighNibble
  · rw [if_neg hrom, if_neg hrom, if_neg hboot, if_neg hboot, if_pos hram]
    cases hinst : g.ram.useInstructions with
    | true => rw [if_pos ⟨hram, rfl⟩]; rfl
    | false => rw [if_neg (by simp)]; rfl
  · rw [if_neg hrom, if_neg hrom, if_neg hboot, if_neg hboot, if_neg hram,
      if_neg (fun h => hram h.1)]
    by_cases hio : nibble = g.map.ioHighNibble
    · rw [if_pos hio]
    · rw [if_neg hio]

namespace System

variable {nRom nBoot nRam : ℕ} (g : SystemGenerics) (io : Peripherals)
  (s : System nRom nBoot nRam) (i : SystemInput)

/-- The input with the instruction that the router delivers; the one of `i` is not read. -/
def routed : SystemInput :=
  { i with core := { i.core with
      instr := s.bus.instrResponse g.bus (s.core.instrRequest g.core (s.coreInput g i)) i.bus } }

/-- The processor without its devices. -/
def processor (nRom nBoot nRam : ℕ) (loadAccessError storeAccessError : Bool) :
    Machine (System nRom nBoot nRam) SystemInput :=
  ⟨initial g nRom nBoot nRam loadAccessError storeAccessError, fun s i =>
    s.step g io (s.routed g i)⟩

end System

end ThuasRiscv
