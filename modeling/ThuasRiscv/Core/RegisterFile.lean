import ThuasRiscv.Core.MdConfinement

/-!
# The register file and `x0`

Both implementations of the register file are two read ports that see the same
writes one clock later. The RAM blocks hold null-bits in `x0` only because
nothing writes to it: the write enable is cleared for `x0` in the decode
process, but it is set again when the MD unit is ready. The arrays have 32 places;
a configuration with 16 registers uses the first half, as long as the words and the
debugger name no others.
-/

namespace ThuasRiscv

open Transition

theorem IdEx.Shape.rdEn_rd {cfg : Generics} {pc instr : DataType} {d : IdEx}
    (h : IdEx.Shape cfg pc instr d) (hw : d.rdEn = true) : d.rd ≠ 0 := by
  cases h with
  | alu _ _ _ _ _ _ h | jal _ h | jalr _ h | load _ _ _ _ _ h | csr _ _ _ h => exact h hw
  | _ => cases hw

theorem IdEx.Shape.rs1_eq {cfg : Generics} {pc instr : DataType} {d : IdEx}
    (h : IdEx.Shape cfg pc instr d) : d.rs1 = rs1Field instr ∧ d.rs2 = rs2Field instr := by
  cases h <;> exact ⟨rfl, rfl⟩

theorem IdEx.Shape.rd_eq {cfg : Generics} {pc instr : DataType} {d : IdEx}
    (h : IdEx.Shape cfg pc instr d) : d.rd = rdField instr := by
  cases h <;> rfl

namespace Core

variable {cfg : Generics} {io : Peripherals} {s : Core} {o : Observer} {i : CoreInput}

/-! ## One clock of the register file -/

@[simp] theorem writeRegs_none (regs : RegType → DataType) : writeRegs regs none = regs := rfl

theorem writeRegs_some (regs : RegType → DataType) (rd : RegType) (v : DataType) (r : RegType) :
    writeRegs regs (some (rd, v)) r = if r = rd then v else regs r :=
  Function.update_apply _ _ _ _

/-- The registers are clocked: they are in RAM blocks or there is no reset. -/
def RegsClocked (cfg : Generics) (i : CoreInput) : Prop :=
  cfg.haveRegistersInRam = true ∨ i.sreset = false

theorem port1_nextRegs (h : RegsClocked cfg i) (r : RegType) :
    (s.nextRegs cfg io i).port1 cfg r =
      if cfg.haveRegistersInRam = false ∧ r = 0 then 0
      else writeRegs (s.regs.port1 cfg) (s.regWrite cfg io i) r := by
  unfold nextRegs RegisterFile.port1
  cases hram : cfg.haveRegistersInRam with
  | true => simp [ramRegs]
  | false =>
    have hr : i.sreset = false := by rcases h with h | h <;> simp_all
    simp [hr, flopRegs, Function.update_apply]

theorem port2_nextRegs (h : RegsClocked cfg i) (r : RegType) :
    (s.nextRegs cfg io i).port2 cfg r =
      if cfg.haveRegistersInRam = false ∧ r = 0 then 0
      else writeRegs (s.regs.port2 cfg) (s.regWrite cfg io i) r := by
  unfold nextRegs RegisterFile.port2
  cases hram : cfg.haveRegistersInRam with
  | true => simp [ramRegs]
  | false =>
    have hr : i.sreset = false := by rcases h with h | h <;> simp_all
    simp [hr, flopRegs, Function.update_apply]

/-- A reset clears the flip-flops. -/
theorem ports_reset (h : ¬ RegsClocked cfg i) :
    (s.nextRegs cfg io i).port1 cfg = (fun _ => 0) ∧
      (s.nextRegs cfg io i).port2 cfg = (fun _ => 0) := by
  simp only [RegsClocked, not_or, Bool.not_eq_true, Bool.not_eq_false] at h
  simp [nextRegs, RegisterFile.port1, RegisterFile.port2, h.1, h.2]

theorem rs1data_nextRegs (h : RegsClocked cfg i) :
    (s.nextRegs cfg io i).rs1data =
      if s.holdOperands cfg i then s.regs.rs1data
      else s.regs.port1 cfg (rs1Field i.instr.instr) := by
  unfold nextRegs RegisterFile.port1
  cases hram : cfg.haveRegistersInRam with
  | true => simp [ramRegs]
  | false =>
    have hr : i.sreset = false := by rcases h with h | h <;> simp_all
    simp [hr, flopRegs]

theorem rs2data_nextRegs (h : RegsClocked cfg i) :
    (s.nextRegs cfg io i).rs2data =
      if s.holdOperands cfg i then s.regs.rs2data
      else s.regs.port2 cfg (rs2Field i.instr.instr) := by
  unfold nextRegs RegisterFile.port2
  cases hram : cfg.haveRegistersInRam with
  | true => simp [ramRegs]
  | false =>
    have hr : i.sreset = false := by rcases h with h | h <;> simp_all
    simp [hr, flopRegs]

theorem holdOperands_eq : s.holdOperands cfg i = !s.leaves cfg i := by
  unfold holdOperands leaves
  cases s.stallOnTrigger cfg i <;> cases s.stall i <;> cases s.trapRequest cfg i <;> rfl

theorem leaves_of_decode (h : s.advance cfg i = .decode) : s.leaves cfg i = true :=
  (advance_eq_decode_iff.mp h).1

theorem leaves_of_stall (h : s.advance cfg i = .stall) : s.leaves cfg i = false := by
  simp [leaves, (advance_eq_stall_iff.mp h).2.2]

/-- In a stall the forwarding register keeps its value. -/
theorem nextExWb_of_stall (h : s.advance cfg i = .stall) : s.nextExWb cfg io i = s.exWb := by
  simp [nextExWb, (advance_eq_stall_iff.mp h).2.2]

/-- When an instruction leaves the execute stage, the forwarding register gets its result if it
writes one, and forwards nothing else. -/
theorem nextExWb_of_leaves (h : s.leaves cfg i = true) :
    s.nextExWb cfg io i =
      if s.idEx.rdEn then ⟨s.idEx.rd, true, s.result cfg io i, s.idEx.pc⟩
      else { s.exWb with rdEn := false, pc := s.idEx.pc } := by
  simp only [leaves, Bool.and_eq_true, Bool.not_eq_true'] at h
  unfold nextExWb
  cases hrd : s.idEx.rdEn <;> simp [h.1.1, h.1.2, h.2]

/-- The write port of an instruction. -/
theorem regWrite_eq (h : s.indebug = false) :
    s.regWrite cfg io i =
      if s.leaves cfg i && s.idEx.rdEn then some (s.idEx.rd, s.result cfg io i) else none := by
  unfold regWrite leaves
  cases s.stall i <;> cases s.stallOnTrigger cfg i <;> cases s.trapRequest cfg i <;>
    cases s.idEx.rdEn <;> simp [h]

theorem regWrite_indebug (h : s.indebug = true) :
    s.regWrite cfg io i =
      if i.dm.writegpr then some (i.dm.address.extractLsb' 0 5, i.dm.data) else none := by
  simp [regWrite, h]

/-! ## The number of registers -/

/-- The registers that the register file selects in this clock: for the operands, and for the write
and the debug read. -/
def selects (s : Core) (i : CoreInput) : List RegType :=
  [rs1Field i.instr.instr, rs2Field i.instr.instr, s.debugSelect i]

/-- The fetched word and the Debug Module name registers of the register file only. -/
structure NamesRegisters (cfg : Generics) (s : Core) (i : CoreInput) : Prop where
  rs1 : (rs1Field i.instr.instr).toNat < cfg.numberOfRegisters
  rs2 : (rs2Field i.instr.instr).toNat < cfg.numberOfRegisters
  rd : (rdField i.instr.instr).toNat < cfg.numberOfRegisters
  dm : s.indebug = true → (i.dm.address.extractLsb' 0 5).toNat < cfg.numberOfRegisters

/-- All 32 registers can be named. -/
theorem namesRegisters_of_not_riscvE (h : cfg.haveRiscvE = false) : NamesRegisters cfg s i := by
  have hlt : ∀ r : RegType, r.toNat < cfg.numberOfRegisters := by
    intro r
    rw [Generics.numberOfRegisters, h]
    exact r.isLt
  exact ⟨hlt _, hlt _, hlt _, fun _ => hlt _⟩

theorem numberOfRegisters_pos (cfg : Generics) : 0 < cfg.numberOfRegisters := by
  unfold Generics.numberOfRegisters
  split_ifs <;> decide

/-- The destination is one of the registers, and the places above them keep their null-bits. -/
structure RangeInv (cfg : Generics) (s : Core) : Prop where
  rd : s.idEx.rd.toNat < cfg.numberOfRegisters
  unused : ∀ r : RegType, cfg.numberOfRegisters ≤ r.toNat →
    s.regs.regsRs1 r = 0 ∧ s.regs.regsRs2 r = 0 ∧ s.regs.regsDebug r = 0

theorem rangeInv_initial (cfg : Generics) : RangeInv cfg (Core.initial cfg) where
  rd := numberOfRegisters_pos cfg
  unused _ _ := ⟨rfl, rfl, rfl⟩

theorem debugSelect_lt (hinv : RangeInv cfg s) (hn : NamesRegisters cfg s i) :
    (s.debugSelect i).toNat < cfg.numberOfRegisters := by
  rw [debugSelect]
  split_ifs with hd
  · exact hn.dm hd
  · exact hinv.rd

/-- The register file writes the register that it selects. -/
theorem regWrite_selected {r : RegType} {v : DataType} (h : s.regWrite cfg io i = some (r, v)) :
    r = s.debugSelect i := by
  rw [regWrite] at h
  rw [debugSelect]
  cases hd : s.indebug <;> simp only [hd] at h ⊢ <;> split_ifs at h <;> simp_all

theorem writeRegs_unused {regs : RegType → DataType} {r : RegType} (hr : regs r = 0)
    (hsel : r ≠ s.debugSelect i) : writeRegs regs (s.regWrite cfg io i) r = 0 := by
  cases hw : s.regWrite cfg io i with
  | none => exact hr
  | some w =>
    rw [writeRegs_some, if_neg, hr]
    intro h
    exact hsel (h.trans (regWrite_selected hw))

theorem unused_nextRegs (hinv : RangeInv cfg s) (hn : NamesRegisters cfg s i) (r : RegType)
    (hr : cfg.numberOfRegisters ≤ r.toNat) : (s.nextRegs cfg io i).regsRs1 r = 0 ∧
      (s.nextRegs cfg io i).regsRs2 r = 0 ∧ (s.nextRegs cfg io i).regsDebug r = 0 := by
  obtain ⟨h1, h2, hdebug⟩ := hinv.unused r hr
  have hsel : r ≠ s.debugSelect i := by
    intro h
    have hlt := debugSelect_lt hinv hn
    rw [← h] at hlt
    omega
  have hwritten : writeRegs s.regs.regsDebug (s.regWrite cfg io i) r = 0 :=
    writeRegs_unused hdebug hsel
  rw [nextRegs]
  split_ifs
  · refine ⟨writeRegs_unused h1 hsel, writeRegs_unused h2 hsel, ?_⟩
    change (if cfg.haveOcd then writeRegs s.regs.regsDebug (s.regWrite cfg io i)
      else s.regs.regsDebug) r = 0
    split_ifs
    · exact hwritten
    · exact hdebug
  · exact ⟨h1, h2, rfl⟩
  · refine ⟨h1, h2, ?_⟩
    change Function.update (writeRegs s.regs.regsDebug (s.regWrite cfg io i)) 0 0 r = 0
    rw [Function.update_apply, hwritten, ite_self]

theorem rangeInv_step (hinv : RangeInv cfg s) (hn : NamesRegisters cfg s i) :
    RangeInv cfg (s.step cfg io i) := by
  cases hr : i.sreset with
  | true =>
    rw [step_reset _ _ _ _ hr]
    exact ⟨numberOfRegisters_pos cfg, unused_nextRegs hinv hn⟩
  | false =>
    rw [step_clock _ _ _ _ hr]
    refine ⟨?_, unused_nextRegs hinv hn⟩
    rw [clock_idEx, nextIdEx_eq]
    cases s.advance cfg i with
    | trigger | trap => exact numberOfRegisters_pos cfg
    | stall => exact hinv.rd
    | bubble => exact hn.rd
    | decode =>
      rw [(decode_shape _ _ _ _ _).rd_eq]
      exact hn.rd

/-- In a run that names only registers of the register file every index is in the range of the
arrays, and the places above it are never written. -/
theorem registers_in_range (h : (machine cfg io).Reachable (NamesRegisters cfg) s) :
    (∀ r : RegType, cfg.numberOfRegisters ≤ r.toNat →
        s.regs.regsRs1 r = 0 ∧ s.regs.regsRs2 r = 0 ∧ s.regs.regsDebug r = 0) ∧
      ∀ i, NamesRegisters cfg s i → ∀ r ∈ s.selects i, r.toNat < cfg.numberOfRegisters := by
  have hinv : RangeInv cfg s :=
    h.invariant (rangeInv_initial cfg) fun _ _ _ hn hinv => rangeInv_step hinv hn
  refine ⟨hinv.unused, fun i hn r hr => ?_⟩
  simp only [selects, List.mem_cons, List.not_mem_nil, or_false] at hr
  rcases hr with rfl | rfl | rfl
  · exact hn.rs1
  · exact hn.rs2
  · exact debugSelect_lt hinv hn

/-! ## `x0` -/

/-- No operation of the MD unit with destination `x0` completes, and the Debug Module does not
write `x0` of the RAM blocks. -/
structure ZeroSafe (cfg : Generics) (s : Core) (i : CoreInput) : Prop where
  md : i.sreset = false → s.mdCompletes cfg i = true → s.idEx.rd ≠ 0
  dm : cfg.haveRegistersInRam = true → s.indebug = true → i.dm.writegpr = true →
    i.dm.address.extractLsb' 0 5 ≠ 0

instance : Decidable (ZeroSafe cfg s i) :=
  decidable_of_iff
    ((i.sreset = false → s.mdCompletes cfg i = true → s.idEx.rd ≠ 0) ∧
      (cfg.haveRegistersInRam = true → s.indebug = true → i.dm.writegpr = true →
        i.dm.address.extractLsb' 0 5 ≠ 0))
    ⟨fun h => ⟨h.1, h.2⟩, fun h => ⟨h.1, h.2⟩⟩

/-- A use of `x0` in the execute stage has the value 0, from the register file and from the
forwarding register. -/
structure UsesZero (s : Core) : Prop where
  rs1 : s.idEx.rs1 = 0 → s.operandA = 0
  rs2 : s.idEx.rs2 = 0 → s.operandB = 0

/-- `x0` holds 0 wherever a later instruction can read it. -/
structure ZeroInv (cfg : Generics) (s : Core) (o : Observer) : Prop where
  rdEn : s.idEx.rdEn = true → s.idEx.rd = 0 → s.idEx.aluOp = .unknown
  port1 : s.regs.port1 cfg 0 = 0
  port2 : s.regs.port2 cfg 0 = 0
  exWb : s.exWb.rd = 0 → s.exWb.rddata = 0
  rs1 : o.slot.isSome = true → s.idEx.rs1 = 0 → s.regs.rs1data = 0
  rs2 : o.slot.isSome = true → s.idEx.rs2 = 0 → s.regs.rs2data = 0

theorem zeroInv_initial (cfg : Generics) :
    ZeroInv cfg (Core.initial cfg) (Observer.initial cfg) := by
  constructor <;> simp [Core.initial, IdEx.reset, RegisterFile.initial, RegisterFile.port1,
    RegisterFile.port2, ExWb.reset, Observer.initial]

/-- A write to `x0` writes 0. -/
theorem writeRegs_zero (hinv : ZeroInv cfg s o) (hsafe : ZeroSafe cfg s i)
    (hram : cfg.haveRegistersInRam = true) {regs : RegType → DataType} (h : regs 0 = 0) :
    writeRegs regs (s.regWrite cfg io i) 0 = 0 := by
  cases hd : s.indebug with
  | true =>
    rw [regWrite_indebug hd]
    split
    · next hw =>
      rw [writeRegs_some, if_neg (Ne.symm (hsafe.dm hram hd hw))]
      exact h
    · exact h
  | false =>
    rw [regWrite_eq hd]
    split
    · next hw =>
      rw [writeRegs_some]
      split
      · next hrd =>
        have hop := hinv.rdEn (by simp_all) hrd.symm
        simp [result, aluResult, hop]
      · exact h
    · exact h

theorem zeroInv_ports (hinv : ZeroInv cfg s o) (hsafe : ZeroSafe cfg s i) :
    (s.nextRegs cfg io i).port1 cfg 0 = 0 ∧ (s.nextRegs cfg io i).port2 cfg 0 = 0 := by
  by_cases h : RegsClocked cfg i
  · rw [port1_nextRegs h, port2_nextRegs h]
    cases hram : cfg.haveRegistersInRam with
    | true =>
      simp only [Bool.true_eq_false, false_and, if_false]
      exact ⟨writeRegs_zero hinv hsafe hram hinv.port1, writeRegs_zero hinv hsafe hram hinv.port2⟩
    | false => simp
  · simp [ports_reset h]

theorem zeroInv_clock (hinv : ZeroInv cfg s o) (hr : i.sreset = false)
    (hsafe : ZeroSafe cfg s i) : ZeroInv cfg (s.clock cfg io i) (o.clock cfg io s i) where
  rdEn hw hrd := by
    rw [clock_idEx, nextIdEx_eq] at *
    cases ha : s.advance cfg i with
    | stall =>
      simp only [ha] at hw hrd ⊢
      cases hold : s.idEx.rdEn with
      | true => exact hinv.rdEn hold hrd
      | false =>
        have hready : s.mdReady cfg = true := by simpa [IdEx.stalled, hold] using hw
        exact absurd hrd (hsafe.md hr (by simp [mdCompletes, ha, hready]))
    | decode =>
      simp only [ha] at hw hrd
      exact absurd hrd ((decode_shape _ _ _ _ _).rdEn_rd hw)
    | _ => simp [ha, IdEx.triggered, IdEx.trapped, IdEx.bubble] at hw
  port1 := (zeroInv_ports hinv hsafe).1
  port2 := (zeroInv_ports hinv hsafe).2
  exWb h := by
    rw [clock_exWb] at *
    unfold nextExWb at *
    split
    · next hc => rw [if_pos hc] at h; exact hinv.exWb h
    · next hc =>
      rw [if_neg hc] at h
      split
      · next hw =>
        rw [if_pos hw] at h
        have hop := hinv.rdEn (by simp_all) h
        simp [result, aluResult, hop]
      · next hw => rw [if_neg hw] at h; exact hinv.exWb h
  rs1 hslot h := by
    obtain ⟨x, hx⟩ := Option.isSome_iff_exists.mp hslot
    rw [clock_regs, rs1data_nextRegs (.inr hr), holdOperands_eq]
    rw [clock_idEx] at h
    rcases nextSlot_eq_some hx with ⟨ha, hold, hid⟩ | ⟨ha, -, hdec⟩
    · rw [leaves_of_stall ha]
      rw [hid] at h
      exact hinv.rs1 (by simp [hold]) h
    · rw [leaves_of_decode ha]
      rw [nextIdEx_eq, ha] at h
      rw [← (decode_shape cfg s.ebreakm s.isstepping s.ifIdPc i.instr.instr).rs1_eq.1, h]
      exact hinv.port1
  rs2 hslot h := by
    obtain ⟨x, hx⟩ := Option.isSome_iff_exists.mp hslot
    rw [clock_regs, rs2data_nextRegs (.inr hr), holdOperands_eq]
    rw [clock_idEx] at h
    rcases nextSlot_eq_some hx with ⟨ha, hold, hid⟩ | ⟨ha, -, hdec⟩
    · rw [leaves_of_stall ha]
      rw [hid] at h
      exact hinv.rs2 (by simp [hold]) h
    · rw [leaves_of_decode ha]
      rw [nextIdEx_eq, ha] at h
      rw [← (decode_shape cfg s.ebreakm s.isstepping s.ifIdPc i.instr.instr).rs1_eq.2, h]
      exact hinv.port2

theorem zeroInv_step (hinv : ZeroInv cfg s o) (hsafe : ZeroSafe cfg s i) :
    ZeroInv cfg (s.step cfg io i) (o.next cfg io s i) := by
  cases hr : i.sreset with
  | true =>
    have h := zeroInv_initial cfg
    have hp : (s.nextRegs cfg io i).port1 cfg 0 = 0 ∧ (s.nextRegs cfg io i).port2 cfg 0 = 0 :=
      zeroInv_ports hinv hsafe
    rw [step_reset _ _ _ _ hr, Observer.next, if_pos hr]
    exact ⟨h.rdEn, hp.1, hp.2, h.exWb, (fun h => by cases h), (fun h => by cases h)⟩
  | false =>
    rw [step_clock _ _ _ _ hr, Observer.next, if_neg (by simp [hr])]
    exact zeroInv_clock hinv hr hsafe

theorem zeroInv_of_reachable {p : Core × Observer}
    (h : (observed cfg io).Reachable (fun p i => ZeroSafe cfg p.1 i) p) : ZeroInv cfg p.1 p.2 := by
  induction h with
  | init => exact zeroInv_initial cfg
  | step i _ hsafe ih => exact zeroInv_step ih hsafe

theorem ZeroInv.usesZero (hinv : ZeroInv cfg s o) (hx : o.slot.isSome = true) : UsesZero s where
  rs1 h1 := by
    unfold operandA
    split
    · next hf => exact hinv.exWb (by simp_all [forwarda])
    · exact hinv.rs1 hx h1
  rs2 h2 := by
    unfold operandB
    split
    · next hf => exact hinv.exWb (by simp_all [forwardb])
    · exact hinv.rs2 hx h2

/-- In every run in which no multiplication or division with destination `x0` completes and the
debugger leaves `x0` alone, `x0` reads as 0 in the register file and in every instruction in the
execute stage. -/
theorem x0_reads_zero (cfg : Generics) (io : Peripherals) {s : Core} {o : Observer}
    (h : (observed cfg io).Reachable (fun p i => ZeroSafe cfg p.1 i) (s, o)) :
    (s.regs.port1 cfg 0 = 0 ∧ s.regs.port2 cfg 0 = 0) ∧ (o.slot.isSome = true → UsesZero s) := by
  have hinv := zeroInv_of_reachable h
  exact ⟨⟨hinv.port1, hinv.port2⟩, hinv.usesZero⟩

/-- `addi x5, x0, 5; addi x8, x0, 9; mul x6, x5, x8; add x10, x0, x0`, with the last one in the
execute stage, and the same without RAM blocks. -/
theorem add_after_mul_uses_zero :
    (observeProgram .plain .none [0x00500293, 0x00900413, 0x02828333, 0x00000533]
        (.replicate 7 .quiet)).1.operandA = 0 ∧
      (observeProgram .flops .none [0x00500293, 0x00900413, 0x02828333, 0x00000533]
        (.replicate 7 .quiet)).1.operandA = 0 :=
  ⟨((x0_reads_zero .plain .none (Machine.Reachable.init.runFrom_of_meets
      (M := observed .plain .none) (by decide +kernel))).2 (by decide +kernel)).rs1
      (by decide +kernel),
    ((x0_reads_zero .flops .none (Machine.Reachable.init.runFrom_of_meets
      (M := observed .flops .none) (by decide +kernel))).2 (by decide +kernel)).rs1
      (by decide +kernel)⟩

/-- With `mul x0, x5, x8` instead, `add x10, x0, x0` adds the product. -/
theorem mul_to_x0_reaches_next_instruction :
    ¬ ∀ cfg s o, (observed cfg .none).Reachable Machine.free (s, o) → o.slot.isSome = true →
      UsesZero s := by
  intro h
  have hu := h _ _ _ (observeProgram_reachable .plain .none
    [0x00500293, 0x00900413, 0x02828033, 0x00000533] (.replicate 7 .quiet)) (by decide +kernel)
  exact absurd (hu.rs1 (by decide +kernel)) (by decide +kernel)

end Core

end ThuasRiscv
