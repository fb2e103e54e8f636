import ThuasRiscv.Core.RegisterFile

/-!
# Forwarding

The pipeline reads its operands one clock early and forwards the latest result.
Simulation with a machine that executes one instruction at a time: the register
file is the register file of that machine, and the operands of the instruction
in the execute stage are its registers.
-/

namespace ThuasRiscv

open Transition

namespace Core

variable {cfg : Generics} {io : Peripherals} {s : Core} {o : Observer} {i : CoreInput}

/-- A completion of the MD unit finds an instruction of the MD unit in the execute stage, and
`state_mret` finds no start of one there. -/
structure ForwardSafe (cfg : Generics) (s : Core) (i : CoreInput) : Prop where
  completes : i.sreset = false → s.mdCompletes cfg i = true →
    s.idEx.aluOp = .multiply ∨ s.idEx.aluOp = .divrem
  mret : i.sreset = false → s.control.state = .mret → s.idEx.mdStart = false

instance : Decidable (ForwardSafe cfg s i) :=
  decidable_of_iff
    ((i.sreset = false → s.mdCompletes cfg i = true →
        s.idEx.aluOp = .multiply ∨ s.idEx.aluOp = .divrem) ∧
      (i.sreset = false → s.control.state = .mret → s.idEx.mdStart = false))
    ⟨fun h => ⟨h.1, h.2⟩, fun h => ⟨h.1, h.2⟩⟩

/-- The operands are registers of the one-instruction machine. -/
structure ReadsRegs (s : Core) (o : Observer) : Prop where
  rs1 : s.idEx.rs1 ≠ 0 → s.operandA = o.regs s.idEx.rs1
  rs2 : s.idEx.rs2 ≠ 0 → s.operandB = o.regs s.idEx.rs2

/-! ## What is in the execute stage -/

/-- The slot of the observer and the execute stage describe the same instruction. -/
structure SlotInv (cfg : Generics) (s : Core) (o : Observer) : Prop where
  debug : s.control.state = .debug → cfg.haveOcd = true
  coherent : s.idEx.Coherent
  start : s.idEx.mdStart = true →
    s.control.state = .exec ∨ s.control.state = .wfi ∨ s.control.state = .mret
  empty : o.slot = none → (s.idEx.rdEn = true → s.idEx.rd = 0) ∧ s.idEx.aluOp.plain = true
  rd : ∀ x, o.slot = some x → s.idEx.rd = x.decoded.rd
  isMd : ∀ x, o.slot = some x → (x.isMd ↔ s.idEx.aluOp = .multiply ∨ s.idEx.aluOp = .divrem)
  rdEn : ∀ x, o.slot = some x → ¬ x.isMd → s.idEx.rdEn = x.decoded.rdEn
  life : ∀ x, o.slot = some x → x.isMd → s.idEx.mdStart = true ∨ s.control.state = .md ∨
    s.control.state = .wfi ∨ s.control.state = .debug ∨
    s.control.state = .md2 ∧ s.idEx.rdEn = true

theorem slotInv_initial (cfg : Generics) :
    SlotInv cfg (Core.initial cfg) (Observer.initial cfg) where
  debug h := by cases h
  coherent := .of_inert rfl rfl rfl
  start h := by cases h
  empty _ := ⟨fun _ => rfl, rfl⟩
  rd _ h := by cases h
  isMd _ h := by cases h
  rdEn _ h := by cases h
  life _ h := by cases h

/-- After a decode the controller executes, sleeps or returns from a trap. -/
theorem stateNext_of_decode (hd : s.control.state = .debug → cfg.haveOcd = true)
    (h : s.advance cfg i = .decode) :
    s.stateNext cfg i = .exec ∨ s.stateNext cfg i = .wfi ∨ s.stateNext cfg i = .mret := by
  obtain ⟨hleave, hflush⟩ := advance_eq_decode_iff.mp h
  simp only [leaves, Bool.and_eq_true, Bool.not_eq_true', stall_eq, stallOnTrigger_eq] at hleave
  simp only [flushDecode, Bool.or_eq_false_iff, decide_eq_false_iff_not, flush_eq] at hflush
  unfold stateNext
  cases hs : s.control.state <;> simp only [hs] at hleave hflush
  case exec =>
    have hmem : (s.idEx.ismem && !i.bus.ready) = false ∧ s.idEx.mdStart = false := by
      simpa using hleave.1.1
    simp only [execNext, hleave.1.2, hleave.2, hflush.1.1, hmem.1, hmem.2, Bool.false_eq_true,
      if_false]
    split_ifs <;> simp
  case mem => simp_all
  case debug => simp [hd hs] at hleave
  all_goals simp_all

/-- The states in which an instruction can be in the execute stage. -/
theorem stateNext_of_nextSlot (hd : s.control.state = .debug → cfg.haveOcd = true)
    (hc : s.idEx.Coherent) (h : o.nextSlot cfg s i ≠ none) : s.stateNext cfg i = .exec ∨
      s.stateNext cfg i = .mem ∨ s.stateNext cfg i = .md ∨ s.stateNext cfg i = .md2 ∨
      s.stateNext cfg i = .wfi ∨ s.stateNext cfg i = .debug ∨
      s.stateNext cfg i = .mret ∧ s.advance cfg i = .decode := by
  obtain ⟨x, hx⟩ := Option.ne_none_iff_exists'.mp h
  rcases nextSlot_eq_some hx with ⟨ha, -, -⟩ | ⟨ha, -, -⟩
  · rcases stall_cases hc ha with ⟨-, -, -, hn⟩ | ⟨-, -, hn⟩ | ⟨-, -, hn⟩ | ⟨-, hn⟩ | ⟨-, hn⟩
    · simp [hn]
    · simp [hn]
    · simp [hn]
    · rw [hn]
      split <;> simp
    · rw [hn]
      split <;> simp
  · rcases stateNext_of_decode hd ha with hn | hn | hn <;> simp [hn, ha]

theorem mdStart_of_isMd {x : Instr} (h : x.decoded = s.nextIdEx cfg i) (hmd : x.isMd) :
    (s.nextIdEx cfg i).mdStart = true := h ▸ hmd

/-- An instruction of the MD unit leaves the execute stage with its write enabled. -/
theorem rdEn_of_leaves (hinv : SlotInv cfg s o) (hr : i.sreset = false)
    (hsafe : ForwardSafe cfg s i) (hleave : s.leaves cfg i = true) {x : Instr}
    (hx : o.slot = some x) (hmd : x.isMd) : s.idEx.rdEn = true := by
  simp only [leaves, Bool.and_eq_true, Bool.not_eq_true', stall_eq, stallOnTrigger_eq] at hleave
  rcases hinv.life x hx hmd with hstart | hs | hs | hs | ⟨-, hrd⟩
  · rcases hinv.start hstart with hs | hs | hs
    · simp [hs, hstart] at hleave
    · simp [hs] at hleave
    · simp [hsafe.mret hr hs] at hstart
  · simp [hs] at hleave
  · simp [hs] at hleave
  · simp [hs, hinv.debug hs] at hleave
  · exact hrd

theorem slotInv_life (hinv : SlotInv cfg s o) {x : Instr} (hx : o.nextSlot cfg s i = some x)
    (hmd : x.isMd) : (s.nextIdEx cfg i).mdStart = true ∨ s.stateNext cfg i = .md ∨
      s.stateNext cfg i = .wfi ∨ s.stateNext cfg i = .debug ∨
      s.stateNext cfg i = .md2 ∧ (s.nextIdEx cfg i).rdEn = true := by
  rcases nextSlot_eq_some hx with ⟨ha, hslot, hid⟩ | ⟨-, -, hdec⟩
  · rcases stall_cases hinv.coherent ha with
      ⟨hs, hm, -⟩ | ⟨-, -, hn⟩ | ⟨hs, -⟩ | ⟨hs, hn⟩ | ⟨-, hn⟩
    · rcases hinv.life x hslot hmd with hstart | h' | h' | h' | ⟨h', -⟩
      · simp [(hinv.coherent.mem hm).1] at hstart
      all_goals rw [hs] at h'; cases h'
    · exact .inr (.inl hn)
    · rcases hinv.life x hslot hmd with hstart | h' | h' | h' | ⟨h', -⟩
      · rcases hinv.start hstart with h' | h' | h' <;> rw [hs] at h' <;> cases h'
      all_goals rw [hs] at h'; cases h'
    · cases hready : s.mdReady cfg with
      | false => exact .inr (.inl (by rw [hn, hready]; rfl))
      | true =>
        refine .inr (.inr (.inr (.inr ⟨by rw [hn, hready]; rfl, ?_⟩)))
        rw [hid, hready]
        exact Bool.or_true _
    · rw [hn]
      split <;> simp
  · exact .inl (mdStart_of_isMd hdec hmd)

theorem slotInv_clock (hinv : SlotInv cfg s o) (hr : i.sreset = false)
    (hsafe : ForwardSafe cfg s i) : SlotInv cfg (s.clock cfg io i) (o.clock cfg io s i) where
  debug h := haveOcd_of_stateNext hinv.debug (clock_state cfg io s i ▸ h)
  coherent := coherent_nextIdEx
  start h := by
    rw [clock_state]
    exact stateNext_of_decode hinv.debug (mdStart_nextIdEx h)
  empty h := by
    have h : o.nextSlot cfg s i = none := h
    rw [clock_idEx, nextIdEx_eq]
    unfold Observer.nextSlot at h
    cases ha : s.advance cfg i with
    | stall =>
      rw [ha] at h
      obtain ⟨hrd, hop⟩ := hinv.empty h
      have hready : s.mdReady cfg = false := by
        by_contra hready
        rcases hsafe.completes hr (by simp [mdCompletes, ha, hready]) with h' | h' <;>
          simp [h', AluOp.plain] at hop
      simpa [IdEx.stalled, hready] using ⟨hrd, hop⟩
    | decode => rw [ha] at h; cases h
    | _ => simp [IdEx.triggered, IdEx.trapped, IdEx.bubble, AluOp.plain]
  rd x hx := by
    rw [clock_idEx]
    rcases nextSlot_eq_some hx with ⟨-, hslot, hid⟩ | ⟨-, -, hdec⟩
    · rw [hid]
      exact hinv.rd x hslot
    · rw [hdec]
  isMd x hx := by
    rw [clock_idEx]
    rcases nextSlot_eq_some hx with ⟨-, hslot, hid⟩ | ⟨ha, -, hdec⟩
    · rw [hid]
      exact hinv.isMd x hslot
    · rw [Instr.isMd, hdec, nextIdEx_eq, ha]
      exact (decode_shape _ _ _ _ _).isMd_iff
  rdEn x hx hmd := by
    rw [clock_idEx]
    rcases nextSlot_eq_some hx with ⟨ha, hslot, hid⟩ | ⟨-, -, hdec⟩
    · have hready : s.mdReady cfg = false := by
        by_contra hready
        exact hmd ((hinv.isMd x hslot).mpr
          (hsafe.completes hr (by simp [mdCompletes, ha, hready])))
      rw [hid, hready]
      simpa [IdEx.stalled] using hinv.rdEn x hslot hmd
    · rw [hdec]
  life x hx hmd := by
    rw [clock_state]
    exact slotInv_life hinv hx hmd

/-! ## The registers -/

/-- The register file follows the one-instruction machine, except for `x0`. -/
structure ForwardInv (cfg : Generics) (s : Core) (o : Observer) : Prop where
  slot : SlotInv cfg s o
  port1 : ∀ r, r ≠ 0 → s.regs.port1 cfg r = o.regs r
  port2 : ∀ r, r ≠ 0 → s.regs.port2 cfg r = o.regs r
  reads : o.slot.isSome = true → ReadsRegs s o

theorem forwardInv_initial (cfg : Generics) :
    ForwardInv cfg (Core.initial cfg) (Observer.initial cfg) where
  slot := slotInv_initial cfg
  port1 r _ := by
    simp [Core.initial, RegisterFile.port1, RegisterFile.initial, Observer.initial]
  port2 r _ := by
    simp [Core.initial, RegisterFile.port2, RegisterFile.initial, Observer.initial]
  reads h := by cases h

/-- What a port of the register file gets is what the one-instruction machine gets. -/
theorem writeRegs_eq_nextRegs (hinv : SlotInv cfg s o) (hr : i.sreset = false)
    (hsafe : ForwardSafe cfg s i) {regs : RegType → DataType} {r : RegType} (hr0 : r ≠ 0)
    (h : regs r = o.regs r) :
    writeRegs regs (s.regWrite cfg io i) r = o.nextRegs cfg io s i r := by
  unfold Observer.nextRegs
  cases hd : s.indebug with
  | true =>
    rw [regWrite_indebug hd]
    cases i.dm.writegpr <;> simp [writeRegs_some, Function.update_apply, h]
  | false =>
    rw [regWrite_eq hd]
    simp only [Bool.false_eq_true, if_false]
    unfold Observer.commits
    cases hleave : s.leaves cfg i with
    | false => exact h
    | true =>
      simp only [Bool.true_and, if_true]
      cases hslot : o.slot with
      | none =>
        cases hw : s.idEx.rdEn with
        | false => exact h
        | true =>
          have hrd := (hinv.empty hslot).1 hw
          rw [if_pos rfl, writeRegs_some, hrd, if_neg hr0]
          exact h
      | some x =>
        have hrd := hinv.rd x hslot
        have hw : s.idEx.rdEn = (x.decoded.rdEn || x.decoded.mdStart) := by
          by_cases hmd : x.isMd
          · rw [rdEn_of_leaves hinv hr hsafe hleave hslot hmd,
              show x.decoded.mdStart = true from hmd,
              Bool.or_true]
          · rw [hinv.rdEn x hslot hmd,
              show x.decoded.mdStart = false by simpa [Instr.isMd] using hmd,
              Bool.or_false]
        simp only []
        by_cases hx0 : x.decoded.rd = 0
        · rw [IdEx.writesRd_of_zero hx0, hrd, hx0]
          cases s.idEx.rdEn with
          | false => exact h
          | true =>
            rw [if_pos rfl, writeRegs_some, if_neg hr0]
            exact h
        · rw [IdEx.writesRd_of_ne_zero hx0, ← hw]
          cases s.idEx.rdEn with
          | false => exact h
          | true =>
            rw [if_pos rfl, if_pos rfl, writeRegs_some, Function.update_apply, hrd, h]

/-- The operand that the next instruction gets, read from a port or forwarded. -/
theorem operand_after_leaves (hleave : s.leaves cfg i = true) (hd : s.indebug = false)
    (regs : RegType → DataType) (rs : RegType) :
    (if (s.nextExWb cfg io i).rdEn && (s.nextExWb cfg io i).rd == rs then
        (s.nextExWb cfg io i).rddata else regs rs) =
      writeRegs regs (s.regWrite cfg io i) rs := by
  rw [nextExWb_of_leaves hleave, regWrite_eq hd, hleave]
  cases s.idEx.rdEn with
  | false => simp
  | true =>
    simp only [Bool.true_and, if_true, writeRegs_some, beq_iff_eq]
    by_cases hrs : rs = s.idEx.rd
    · rw [if_pos hrs.symm, if_pos hrs]
    · rw [if_neg (Ne.symm hrs), if_neg hrs]

/-- In a stall the one-instruction machine does nothing. -/
theorem nextRegs_of_stall (hd : s.control.state = .debug → cfg.haveOcd = true)
    (ha : s.advance cfg i = .stall) : o.nextRegs cfg io s i = o.regs := by
  have hdebug : s.indebug = false := by
    by_contra h
    have hs : s.control.state = .debug := by simpa [indebug] using h
    simp [advance_eq_stall_iff, stallOnTrigger_eq, hs, hd hs] at ha
  simp [Observer.nextRegs, hdebug, Observer.commits, leaves_of_stall ha]

theorem forwardInv_reads (hinv : ForwardInv cfg s o) (hr : i.sreset = false)
    (hsafe : ForwardSafe cfg s i) (hslot : (o.nextSlot cfg s i).isSome = true) :
    ReadsRegs (s.clock cfg io i) (o.clock cfg io s i) := by
  obtain ⟨x, hx⟩ := Option.isSome_iff_exists.mp hslot
  rcases nextSlot_eq_some hx with ⟨ha, hold, hid⟩ | ⟨ha, -, -⟩
  · have hreads := hinv.reads (by simp [hold])
    have hregs : o.nextRegs cfg io s i = o.regs := nextRegs_of_stall hinv.slot.debug ha
    have hwb : s.nextExWb cfg io i = s.exWb := nextExWb_of_stall ha
    have hhold : s.holdOperands cfg i = true := by rw [holdOperands_eq, leaves_of_stall ha]; rfl
    refine ⟨fun h => ?_, fun h => ?_⟩
    · simp only [operandA, forwarda, clock_idEx, clock_exWb, clock_regs, hid, hwb,
        rs1data_nextRegs (.inr hr), hhold, if_true, Observer.clock, hregs] at h ⊢
      exact hreads.rs1 h
    · simp only [operandB, forwardb, clock_idEx, clock_exWb, clock_regs, hid, hwb,
        rs2data_nextRegs (.inr hr), hhold, if_true, Observer.clock, hregs] at h ⊢
      exact hreads.rs2 h
  · have hleave := leaves_of_decode ha
    have hd := indebug_of_leaves hinv.slot.debug hleave
    have hhold : s.holdOperands cfg i = false := by rw [holdOperands_eq, hleave]; rfl
    have hrs := (decode_shape cfg s.ebreakm s.isstepping s.ifIdPc i.instr.instr).rs1_eq
    have hid : s.nextIdEx cfg i = decode cfg s.ebreakm s.isstepping s.ifIdPc i.instr.instr := by
      rw [nextIdEx_eq, ha]
    refine ⟨fun h => ?_, fun h => ?_⟩
    · rw [clock_idEx, hid, hrs.1] at h
      simp only [operandA, forwarda, clock_idEx, clock_exWb, clock_regs, hid, hrs.1,
        rs1data_nextRegs (.inr hr), hhold, Bool.false_eq_true, if_false]
      rw [operand_after_leaves hleave hd]
      exact writeRegs_eq_nextRegs hinv.slot hr hsafe h (hinv.port1 _ h)
    · rw [clock_idEx, hid, hrs.2] at h
      simp only [operandB, forwardb, clock_idEx, clock_exWb, clock_regs, hid, hrs.2,
        rs2data_nextRegs (.inr hr), hhold, Bool.false_eq_true, if_false]
      rw [operand_after_leaves hleave hd]
      exact writeRegs_eq_nextRegs hinv.slot hr hsafe h (hinv.port2 _ h)

theorem forwardInv_clock (hinv : ForwardInv cfg s o) (hr : i.sreset = false)
    (hsafe : ForwardSafe cfg s i) : ForwardInv cfg (s.clock cfg io i) (o.clock cfg io s i) where
  slot := slotInv_clock hinv.slot hr hsafe
  port1 r h := by
    rw [clock_regs, port1_nextRegs (.inr hr), if_neg (fun h' => h h'.2)]
    exact writeRegs_eq_nextRegs hinv.slot hr hsafe h (hinv.port1 r h)
  port2 r h := by
    rw [clock_regs, port2_nextRegs (.inr hr), if_neg (fun h' => h h'.2)]
    exact writeRegs_eq_nextRegs hinv.slot hr hsafe h (hinv.port2 r h)
  reads h := forwardInv_reads hinv hr hsafe h

/-- After a reset both ports hold the same registers. -/
theorem ports_agree (hinv : ForwardInv cfg s o) {r : RegType} (h : r ≠ 0) :
    (s.nextRegs cfg io i).port2 cfg r = (s.nextRegs cfg io i).port1 cfg r := by
  by_cases hc : RegsClocked cfg i
  · rw [port1_nextRegs hc, port2_nextRegs hc, if_neg (fun h' => h h'.2), if_neg (fun h' => h h'.2)]
    have hp := (hinv.port2 r h).trans (hinv.port1 r h).symm
    cases s.regWrite cfg io i with
    | none => exact hp
    | some w => rw [writeRegs_some, writeRegs_some, hp]
  · rw [(ports_reset hc).1, (ports_reset hc).2]

theorem forwardInv_step (hinv : ForwardInv cfg s o) (hsafe : ForwardSafe cfg s i) :
    ForwardInv cfg (s.step cfg io i) (o.next cfg io s i) := by
  cases hr : i.sreset with
  | true =>
    have h := slotInv_initial cfg
    have hp (r : RegType) (h : r ≠ 0) :
        (s.nextRegs cfg io i).port2 cfg r = (s.nextRegs cfg io i).port1 cfg r := ports_agree hinv h
    rw [step_reset _ _ _ _ hr, Observer.next, if_pos hr]
    exact ⟨⟨h.debug, h.coherent, h.start, h.empty, h.rd, h.isMd, h.rdEn, h.life⟩,
      fun _ _ => rfl, hp, (fun h => by cases h)⟩
  | false =>
    rw [step_clock _ _ _ _ hr, Observer.next, if_neg (by simp [hr])]
    exact forwardInv_clock hinv hr hsafe

theorem forwardInv_of_reachable {p : Core × Observer}
    (h : (observed cfg io).Reachable (fun p i => ForwardSafe cfg p.1 i) p) :
    ForwardInv cfg p.1 p.2 := by
  induction h with
  | init => exact forwardInv_initial cfg
  | step i _ hsafe ih => exact forwardInv_step ih hsafe

/-- In every run in which the MD unit completes for its own instructions only, the operands of every
instruction in the execute stage, other than `x0`, are the values that the last committed
instructions with these destinations wrote. -/
theorem operands_are_last_written (cfg : Generics) (io : Peripherals) {s : Core} {o : Observer}
    (h : (observed cfg io).Reachable (fun p i => ForwardSafe cfg p.1 i) (s, o)) :
    (∀ r, r ≠ 0 → s.regs.port1 cfg r = o.regs r ∧ s.regs.port2 cfg r = o.regs r) ∧
      (o.slot.isSome = true → ReadsRegs s o) := by
  have hinv := forwardInv_of_reachable h
  exact ⟨fun r hr => ⟨hinv.port1 r hr, hinv.port2 r hr⟩, hinv.reads⟩

/-- `addi x5, x0, 5; addi x8, x0, 9; mul x6, x5, x8; add x10, x6, x8`, with the last one in the
execute stage. -/
theorem add_after_mul_reads_regs :
    ReadsRegs
      (observeProgram .plain .none [0x00500293, 0x00900413, 0x02828333, 0x00830533]
        (.replicate 7 .quiet)).1
      (observeProgram .plain .none [0x00500293, 0x00900413, 0x02828333, 0x00830533]
        (.replicate 7 .quiet)).2 :=
  (operands_are_last_written .plain .none (Machine.Reachable.init.runFrom_of_meets
    (M := observed .plain .none) (by decide +kernel))).2 (by decide +kernel)

/-- The division that the core slept over sets the write enable of the store in the handler, and
the store overwrites `x8`. -/
theorem store_after_wfi_overwrites_x8 :
    ¬ ∀ s o, (observed .plain .none).Reachable Machine.free (s, o) → o.slot.isSome = true →
      ReadsRegs s o := by
  intro h
  have hr := h _ _ (observeProgram_reachable .plain .none divBehindWfi
    (divBehindWfiStimuli ++ [.quiet, .ready])) (by decide +kernel)
  exact absurd (hr.rs1 (by decide +kernel)) (by decide +kernel)

end Core

end ThuasRiscv
