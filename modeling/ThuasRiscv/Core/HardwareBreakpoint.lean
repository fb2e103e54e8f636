import ThuasRiscv.Core.Forwarding
import ThuasRiscv.Core.SleepIsolation

/-!
# Hardware breakpoint

The trigger stops an instruction in its first executing cycle, unless the skip
flag is set. The flag lets the core leave the breakpoint after a resume. It is
not cleared afterwards, so that it also lets later instructions pass.
-/

namespace ThuasRiscv

open Transition

/-! ## The trigger -/

/-- The enabled trigger matches an address. -/
def CsrReg.matchesAt (c : CsrReg) (pc : DataType) : Bool :=
  pc == c.tdata2 && c.tdata1.getLsbD 6 && c.tdata1.getLsbD 2 &&
    c.tdata1.extractLsb' 12 4 == 0b0001 && c.tdata1.extractLsb' 7 4 == 0b0000

namespace CsrReg

variable {cfg : Generics} {c : CsrReg} {g : CsrSignals}

/-- What `matchesAt` looks at. -/
def trigger (c : CsrReg) : DataType × Bool × Bool × BitVec 4 × BitVec 4 :=
  (c.tdata2, c.tdata1.getLsbD 6, c.tdata1.getLsbD 2, c.tdata1.extractLsb' 12 4,
    c.tdata1.extractLsb' 7 4)

theorem matchesAt_congr {c' : CsrReg} (h : c'.trigger = c.trigger) (pc : DataType) :
    c'.matchesAt pc = c.matchesAt pc := by
  simp only [trigger, Prod.mk.injEq] at h
  simp only [matchesAt, h]

/-- The hit bit is none of them. -/
theorem loadCause_trigger (n : CsrReg) (cause : BitVec 4) :
    (n.loadCause cfg cause).trigger = n.trigger := by
  have hbit : ∀ k, k ≠ 22 → (setBit n.tdata1 22 true).getLsbD k = n.tdata1.getLsbD k := by
    intro k hk
    rw [getLsbD_setBit _ (by decide), if_neg hk]
  refine field_ite trigger (fun _ => ?_) rfl
  simp only [trigger, Prod.mk.injEq, true_and]
  by_cases hc : cause.extractLsb' 0 3 = 0b010
  · rw [if_pos hc]
    refine ⟨hbit 6 (by decide), hbit 2 (by decide), ?_, ?_⟩
    · ext k hk
      rw [BitVec.getElem_extractLsb', BitVec.getElem_extractLsb']
      exact hbit _ (by omega)
    · ext k hk
      rw [BitVec.getElem_extractLsb', BitVec.getElem_extractLsb']
      exact hbit _ (by omega)
  · rw [if_neg hc]
    exact ⟨rfl, rfl, rfl, rfl⟩

theorem hardwire_trigger (ho : cfg.haveOcd = true) (n : CsrReg) :
    (n.hardwire cfg).trigger = n.trigger := by
  have hbit : ∀ k, tdata1Mask.getLsbD k = true → tdata1Fixed.getLsbD k = false →
      (n.tdata1 &&& tdata1Mask ||| tdata1Fixed).getLsbD k = n.tdata1.getLsbD k := by
    intro k hm hf
    rw [BitVec.getLsbD_or, BitVec.getLsbD_and, hm, hf, Bool.and_true, Bool.or_false]
  simp only [trigger, hardwire, ho, if_true, Prod.mk.injEq, true_and]
  have hhigh : ∀ k : Fin 4, tdata1Mask.getLsbD (12 + k) = true ∧
      tdata1Fixed.getLsbD (12 + k) = false := by decide
  have hlow : ∀ k : Fin 4, tdata1Mask.getLsbD (7 + k) = true ∧
      tdata1Fixed.getLsbD (7 + k) = false := by decide
  refine ⟨hbit 6 (by decide) (by decide), hbit 2 (by decide) (by decide), ?_, ?_⟩
  · ext k hk
    rw [BitVec.getElem_extractLsb', BitVec.getElem_extractLsb']
    exact hbit _ (hhigh ⟨k, hk⟩).1 (hhigh ⟨k, hk⟩).2
  · ext k hk
    rw [BitVec.getElem_extractLsb', BitVec.getElem_extractLsb']
    exact hbit _ (hlow ⟨k, hk⟩).1 (hlow ⟨k, hk⟩).2

/-- Without a write of a CSR the trigger stays. -/
theorem next_trigger (ho : cfg.haveOcd = true) (hw : g.writes = false)
    (hd : g.debugWrites cfg = false) : (c.next cfg g).trigger = c.trigger := by
  have hwritten : (c.written cfg g).trigger = c.trigger :=
    written_frame trigger (fun h => by simp [hw] at h) (fun h => by simp [hd] at h)
      (fun n => n.loadCause_trigger _) fun _ _ => rfl
  have hnext : (c.next cfg g).trigger = ((c.written cfg g).hardwire cfg).trigger := by
    rw [next_eq]
    exact field_ite trigger (fun _ => rfl) (field_ite trigger (fun _ => rfl) rfl)
  rw [hnext, hardwire_trigger ho, hwritten]

theorem next_tdata1 (h : cfg.haveOcd = false) : (c.next cfg g).tdata1 = 0 := by
  have hz : ((c.written cfg g).hardwire cfg).tdata1 = 0 := by simp [hardwire, h]
  rw [next_eq]
  exact field_ite tdata1 (fun _ => hz) (field_ite tdata1 (fun _ => hz) hz)

/-- Without a trigger nothing matches. -/
theorem matchesAt_of_zero (h : c.tdata1 = 0) (pc : DataType) : c.matchesAt pc = false := by
  simp [matchesAt, h]

end CsrReg

theorem IdEx.Shape.memaccess_ne_nop {cfg : Generics} {pc instr : DataType} {d : IdEx}
    (h : IdEx.Shape cfg pc instr d) (hm : d.ismem = true) : d.memaccess ≠ .nop := by
  cases h with
  | store | load => simp
  | _ => cases hm

/-- An instruction that waits for data or for the MD unit accesses no CSR. -/
theorem IdEx.Shape.csrOp_of_waits {cfg : Generics} {pc instr : DataType} {d : IdEx}
    (h : IdEx.Shape cfg pc instr d) (hw : d.ismem = true ∨ d.mdStart = true) : d.csrOp = .nop := by
  cases h with
  | csr => simp [IdEx.bubble] at hw
  | _ => rfl

/-! ## The law -/

namespace Core

variable {cfg : Generics} {io : Peripherals} {s : Core} {o : Observer} {i : CoreInput}

/-- The address of the first instruction after the last resume, as long as no instruction has left
the execute stage since then. -/
def nextFresh (cfg : Generics) (s : Core) (o : Observer) (i : CoreInput) (f : Option DataType) :
    Option DataType :=
  if i.sreset then none
  else if s.control.state = .debugflush then some s.csr.dpc
  else if o.slot.isSome && s.advance cfg i ≠ .stall then none
  else f

/-- The core and its observer with the address that the next instruction may pass. -/
def breakObserved (cfg : Generics) (io : Peripherals) :
    Machine ((Core × Observer) × Option DataType) CoreInput :=
  (observed cfg io).observe none fun p i f => nextFresh cfg p.1 p.2 i f

/-- The instruction in the execute stage takes effect in this clock: on the bus, on a CSR, in the MD
unit, or because it completes. -/
def takesEffect (cfg : Generics) (s : Core) (o : Observer) (i : CoreInput) : Bool :=
  s.accessesBus cfg i || s.writesCsr cfg i || s.startsMd cfg i || (o.commits cfg s i).isSome

/-- The instruction in the execute stage has the address of the enabled trigger, and it is not the
first one after a resume. -/
structure MustStop (s : Core) (o : Observer) (f : Option DataType) (x : Instr) : Prop where
  slot : o.slot = some x
  hit : s.csr.matchesAt x.decoded.pc = true
  notFresh : f ≠ some x.decoded.pc

/-- The core enters debug mode before such an instruction takes effect. -/
structure StopsAt (cfg : Generics) (s : Core) (o : Observer) (f : Option DataType) (i : CoreInput) :
    Prop where
  enters : ∀ x, MustStop s o f x → s.control.state = .exec → s.stateNext cfg i = .debug
  before : ∀ x, MustStop s o f x → takesEffect cfg s o i = false

/-- Something else halts the core in `state_exec`. -/
def haltsAnyway (cfg : Generics) (s : Core) (i : CoreInput) : Bool :=
  cfg.haveOcd && (i.haltReq || s.idEx.ebreakRequest && s.ebreakm || s.isstepping && !s.control.step)

/-- Such an instruction does not meet the skip flag, and has no effect behind a WFI or behind a
stale MRET. -/
structure BreakpointSafe (cfg : Generics) (s : Core) (o : Observer) (f : Option DataType)
    (i : CoreInput) : Prop where
  skip : ∀ x, MustStop s o f x → s.control.state = .exec →
    s.control.skipMatch = false ∨ haltsAnyway cfg s i = true
  sleep : ∀ x, MustStop s o f x → s.control.state = .wfi → EffectFree cfg s i
  mret : ∀ x, MustStop s o f x → s.control.state = .mret → s.trapRequest cfg i = true

instance {f : Option DataType} : Decidable (BreakpointSafe cfg s o f i) :=
  decidable_of_iff
    (∀ x ∈ o.slot, s.csr.matchesAt x.decoded.pc = true → f ≠ some x.decoded.pc →
      (s.control.state = .exec → s.control.skipMatch = false ∨ haltsAnyway cfg s i = true) ∧
      (s.control.state = .wfi → EffectFree cfg s i) ∧
      (s.control.state = .mret → s.trapRequest cfg i = true))
    ⟨fun h => ⟨fun x hx => (h x hx.slot hx.hit hx.notFresh).1,
        fun x hx => (h x hx.slot hx.hit hx.notFresh).2.1,
        fun x hx => (h x hx.slot hx.hit hx.notFresh).2.2⟩,
      fun h x hs hh hf => ⟨h.skip x ⟨hs, hh, hf⟩, h.sleep x ⟨hs, hh, hf⟩, h.mret x ⟨hs, hh, hf⟩⟩⟩

/-! ## The invariant -/

structure BreakInv (cfg : Generics) (s : Core) (o : Observer) (f : Option DataType) : Prop where
  debug : s.control.state = .debug → cfg.haveOcd = true
  tdata : cfg.haveOcd = false → s.csr.tdata1 = 0
  coherent : s.idEx.Coherent
  access : s.idEx.ismem = true → s.idEx.memaccess ≠ .nop
  csr : s.idEx.ismem = true ∨ s.idEx.mdStart = true → s.idEx.csrOp = .nop
  waits : s.control.state = .mem ∨ s.control.state = .md → s.idEx.csrOp = .nop
  pc : ∀ x, o.slot = some x → s.idEx.pc = x.decoded.pc
  filled : o.slot ≠ none → s.control.state = .exec ∨ s.control.state = .mem ∨
    s.control.state = .md ∨ s.control.state = .md2 ∨ s.control.state = .wfi ∨
    s.control.state = .debug ∨ s.control.state = .mret
  passed : ∀ x, s.control.state = .mem ∨ s.control.state = .md ∨ s.control.state = .md2 →
    ¬ MustStop s o f x

theorem bpmatch_eq : s.bpmatch = s.csr.matchesAt s.idEx.pc := rfl

theorem triggers_iff : s.triggers cfg i =
    (cfg.haveOcd && s.bpmatch && !s.control.skipMatch || haltsAnyway cfg s i) := by
  unfold triggers haltsAnyway
  cases cfg.haveOcd <;> cases i.haltReq <;> cases s.bpmatch <;> cases s.control.skipMatch <;> simp

/-- The trigger exists with an on-chip debugger only. -/
theorem MustStop.bpmatch {f : Option DataType} {x : Instr} (h : MustStop s o f x)
    (hinv : BreakInv cfg s o f) : s.bpmatch = true ∧ cfg.haveOcd = true := by
  refine ⟨by rw [bpmatch_eq, hinv.pc x h.slot, h.hit], ?_⟩
  by_contra ho
  have hz := hinv.tdata (by simpa using ho)
  have hhit := h.hit
  rw [CsrReg.matchesAt_of_zero hz] at hhit
  cases hhit

/-! ## Effects by state -/

/-- A trigger suppresses every effect. -/
theorem takesEffect_of_trigger (h : s.stallOnTrigger cfg i = true) :
    takesEffect cfg s o i = false := by
  have hleave : s.leaves cfg i = false := by simp [leaves, h]
  simp [takesEffect, accessesBus, fastDisable, slowDisable, writesCsr, CsrSignals.writes,
    csrSignals,
    startsMd, commits_of_not_leaves hleave, h]

theorem takesEffect_wfi {f : Option DataType} (hinv : BreakInv cfg s o f)
    (hs : s.control.state = .wfi) : takesEffect cfg s o i = false ↔ EffectFree cfg s i := by
  have hd : s.indebug = false := by simp [indebug, hs]
  have htrig : s.stallOnTrigger cfg i = false := by simp [stallOnTrigger_eq, hs]
  have hbus : s.accessesBus cfg i = false ↔ (s.idEx.ismem = true →
      (if cfg.fastMem then (s.interrupt i).isSome else s.trapRequest cfg i) = true) := by
    cases hm : s.idEx.ismem with
    | false => simp [accessesBus, hm]
    | true =>
      have hflush : s.flush = false := by
        rw [flush_eq, hs]
        exact penalty_plain (hinv.coherent.mem hm).2.2.2
      cases hf : cfg.fastMem <;>
        simp [accessesBus, hm, hinv.access hm, fastDisable, slowDisable, hflush, htrig, hf]
  have hcsr : s.writesCsr cfg i = false ↔ (s.idEx.csrOp ≠ .nop → s.trapRequest cfg i = true) := by
    by_cases hop : s.idEx.csrOp = .nop <;>
      simp [writesCsr, CsrSignals.writes, csrSignals, hop, hd, htrig]
  have hmd : s.startsMd cfg i = false ↔ (s.idEx.mdStart = true → s.trapRequest cfg i = true) := by
    cases hm : s.idEx.mdStart <;> simp [startsMd, hm, htrig]
  have hleave : s.leaves cfg i = false := by simp [leaves, stall_eq, hs]
  rw [takesEffect, commits_of_not_leaves hleave]
  simp only [Option.isSome_none, Bool.or_false, Bool.or_eq_false_iff, hbus, hcsr, hmd]
  exact ⟨fun h => ⟨h.1.1, h.1.2, h.2⟩, fun h => ⟨⟨h.mem, h.csr⟩, h.md⟩⟩

theorem takesEffect_mret (hs : s.control.state = .mret) (hslot : o.slot ≠ none) :
    takesEffect cfg s o i = false ↔ s.trapRequest cfg i = true := by
  have hleave : s.leaves cfg i = !s.trapRequest cfg i := by
    simp [leaves, stall_eq, stallOnTrigger_eq, hs]
  have hflush : s.flush = true := by simp [flush_eq, hs]
  cases ht : s.trapRequest cfg i with
  | true =>
    rw [ht] at hleave
    simp [takesEffect, accessesBus, fastDisable, slowDisable, hflush, writesCsr, CsrSignals.writes,
      csrSignals, startsMd, ht, commits_of_not_leaves hleave]
  | false =>
    rw [ht] at hleave
    have hsome := Option.isSome_iff_ne_none.mpr hslot
    simp [takesEffect, commits_of_leaves hleave, hsome]

theorem takesEffect_exec {f : Option DataType} {x : Instr} (hinv : BreakInv cfg s o f)
    (hx : MustStop s o f x) (hs : s.control.state = .exec) :
    s.stateNext cfg i = .debug ↔ s.control.skipMatch = false ∨ haltsAnyway cfg s i = true := by
  obtain ⟨hb, ho⟩ := hx.bpmatch hinv
  rw [stateNext, hs]
  simp only [execNext_eq_debug_iff, triggers_iff, hb, ho, Bool.and_true, Bool.true_and,
    Bool.or_eq_true, Bool.not_eq_true']

/-- The law holds in a clock if and only if the clock meets the condition. -/
theorem stopsAt_iff {f : Option DataType} (hinv : BreakInv cfg s o f) :
    StopsAt cfg s o f i ↔ BreakpointSafe cfg s o f i := by
  constructor
  · intro h
    refine ⟨fun x hx hs => ?_, fun x hx hs => ?_, fun x hx hs => ?_⟩
    · exact (takesEffect_exec hinv hx hs).mp (h.enters x hx hs)
    · exact (takesEffect_wfi hinv hs).mp (h.before x hx)
    · exact (takesEffect_mret hs (by simp [hx.slot])).mp (h.before x hx)
  · intro h
    refine ⟨fun x hx hs => (takesEffect_exec hinv hx hs).mpr (h.skip x hx hs), fun x hx => ?_⟩
    rcases hinv.filled (by simp [hx.slot]) with hs | hs | hs | hs | hs | hs | hs
    · apply takesEffect_of_trigger
      have hdebug := (takesEffect_exec (i := i) hinv hx hs).mpr (h.skip x hx hs)
      rw [stateNext, hs] at hdebug
      rw [stallOnTrigger_eq, hs]
      exact execNext_eq_debug_iff.mp hdebug
    · exact absurd hx (hinv.passed x (.inl hs))
    · exact absurd hx (hinv.passed x (.inr (.inl hs)))
    · exact absurd hx (hinv.passed x (.inr (.inr hs)))
    · exact (takesEffect_wfi hinv hs).mpr (h.sleep x hx hs)
    · exact takesEffect_of_trigger (by simp [stallOnTrigger_eq, hs, hinv.debug hs])
    · exact (takesEffect_mret hs (by simp [hx.slot])).mpr (h.mret x hx hs)

/-! ## Runs -/

theorem advance_of_ismem (h : (s.nextIdEx cfg i).ismem = true) : s.advance cfg i = .decode := by
  rw [nextIdEx_eq] at h
  cases ha : s.advance cfg i with
  | decode => rfl
  | _ => rw [ha] at h; cases h

theorem csrOp_of_waits {f : Option DataType} (hinv : BreakInv cfg s o f)
    (h : s.stateNext cfg i = .mem ∨ s.stateNext cfg i = .md) :
    (s.nextIdEx cfg i).csrOp = .nop := by
  have hstall (ha : s.advance cfg i = .stall) (hop : s.idEx.csrOp = .nop) :
      (s.nextIdEx cfg i).csrOp = .nop := by
    rw [nextIdEx_eq, ha]
    exact hop
  rcases h with h | h
  · obtain ⟨ha, ⟨-, hm⟩ | hs⟩ := advance_of_stateNext_mem h
    · exact hstall ha (hinv.csr (.inl hm))
    · exact hstall ha (hinv.waits (.inl hs))
  · rcases stateNext_eq_md h with ⟨hs, hgo⟩ | ⟨hs, -⟩
    · exact hstall (advance_of_startsMd hs hgo) (hinv.csr (.inr (startsMd_iff.mp hgo).1))
    · rw [nextIdEx_eq]
      cases ha : s.advance cfg i with
      | stall => exact hinv.waits (.inr hs)
      | decode =>
        have hleave := (advance_eq_decode_iff.mp ha).1
        simp [leaves, stall_eq, hs] at hleave
      | _ => rfl

/-- The trigger does not change while an instruction waits. -/
theorem matchesAt_of_stall (hd : s.indebug = false) (hop : s.idEx.csrOp = .nop) {pc : DataType}
    (h : (s.nextCsr cfg i).matchesAt pc = true) : s.csr.matchesAt pc = true := by
  have ho : cfg.haveOcd = true := by
    by_contra ho
    have hz := CsrReg.next_tdata1 (c := s.csr) (g := s.csrSignals cfg i) (by simpa using ho)
    rw [nextCsr, CsrReg.matchesAt_of_zero hz] at h
    cases h
  have hw : (s.csrSignals cfg i).writes = false := by
    simp [CsrSignals.writes, csrSignals, hop]
  have hdw : (s.csrSignals cfg i).debugWrites cfg = false := by
    simp [CsrSignals.debugWrites, csrSignals, hd]
  rwa [nextCsr, CsrReg.matchesAt_congr (CsrReg.next_trigger ho hw hdw)] at h

theorem breakInv_passed {f : Option DataType} (hinv : BreakInv cfg s o f) (hr : i.sreset = false)
    (hsafe : BreakpointSafe cfg s o f i) (x : Instr)
    (h : s.stateNext cfg i = .mem ∨ s.stateNext cfg i = .md ∨ s.stateNext cfg i = .md2) :
    ¬ MustStop (s.clock cfg io i) (o.clock cfg io s i) (nextFresh cfg s o i f) x := by
  rintro ⟨hslot, hhit, hfresh⟩
  rcases nextSlot_eq_some hslot with ⟨ha, hx, -⟩ | ⟨ha, -, -⟩
  · have hmust (hs : s.control.state ≠ .debug ∧ s.control.state ≠ .debugflush)
        (hop : s.idEx.csrOp = .nop) : MustStop s o f x := by
      refine ⟨hx, matchesAt_of_stall (by simp [indebug, hs.1]) hop hhit, ?_⟩
      simpa [nextFresh, hr, hs.2, ha] using hfresh
    have hexec (hs : s.control.state = .exec) (hop : s.idEx.csrOp = .nop) : False := by
      have hm := hmust (by simp [hs]) hop
      have hn := (takesEffect_exec hinv hm hs).mpr (hsafe.skip x hm hs)
      rw [hn] at h
      simp at h
    rcases stall_cases hinv.coherent ha with
      ⟨hs, hm, -⟩ | ⟨hs, hm, -⟩ | ⟨hs, -⟩ | ⟨hs, -⟩ | ⟨hs, hn⟩
    · exact hexec hs (hinv.csr (.inl hm))
    · exact hexec hs (hinv.csr (.inr hm))
    · exact hinv.passed x (.inl hs) (hmust (by simp [hs]) (hinv.waits (.inl hs)))
    · exact hinv.passed x (.inr (.inl hs)) (hmust (by simp [hs]) (hinv.waits (.inr hs)))
    · rw [hn] at h
      split at h <;> simp at h
  · rcases stateNext_of_decode hinv.debug ha with hn | hn | hn <;> rw [hn] at h <;> simp at h

theorem breakInv_initial (cfg : Generics) :
    BreakInv cfg (Core.initial cfg) (Observer.initial cfg) none where
  debug h := by cases h
  tdata _ := rfl
  coherent := .of_inert rfl rfl rfl
  access h := by cases h
  csr _ := rfl
  waits _ := rfl
  pc _ h := by cases h
  filled h := absurd rfl h
  passed _ h := by simp [Core.initial, Control.reset] at h

theorem breakInv_clock {f : Option DataType} (hinv : BreakInv cfg s o f) (hr : i.sreset = false)
    (hsafe : BreakpointSafe cfg s o f i) :
    BreakInv cfg (s.clock cfg io i) (o.clock cfg io s i) (nextFresh cfg s o i f) where
  debug h := haveOcd_of_stateNext hinv.debug (clock_state cfg io s i ▸ h)
  tdata h := CsrReg.next_tdata1 h
  coherent := coherent_nextIdEx
  access h := by
    rw [clock_idEx] at h ⊢
    have ha := advance_of_ismem h
    rw [nextIdEx_eq, ha] at h ⊢
    exact (decode_shape _ _ _ _ _).memaccess_ne_nop h
  csr h := by
    rw [clock_idEx] at h ⊢
    have ha : s.advance cfg i = .decode := h.elim advance_of_ismem mdStart_nextIdEx
    rw [nextIdEx_eq, ha] at h ⊢
    exact (decode_shape _ _ _ _ _).csrOp_of_waits h
  waits h := by
    rw [clock_state] at h
    exact csrOp_of_waits hinv h
  pc x hx := by
    rw [clock_idEx]
    rcases nextSlot_eq_some hx with ⟨-, hslot, hid⟩ | ⟨-, -, hdec⟩
    · rw [hid]
      exact hinv.pc x hslot
    · rw [hdec]
  filled h := by
    rw [clock_state]
    rcases stateNext_of_nextSlot hinv.debug hinv.coherent h with
      hn | hn | hn | hn | hn | hn | ⟨hn, -⟩ <;> simp [hn]
  passed x h := by
    rw [clock_state] at h
    exact breakInv_passed hinv hr hsafe x h

theorem breakInv_reset (cfg : Generics) (r : RegisterFile) (p : RegType → DataType) :
    BreakInv cfg { Core.initial cfg with regs := r } { Observer.initial cfg with regs := p } none :=
  have h := breakInv_initial cfg
  ⟨h.debug, h.tdata, h.coherent, h.access, h.csr, h.waits, h.pc, h.filled,
    fun _ hs => by simp [Core.initial, Control.reset] at hs⟩

theorem breakInv_of_reachable {f : Option DataType}
    (h : (breakObserved cfg io).Reachable
      (fun p i => i.sreset = false → BreakpointSafe cfg p.1.1 p.1.2 p.2 i) ((s, o), f)) :
    BreakInv cfg s o f := by
  refine h.invariant (P := fun p => BreakInv cfg p.1.1 p.1.2 p.2) (breakInv_initial cfg) ?_
  rintro ⟨⟨s, o⟩, f⟩ i - hsafe hinv
  change BreakInv cfg (s.step cfg io i) (o.next cfg io s i) (nextFresh cfg s o i f)
  cases hr : i.sreset with
  | true =>
    have hf : nextFresh cfg s o i f = none := by simp [nextFresh, hr]
    rw [step_reset _ _ _ _ hr, Observer.next, if_pos hr, hf]
    exact breakInv_reset _ _ _
  | false =>
    rw [step_clock _ _ _ _ hr, Observer.next, if_neg (by simp [hr])]
    exact breakInv_clock hinv hr (hsafe hr)

/-- In every run in which the skip flag lets only the first instruction after a resume pass, the
core stops at each instruction with the address of the trigger before it takes effect. A further
clock keeps to this if and only if it meets the condition. -/
theorem breakpoint_stops_every_pass (cfg : Generics) (io : Peripherals) {s : Core} {o : Observer}
    {f : Option DataType}
    (h : (breakObserved cfg io).Reachable
      (fun p i => i.sreset = false → BreakpointSafe cfg p.1.1 p.1.2 p.2 i) ((s, o), f))
    (i : CoreInput) : StopsAt cfg s o f i ↔ BreakpointSafe cfg s o f i :=
  stopsAt_iff (breakInv_of_reachable h)

/-- The debugger writes a CSR. -/
def debugWriteStimulus (a v : DataType) : Stimulus :=
  { Stimulus.quiet with
    dm := { DmCoreDataRequest.idle with writecsr := true, address := a, data := v } }

/-- Halt before the first instruction, enable the trigger for an address, resume and wait. -/
def setBreakpoint (pc : DataType) (n : ℕ) : List Stimulus :=
  [.quiet, .quiet, .halt, .halt, debugWriteStimulus 0x7a1 0x00001044, debugWriteStimulus 0x7a2 pc,
    { Stimulus.quiet with resumeReq := true }] ++ .replicate n .quiet

def breakProgram (words : List DataType) (xs : List Stimulus) :
    (Core × Observer) × Option DataType :=
  (breakObserved .plain .none).run (programInputs .plain .none words xs)

theorem breakProgram_reachable (words : List DataType) (xs : List Stimulus) :
    (breakObserved .plain .none).Reachable Machine.free
      (((breakProgram words xs).1.1, (breakProgram words xs).1.2), (breakProgram words xs).2) :=
  Machine.reachable_run _

/-- `addi x1, x1, 1; jal x0, -4` with a breakpoint on the jump. -/
theorem stops_at_jump :
    StopsAt .plain
      (breakProgram [0x00108093, 0xffdff06f] (setBreakpoint 4 4)).1.1
      (breakProgram [0x00108093, 0xffdff06f] (setBreakpoint 4 4)).1.2
      (breakProgram [0x00108093, 0xffdff06f] (setBreakpoint 4 4)).2
      (Core.fetchInput .plain
        (breakProgram [0x00108093, 0xffdff06f] (setBreakpoint 4 4)).1.1 0x00000013 .quiet) :=
  (breakpoint_stops_every_pass .plain .none
    (Machine.Reachable.init.runFrom_of_meets (M := breakObserved .plain .none) (by decide +kernel))
    _).mpr (by decide +kernel)

/-- The same loop with a breakpoint on its first instruction, where the core is halted, in the second
pass after the resume. -/
@[irreducible] def secondPass : (Core × Observer) × Option DataType :=
  breakProgram [0x00108093, 0xffdff06f] (setBreakpoint 0 7)

theorem secondPass_reachable : (breakObserved .plain .none).Reachable Machine.free
    ((secondPass.1.1, secondPass.1.2), secondPass.2) := by
  rw [secondPass]
  exact breakProgram_reachable _ _

/-- The second pass does not stop. -/
theorem second_pass_does_not_stop :
    ¬ ∀ s o f, (breakObserved .plain .none).Reachable Machine.free ((s, o), f) →
      ∀ i : CoreInput, i.sreset = false → StopsAt .plain s o f i := by
  intro h
  have hstops := h _ _ _ secondPass_reachable
    (Core.fetchInput .plain secondPass.1.1 0x00000013 .quiet) rfl
  have hsome : secondPass.1.2.slot.isSome = true := by decide +kernel
  obtain ⟨x, hslot⟩ := Option.isSome_iff_exists.mp hsome
  have hall : ∀ x ∈ secondPass.1.2.slot, secondPass.1.1.csr.matchesAt x.decoded.pc = true ∧
      secondPass.2 ≠ some x.decoded.pc := by decide +kernel
  have hbefore := hstops.before x ⟨hslot, (hall x hslot).1, (hall x hslot).2⟩
  exact absurd hbefore (by decide +kernel)

end Core

end ThuasRiscv
