import ThuasRiscv.Core.Observer
import ThuasRiscv.Core.TrapEntry

/-!
# Confinement of the MD unit

The divider counts its steps whatever the rest of the core does, and the decode
process reacts to `md.ready` in every stall. As long as operations start in the
executing state only and nothing is requested while the core waits for them, a
completion belongs to the instruction that waits for it.
-/

namespace ThuasRiscv

open Transition

theorem IdEx.Shape.haveMuldiv_of_mdStart {cfg : Generics} {pc instr : DataType} {d : IdEx}
    (h : IdEx.Shape cfg pc instr d) (hmd : d.mdStart = true) : cfg.haveMuldiv = true := by
  cases h with
  | mulDiv h => exact h
  | _ => cases hmd

theorem IdEx.Shape.isMd_iff {cfg : Generics} {pc instr : DataType} {d : IdEx}
    (h : IdEx.Shape cfg pc instr d) :
    d.mdStart = true ↔ d.aluOp = .multiply ∨ d.aluOp = .divrem := by
  cases h with
  | mulDiv =>
    simp only [IdEx.mulDiv, true_iff]
    cases (func3 instr).getLsbD 2 <;> simp
  | alu op _ _ _ _ h | store op _ h _ | load op _ _ h _ =>
    constructor
    · intro hmd
      cases hmd
    · intro hop
      change op = .multiply ∨ op = .divrem at hop
      rcases hop with rfl | rfl <;> cases h
  | branch op _ h h' => simp [IdEx.bubble, h, h']
  | _ => simp [IdEx.bubble]

namespace Core

variable {cfg : Generics} {io : Peripherals} {s : Core} {o : Observer} {i : CoreInput}

/-- An operation starts in `state_exec` only, and no exception flag rises in `state_md`. -/
structure MdSafe (cfg : Generics) (s : Core) (i : CoreInput) : Prop where
  start : i.sreset = false → s.startsMd cfg i = true → s.control.state = .exec
  wait : i.sreset = false → s.control.state = .md → s.strayException i = false

instance : Decidable (MdSafe cfg s i) :=
  decidable_of_iff
    ((i.sreset = false → s.startsMd cfg i = true → s.control.state = .exec) ∧
      (i.sreset = false → s.control.state = .md → s.strayException i = false))
    ⟨fun h => ⟨h.1, h.2⟩, fun h => ⟨h.1, h.2⟩⟩

/-- A completion enables the write of the instruction that started the operation and waits for it
in `state_md`; the result that an instruction of the MD unit commits is the one of its own
operation, and the result of another instruction does not depend on the unit. -/
structure MdConfined (cfg : Generics) (io : Peripherals) (s : Core) (o : Observer)
    (i : CoreInput) : Prop where
  completes : s.mdCompletes cfg i = true → ∃ x, o.slot = some x ∧ x.isMd ∧
    s.control.state = .md ∧ (s.md.mulRunning = true → o.mulOwner = some x.seq) ∧
    (s.md.divReady = true → o.divOwner = some x.seq)
  result : ∀ x, o.commits cfg s i = some x → x.isMd → s.control.state = .md2 ∧
    s.idEx.mdOp = x.decoded.mdOp ∧
    (if x.decoded.mdOp.getLsbD 2 then o.divOwner else o.mulOwner) = some x.seq
  other : ∀ x, o.slot = some x → ¬ x.isMd → ∀ m : MulDiv,
    ({ s with md := m } : Core).result cfg io i = s.result cfg io i

/-- The operation of `x` is in progress. -/
structure MdRunning (cfg : Generics) (s : Core) (o : Observer) (x : Instr) : Prop where
  haveMuldiv : cfg.haveMuldiv = true
  isMd : x.isMd
  quiet : s.idEx.Quiet
  started : s.idEx.mdStart = false
  unit : if s.idEx.mdOp.getLsbD 2 then
      s.md.Working cfg ∧ s.md.mulRunning = false ∧ o.divOwner = some x.seq
    else s.md.Idle ∧ s.md.mulRunning = true ∧ o.mulOwner = some x.seq

/-- The controller and the MD unit move together. -/
structure MdInv (cfg : Generics) (s : Core) (o : Observer) : Prop where
  debug : s.control.state = .debug → cfg.haveOcd = true
  asleep : s.control.state = .debug → s.idEx.mdStart = false
  coherent : s.idEx.Coherent
  quiet : s.idEx.mdStart = true → s.idEx.Quiet ∧ cfg.haveMuldiv = true
  start : s.idEx.mdStart = true → ∃ x, o.slot = some x ∧ x.isMd
  isMd : ∀ x, o.slot = some x → (x.isMd ↔ s.idEx.aluOp = .multiply ∨ s.idEx.aluOp = .divrem)
  mdOp : ∀ x, o.slot = some x → s.idEx.mdOp = x.decoded.mdOp
  life : ∀ x, o.slot = some x → x.isMd →
    s.idEx.mdStart = true ∨ s.control.state = .md ∨ s.control.state = .md2
  mul : s.md.mulRunning = true → s.control.state = .md ∨ s.control.state = .debug
  idle : s.control.state ≠ .md → s.md.Idle
  running : s.control.state = .md → ∃ x, o.slot = some x ∧ MdRunning cfg s o x
  done : s.control.state = .md2 → ∀ x, o.slot = some x →
    (if s.idEx.mdOp.getLsbD 2 then o.divOwner else o.mulOwner) = some x.seq

theorem mdInv_initial (cfg : Generics) : MdInv cfg (Core.initial cfg) (Observer.initial cfg) where
  debug h := by cases h
  asleep h := by cases h
  coherent := .of_inert rfl rfl rfl
  quiet h := by cases h
  start h := by cases h
  isMd _ h := by cases h
  mdOp _ h := by cases h
  life _ h := by cases h
  mul h := by cases h
  idle _ := ⟨rfl, rfl⟩
  running h := by cases h
  done h := by cases h

/-! ## Starts and completions -/

theorem startsMd_iff : s.startsMd cfg i = true ↔ s.idEx.mdStart = true ∧
    s.trapRequest cfg i = false ∧ s.stallOnTrigger cfg i = false := by
  simp [startsMd, and_assoc]

theorem mdGate_start : (s.mdGate cfg i).start = s.startsMd cfg i := rfl

/-- An operation that starts in the executing state is waited for. -/
theorem advance_of_startsMd (hs : s.control.state = .exec) (h : s.startsMd cfg i = true) :
    s.advance cfg i = .stall := by
  obtain ⟨hmd, htr, htg⟩ := startsMd_iff.mp h
  exact advance_eq_stall_iff.mpr ⟨htg, htr, by simp [stall_eq, hs, hmd]⟩

theorem stateNext_of_startsMd (hc : s.idEx.Coherent) (hs : s.control.state = .exec)
    (h : s.startsMd cfg i = true) : s.stateNext cfg i = .md := by
  have hmd := (startsMd_iff.mp h).1
  rcases stall_cases hc (advance_of_startsMd hs h) with
    ⟨-, hm, -⟩ | ⟨-, -, hn⟩ | ⟨hs', -⟩ | ⟨hs', -⟩ | ⟨hs', -⟩
  · simp [(hc.mem hm).1] at hmd
  · exact hn
  all_goals rw [hs] at hs'; cases hs'

/-- The controller enters `state_md` with a start, and stays there until the unit is ready. -/
theorem stateNext_eq_md (h : s.stateNext cfg i = .md) :
    s.control.state = .exec ∧ s.startsMd cfg i = true ∨
      s.control.state = .md ∧ s.mdReady cfg = false := by
  unfold stateNext at h
  cases hs : s.control.state <;> simp only [hs] at h
  case exec =>
    refine .inl ⟨rfl, ?_⟩
    unfold execNext at h
    split_ifs at h with htg htr _ _ _ _ hmd
    exact startsMd_iff.mpr ⟨hmd, by simpa using htr, by simpa [stallOnTrigger_eq, hs] using htg⟩
  case md =>
    refine .inr ⟨rfl, ?_⟩
    split_ifs at h with hr
    simpa using hr
  all_goals first | cases h | (split_ifs at h)

theorem stateNext_eq_md2 (h : s.stateNext cfg i = .md2) :
    s.control.state = .md ∧ s.mdReady cfg = true := by
  unfold stateNext at h
  cases hs : s.control.state <;> simp only [hs] at h
  case exec =>
    unfold execNext at h
    split_ifs at h
  case md =>
    split_ifs at h with hr
    exact ⟨rfl, hr⟩
  all_goals first | cases h | (split_ifs at h)

/-- While the core waits for the unit, nothing but the completion can happen. -/
theorem advance_of_md (hs : s.control.state = .md) (hq : s.idEx.Quiet)
    (hx : s.strayException i = false) : s.advance cfg i = .stall := by
  refine advance_eq_stall_iff.mpr ⟨by simp [stallOnTrigger_eq, hs], ?_, by simp [stall_eq, hs]⟩
  rw [trapRequest_eq_stray (by simp [hs, acceptsTrap]) hq, hx]

/-- Outside of `state_md` no completion reaches the decode process. -/
theorem not_mdCompletes (hinv : MdInv cfg s o) (hs : s.control.state ≠ .md) :
    s.mdCompletes cfg i = false := by
  by_contra h
  have h : s.advance cfg i = .stall ∧ s.mdReady cfg = true := by simpa [mdCompletes] using h
  obtain ⟨hadv, hready⟩ := h
  have hmul : s.md.mulRunning = false := by
    by_contra hm
    rcases hinv.mul (by simpa using hm) with h' | h'
    · exact hs h'
    · simp [advance_eq_stall_iff, stallOnTrigger_eq, h', hinv.debug h'] at hadv
  simp [mdReady, MulDiv.ready, (hinv.idle hs).2, hmul] at hready

/-! ## The invariant is preserved -/

/-- Nothing is decoded when the controller enters debug mode. -/
theorem advance_ne_decode_of_debug (hd : s.control.state = .debug → cfg.haveOcd = true)
    (h : s.stateNext cfg i = .debug) : s.advance cfg i ≠ .decode := by
  intro ha
  obtain ⟨hleave, -⟩ := advance_eq_decode_iff.mp ha
  simp only [leaves, Bool.and_eq_true, Bool.not_eq_true', stall_eq, stallOnTrigger_eq] at hleave
  unfold stateNext at h
  cases hs : s.control.state <;> simp only [hs] at h hleave
  case exec =>
    simp only [execNext, hleave.1.2, Bool.false_eq_true, if_false] at h
    split_ifs at h
  case debug => simp [hd hs] at hleave
  case wfi => simp at hleave
  all_goals first | cases h | (split_ifs at h)

theorem mdStart_nextIdEx (h : (s.nextIdEx cfg i).mdStart = true) : s.advance cfg i = .decode := by
  rw [nextIdEx_eq] at h
  cases ha : s.advance cfg i with
  | decode => rfl
  | _ => rw [ha] at h; cases h

theorem nextSlot_eq_some {x : Instr} (h : o.nextSlot cfg s i = some x) :
    s.advance cfg i = .stall ∧ o.slot = some x ∧
        s.nextIdEx cfg i = s.idEx.stalled (s.mdReady cfg) ∨
      s.advance cfg i = .decode ∧ x.seq = o.seq ∧ x.decoded = s.nextIdEx cfg i := by
  unfold Observer.nextSlot at h
  rw [nextIdEx_eq]
  cases ha : s.advance cfg i with
  | stall => rw [ha] at h; exact .inl ⟨rfl, h, rfl⟩
  | decode =>
    rw [ha] at h
    cases h
    exact .inr ⟨rfl, rfl, rfl⟩
  | _ => rw [ha] at h; cases h

theorem nextSlot_of_stall (h : s.advance cfg i = .stall) : o.nextSlot cfg s i = o.slot := by
  simp [Observer.nextSlot, h]

/-- The life of an instruction of the MD unit: `state_exec`, `state_md`, `state_md2`. -/
theorem mdInv_life (hinv : MdInv cfg s o) (hr : i.sreset = false) (hsafe : MdSafe cfg s i)
    {x : Instr} (hx : o.nextSlot cfg s i = some x) (hmd : x.isMd) :
    (s.nextIdEx cfg i).mdStart = true ∨ s.stateNext cfg i = .md ∨ s.stateNext cfg i = .md2 := by
  rcases nextSlot_eq_some hx with ⟨ha, hslot, -⟩ | ⟨-, -, hdec⟩
  · obtain ⟨htg, htr, hst⟩ := advance_eq_stall_iff.mp ha
    rcases hinv.life x hslot hmd with hstart | hs | hs
    · have hgo := startsMd_iff.mpr ⟨hstart, htr, htg⟩
      exact .inr (.inl (stateNext_of_startsMd hinv.coherent (hsafe.start hr hgo) hgo))
    · right
      simp only [stateNext, hs]
      cases s.mdReady cfg <;> simp
    · simp [stall_eq, hs] at hst
  · exact .inl (hdec ▸ hmd)

/-- The multiplier signals ready in the clock after its start. -/
theorem mdInv_mul (hinv : MdInv cfg s o) (hr : i.sreset = false) (hsafe : MdSafe cfg s i)
    (h : (s.nextMd cfg i).mulRunning = true) :
    s.stateNext cfg i = .md ∨ s.stateNext cfg i = .debug := by
  obtain ⟨hmd, htr⟩ : s.idEx.mdStart = true ∧ s.trapRequest cfg i = false := by
    simp only [nextMd, MulDiv.next, mdGate, Bool.and_eq_true, Bool.not_eq_true'] at h
    exact h.1
  cases htg : s.stallOnTrigger cfg i with
  | false =>
    have hgo := startsMd_iff.mpr ⟨hmd, htr, htg⟩
    exact .inl (stateNext_of_startsMd hinv.coherent (hsafe.start hr hgo) hgo)
  | true =>
    right
    rw [stallOnTrigger_eq] at htg
    cases hs : s.control.state <;> simp only [hs, Bool.false_eq_true] at htg
    case exec => simp [stateNext, hs, execNext, htg]
    case debug => simp [hinv.asleep hs] at hmd

/-- The divider is idle when the controller does not wait for it. -/
theorem mdInv_idle (hinv : MdInv cfg s o) (hr : i.sreset = false) (hsafe : MdSafe cfg s i)
    (h : s.stateNext cfg i ≠ .md) : (s.nextMd cfg i).Idle := by
  have hgo : s.startsMd cfg i = false := by
    by_contra hgo
    have hgo : s.startsMd cfg i = true := by simpa using hgo
    exact h (stateNext_of_startsMd hinv.coherent (hsafe.start hr hgo) hgo)
  have hgate : ((s.mdGate cfg i).start && s.idEx.mdOp.getLsbD 2) = false := by
    rw [mdGate_start, hgo, Bool.false_and]
  by_cases hs : s.control.state = .md
  · obtain ⟨x, -, hrun⟩ := hinv.running hs
    have hready : s.mdReady cfg = true := by
      by_contra hready
      exact h (by simp [stateNext, hs, hready])
    have hunit := hrun.unit
    split at hunit
    · obtain ⟨hw, hm, -⟩ := hunit
      have hdr : s.md.divReady = true := by
        simpa [mdReady, MulDiv.ready, hrun.haveMuldiv, hm] using hready
      have := hw.next (a := s.operandA) (b := s.operandB) hgate
      rwa [if_pos hdr] at this
    · exact hunit.1.next hgate
  · exact (hinv.idle hs).next hgate

/-- An operation that the controller waits for is in progress. -/
theorem mdInv_running (hinv : MdInv cfg s o) (hr : i.sreset = false) (hsafe : MdSafe cfg s i)
    (h : s.stateNext cfg i = .md) : ∃ x, o.nextSlot cfg s i = some x ∧
      MdRunning cfg (s.clock cfg io i) (o.clock cfg io s i) x := by
  rcases stateNext_eq_md h with ⟨hs, hgo⟩ | ⟨hs, hready⟩
  · have ha := advance_of_startsMd hs hgo
    have hmd := (startsMd_iff.mp hgo).1
    obtain ⟨hq, hcfg⟩ := hinv.quiet hmd
    obtain ⟨x, hx, hxmd⟩ := hinv.start hmd
    have hid : s.nextIdEx cfg i = s.idEx.stalled (s.mdReady cfg) := by rw [nextIdEx_eq, ha]
    refine ⟨x, (nextSlot_of_stall ha).trans hx, hcfg, hxmd, ?_, ?_, ?_⟩
    · rw [clock_idEx, hid]
      exact hq.stalled _
    · rw [clock_idEx, hid]
      rfl
    · have hop' : (s.nextIdEx cfg i).mdOp = s.idEx.mdOp := by rw [hid]; rfl
      change if (s.nextIdEx cfg i).mdOp.getLsbD 2 then
        (s.nextMd cfg i).Working cfg ∧ (s.nextMd cfg i).mulRunning = false ∧ _
        else (s.nextMd cfg i).Idle ∧ (s.nextMd cfg i).mulRunning = true ∧ _
      rw [hop']
      cases hop : s.idEx.mdOp.getLsbD 2 with
      | true =>
        refine ⟨MulDiv.working_of_start (by rw [mdGate_start, hgo, hop]; rfl), ?_, ?_⟩
        · simp only [nextMd, MulDiv.next, hop, Bool.not_true, Bool.and_false]
        · simp only [Observer.clock, hgo, hop, hx, Bool.and_self, if_true, Option.map_some]
      | false =>
        refine ⟨(hinv.idle (by simp [hs])).next (by rw [hop, Bool.and_false]), ?_, ?_⟩
        · have htr := (startsMd_iff.mp hgo).2.1
          simp only [nextMd, MulDiv.next, mdGate, hop, hmd, htr]
          rfl
        · simp only [Observer.clock, hgo, hop, hx, Bool.not_false, Bool.and_self, if_true,
            Option.map_some]
  · obtain ⟨x, hx, hrun⟩ := hinv.running hs
    have ha : s.advance cfg i = .stall := advance_of_md hs hrun.quiet (hsafe.wait hr hs)
    have hid : s.nextIdEx cfg i = s.idEx.stalled (s.mdReady cfg) := by rw [nextIdEx_eq, ha]
    have hgo : s.startsMd cfg i = false := by simp [startsMd, hrun.started]
    have hunit := hrun.unit
    refine ⟨x, (nextSlot_of_stall ha).trans hx, hrun.haveMuldiv, hrun.isMd, ?_, ?_, ?_⟩
    · rw [clock_idEx, hid]
      exact hrun.quiet.stalled _
    · rw [clock_idEx, hid]
      rfl
    · have hop' : (s.nextIdEx cfg i).mdOp = s.idEx.mdOp := by rw [hid]; rfl
      change if (s.nextIdEx cfg i).mdOp.getLsbD 2 then
        (s.nextMd cfg i).Working cfg ∧ (s.nextMd cfg i).mulRunning = false ∧ _
        else (s.nextMd cfg i).Idle ∧ (s.nextMd cfg i).mulRunning = true ∧ _
      rw [hop']
      split at hunit
      · next hop =>
        obtain ⟨hw, -, howner⟩ := hunit
        have hdr : s.md.divReady = false := by
          by_contra hdr
          simp [mdReady, MulDiv.ready, hrun.haveMuldiv, hdr] at hready
        have hnext := hw.next (a := s.operandA) (b := s.operandB)
          (show ((s.mdGate cfg i).start && s.idEx.mdOp.getLsbD 2) = false by
            rw [mdGate_start, hgo, Bool.false_and])
        rw [if_neg (by simp [hdr])] at hnext
        rw [if_pos hop]
        refine ⟨hnext, ?_, ?_⟩
        · simp [nextMd, MulDiv.next, mdGate, hrun.started]
        · simpa [Observer.clock, hgo] using howner
      · simp [mdReady, MulDiv.ready, hrun.haveMuldiv, hunit.2.1] at hready

theorem mdInv_clock (hinv : MdInv cfg s o) (hr : i.sreset = false) (hsafe : MdSafe cfg s i) :
    MdInv cfg (s.clock cfg io i) (o.clock cfg io s i) where
  debug h := haveOcd_of_stateNext hinv.debug (clock_state cfg io s i ▸ h)
  asleep h := by
    rw [clock_state] at h
    rw [clock_idEx]
    by_contra hmd
    exact advance_ne_decode_of_debug hinv.debug h (mdStart_nextIdEx (by simpa using hmd))
  coherent := coherent_nextIdEx
  quiet h := by
    have ha := mdStart_nextIdEx h
    rw [clock_idEx, nextIdEx_eq, ha] at h ⊢
    have hshape := decode_shape cfg s.ebreakm s.isstepping s.ifIdPc i.instr.instr
    exact ⟨hshape.quiet_of_mdStart h, hshape.haveMuldiv_of_mdStart h⟩
  start h := by
    have ha := mdStart_nextIdEx h
    rw [clock_idEx, nextIdEx_eq, ha] at h
    refine ⟨⟨o.seq, decode cfg s.ebreakm s.isstepping s.ifIdPc i.instr.instr⟩, ?_, h⟩
    simp [Observer.clock, Observer.nextSlot, ha]
  isMd x hx := by
    rw [clock_idEx]
    rcases nextSlot_eq_some hx with ⟨-, hslot, hid⟩ | ⟨ha, -, hdec⟩
    · rw [hid]
      exact hinv.isMd x hslot
    · rw [Instr.isMd, hdec, nextIdEx_eq, ha]
      exact (decode_shape _ _ _ _ _).isMd_iff
  mdOp x hx := by
    rw [clock_idEx]
    rcases nextSlot_eq_some hx with ⟨-, hslot, hid⟩ | ⟨-, -, hdec⟩
    · rw [hid]
      exact hinv.mdOp x hslot
    · rw [hdec]
  life x hx hmd := by
    rw [clock_state]
    exact mdInv_life hinv hr hsafe hx hmd
  mul h := by
    rw [clock_state]
    exact mdInv_mul hinv hr hsafe h
  idle h := mdInv_idle hinv hr hsafe (clock_state cfg io s i ▸ h)
  running h := mdInv_running hinv hr hsafe (clock_state cfg io s i ▸ h)
  done h x hx := by
    obtain ⟨hs, -⟩ := stateNext_eq_md2 (clock_state cfg io s i ▸ h)
    obtain ⟨y, hy, hrun⟩ := hinv.running hs
    have ha : s.advance cfg i = .stall := advance_of_md hs hrun.quiet (hsafe.wait hr hs)
    have hid : s.nextIdEx cfg i = s.idEx.stalled (s.mdReady cfg) := by rw [nextIdEx_eq, ha]
    have hgo : s.startsMd cfg i = false := by simp [startsMd, hrun.started]
    have hxy : o.slot = some x := (nextSlot_of_stall ha).symm.trans hx
    cases hy.symm.trans hxy
    rw [clock_idEx, show (s.nextIdEx cfg i).mdOp = s.idEx.mdOp by rw [hid]; rfl]
    have hunit := hrun.unit
    simp only [Observer.clock, hgo, Bool.false_and, Bool.false_eq_true, if_false]
    split at hunit
    · next hop => rw [if_pos hop]; exact hunit.2.2
    · next hop => rw [if_neg hop]; exact hunit.2.2

theorem mdInv_step (hinv : MdInv cfg s o) (hsafe : MdSafe cfg s i) :
    MdInv cfg (s.step cfg io i) (o.next cfg io s i) := by
  cases hr : i.sreset with
  | true =>
    have h := mdInv_initial cfg
    rw [step_reset _ _ _ _ hr, Observer.next, if_pos hr]
    exact ⟨h.debug, h.asleep, h.coherent, h.quiet, h.start, h.isMd, h.mdOp, h.life, h.mul, h.idle,
      (fun h => by cases h), h.done⟩
  | false =>
    rw [step_clock _ _ _ _ hr, Observer.next, if_neg (by simp [hr])]
    exact mdInv_clock hinv hr hsafe

theorem mdInv_of_reachable {p : Core × Observer}
    (h : (observed cfg io).Reachable (fun p i => MdSafe cfg p.1 i) p) : MdInv cfg p.1 p.2 := by
  induction h with
  | init => exact mdInv_initial cfg
  | step i _ hsafe ih => exact mdInv_step ih hsafe

/-! ## Confinement -/

theorem aluResult_md_irrel {op : AluOp} (h : ¬ (op = .multiply ∨ op = .divrem)) (isunsigned : Bool)
    (src : AluSources) (mul div a b : DataType) :
    aluResult cfg op isunsigned { src with mul := mul, div := div } a b =
      aluResult cfg op isunsigned src a b := by
  cases op <;> first | rfl | simp at h

theorem mdConfined_of_inv (hinv : MdInv cfg s o) (hr : i.sreset = false)
    (hsafe : MdSafe cfg s i) : MdConfined cfg io s o i where
  completes h := by
    by_cases hs : s.control.state = .md
    · obtain ⟨x, hx, hrun⟩ := hinv.running hs
      have hunit := hrun.unit
      refine ⟨x, hx, hrun.isMd, hs, fun hm => ?_, fun hd => ?_⟩
      · split at hunit
        · simp [hunit.2.1] at hm
        · exact hunit.2.2
      · split at hunit
        · exact hunit.2.2
        · simp [hunit.1.2] at hd
    · simp [not_mdCompletes hinv hs] at h
  result x hx hmd := by
    unfold Observer.commits at hx
    split_ifs at hx with hleave
    simp only [leaves, Bool.and_eq_true, Bool.not_eq_true'] at hleave
    obtain ⟨⟨hstall, htg⟩, htr⟩ := hleave
    rcases hinv.life x hx hmd with hstart | hs | hs
    · have hs := hsafe.start hr (startsMd_iff.mpr ⟨hstart, htr, htg⟩)
      simp [stall_eq, hs, hstart] at hstall
    · simp [stall_eq, hs] at hstall
    · exact ⟨hs, hinv.mdOp x hx, hinv.mdOp x hx ▸ hinv.done hs x hx⟩
  other x hx hmd m := by
    have hop := mt (hinv.isMd x hx).mpr hmd
    exact aluResult_md_irrel hop _ (s.aluSources cfg io i) _ _ _ _

/-- In every run whose steps start operations in `state_exec` only and raise no exception flag in
`state_md`, every completion and every result of the MD unit belongs to its own instruction. -/
theorem md_confined (cfg : Generics) (io : Peripherals) {s : Core} {o : Observer}
    (h : (observed cfg io).Reachable (fun p i => MdSafe cfg p.1 i) (s, o)) (i : CoreInput)
    (hr : i.sreset = false) (hsafe : MdSafe cfg s i) : MdConfined cfg io s o i :=
  mdConfined_of_inv (mdInv_of_reachable h) hr hsafe

/-- `mul x6, x5, x8` with its operands loaded before, in the clock in which it completes. -/
theorem mul_completes_confined :
    MdConfined .plain .none
      (observeProgram .plain .none [0x00500293, 0x00900413, 0x02828333] (.replicate 5 .quiet)).1
      (observeProgram .plain .none [0x00500293, 0x00900413, 0x02828333] (.replicate 5 .quiet)).2
      (fetchInput .plain (observeProgram .plain .none [0x00500293, 0x00900413, 0x02828333]
        (.replicate 5 .quiet)).1 0 .quiet) :=
  md_confined .plain .none
    (Machine.Reachable.init.runFrom_of_meets (M := observed .plain .none) (by decide +kernel))
    _ rfl (by decide +kernel)

/-- A division behind a WFI:
`lui x9, 0x20000; addi x8, x0, 9; addi x5, x0, 64; csrrw x0, mtvec, x5; csrrsi x0, mstatus, 8;
wfi; div x6, x5, x8`, and the trap handler at address 64: ten times `addi x0, x0, 0`, then
`sw x0, 8(x9); add x10, x8, x0`. -/
def divBehindWfi : List DataType :=
  [0x200004b7, 0x00900413, 0x04000293, 0x30529073, 0x30046073, 0x10500073, 0x0282c333] ++
    .replicate 19 0x00000013 ++ [0x0004a423, 0x00040533]

/-- The interrupt that ends the WFI, up to the clock in which the store of the handler is in the
execute stage. -/
def divBehindWfiStimuli : List Stimulus :=
  .replicate 10 .quiet ++ [.interrupt 16] ++ .replicate 13 .quiet

/-- The division that the core slept over completes while the store of the handler waits. -/
theorem div_behind_wfi_completes_for_store :
    ¬ ∀ s o, (observed .plain .none).Reachable Machine.free (s, o) → ∀ i, i.sreset = false →
      MdConfined .plain .none s o i := by
  intro h
  have hc := h _ _ (observeProgram_reachable .plain .none divBehindWfi divBehindWfiStimuli)
    (fetchInput .plain (observeProgram .plain .none divBehindWfi divBehindWfiStimuli).1 0 .quiet)
    rfl
  obtain ⟨x, -, -, hs, -⟩ := hc.completes (by decide +kernel)
  revert hs
  decide +kernel

end Core

end ThuasRiscv
