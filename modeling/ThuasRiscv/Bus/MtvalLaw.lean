import ThuasRiscv.Bus.TrapIsolation

/-!
# The address that a trap saves

A trap for a failed load or store saves the address of the access that failed,
and all other exceptions shall save zero. The address comes from the interface
to the data bus, so it has to be the one of the access in flight when the error
arrives, in the executing state, while the core waits and while it sleeps on an
access that follows a WFI.
-/

namespace ThuasRiscv

open Transition

namespace System

variable {nRom nBoot nRam : ℕ} (g : SystemGenerics) (io : Peripherals)
  (s : System nRom nBoot nRam) (i : SystemInput) (last : Option Flight)

/-! ## The law -/

/-- A load or store that is misaligned or not supported where it goes to. -/
def isDataFault (cause : ℕ) : Bool := cause = 4 || cause = 5 || cause = 6 || cause = 7

/-- The states in which an exception starts a trap, and the clock after one, in which another
exception takes its place. -/
def takesTrap (state : StateType) : Bool := Core.acceptsTrap state || state = .trap

/-- The access in flight fails in this clock, and `addr` is its address. -/
def FaultsAt (addr : DataType) : Prop :=
  ∃ f, Flight.current last (s.request g i) = some f ∧
    g.bus.Answers f.request f.age (s.response g i).lines ∧ f.request.addr = addr

/-- What a synchronous exception leaves in `mtval`. -/
def MtvalLaw : Prop :=
  ∀ cause, s.core.exception g.core (s.coreInput g i) = some cause →
    if isDataFault cause then FaultsAt g s i last (s.step g io i).core.csr.mtval
    else (s.step g io i).core.csr.mtval = 0

/-- No ECALL, or the address that the interface holds is zero. -/
def NoEcallAddress : Prop :=
  s.core.exception g.core (s.coreInput g i) = some 11 →
    s.core.addressToMtval g.core (s.coreInput g i) = 0

instance : Decidable (NoEcallAddress g s i) := inferInstanceAs (Decidable (_ → _))

/-! ## While the core sleeps -/

/-- The access behind a WFI is on the bus, `age` clocks after its strobe. Its answer is not awaited,
but an error ends the sleep. -/
structure Dozing (q : BusRequest) (age : ℕ) : Prop where
  plain : s.core.idEx.aluOp.plain = true
  ismem : s.core.idEx.ismem = false
  stb : q.stb = true
  acc : q.acc = s.core.idEx.memaccess
  size : q.size = s.core.idEx.memsize
  addr : q.addr = s.core.operandA + s.core.idEx.imm
  access : q.acc ≠ .nop ∧ q.size ≠ .unknown
  late : g.bus.latency q < age → g.bus.verdict q = .ready
  strobe : age = 0 → s.bus.Idle g.bus ∧ g.core.fastMem = false ∧ s.core.bus = q
  flight : 0 < age → s.bus.Waits g.bus q age ∧ last = some ⟨q, age⟩ ∧
    (g.core.fastMem = false → s.core.bus = { q with stb := false, data := s.core.bus.data })

/-- What the core sleeps on: a slot whose access is not on the bus, or an access in flight. -/
inductive Dozes : Prop
  | before : s.core.idEx.Ready → PortQuiet g s → s.bus.Idle g.bus → Dozes
  | during (q : BusRequest) (age : ℕ) : Dozing g s last q age → Dozes

variable {g io s i last}

/-- An error is heard. -/
theorem lines_ne_silent (he : (s.response g i).error = true) :
    (s.response g i).lines ≠ .silent := by
  intro hl
  simp only [BusResponse.lines, Lines.silent, Lines.mk.injEq] at hl
  simp [BusResponse.error, hl] at he

/-- The access of the execute stage, as the unregistered interface makes it. -/
theorem request_of_fast (hf : g.core.fastMem = true) (hd : s.core.indebug = false)
    (hdis : s.core.fastDisable g.core i.core = false) (hdm : i.core.dm.stb = false) :
    s.request g i = ⟨s.core.idEx.ismem, s.core.idEx.memaccess, s.core.idEx.memsize,
      s.core.operandA + s.core.idEx.imm, s.core.operandB⟩ := by
  rw [request, Core.busRequest, if_pos hf, hdis, busAccess_enabled hd, hdm, Bool.false_and,
    Bool.or_false]

theorem fastDisable_of_sleeping (hs : s.core.control.state = .wfi)
    (hplain : s.core.idEx.aluOp.plain = true)
    (hint : s.core.interrupt (s.coreInput g i) = none) :
    s.core.fastDisable g.core i.core = false :=
  fastDisable_of_store (by rw [hs]; rfl) hplain (by rw [Core.stallOnTrigger_eq, hs]) hint

/-- While the core sleeps on an access, the strobe is seen in the first clock only. -/
theorem stb_of_dozing {q : BusRequest} {age : ℕ} (hdm : i.core.dm.stb = false)
    (hw : Dozing g s last q age) :
    (s.request g i).stb = decide (age = 0) ∧ (age = 0 → s.request g i = q) := by
  rcases Nat.eq_zero_or_pos age with rfl | hpos
  · obtain ⟨-, hf, hbus⟩ := hw.strobe rfl
    rw [request, Core.busRequest, hf, if_neg Bool.false_ne_true, hbus]
    exact ⟨hw.stb, fun _ => rfl⟩
  · refine ⟨?_, fun h => absurd h (Nat.ne_of_gt hpos)⟩
    rw [decide_eq_false (Nat.ne_of_gt hpos), request, Core.busRequest]
    split_ifs with hf
    · simp [Core.busAccess, hw.ismem, hdm]
    · rw [(hw.flight hpos).2.2 (by simpa using hf)]

/-- The address and the size stay. -/
theorem request_of_dozing {q : BusRequest} {age : ℕ} (hs : s.core.control.state = .wfi)
    (hdm : i.core.dm.stb = false) (hint : s.core.interrupt (s.coreInput g i) = none)
    (hw : Dozing g s last q age) :
    (s.request g i).addr = q.addr ∧ (s.request g i).size = q.size := by
  have hd : s.core.indebug = false := by simp [Core.indebug, hs]
  cases hf : g.core.fastMem with
  | false =>
    rw [request, Core.busRequest, hf, if_neg Bool.false_ne_true]
    rcases Nat.eq_zero_or_pos age with rfl | hpos
    · rw [(hw.strobe rfl).2.2]
      exact ⟨rfl, rfl⟩
    · rw [(hw.flight hpos).2.2 hf]
      exact ⟨rfl, rfl⟩
  | true =>
    rw [request_of_fast hf hd (fastDisable_of_sleeping hs hw.plain hint) hdm]
    exact ⟨hw.addr.symm, hw.size.symm⟩

theorem answers_of_dozing {q : BusRequest} {age : ℕ} (hs : s.core.control.state = .wfi)
    (hdm : i.core.dm.stb = false) (hint : s.core.interrupt (s.coreInput g i) = none)
    (hw : Dozing g s last q age) (hage : age ≤ g.bus.latency q) :
    g.bus.Answers q age (s.response g i).lines := by
  obtain ⟨haddr, hsize⟩ := request_of_dozing hs hdm hint hw
  obtain ⟨hstb, hreq⟩ := stb_of_dozing hdm hw
  rcases Nat.eq_zero_or_pos age with rfl | hpos
  · rw [response, hreq rfl]
    exact DataBus.answers_strobe (hw.strobe rfl).1 hw.stb hw.access.1 hw.access.2
  · exact DataBus.answers_wait (hw.flight hpos).1 hpos hage hw.stb hw.access.1 hw.access.2
      (by simpa [Nat.ne_of_gt hpos] using hstb) haddr hsize

/-- After its answer the access is not heard of any more. -/
theorem lines_of_dozing {q : BusRequest} {age : ℕ} (hs : s.core.control.state = .wfi)
    (hdm : i.core.dm.stb = false) (hint : s.core.interrupt (s.coreInput g i) = none)
    (hw : Dozing g s last q age) (hage : g.bus.latency q < age) :
    (s.response g i).lines = .silent := by
  obtain ⟨haddr, -⟩ := request_of_dozing hs hdm hint hw
  have hstb := (stb_of_dozing hdm hw).1
  have hpos : 0 < age := by omega
  refine DataBus.lines_idle (DataBus.idle_of_waits (hw.flight hpos).1 hage) fun hact => ?_
  have hsel : g.bus.map.select q.addr = none := by
    rw [← haddr]
    exact hact.2.resolve_left (by simp [hstb, Nat.ne_of_gt hpos])
  have hv := hw.late hage
  simp [BusGenerics.verdict, BusGenerics.refuses, hsel] at hv

theorem current_of_dozing {q : BusRequest} {age : ℕ} (hdm : i.core.dm.stb = false)
    (hw : Dozing g s last q age) : Flight.current last (s.request g i) = some ⟨q, age⟩ := by
  obtain ⟨hstb, hreq⟩ := stb_of_dozing hdm hw
  rcases Nat.eq_zero_or_pos age with rfl | hpos
  · simp [hreq rfl, Flight.current, BusRequest.strobes, hw.stb, hw.access.1]
  · have hno : (s.request g i).strobes = false := by
      simp [BusRequest.strobes, hstb, Nat.ne_of_gt hpos]
    rw [Flight.current, hno, if_neg Bool.false_ne_true, (hw.flight hpos).2.1]

/-- One more clock on the bus. -/
theorem waits_of_dozing {q : BusRequest} {age : ℕ} (hr : i.core.sreset = false)
    (hdm : i.core.dm.stb = false) (hw : Dozing g s last q age) :
    (s.step g io i).bus.Waits g.bus q (age + 1) := by
  obtain ⟨hstb, hreq⟩ := stb_of_dozing hdm hw
  exact waits_of_strobe hr hstb hreq (fun h => (hw.strobe h).1) fun h => (hw.flight h).1

/-- The registered interface in a clock of the sleep. -/
theorem nextBus_of_sleeping (hf : g.core.fastMem = false) (hs : s.core.control.state = .wfi)
    (hdm : i.core.dm.stb = false) (hplain : s.core.idEx.aluOp.plain = true)
    (htrap : s.core.trapRequest g.core (s.coreInput g i) = false) :
    s.core.nextBus g.core (s.coreInput g i) = ⟨s.core.idEx.ismem, s.core.idEx.memaccess,
      s.core.idEx.memsize, s.core.operandA + s.core.idEx.imm, s.core.operandB⟩ := by
  have hd : s.core.indebug = false := by simp [Core.indebug, hs]
  have hdis : s.core.slowDisable g.core (s.coreInput g i) = false := by
    simp [Core.slowDisable, Core.flush_eq, hs, Core.penalty_plain hplain, htrap,
      Core.stallOnTrigger_eq]
  rw [Core.nextBus, hf, if_neg Bool.false_ne_true, hdis, busAccess_enabled hd,
    show (s.coreInput g i).dm.stb = false from hdm, Bool.false_and, Bool.or_false]

theorem advance_of_sleeping (hs : s.core.control.state = .wfi)
    (htrap : s.core.trapRequest g.core (s.coreInput g i) = false) :
    s.core.advance g.core (s.coreInput g i) = .stall := by
  rw [Core.advance_eq_stall_iff, Core.stall_eq, hs, Core.stallOnTrigger_eq, hs]
  exact ⟨rfl, htrap, rfl⟩

theorem interrupt_of_trapRequest (htrap : s.core.trapRequest g.core (s.coreInput g i) = false) :
    s.core.interrupt (s.coreInput g i) = none := by
  rw [Core.trapRequest, Bool.or_eq_false_iff] at htrap
  simpa using htrap.1

/-- The first clock of an access on which the core sleeps. -/
theorem dozing_of_access (hr : i.core.sreset = false) (hs : s.core.control.state = .wfi)
    (hc : s.core.idEx.Coherent) (hdm : i.core.dm.stb = false) (haccess : s.core.idEx.HasAccess)
    (hport : PortQuiet g s) (hb : s.bus.Idle g.bus)
    (htrap : s.core.trapRequest g.core (s.coreInput g i) = false) :
    Dozing g (s.step g io i) ((Flight.current last (s.request g i)).map Flight.older)
      ⟨true, s.core.idEx.memaccess, s.core.idEx.memsize, s.core.operandA + s.core.idEx.imm,
        s.core.operandB⟩ (if g.core.fastMem then 1 else 0) := by
  have hd : s.core.indebug = false := by simp [Core.indebug, hs]
  have hplain := (hc.mem haccess.ismem).2.2.2
  have ha := advance_of_sleeping hs htrap
  have hid : (s.step g io i).core.idEx = s.core.idEx.stalled (s.core.mdReady g.core) := by
    rw [step_idEx hr, Core.nextIdEx_eq, ha]
  have hop : (s.step g io i).core.operandA = s.core.operandA := operandA_of_stall hr ha
  have hfast (hf : g.core.fastMem = true) : s.request g i = ⟨true, s.core.idEx.memaccess,
      s.core.idEx.memsize, s.core.operandA + s.core.idEx.imm, s.core.operandB⟩ := by
    rw [request_of_fast hf hd
      (fastDisable_of_sleeping hs hplain (interrupt_of_trapRequest htrap)) hdm, haccess.ismem]
  refine ⟨by rw [hid]; exact hplain, by rw [hid]; rfl, rfl, by rw [hid]; rfl, by rw [hid]; rfl,
    by rw [hid, hop]; rfl, ⟨haccess.memaccess, haccess.memsize⟩, fun h => ?_, fun h => ?_,
    fun h => ?_⟩
  · cases hf : g.core.fastMem with
    | false => simp [hf] at h
    | true =>
      rw [hf, if_pos rfl] at h
      have hans := answers_executing hb (hfast hf) haccess
      rw [hfast hf] at hans
      rcases answers_cases hans haccess.memaccess (error_of_trapRequest htrap) with h' | h'
      · exact h'.2.2
      · exact absurd (Nat.lt_one_iff.mp h) (Ne.symm h'.1)
  · have hf : g.core.fastMem = false := by
      cases hf : g.core.fastMem <;> simp [hf] at h ⊢
    refine ⟨idle_step hr hb.toDrained ?_, hf, ?_⟩
    · rw [request, Core.busRequest, hf, if_neg Bool.false_ne_true]
      exact hport hf
    · rw [step_core hr, Core.clock_bus, nextBus_of_sleeping hf hs hdm hplain htrap, haccess.ismem]
  · have hf : g.core.fastMem = true := by
      cases hf : g.core.fastMem <;> simp [hf] at h ⊢
    obtain ⟨hwaits, hlast⟩ := flight_of_fast hr hb (hfast hf) rfl haccess.memaccess
    rw [hf, if_pos rfl]
    exact ⟨hwaits, hlast, by simp⟩

/-- One more clock of an access on which the core sleeps. -/
theorem Dozing.next {q : BusRequest} {age : ℕ} (hr : i.core.sreset = false)
    (hs : s.core.control.state = .wfi) (hdm : i.core.dm.stb = false)
    (hw : Dozing g s last q age)
    (htrap : s.core.trapRequest g.core (s.coreInput g i) = false) :
    Dozing g (s.step g io i) ((Flight.current last (s.request g i)).map Flight.older) q
      (age + 1) := by
  have hint := interrupt_of_trapRequest htrap
  have ha := advance_of_sleeping hs htrap
  have hid : (s.step g io i).core.idEx = s.core.idEx.stalled (s.core.mdReady g.core) := by
    rw [step_idEx hr, Core.nextIdEx_eq, ha]
  have hop : (s.step g io i).core.operandA = s.core.operandA := operandA_of_stall hr ha
  refine ⟨by rw [hid]; exact hw.plain, by rw [hid]; rfl, hw.stb, by rw [hid]; exact hw.acc,
    by rw [hid]; exact hw.size, by rw [hid, hop]; exact hw.addr, hw.access, fun hage => ?_, nofun,
    fun _ => ⟨waits_of_dozing hr hdm hw, ?_, fun hf => ?_⟩⟩
  · rcases Nat.lt_or_ge (g.bus.latency q) age with hlate | hearly
    · exact hw.late hlate
    · rcases answers_cases (answers_of_dozing hs hdm hint hw hearly) hw.access.1
        (error_of_trapRequest htrap) with h | h
      · exact h.2.2
      · exact absurd (Nat.le_antisymm hearly (Nat.le_of_lt_succ hage)) h.1
  · rw [current_of_dozing hdm hw]
    rfl
  · rw [step_core hr, Core.clock_bus, nextBus_of_sleeping hf hs hdm hw.plain htrap, hw.ismem,
      hw.acc, hw.size, hw.addr]

theorem ready_of_executing (hinv : BusInv g s last) (hs : s.core.control.state = .exec) :
    s.core.idEx.Ready ∧ PortQuiet g s ∧ s.bus.Idle g.bus := by
  cases hinv.stage with
  | executing _ hready hport hb => exact ⟨hready, hport, hb⟩
  | resting h => simp [hs, atRest] at h
  | booting h | waiting _ _ h | sleeping h | trapping h | trapped h | halted h | resuming h
  | resuming2 h | resuming3 h => rw [hs] at h; cases h

/-- The core falls asleep with a slot that was just decoded. -/
theorem dozes_of_executing (hinv : BusInv g s last) (hr : i.core.sreset = false)
    (hs : s.core.control.state = .exec)
    (hn : s.core.stateNext g.core (s.coreInput g i) = .wfi) {last' : Option Flight} :
    Dozes g (s.step g io i) last' := by
  obtain ⟨hready, hport, hb⟩ := ready_of_executing hinv hs
  have hd : s.core.indebug = false := by simp [Core.indebug, hs]
  rw [Core.stateNext, hs] at hn
  simp only [Core.execNext] at hn
  split_ifs at hn with htrig htrap hwfi
  have hmem : s.core.idEx.ismem = false := by
    by_contra h
    simp [(hinv.coherent.mem (by simpa using h)).2.1] at hwfi
  have hmd : s.core.idEx.mdStart = false := by
    by_contra h
    simp [(hinv.coherent.md (by simpa using h)).1] at hwfi
  have hacc : s.core.idEx.memaccess = .nop := by
    cases hready with
    | free h => exact h.memaccess
    | mret h => exact h
    | access h => simp [h.ismem] at hmem
  refine .before ?_ (port_step hr hd (.inl hacc))
    (idle_step hr hb.toDrained (request_not_active hport hd (.inl hacc)))
  rw [step_idEx hr]
  refine Core.ready_nextIdEx (.inr ?_)
  simp [Core.leaves, Core.stall_eq, Core.stallOnTrigger_eq, hs, hmem, hmd, htrig, htrap]

/-- The core sleeps on. -/
theorem Dozes.next (hinv : BusInv g s last) (hsafe : DmChecks s i) (hr : i.core.sreset = false)
    (hs : s.core.control.state = .wfi)
    (htrap : s.core.trapRequest g.core (s.coreInput g i) = false) (h : Dozes g s last) :
    Dozes g (s.step g io i) ((Flight.current last (s.request g i)).map Flight.older) := by
  have hd : s.core.indebug = false := by simp [Core.indebug, hs]
  have hdm : i.core.dm.stb = false := dm_stb_eq_false hinv hsafe (by rw [hs]; rfl)
  have hid : (s.step g io i).core.idEx = s.core.idEx.stalled (s.core.mdReady g.core) := by
    rw [step_idEx hr, Core.nextIdEx_eq, advance_of_sleeping hs htrap]
  cases h with
  | before hready hport hb =>
    have hnone (hacc : s.core.idEx.memaccess = .nop) : PortQuiet g (s.step g io i) ∧
        (s.step g io i).bus.Idle g.bus :=
      ⟨port_step hr hd (.inl hacc),
        idle_step hr hb.toDrained (request_not_active hport hd (.inl hacc))⟩
    cases hready with
    | free hfree =>
      obtain ⟨hport', hb'⟩ := hnone hfree.memaccess
      exact .before (by rw [hid]; exact .free (hfree.stalled _)) hport' hb'
    | mret hacc hmem hop =>
      obtain ⟨hport', hb'⟩ := hnone hacc
      exact .before (by rw [hid]; exact .mret hacc rfl hop) hport' hb'
    | access haccess =>
      exact .during _ _ (dozing_of_access hr hs hinv.coherent hdm haccess hport hb htrap)
  | during q age hw => exact .during q (age + 1) (hw.next hr hs hdm htrap)

theorem dozes_step (hinv : BusInv g s last) (hsafe : DmChecks s i)
    (ih : s.core.control.state = .wfi → Dozes g s last)
    (hn : (s.step g io i).core.control.state = .wfi) :
    Dozes g (s.step g io i) ((Flight.current last (s.request g i)).map Flight.older) := by
  cases hr : i.core.sreset with
  | true =>
    have hcore : (s.step g io i).core = { Core.initial g.core with
        regs := s.core.nextRegs g.core io (s.coreInput g i) } :=
      Core.step_reset _ _ _ _ hr
    rw [hcore] at hn
    cases hn
  | false =>
    rw [step_state hr] at hn
    cases hs : s.core.control.state
    case exec => exact dozes_of_executing hinv hr hs hn
    case wfi =>
      have htrap : s.core.trapRequest g.core (s.coreInput g i) = false := by
        rw [Core.stateNext, hs] at hn
        cases ht : s.core.trapRequest g.core (s.coreInput g i) with
        | false => rfl
        | true =>
          simp only [ht, if_true] at hn
          split_ifs at hn
      exact (ih hs).next hinv hsafe hr hs htrap
    all_goals
      rw [Core.stateNext, hs] at hn
      simp only at hn
      first | cases hn | (split_ifs at hn)

theorem dozes_of_reachable {le se : Bool} {p : System nRom nBoot nRam × Option Flight}
    (h : (tracked g io nRom nBoot nRam le se).Reachable (fun p i => DmChecks p.1 i) p)
    (hs : p.1.core.control.state = .wfi) : Dozes g p.1 p.2 := by
  induction h with
  | init => cases hs
  | step i hp hsafe ih => exact dozes_step (busInv_of_reachable hp) hsafe ih hs

/-! ## Behind a trap -/

/-- What is on the bus in the clock after a trap: nothing, or an access whose instruction was
trapped before its answer. -/
inductive Fades (g : SystemGenerics) (s : System nRom nBoot nRam) (last : Option Flight) : Prop
  | quiet : s.bus.Idle g.bus → Fades g s last
  | left (q : BusRequest) (age : ℕ) : q.stb = true → q.acc ≠ .nop → s.bus.Waits g.bus q age →
    last = some ⟨q, age⟩ → q.addr = s.core.operandA + s.core.idEx.imm →
    (g.core.fastMem = false → s.core.bus.addr = q.addr ∧ s.core.bus.size = .unknown) →
    Fades g s last

/-- The operand of the address does not change when a stalled instruction is trapped. -/
theorem operandA_of_trapped (hr : i.core.sreset = false)
    (ha : s.core.advance g.core (s.coreInput g i) = .trap)
    (hstall : s.core.stall (s.coreInput g i) = true) :
    (s.step g io i).core.operandA = s.core.operandA := by
  apply operandA_of_held hr
  · simp [Core.nextExWb, hstall]
  · simp [Core.holdOperands, hstall]
  · rw [Core.nextIdEx_eq, ha]
    rfl

/-- A trap in front of the answer to the access in flight. -/
theorem fades_of_flight {q : BusRequest} {age : ℕ} (hr : i.core.sreset = false)
    (hd : s.core.indebug = false) (ha : s.core.advance g.core (s.coreInput g i) = .trap)
    (hstb : q.stb = true) (hacc : q.acc ≠ .nop)
    (haddr : q.addr = s.core.operandA + s.core.idEx.imm)
    (hcur : Flight.current last (s.request g i) = some ⟨q, age⟩)
    (hwaits : (s.step g io i).bus.Waits g.bus q (age + 1))
    (hstall : age < g.bus.latency q → s.core.stall (s.coreInput g i) = true) :
    Fades g (s.step g io i) ((Flight.current last (s.request g i)).map Flight.older) := by
  rcases Nat.lt_or_ge age (g.bus.latency q) with hage | hage
  · have hid : (s.step g io i).core.idEx = s.core.idEx.trapped := by
      rw [step_idEx hr, Core.nextIdEx_eq, ha]
    refine .left q (age + 1) hstb hacc hwaits (by rw [hcur]; rfl) ?_ fun hf => ?_
    · rw [operandA_of_trapped hr ha (hstall hage), hid]
      exact haddr
    · rw [step_core hr, Core.clock_bus, Core.nextBus, if_neg (by simp [hf]),
        slowDisable_of_trapRequest (Core.advance_eq_trap_iff.mp ha).2]
      simp [Core.busAccess, Core.addressV, hd, haddr]
  · exact .quiet (DataBus.idle_of_waits hwaits (by omega))

/-- A trap in the clock in which the execute stage may strobe its access. -/
theorem fades_of_strobe (hr : i.core.sreset = false) (hd : s.core.indebug = false)
    (ha : s.core.advance g.core (s.coreInput g i) = .trap) (hready : s.core.idEx.Ready)
    (hport : PortQuiet g s) (hb : s.bus.Idle g.bus)
    (hstall : s.core.idEx.ismem = true → (s.response g i).ready = false →
      s.core.stall (s.coreInput g i) = true) :
    Fades g (s.step g io i) ((Flight.current last (s.request g i)).map Flight.older) := by
  by_cases hact : g.bus.Active (s.request g i)
  · obtain ⟨hstb, hx⟩ := isExecuted_of_active hd hready hport hact
    have hmem : s.core.idEx.ismem = true := by
      cases hready with
      | free h => exact absurd (hx.acc.trans h.memaccess) hx.access.1
      | mret h => exact absurd (hx.acc.trans h) hx.access.1
      | access h => exact h.ismem
    have hans := DataBus.answers_strobe (x := i.bus) hb hstb hx.access.1 hx.access.2
    obtain ⟨f, hbus⟩ : ∃ f, (s.step g io i).bus =
      s.bus.clock g.bus (s.request g i) i.bus f false := step_bus hr
    have hcur : Flight.current last (s.request g i) = some ⟨s.request g i, 0⟩ := by
      simp [Flight.current, BusRequest.strobes, hstb, hx.access.1]
    refine fades_of_flight hr hd ha hstb hx.access.1 hx.addr hcur
      (by rw [hbus]; exact DataBus.waits_one hb.io) fun hage => hstall hmem ?_
    rw [BusGenerics.Answers, if_neg (Nat.ne_of_lt hage)] at hans
    exact congrArg Lines.ready hans
  · exact .quiet (idle_step hr hb.toDrained hact)

theorem advance_of_trap (hn : s.core.stateNext g.core (s.coreInput g i) = .trap) :
    s.core.advance g.core (s.coreInput g i) = .trap ∧
      Core.acceptsTrap s.core.control.state = true := by
  rw [Core.advance_eq_trap_iff, Core.stallOnTrigger_eq]
  rw [Core.stateNext] at hn
  cases hs : s.core.control.state <;> rw [hs] at hn <;> simp only [Core.execNext] at hn
  case exec =>
    split_ifs at hn with htrig htrap
    exact ⟨⟨by simpa using htrig, htrap⟩, rfl⟩
  case mem | wfi =>
    split_ifs at hn with htrap
    all_goals exact ⟨⟨rfl, by assumption⟩, rfl⟩
  all_goals
    first | cases hn | (split_ifs at hn)

theorem fades_step (hinv : BusInv g s last) (hsafe : DmChecks s i)
    (hdoze : s.core.control.state = .wfi → Dozes g s last)
    (hn : (s.step g io i).core.control.state = .trap) :
    Fades g (s.step g io i) ((Flight.current last (s.request g i)).map Flight.older) := by
  cases hr : i.core.sreset with
  | true =>
    have hcore : (s.step g io i).core = { Core.initial g.core with
        regs := s.core.nextRegs g.core io (s.coreInput g i) } :=
      Core.step_reset _ _ _ _ hr
    rw [hcore] at hn
    cases hn
  | false =>
    rw [step_state hr] at hn
    obtain ⟨ha, hacc⟩ := advance_of_trap hn
    have hne := state_ne_debug_of_trap hinv ha
    have hd : s.core.indebug = false := by simpa [Core.indebug] using hne
    cases hs : s.core.control.state <;>
      simp only [hs, Core.acceptsTrap, Bool.false_eq_true] at hacc
    case exec =>
      obtain ⟨hready, hport, hb⟩ := ready_of_executing hinv hs
      refine fades_of_strobe hr hd ha hready hport hb fun hmem hno => ?_
      rw [Core.stall_eq, hs, hmem, show (s.coreInput g i).bus.ready = false from hno]
      rfl
    case mem =>
      have hdm : i.core.dm.stb = false := dm_quiet hinv hsafe hs
      cases hinv.stage with
      | waiting q age _ hw =>
        refine fades_of_flight hr hd ha hw.stb hw.access.1 hw.addr
          (current_of_waiting hs hdm hw) (waits_step hr hs hdm hw) fun hage => ?_
        have hans := answers_waiting hs hdm hw
        rw [BusGenerics.Answers, if_neg (Nat.ne_of_lt hage)] at hans
        rw [Core.stall_eq, hs, show (s.coreInput g i).bus.ready = false from
          congrArg Lines.ready hans]
        rfl
      | resting h => simp [hs, atRest] at h
      | booting h | executing h | sleeping h | trapping h | trapped h | halted h | resuming h
      | resuming2 h | resuming3 h => rw [hs] at h; cases h
    case wfi =>
      have hdm : i.core.dm.stb = false := dm_stb_eq_false hinv hsafe (by rw [hs]; rfl)
      have hstall : s.core.stall (s.coreInput g i) = true := by rw [Core.stall_eq, hs]
      cases hdoze hs with
      | before hready hport hb =>
        exact fades_of_strobe hr hd ha hready hport hb fun _ _ => hstall
      | during q age hw =>
        exact fades_of_flight hr hd ha hw.stb hw.access.1 hw.addr (current_of_dozing hdm hw)
          (waits_of_dozing hr hdm hw) fun _ => hstall
    case debug => exact absurd hs hne

theorem fades_of_reachable {le se : Bool} {p : System nRom nBoot nRam × Option Flight}
    (h : (tracked g io nRom nBoot nRam le se).Reachable (fun p i => DmChecks p.1 i) p)
    (hs : p.1.core.control.state = .trap) : Fades g p.1 p.2 := by
  induction h with
  | init => cases hs
  | step i hp hsafe _ =>
    exact fades_step (busInv_of_reachable hp) hsafe (dozes_of_reachable hp) hs

/-! ## The access that fails -/

/-- An error in the clock in which the execute stage strobes its access. -/
theorem faultsAt_of_strobe (hd : s.core.indebug = false) (hready : s.core.idEx.Ready)
    (hport : PortQuiet g s) (hb : s.bus.Idle g.bus) (he : (s.response g i).error = true) :
    FaultsAt g s i last (s.core.addressToMtval g.core (s.coreInput g i)) := by
  have hact : g.bus.Active (s.request g i) := by
    by_contra h
    exact lines_ne_silent he (DataBus.lines_idle hb h)
  obtain ⟨hstb, hx⟩ := isExecuted_of_active hd hready hport hact
  refine ⟨⟨s.request g i, 0⟩, ?_, DataBus.answers_strobe hb hstb hx.access.1 hx.access.2, ?_⟩
  · simp [Flight.current, BusRequest.strobes, hstb, hx.access.1]
  · have hf : g.core.fastMem = true := by
      by_contra hf
      rw [request, Core.busRequest, if_neg hf] at hact
      exact hport (by simpa using hf) hact
    rw [Core.addressToMtval, if_pos hf, Core.addressV, if_neg (by simp [hd])]
    exact hx.addr

/-- An error while the core waits for its access or sleeps on it. -/
theorem faultsAt_of_flight {q : BusRequest} {age : ℕ} (hd : s.core.indebug = false)
    (hcur : Flight.current last (s.request g i) = some ⟨q, age⟩)
    (hans : g.bus.Answers q age (s.response g i).lines)
    (haddr : q.addr = s.core.operandA + s.core.idEx.imm) (hreq : (s.request g i).addr = q.addr) :
    FaultsAt g s i last (s.core.addressToMtval g.core (s.coreInput g i)) := by
  refine ⟨⟨q, age⟩, hcur, hans, ?_⟩
  rw [Core.addressToMtval]
  split_ifs with hf
  · rw [Core.addressV, if_neg (by simp [hd])]
    exact haddr
  · rw [request, Core.busRequest, if_neg hf] at hreq
    exact hreq.symm

/-- An error in the clock after a trap. -/
theorem faultsAt_of_trapping (hs : s.core.control.state = .trap) (hport : PortQuiet g s)
    (hfade : Fades g s last) (he : (s.response g i).error = true) :
    FaultsAt g s i last (s.core.addressToMtval g.core (s.coreInput g i)) := by
  have hd : s.core.indebug = false := by simp [Core.indebug, hs]
  have hflush : s.core.flush = true := by simp [Core.flush, hs]
  have hq : ¬ g.bus.Active (s.request g i) := request_not_active hport hd (.inr hflush)
  cases hfade with
  | quiet hb => exact absurd (DataBus.lines_idle hb hq) (lines_ne_silent he)
  | left q age hstb hacc hwaits hlast haddr hslow =>
    have hreq : (s.request g i).addr = q.addr ∧ (s.request g i).size = .unknown := by
      rw [request, Core.busRequest]
      split_ifs with hf
      · simp [Core.busAccess, Core.addressV, hd, haddr, Core.fastDisable, hflush]
      · exact hslow (by simpa using hf)
    have hno : (s.request g i).strobes = false := by
      by_contra h
      simp only [BusRequest.strobes, Bool.not_eq_false, Bool.and_eq_true, decide_eq_true_eq] at h
      exact hq ⟨h.2, .inl h.1⟩
    refine faultsAt_of_flight hd ?_ (DataBus.answers_of_error hwaits hstb hacc hq hreq.1 hreq.2 he)
      haddr hreq.1
    rw [Flight.current, hno, if_neg Bool.false_ne_true, hlast]

/-- Wherever an error on the bus is taken as an exception, the interface holds the address of the
access that fails. -/
theorem faultsAt_of_takes (hinv : BusInv g s last) (hsafe : DmChecks s i)
    (hdoze : s.core.control.state = .wfi → Dozes g s last)
    (hfade : s.core.control.state = .trap → Fades g s last)
    (hacc : takesTrap s.core.control.state = true) (ht : s.takesException g i = true)
    (he : (s.response g i).error = true) :
    FaultsAt g s i last (s.core.addressToMtval g.core (s.coreInput g i)) := by
  obtain ⟨-, hint, -⟩ := exception_of_takes ht
  have hne : s.core.control.state ≠ .debug := by
    rw [takesException, Bool.and_eq_true, decide_eq_true_eq] at ht
    exact state_ne_debug_of_trap hinv ht.1
  have hd : s.core.indebug = false := by simpa [Core.indebug] using hne
  cases hs : s.core.control.state <;> simp [hs, takesTrap, Core.acceptsTrap] at hacc
  case exec =>
    obtain ⟨hready, hport, hb⟩ := ready_of_executing hinv hs
    exact faultsAt_of_strobe hd hready hport hb he
  case mem =>
    have hdm : i.core.dm.stb = false := dm_quiet hinv hsafe hs
    cases hinv.stage with
    | waiting q age _ hw =>
      exact faultsAt_of_flight hd (current_of_waiting hs hdm hw) (answers_waiting hs hdm hw)
        hw.addr (request_of_waiting hs hdm hw).1
    | resting h => simp [hs, atRest] at h
    | booting h | executing h | sleeping h | trapping h | trapped h | halted h | resuming h
    | resuming2 h | resuming3 h => rw [hs] at h; cases h
  case wfi =>
    have hdm : i.core.dm.stb = false := dm_stb_eq_false hinv hsafe (by rw [hs]; rfl)
    cases hdoze hs with
    | before hready hport hb => exact faultsAt_of_strobe hd hready hport hb he
    | during q age hw =>
      have hage : age ≤ g.bus.latency q := by
        by_contra h
        exact lines_ne_silent he (lines_of_dozing hs hdm hint hw (not_le.mp h))
      exact faultsAt_of_flight hd (current_of_dozing hdm hw)
        (answers_of_dozing hs hdm hint hw hage) hw.addr (request_of_dozing hs hdm hint hw).1
  case trap =>
    cases hinv.stage with
    | trapping _ hport => exact faultsAt_of_trapping hs hport (hfade hs) he
    | resting h => simp [hs, atRest] at h
    | booting h | executing h | waiting _ _ h | sleeping h | trapped h | halted h | resuming h
    | resuming2 h | resuming3 h => rw [hs] at h; cases h
  case debug => exact absurd hs hne

/-! ## What is saved -/

/-- What a synchronous exception saves in `mtval`. -/
theorem mtval_of_takes {cause : ℕ} (hr : i.core.sreset = false) (ht : s.takesException g i = true)
    (hx : s.core.exception g.core (s.coreInput g i) = some cause) :
    (s.step g io i).core.csr.mtval = if BitVec.ofNat 32 cause < 4 then 0
      else s.core.addressToMtval g.core (s.coreInput g i) := by
  obtain ⟨htrig, hint, -⟩ := exception_of_takes ht
  have htrap : s.core.trapRequest g.core (s.coreInput g i) = true := by
    simp [Core.trapRequest, hx]
  have hentry : (s.core.csrSignals g.core (s.coreInput g i)).entersTrap = true := by
    simp [CsrSignals.entersTrap, Core.csrSignals, htrig, htrap]
  have hcause : s.core.trapMcause g.core (s.coreInput g i) = BitVec.ofNat 32 cause := by
    rw [Core.trapMcause, hint, hx]
  rw [step_core hr]
  change (s.core.csr.next g.core _).mtval = _
  rw [(s.core.csr.next_holdsTrap g.core hentry).mtval, mtvalOf]
  simp only [Core.csrSignals, hcause]
  congr 1
  rw [eq_iff_iff]
  constructor
  · rintro (h | h | h | h) <;> rw [h] <;> decide
  · intro h
    have hlt : (BitVec.ofNat 32 cause).toNat < 4 := h
    have hcases : (BitVec.ofNat 32 cause).toNat = 0 ∨ (BitVec.ofNat 32 cause).toNat = 1 ∨
      (BitVec.ofNat 32 cause).toNat = 2 ∨ (BitVec.ofNat 32 cause).toNat = 3 := by omega
    rcases hcases with h | h | h | h
    · exact .inl (BitVec.eq_of_toNat_eq h)
    · exact .inr (.inl (BitVec.eq_of_toNat_eq h))
    · exact .inr (.inr (.inl (BitVec.eq_of_toNat_eq h)))
    · exact .inr (.inr (.inr (BitVec.eq_of_toNat_eq h)))

/-- The causes: a fault on the data bus comes with an error of the bus. -/
theorem exception_cases {cause : ℕ}
    (hx : s.core.exception g.core (s.coreInput g i) = some cause) :
    cause ∈ [0, 1, 2, 3] ∨ cause = 11 ∨
      isDataFault cause = true ∧ (s.response g i).error = true := by
  rcases Core.cause_of_exception hx with hsmall | ⟨hfault, herror⟩
  · simp only [List.mem_cons, List.not_mem_nil, or_false] at hsmall ⊢
    omega
  · refine .inr (.inr ⟨?_, herror⟩)
    simp only [List.mem_cons, List.not_mem_nil, or_false] at hfault
    rcases hfault with rfl | rfl | rfl | rfl <;> rfl

theorem mtvalLaw_iff (hinv : BusInv g s last) (hsafe : DmChecks s i) (hr : i.core.sreset = false)
    (hdoze : s.core.control.state = .wfi → Dozes g s last)
    (hfade : s.core.control.state = .trap → Fades g s last)
    (hacc : takesTrap s.core.control.state = true) (ht : s.takesException g i = true) :
    MtvalLaw g io s i last ↔ NoEcallAddress g s i := by
  constructor
  · intro hlaw hx
    have hzero := hlaw 11 hx
    rw [mtval_of_takes hr ht hx] at hzero
    exact hzero
  · intro hecall cause hx
    rw [mtval_of_takes hr ht hx]
    rcases exception_cases hx with hsmall | rfl | ⟨hfault, he⟩
    · have hlt : BitVec.ofNat 32 cause < 4 ∧ isDataFault cause = false := by
        revert hsmall
        simp only [List.mem_cons, List.not_mem_nil, or_false]
        rintro (rfl | rfl | rfl | rfl) <;> decide
      rw [hlt.2, if_pos hlt.1]
      rfl
    · exact hecall hx
    · have hlt : ¬ BitVec.ofNat 32 cause < 4 := by
        simp only [isDataFault, Bool.or_eq_true, decide_eq_true_eq] at hfault
        rcases hfault with ((rfl | rfl) | rfl) | rfl <;> decide
      rw [if_pos hfault, if_neg hlt]
      exact faultsAt_of_takes hinv hsafe hdoze hfade hacc ht he

/-- In every run in which the Debug Module accesses a halted core only, a synchronous exception
leaves in `mtval` the address of the access that fails, or zero if it is no fault on the data bus,
if and only if it is no ECALL with an address on the interface. -/
theorem mtval_law_iff (g : SystemGenerics) (io : Peripherals) {nRom nBoot nRam : ℕ} {le se : Bool}
    {s : System nRom nBoot nRam} {last : Option Flight}
    (h : (tracked g io nRom nBoot nRam le se).Reachable (fun p i => DmChecks p.1 i) (s, last))
    {i : SystemInput} (hsafe : DmChecks s i) (hr : i.core.sreset = false)
    (hacc : takesTrap s.core.control.state = true) (ht : s.takesException g i = true) :
    MtvalLaw g io s i last ↔ NoEcallAddress g s i :=
  mtvalLaw_iff (busInv_of_reachable h) hsafe hr (dozes_of_reachable h) (fades_of_reachable h) hacc
    ht

/-- `lui x9, 0x20000; lw x1, 2(x9)`, in the clock in which the RAM answers. -/
def loadingMisaligned : System 2 2 2 × Option Flight :=
  (tracked bufferedIo .none 2 2 2 false false).run
    ([0, 0x200004b7, 0x0024a083, 0x00000013, 0x00000013].map fetched)

theorem loadingMisaligned_reachable : (tracked bufferedIo .none 2 2 2 false false).Reachable
    (fun p i => DmChecks p.1 i) loadingMisaligned :=
  Machine.Reachable.init.runFrom_of_meets (by decide +kernel)

theorem misaligned_load_saves_its_address :
    loadingMisaligned.1.takesException bufferedIo (fetched 0x00000013) = true ∧
      loadingMisaligned.1.core.exception bufferedIo.core
        (loadingMisaligned.1.coreInput bufferedIo (fetched 0x00000013)) = some 4 ∧
      MtvalLaw bufferedIo .none loadingMisaligned.1 (fetched 0x00000013) loadingMisaligned.2 :=
  ⟨by decide +kernel, by decide +kernel,
    (mtval_law_iff bufferedIo .none (s := loadingMisaligned.1) loadingMisaligned_reachable
      (by decide +kernel) rfl (by decide +kernel) (by decide +kernel)).mpr (by decide +kernel)⟩

/-- `addi x1, x0, 4; ecall`, in the clock in which the ECALL is executed. -/
def calling : System 2 2 2 × Option Flight :=
  (tracked bufferedIo .none 2 2 2 false false).run ([0, 0x00400093, 0x00000073].map fetched)

theorem calling_reachable : (tracked bufferedIo .none 2 2 2 false false).Reachable
    (fun p i => DmChecks p.1 i) calling :=
  Machine.Reachable.init.runFrom_of_meets (by decide +kernel)

/-- The ECALL saves the sum that the ADDI left in the interface. -/
theorem ecall_saves_an_address : ¬ ∀ p, (tracked bufferedIo .none 2 2 2 false false).Reachable
    (fun p i => DmChecks p.1 i) p → ∀ i, DmChecks p.1 i → i.core.sreset = false →
      takesTrap p.1.core.control.state = true → p.1.takesException bufferedIo i = true →
        MtvalLaw bufferedIo .none p.1 i p.2 := by
  intro h
  have hlaw := h calling calling_reachable (fetched 0x00000013) (by decide +kernel) rfl
    (by decide +kernel) (by decide +kernel)
  have hx : calling.1.core.exception bufferedIo.core
    (calling.1.coreInput bufferedIo (fetched 0x00000013)) = some 11 := by decide +kernel
  have hzero : (calling.1.step bufferedIo .none (fetched 0x00000013)).core.csr.mtval = 0 :=
    hlaw 11 hx
  revert hzero
  decide +kernel

end System

end ThuasRiscv
