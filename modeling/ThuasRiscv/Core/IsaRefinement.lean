import ThuasRiscv.Core.CsrInstructions
import ThuasRiscv.Core.Retirement

/-!
# The pipeline executes the instruction set

Simulation of a hart that executes one instruction at a time. Every clock of the
core is a list of events of the hart: the access of a load or a store, the
completion of an instruction, a trap, the end of debug mode or a write of the
Debug Module.
-/

namespace ThuasRiscv

open Transition
open Isa (Mnemonic Hart)

/-! ## The events of a clock -/

/-- The access of a request on the data bus. -/
def BusRequest.access (q : BusRequest) : Isa.Access :=
  if q.acc = .write then .store q.size.bytes q.addr q.data else .load q.size.bytes q.addr

/-- The events of a hart from its start. -/
structure IsaTrace where
  start : Hart
  events : List Isa.Event

namespace Core

variable (cfg : Generics) (io : Peripherals) (s : Core) (i : CoreInput) (o : Observer)

/-- The access that the execute stage makes in this clock. -/
def accessEvents : List Isa.Event :=
  if s.accessesBus cfg i then
    [.access (s.busAccess cfg i
      (if cfg.fastMem then s.fastDisable cfg i else s.slowDisable cfg i)).access]
  else []

/-- Where the hart goes on, and what is written to its registers. -/
def mainEvents : List Isa.Event :=
  if s.stateNext cfg i = .trap then [.trap ((s.nextCsr cfg i).mtvecToPc cfg)]
  else if s.control.loadPc then [.resume s.csr.dpc]
  else if (o.commits cfg s i).isSome then [.instr i.bus.data (s.csrData cfg io i) s.csr.mepc]
  else if s.indebug && i.dm.writegpr then [.write (i.dm.address.extractLsb' 0 5) i.dm.data]
  else []

/-- The trace after a clock; a reset starts a new one with the registers in the register file. -/
def nextTrace (t : IsaTrace) : IsaTrace :=
  if i.sreset then ⟨.start cfg.resetPc ((s.nextRegs cfg io i).port1 cfg), []⟩
  else { t with events := t.events ++ (s.accessEvents cfg i ++ s.mainEvents cfg io i o) }

/-- The core with its observer and the trace of its events. -/
def traced : Machine ((Core × Observer) × IsaTrace) CoreInput :=
  (observed cfg io).observe ⟨.start cfg.resetPc fun _ => 0, []⟩
    fun p i t => p.1.nextTrace cfg io i p.2 t

instance (w : DataType) : Decidable (OrcbNeedsZbb cfg w) := inferInstanceAs (Decidable (_ → _))

instance (w : DataType) : Decidable (PrivilegedFieldsFixed w) :=
  inferInstanceAs (Decidable (_ ∧ _ ∧ _ → _))

variable {cfg io s i o}

/-- The step is safe, the word that is decoded is the one of the program at its address and means
the same to the decoder and to the instruction set, and a division that completes is exact. -/
structure IsaSafe (cfg : Generics) (prog : DataType → DataType) (p : Core × Observer)
    (i : CoreInput) : Prop where
  stage : StageSafe cfg p i
  fetch : i.sreset = false → p.1.advance cfg i = .decode → i.instr.instr = prog p.1.ifIdPc
  word : i.sreset = false → p.1.advance cfg i = .decode →
    OrcbNeedsZbb cfg i.instr.instr ∧ PrivilegedFieldsFixed i.instr.instr
  division : i.sreset = false → p.1.control.state = .md2 → p.1.idEx.mdOp.getLsbD 2 = true →
    ExactDivision cfg p.1

instance {prog : DataType → DataType} {p : Core × Observer} : Decidable (IsaSafe cfg prog p i) :=
  decidable_of_iff (StageSafe cfg p i ∧
      (i.sreset = false → p.1.advance cfg i = .decode → i.instr.instr = prog p.1.ifIdPc) ∧
      (i.sreset = false → p.1.advance cfg i = .decode →
        OrcbNeedsZbb cfg i.instr.instr ∧ PrivilegedFieldsFixed i.instr.instr) ∧
      (i.sreset = false → p.1.control.state = .md2 → p.1.idEx.mdOp.getLsbD 2 = true →
        ExactDivision cfg p.1))
    ⟨fun h => ⟨h.1, h.2.1, h.2.2.1, h.2.2.2⟩, fun h => ⟨h.stage, h.fetch, h.word, h.division⟩⟩

/-! ## The instruction in the execute stage -/

/-- Every instruction in the execute stage is a word of the program. -/
def FromProgram (cfg : Generics) (prog : DataType → DataType) (o : Observer) : Prop :=
  ∀ x, o.slot = some x → ∃ ebreakm isstepping,
    x.decoded = decode cfg ebreakm isstepping x.decoded.pc (prog x.decoded.pc) ∧
      OrcbNeedsZbb cfg (prog x.decoded.pc) ∧ PrivilegedFieldsFixed (prog x.decoded.pc)

section Program
variable {prog : DataType → DataType}

theorem fromProgram_clock (hinv : FromProgram cfg prog o) (hr : i.sreset = false)
    (hsafe : IsaSafe cfg prog (s, o) i) : FromProgram cfg prog (o.clock cfg io s i) := by
  intro x hx
  rcases nextSlot_eq_some hx with ⟨-, hslot, -⟩ | ⟨ha, -, hdec⟩
  · exact hinv x hslot
  · have hpc : x.decoded.pc = s.ifIdPc := by
      rw [hdec, nextIdEx_eq, ha]
      exact (decode_shape ..).pc_eq
    have hword := hsafe.word hr ha
    rw [hsafe.fetch hr ha] at hword
    refine ⟨s.ebreakm, s.isstepping, ?_, ?_⟩
    · rw [hpc, hdec, nextIdEx_eq, ha, hsafe.fetch hr ha]
    · rw [hpc]
      exact hword

theorem fromProgram_step (hinv : FromProgram cfg prog o) (hsafe : IsaSafe cfg prog (s, o) i) :
    FromProgram cfg prog (o.next cfg io s i) := by
  cases hr : i.sreset with
  | true =>
    intro x hx
    rw [Observer.next, if_pos hr] at hx
    cases hx
  | false =>
    rw [Observer.next, if_neg (by simp [hr])]
    exact fromProgram_clock hinv hr hsafe

end Program

/-! ## The simulation -/

/-- The states in which the instruction at the PC can have made its access. -/
def mayHaveAccessed : StateType → Bool
  | .mem | .wfi | .debug | .debugflush => true
  | _ => false

/-- The access of the instruction at the PC. -/
def nextAccess (cfg : Generics) (prog : DataType → DataType) (h : Hart) : Option Isa.Access :=
  (Isa.instruction cfg.extensions (prog h.pc)).bind (h.accessOf · (prog h.pc))

/-- The hart is where the pipeline is. -/
structure Follows (cfg : Generics) (prog : DataType → DataType) (s : Core) (o : Observer)
    (h : Hart) : Prop where
  pc : h.pc = o.npc
  regs : ∀ r, r ≠ 0 → h.regs r = o.regs r
  idle : mayHaveAccessed s.control.state = false → h.pending = none
  mem : s.control.state = .mem → h.pending = nextAccess cfg prog h
  wfi : s.control.state = .wfi → s.idEx.ismem = true → h.pending = none

section Simulation
variable {prog : DataType → DataType} {h : Hart}

/-- A slot that is not illegal holds the instruction of the program at the PC. -/
theorem instruction_of_slot (hf : FromProgram cfg prog o) {x : Instr} (hx : o.slot = some x)
    (hpc : x.decoded.pc = o.npc) (hlegal : x.decoded.illegalInstructionDecode = false) :
    ∃ m, Isa.instruction cfg.extensions (prog o.npc) = some m ∧
      SlotOf m (prog o.npc) o.npc x.decoded ∧ IdEx.Shape cfg o.npc (prog o.npc) x.decoded := by
  obtain ⟨e, t, hdec, horcb, hpriv⟩ := hf x hx
  rw [hpc] at hdec horcb hpriv
  rw [hdec] at hlegal
  obtain ⟨m, hm, hslot⟩ := slotOf_of_accepted horcb hpriv hlegal
  rw [hdec]
  exact ⟨m, hm, hslot, decode_shape ..⟩

/-- The operands of the instruction in the execute stage are registers of the hart. -/
theorem operands_eq (hinv : StageInv cfg s o) (hh : Follows cfg prog s o h) {x : Instr}
    (hx : o.slot = some x) {w pc : DataType} (hshape : IdEx.Shape cfg pc w x.decoded) :
    h.regs (Isa.rs1 w) = s.operandA ∧ h.regs (Isa.rs2 w) = s.operandB := by
  have hsome : o.slot.isSome = true := by rw [hx]; rfl
  have hreads := hinv.forward.reads hsome
  have hzero := hinv.zero.usesZero hsome
  obtain ⟨h1, h2⟩ := hinv.waiting.sources x hx
  rw [hshape.rs1_eq.1] at h1
  rw [hshape.rs1_eq.2] at h2
  constructor
  · by_cases h0 : Isa.rs1 w = 0
    · rw [h0, h.zero, hzero.rs1 (h1.trans h0)]
    · rw [hh.regs _ h0, hreads.rs1 (by rw [h1]; exact h0), h1]
      rfl
  · by_cases h0 : Isa.rs2 w = 0
    · rw [h0, h.zero, hzero.rs2 (h2.trans h0)]
    · rw [hh.regs _ h0, hreads.rs2 (by rw [h2]; exact h0), h2]
      rfl

/-! ## The access of a clock -/

theorem legal_of_ismem {pc w : DataType} {d : IdEx} (hd : IdEx.Shape cfg pc w d)
    (hm : d.ismem = true) : d.illegalInstructionDecode = false := by
  cases hd <;> first | rfl | cases hm

theorem legal_of_mdStart {pc w : DataType} {d : IdEx} (hd : IdEx.Shape cfg pc w d)
    (hm : d.mdStart = true) : d.illegalInstructionDecode = false := by
  cases hd <;> first | rfl | cases hm

theorem memaccess_of_ismem {pc w : DataType} {d : IdEx} (hd : IdEx.Shape cfg pc w d)
    (hm : d.ismem = true) : d.memaccess ≠ .nop := by
  cases hd with
  | store | load => simp
  | _ => cases hm

/-- A slot of the program has a shape. -/
theorem FromProgram.shape (hf : FromProgram cfg prog o) {x : Instr} (hx : o.slot = some x) :
    IdEx.Shape cfg x.decoded.pc (prog x.decoded.pc) x.decoded := by
  obtain ⟨e, t, hdec, -⟩ := hf x hx
  have hshape := decode_shape cfg e t x.decoded.pc (prog x.decoded.pc)
  rwa [← hdec] at hshape

/-- An instruction that leaves the execute stage is the one of the program at the PC. -/
theorem instruction_of_commits (hinv : StageInv cfg s o) (hf : FromProgram cfg prog o) {x : Instr}
    (hx : o.commits cfg s i = some x) :
    ∃ m, Isa.instruction cfg.extensions (prog o.npc) = some m ∧
      SlotOf m (prog o.npc) o.npc x.decoded ∧ IdEx.Shape cfg o.npc (prog o.npc) x.decoded := by
  obtain ⟨hleave, hslot⟩ := commits_eq_some_iff.mp hx
  have hc := completes_of_leaves hinv.pipeline.trap.debug hleave
  have hndebug : s.control.state ≠ .debug := of_decide_eq_false hc.running
  have hshape := hf.shape hslot
  apply instruction_of_slot hf hslot (hinv.pipeline.filled hndebug hslot).decoded
  rcases state_of_commits hinv.pipeline hx with hs | hs | hs
  · rw [← hinv.pipeline.decoded hs hslot]
    exact (noException_of_trapRequest hc.not_trapped).illegal
  · exact legal_of_ismem hshape (hinv.waiting.mem hs x hslot).1
  · exact legal_of_mdStart hshape (hinv.waiting.md2 hs x hslot).1

/-- What the execute stage puts on the bus for the slot of a load or a store. -/
theorem access_busAccess {m : Mnemonic} {w pc : DataType} (hd : SlotOf m w pc s.idEx)
    (hmem : s.idEx.ismem = true) (hrun : s.indebug = false) :
    some (s.busAccess cfg i false).access = m.access w s.operandA s.operandB := by
  rw [ismem_eq hd] at hmem
  rcases Bool.or_eq_true _ _ ▸ hmem with hm | hm
  · obtain ⟨op, size, hdec, hbytes, -⟩ := hd.load hm
    rw [Mnemonic.access, if_pos hm, BusRequest.access, busAccess, addressV, hrun, hdec, ← hbytes]
    rfl
  · obtain ⟨op, size, hdec, hbytes, -⟩ := hd.store hm
    have hload : m.isLoad = false := by cases m <;> first | rfl | cases hm
    rw [Mnemonic.access, hload, if_neg Bool.false_ne_true, if_pos hm, BusRequest.access, busAccess,
      addressV, hrun, hdec, ← hbytes]
    rfl

/-- Only the instruction at the PC makes an access, and only once. -/
theorem access_of_accessesBus (hinv : StageInv cfg s o) (hf : FromProgram cfg prog o)
    (hh : Follows cfg prog s o h) (ha : s.accessesBus cfg i = true) :
    h.pending = none ∧ nextAccess cfg prog h = some (s.busAccess cfg i
      (if cfg.fastMem then s.fastDisable cfg i else s.slowDisable cfg i)).access := by
  simp only [accessesBus, Bool.and_eq_true, Bool.not_eq_true'] at ha
  obtain ⟨⟨hmem, -⟩, hon⟩ := ha
  have hslot : ∃ x, o.slot = some x := by
    cases hx : o.slot with
    | none =>
      rw [hinv.waiting.empty hx] at hmem
      cases hmem
    | some x => exact ⟨x, rfl⟩
  obtain ⟨x, hx⟩ := hslot
  have hid := hinv.waiting.strobe hmem x hx
  have hndebug : s.control.state ≠ .debug := by
    intro hs
    have htrig : s.stallOnTrigger cfg i = true := by
      rw [stallOnTrigger_eq, hs]
      exact hinv.pipeline.trap.debug hs
    rw [slowDisable, fastDisable, htrig, Bool.or_true, Bool.or_true, ite_self] at hon
    cases hon
  have hrun : s.indebug = false := decide_eq_false hndebug
  have hpc := (hinv.pipeline.filled hndebug hx).decoded
  have hshape := hf.shape hx
  obtain ⟨m, hm, hd, hshape⟩ := instruction_of_slot hf hx hpc
    (legal_of_ismem hshape (by rw [← hid]; exact hmem))
  obtain ⟨hA, hB⟩ := operands_eq hinv hh hx hshape
  constructor
  · cases hs : s.control.state with
    | mem =>
      rw [(hinv.waiting.mem hs x hx).2] at hmem
      cases hmem
    | wfi => exact hh.wfi hs hmem
    | debug => exact absurd hs hndebug
    | debugflush =>
      have hnone : o.slot = none := by
        cases hinv.pipeline.stage with
        | resuming _ hnone => exact hnone
        | target h | fetched h => rw [hs] at h; cases h
        | executing _ _ h | loading _ h | computing _ h | computed _ h | sleeping _ h | trapping h
        | halted h => rw [hs] at h; cases h
      rw [hnone] at hx
      cases hx
    | _ => exact hh.idle (by rw [hs]; rfl)
  · rw [nextAccess, hh.pc, hm, hon, Option.bind_some, Hart.accessOf, hA, hB]
    rw [← hid] at hd
    exact (access_busAccess hd hmem hrun).symm

/-- An instruction that goes on in the executing state has made its access. -/
theorem accessesBus_of_exec (hs : s.control.state = .exec) (hmem : s.idEx.ismem = true)
    (hacc : s.idEx.memaccess ≠ .nop) (hplain : s.idEx.aluOp.plain = true)
    (htrig : s.stallOnTrigger cfg i = false) (htrap : s.trapRequest cfg i = false) :
    s.accessesBus cfg i = true := by
  have hflush : s.flush = false := by
    rw [flush_eq, hs]
    exact penalty_plain hplain
  have hint : (s.interrupt i).isSome = false := by
    rw [trapRequest, Bool.or_eq_false_iff] at htrap
    exact htrap.1
  rw [accessesBus, hmem, slowDisable, fastDisable, hflush, htrig, htrap, hint, decide_eq_true hacc]
  cases cfg.fastMem <;> rfl

/-- The hart after the access of a clock. -/
theorem run_accessEvents (hinv : StageInv cfg s o) (hf : FromProgram cfg prog o)
    (hh : Follows cfg prog s o h) :
    ∃ h', Hart.run (Isa.instruction cfg.extensions) prog h (s.accessEvents cfg i) = some h' ∧
      h'.pc = h.pc ∧ h'.regs = h.regs ∧
      h'.pending = if s.accessesBus cfg i then nextAccess cfg prog h else h.pending := by
  rw [accessEvents]
  cases ha : s.accessesBus cfg i with
  | false => exact ⟨h, rfl, rfl, rfl, rfl⟩
  | true =>
    obtain ⟨hnone, hnext⟩ := access_of_accessesBus hinv hf hh ha
    refine ⟨{ h with pending := nextAccess cfg prog h }, ?_, rfl, rfl, rfl⟩
    rw [if_pos rfl, Hart.run_cons, Hart.next, if_pos ⟨hnone, hnext⟩, hnext]
    rfl

theorem nextAccess_congr {h' : Hart} (hpc : h'.pc = h.pc) (hregs : h'.regs = h.regs) :
    nextAccess cfg prog h' = nextAccess cfg prog h := by
  simp only [nextAccess, Hart.accessOf, hpc, hregs]

/-- An instruction that leaves the execute stage has made its access, if it has one. -/
theorem pending_of_commits (hinv : StageInv cfg s o) (hh : Follows cfg prog s o h) {x : Instr}
    (hx : o.commits cfg s i = some x) {m : Mnemonic}
    (hm : Isa.instruction cfg.extensions (prog o.npc) = some m)
    (hd : SlotOf m (prog o.npc) o.npc x.decoded)
    (hshape : IdEx.Shape cfg o.npc (prog o.npc) x.decoded) :
    (if s.accessesBus cfg i then nextAccess cfg prog h else h.pending) =
      h.accessOf m (prog o.npc) := by
  obtain ⟨hleave, hslot⟩ := commits_eq_some_iff.mp hx
  have hc := completes_of_leaves hinv.pipeline.trap.debug hleave
  have hnext : nextAccess cfg prog h = h.accessOf m (prog o.npc) := by
    rw [nextAccess, hh.pc, hm, Option.bind_some]
  have hquiet (hmem : s.idEx.ismem = false) : s.accessesBus cfg i = false := by
    rw [accessesBus, hmem, Bool.false_and, Bool.false_and]
  have hnone (hmem : x.decoded.ismem = false) : h.accessOf m (prog o.npc) = none := by
    rw [ismem_eq hd, Bool.or_eq_false_iff] at hmem
    rw [Hart.accessOf, Mnemonic.access, hmem.1, hmem.2]
    rfl
  rcases state_of_commits hinv.pipeline hx with hs | hs | hs
  · have hid := hinv.pipeline.decoded hs hslot
    cases hmem : x.decoded.ismem with
    | false =>
      rw [hquiet (by rw [hid, hmem]), if_neg Bool.false_ne_true, hnone hmem]
      exact hh.idle (by rw [hs]; rfl)
    | true =>
      have hstrobe : s.idEx.ismem = true := by rw [hid, hmem]
      have hacc : s.idEx.memaccess ≠ .nop := by
        rw [hid]
        exact memaccess_of_ismem hshape hmem
      rw [accessesBus_of_exec hs hstrobe hacc (hinv.md.coherent.mem hstrobe).2.2.2
        hc.not_triggered hc.not_trapped, if_pos rfl, hnext]
  · have hmem : s.idEx.ismem = false := by
      rw [(hinv.waiting.mem hs x hslot).2]
      rfl
    rw [hquiet hmem, if_neg Bool.false_ne_true, hh.mem hs, hnext]
  · obtain ⟨hmd, hid⟩ := hinv.waiting.md2 hs x hslot
    have hmem : s.idEx.ismem = false := by
      rw [hid]
      rfl
    have hmem' : x.decoded.ismem = false := by
      rw [mdStart_eq hd] at hmd
      rw [hd.mulDiv hmd]
      rfl
    rw [hquiet hmem, if_neg Bool.false_ne_true, hnone hmem']
    exact hh.idle (by rw [hs]; rfl)

/-- Another program with the same instruction at the PC. -/
theorem Follows.congr {prog' : DataType → DataType} (hh : Follows cfg prog s o h)
    (hw : s.control.state = .mem → prog' h.pc = prog h.pc) : Follows cfg prog' s o h where
  pc := hh.pc
  regs := hh.regs
  idle := hh.idle
  mem hs := by
    rw [hh.mem hs]
    simp only [nextAccess, hw hs]
  wfi := hh.wfi

/-! ## The rest of a clock -/

/-- A hart without an access on its way follows every state but the wait for data. -/
theorem follows_of_none {s : Core} {o : Observer} (hpc : h.pc = o.npc)
    (hregs : ∀ r, r ≠ 0 → h.regs r = o.regs r) (hnone : h.pending = none)
    (hs : s.control.state ≠ .mem) : Follows cfg prog s o h :=
  ⟨hpc, hregs, fun _ => hnone, fun hmem => absurd hmem hs, fun _ _ => hnone⟩

/-- A hart waits with the core for its data. -/
theorem follows_of_waiting {s : Core} {o : Observer} (hpc : h.pc = o.npc)
    (hregs : ∀ r, r ≠ 0 → h.regs r = o.regs r) (hacc : h.pending = nextAccess cfg prog h)
    (hs : s.control.state = .mem) : Follows cfg prog s o h := by
  refine ⟨hpc, hregs, fun hidle => ?_, fun _ => hacc, fun hwfi => ?_⟩
  · rw [hs] at hidle
    cases hidle
  · rw [hs] at hwfi
    cases hwfi

/-- In debug mode a hart may have an access on its way. -/
theorem follows_of_halted {s : Core} {o : Observer} (hpc : h.pc = o.npc)
    (hregs : ∀ r, r ≠ 0 → h.regs r = o.regs r)
    (hs : s.control.state = .debug ∨ s.control.state = .debugflush) :
    Follows cfg prog s o h := by
  refine ⟨hpc, hregs, fun hidle => ?_, fun hmem => ?_, fun hwfi => ?_⟩
  · rcases hs with hs | hs <;> rw [hs] at hidle <;> cases hidle
  · rcases hs with hs | hs <;> rw [hs] at hmem <;> cases hmem
  · rcases hs with hs | hs <;> rw [hs] at hwfi <;> cases hwfi

/-- While the core sleeps the hart may have an access on its way, but not a strobed one. -/
theorem follows_of_sleeping {s : Core} {o : Observer} (hpc : h.pc = o.npc)
    (hregs : ∀ r, r ≠ 0 → h.regs r = o.regs r) (hs : s.control.state = .wfi)
    (hmem : s.idEx.ismem = false) : Follows cfg prog s o h := by
  refine ⟨hpc, hregs, fun hidle => ?_, fun hs' => ?_, fun _ hstrobe => ?_⟩
  · rw [hs] at hidle
    cases hidle
  · rw [hs] at hs'
    cases hs'
  · rw [hmem] at hstrobe
    cases hstrobe

theorem nextRegs_of_idle (hd : s.indebug = false) (hc : o.commits cfg s i = none) :
    o.nextRegs cfg io s i = o.regs := by
  rw [Observer.nextRegs, hd, if_neg Bool.false_ne_true, hc]

/-- The instruction that leaves the execute stage, with what it does to the hart. -/
theorem follows_of_commits (io : Peripherals) (hinv : StageInv cfg s o)
    (hf : FromProgram cfg prog o) (hh : Follows cfg prog s o h) (hr : i.sreset = false)
    (hsafe : IsaSafe cfg prog (s, o) i)
    {h' : Hart} (hpc : h'.pc = h.pc) (hregs : h'.regs = h.regs)
    (hpending : h'.pending = if s.accessesBus cfg i then nextAccess cfg prog h else h.pending)
    {x : Instr} (hx : o.commits cfg s i = some x) (htrap : s.stateNext cfg i ≠ .trap)
    (hload : s.control.loadPc = false) :
    ∃ h'', Hart.next (Isa.instruction cfg.extensions) prog h'
        (.instr i.bus.data (s.csrData cfg io i) s.csr.mepc) = some h'' ∧
      Follows cfg prog (s.clock cfg io i) (o.clock cfg io s i) h'' := by
  obtain ⟨hleave, hslot⟩ := commits_eq_some_iff.mp hx
  obtain ⟨m, hm, hd, hshape⟩ := instruction_of_commits hinv hf hx
  have hretires : Retires cfg io s i x.decoded m (prog o.npc) o.npc :=
    retires_of_commits hinv hx hd hm hshape (hsafe.division hr)
  obtain ⟨hA, hB⟩ := operands_eq hinv hh hslot hshape
  have hgo : h'.pending = h'.accessOf m (prog h'.pc) := by
    rw [hpending, pending_of_commits hinv hh hx hm hd hshape, hpc, hh.pc]
    simp only [Hart.accessOf, hregs]
  refine ⟨h'.execute m (prog h'.pc) i.bus.data (s.csrData cfg io i) s.csr.mepc, ?_, ?_⟩
  · rw [Hart.next, hpc, hh.pc, hm, Option.bind_some, if_pos (by rw [hgo, hpc, hh.pc])]
  have hpc' : h'.pc = o.npc := hpc.trans hh.pc
  apply follows_of_none
  · change _ = o.nextNpc cfg s i
    rw [nextNpc_of_commits htrap hload hx, hretires.next, hpc']
    change m.successor _ h'.pc (h'.regs _) (h'.regs _) _ = _
    rw [hpc', hregs, hA, hB]
  · intro r hr0
    change _ = o.nextRegs cfg io s i r
    rw [← writeRegs_eq_nextRegs hinv.forward.slot hr
      (forwardSafe_of_inv hinv.pipeline hinv.md) hr0 rfl, hretires.write _ r hr0, hpc']
    change ((m.written _ h'.pc (h'.regs _) (h'.regs _) _ _).elim h' (h'.write _)).regs r = _
    rw [hpc', hregs, hA, hB]
    have hold : h'.regs r = o.regs r := by rw [hregs, hh.regs r hr0]
    cases m.written (prog o.npc) o.npc s.operandA s.operandB i.bus.data (s.csrData cfg io i) with
    | none => exact hold
    | some v =>
      change (h'.write _ v).regs r = Function.update o.regs _ v r
      rw [Hart.write_regs _ _ hr0, Function.update_apply, Function.update_apply, hold]
  · rfl
  · rw [clock_state]
    intro hn
    have ha := (advance_of_stateNext_mem hn).1
    rw [leaves_of_stall ha] at hleave
    cases hleave

/-! ## Clocks in which no instruction completes -/

/-- Nothing but an access happens in this clock; `h'` is the hart after the access. -/
structure Silent (cfg : Generics) (io : Peripherals) (prog : DataType → DataType) (s : Core)
    (o : Observer) (i : CoreInput) (h h' : Hart) : Prop where
  pc : h'.pc = h.pc
  regs : h'.regs = h.regs
  pending : h'.pending = if s.accessesBus cfg i then nextAccess cfg prog h else h.pending
  commits : o.commits cfg s i = none
  trap : s.stateNext cfg i ≠ .trap
  loadPc : s.control.loadPc = false
  same : o.nextRegs cfg io s i = o.regs

namespace Silent

variable {h' : Hart} (hq : Silent cfg io prog s o i h h')
include hq

theorem npc (hh : Follows cfg prog s o h) : h'.pc = (o.clock cfg io s i).npc := by
  rw [hq.pc, hh.pc]
  exact (nextNpc_of_idle hq.trap hq.loadPc hq.commits).symm

theorem regs_eq (hh : Follows cfg prog s o h) (r : RegType) (hr0 : r ≠ 0) :
    h'.regs r = (o.clock cfg io s i).regs r := by
  change _ = o.nextRegs cfg io s i r
  rw [hq.same, hq.regs, hh.regs r hr0]

theorem pending_of_not_ismem (hmem : s.idEx.ismem = false) : h'.pending = h.pending := by
  rw [hq.pending, accessesBus, hmem, Bool.false_and, Bool.false_and, if_neg Bool.false_ne_true]

/-- The instruction in the execute stage waits or is stopped by a trigger. -/
theorem waits_of_slot (hinv : StageInv cfg s o) (hr : i.sreset = false)
    (hsafe : IsaSafe cfg prog (s, o) i) {x : Instr} (hslot : o.slot = some x) :
    s.advance cfg i = .stall ∨ s.advance cfg i = .trigger := by
  have hx := hq.commits
  cases ha : s.advance cfg i with
  | stall => exact .inl rfl
  | trigger => exact .inr rfl
  | trap => exact absurd ((advance_trap_iff_stateNext hinv.pipeline.trap hr
      hsafe.stage.pipeline.trap).mp ha) hq.trap
  | bubble =>
    rw [commits_of_leaves (advance_eq_bubble_iff.mp ha).1, hslot] at hx
    cases hx
  | decode =>
    rw [commits_of_leaves (advance_eq_decode_iff.mp ha).1, hslot] at hx
    cases hx

theorem follows_of_next (hh : Follows cfg prog s o h) (hn : s.stateNext cfg i ≠ .mem)
    (hidle : h'.pending = none) :
    Follows cfg prog (s.clock cfg io i) (o.clock cfg io s i) h' :=
  follows_of_none (hq.npc hh) (hq.regs_eq hh) hidle (by rw [clock_state]; exact hn)

theorem follows_of_mem (hh : Follows cfg prog s o h) (hn : s.stateNext cfg i = .mem)
    (hacc : h'.pending = nextAccess cfg prog h) :
    Follows cfg prog (s.clock cfg io i) (o.clock cfg io s i) h' := by
  apply follows_of_waiting (hq.npc hh) (hq.regs_eq hh)
  · rw [hacc, nextAccess_congr hq.pc hq.regs]
  · rw [clock_state, hn]

theorem follows_of_debug (hh : Follows cfg prog s o h)
    (hn : s.stateNext cfg i = .debug ∨ s.stateNext cfg i = .debugflush) :
    Follows cfg prog (s.clock cfg io i) (o.clock cfg io s i) h' :=
  follows_of_halted (hq.npc hh) (hq.regs_eq hh) (by rw [clock_state]; exact hn)

/-- While the pipeline is filled no access is made. -/
theorem follows_of_empty (hinv : StageInv cfg s o) (hh : Follows cfg prog s o h)
    (hnone : o.slot = none) (hidle : mayHaveAccessed s.control.state = false) :
    Follows cfg prog (s.clock cfg io i) (o.clock cfg io s i) h' := by
  have hmem := hinv.waiting.empty hnone
  apply hq.follows_of_next hh
  · intro hn
    rcases (advance_of_stateNext_mem hn).2 with ⟨-, h⟩ | h
    · rw [hmem] at h
      cases h
    · rw [h] at hidle
      cases hidle
  · rw [hq.pending_of_not_ismem hmem]
    exact hh.idle hidle

/-- An access is strobed, an operation of the MD unit begins, or a trigger stops the core. -/
theorem follows_of_executing (hinv : StageInv cfg s o) (hh : Follows cfg prog s o h)
    (hs : s.control.state = .exec) {w : DataType} (hshape : IdEx.Shape cfg o.npc w s.idEx)
    (hwaits : s.advance cfg i = .stall ∨ s.advance cfg i = .trigger) :
    Follows cfg prog (s.clock cfg io i) (o.clock cfg io s i) h' := by
  rcases hwaits with ha | ha
  · rcases stall_cases hinv.md.coherent ha with
      ⟨-, hstrobe, -, hn⟩ | ⟨-, hmd, hn⟩ | ⟨hs', -⟩ | ⟨hs', -⟩ | ⟨hs', -⟩
    · obtain ⟨htrig, hreq, -⟩ := advance_eq_stall_iff.mp ha
      apply hq.follows_of_mem hh hn
      rw [hq.pending, accessesBus_of_exec hs hstrobe (memaccess_of_ismem hshape hstrobe)
        (hinv.md.coherent.mem hstrobe).2.2.2 htrig hreq, if_pos rfl]
    · have hno : s.idEx.ismem = false := by
        by_contra hno
        rw [(hinv.md.coherent.mem (by simpa using hno)).1] at hmd
        cases hmd
      apply hq.follows_of_next hh (by rw [hn]; decide)
      rw [hq.pending_of_not_ismem hno]
      exact hh.idle (by rw [hs]; rfl)
    all_goals rw [hs] at hs'; cases hs'
  · have htrig := advance_eq_trigger_iff.mp ha
    rw [stallOnTrigger_eq, hs] at htrig
    have hn : s.stateNext cfg i = .debug := by
      rw [stateNext, hs]
      exact execNext_eq_debug_iff.mpr htrig
    exact hq.follows_of_debug hh (.inl hn)

/-- The access stays on its way while the core waits for its data. -/
theorem follows_of_loading (hinv : StageInv cfg s o) (hh : Follows cfg prog s o h)
    (hs : s.control.state = .mem) (hno : s.idEx.ismem = false)
    (hwaits : s.advance cfg i = .stall ∨ s.advance cfg i = .trigger) :
    Follows cfg prog (s.clock cfg io i) (o.clock cfg io s i) h' := by
  rcases hwaits with ha | ha
  · rcases stall_cases hinv.md.coherent ha with
      ⟨hs', -⟩ | ⟨hs', -⟩ | ⟨-, -, hn⟩ | ⟨hs', -⟩ | ⟨hs', -⟩
    · rw [hs] at hs'; cases hs'
    · rw [hs] at hs'; cases hs'
    · exact hq.follows_of_mem hh hn (by rw [hq.pending_of_not_ismem hno, hh.mem hs])
    all_goals rw [hs] at hs'; cases hs'
  · have htrig := advance_eq_trigger_iff.mp ha
    rw [stallOnTrigger_eq, hs] at htrig
    cases htrig

/-- The core sleeps on, or it is halted. -/
theorem follows_of_wfi (hinv : StageInv cfg s o) (hh : Follows cfg prog s o h)
    (hs : s.control.state = .wfi)
    (hwaits : s.advance cfg i = .stall ∨ s.advance cfg i = .trigger) :
    Follows cfg prog (s.clock cfg io i) (o.clock cfg io s i) h' := by
  rcases hwaits with ha | ha
  · rcases stall_cases hinv.md.coherent ha with
      ⟨hs', -⟩ | ⟨hs', -⟩ | ⟨hs', -⟩ | ⟨hs', -⟩ | ⟨-, hn⟩
    · rw [hs] at hs'; cases hs'
    · rw [hs] at hs'; cases hs'
    · rw [hs] at hs'; cases hs'
    · rw [hs] at hs'; cases hs'
    by_cases hhalt : (i.haltReq && cfg.haveOcd) = true
    · exact hq.follows_of_debug hh (.inl (by rw [hn, if_pos hhalt]))
    · rw [if_neg hhalt] at hn
      apply follows_of_sleeping (hq.npc hh) (hq.regs_eq hh)
      · rw [clock_state, hn]
      · rw [clock_idEx, nextIdEx_eq, ha]
        rfl
  · have htrig := advance_eq_trigger_iff.mp ha
    rw [stallOnTrigger_eq, hs] at htrig
    cases htrig

/-- The access is kept while the instruction waits for its data. -/
theorem follows (hinv : StageInv cfg s o) (hh : Follows cfg prog s o h) (hr : i.sreset = false)
    (hsafe : IsaSafe cfg prog (s, o) i) :
    Follows cfg prog (s.clock cfg io i) (o.clock cfg io s i) h' := by
  cases hinv.pipeline.stage with
  | target hs hnone | fetched hs hnone =>
    apply hq.follows_of_empty hinv hh hnone
    cases h : s.control.state <;> first | rfl | (rw [h] at hs; cases hs)
  | trapping hs hnone => exact hq.follows_of_empty hinv hh hnone (by rw [hs]; rfl)
  | resuming hs =>
    have hload := hq.loadPc
    rw [hinv.pipeline.loadPc.mpr hs] at hload
    cases hload
  | executing x _ hs hfilled _ hshape =>
    exact hq.follows_of_executing hinv hh hs hshape (hq.waits_of_slot hinv hr hsafe hfilled.slot)
  | loading x hs hfilled =>
    have hno : s.idEx.ismem = false := by
      rw [(hinv.waiting.mem hs x hfilled.slot).2]
      rfl
    exact hq.follows_of_loading hinv hh hs hno (hq.waits_of_slot hinv hr hsafe hfilled.slot)
  | computing x hs hfilled =>
    have hno : s.idEx.ismem = false := by
      rw [(hinv.waiting.md hs x hfilled.slot).2]
      rfl
    apply hq.follows_of_next hh
    · cases hready : s.mdReady cfg <;> simp [stateNext, hs, hready]
    · rw [hq.pending_of_not_ismem hno]
      exact hh.idle (by rw [hs]; rfl)
  | computed x hs hfilled =>
    have hno : s.idEx.ismem = false := by
      rw [(hinv.waiting.md2 hs x hfilled.slot).2]
      rfl
    apply hq.follows_of_next hh
    · simp [stateNext, hs]
    · rw [hq.pending_of_not_ismem hno]
      exact hh.idle (by rw [hs]; rfl)
  | sleeping x hs hfilled =>
    exact hq.follows_of_wfi hinv hh hs (hq.waits_of_slot hinv hr hsafe hfilled.slot)
  | halted hs => exact hq.follows_of_debug hh (stateNext_of_debug hs)

end Silent

/-! ## Every clock -/

/-- Every clock of the core is a run of the hart. -/
theorem follows_clock (io : Peripherals) (hinv : StageInv cfg s o) (hf : FromProgram cfg prog o)
    (hh : Follows cfg prog s o h) (hr : i.sreset = false)
    (hsafe : IsaSafe cfg prog (s, o) i) :
    ∃ h', Hart.run (Isa.instruction cfg.extensions) prog h
        (s.accessEvents cfg i ++ s.mainEvents cfg io i o) = some h' ∧
      Follows cfg prog (s.clock cfg io i) (o.clock cfg io s i) h' := by
  obtain ⟨h', hrun, hpc, hregs, hpending⟩ := run_accessEvents (i := i) hinv hf hh
  rw [Hart.run_append hrun, mainEvents]
  have hold (r : RegType) (hr0 : r ≠ 0) : h'.regs r = o.regs r := by rw [hregs, hh.regs r hr0]
  by_cases htrap : s.stateNext cfg i = .trap
  · -- The instruction in the execute stage is not executed.
    have ha := (advance_trap_iff_stateNext hinv.pipeline.trap hr
      hsafe.stage.pipeline.trap).mpr htrap
    have hleave : s.leaves cfg i = false := by
      rw [leaves, (advance_eq_trap_iff.mp ha).2]
      simp
    have hrun : s.indebug = false := by
      apply decide_eq_false
      intro hs
      rw [stateNext, hs] at htrap
      split_ifs at htrap
    rw [if_pos htrap]
    refine ⟨_, rfl, follows_of_none (nextNpc_of_trap htrap).symm (fun r hr0 => ?_) rfl ?_⟩
    · change h'.regs r = o.nextRegs cfg io s i r
      rw [nextRegs_of_idle hrun (commits_of_not_leaves hleave), hold r hr0]
    · rw [clock_state, htrap]
      decide
  rw [if_neg htrap]
  by_cases hload : s.control.loadPc = true
  · have hs := hinv.pipeline.loadPc.mp hload
    have hnone : o.commits cfg s i = none := by
      cases hc : o.commits cfg s i with
      | none => rfl
      | some x =>
        rcases state_of_commits hinv.pipeline hc with h | h | h <;> rw [hs] at h <;> cases h
    rw [if_pos hload]
    refine ⟨_, rfl, follows_of_none ?_ (fun r hr0 => ?_) rfl ?_⟩
    · change _ = o.nextNpc cfg s i
      rw [Observer.nextNpc, if_neg htrap, if_pos hload]
      rfl
    · change h'.regs r = o.nextRegs cfg io s i r
      rw [nextRegs_of_idle (decide_eq_false (by rw [hs]; decide)) hnone, hold r hr0]
    · simp [stateNext, hs]
  rw [if_neg hload]
  have hload : s.control.loadPc = false := by simpa using hload
  cases hc : o.commits cfg s i with
  | some x =>
    obtain ⟨h'', hnext, hfollows⟩ := follows_of_commits io hinv hf hh hr hsafe hpc hregs
      hpending hc htrap hload
    refine ⟨h'', ?_, hfollows⟩
    rw [Option.isSome_some, if_pos rfl, Hart.run_cons, hnext]
    rfl
  | none =>
    rw [Option.isSome_none, if_neg Bool.false_ne_true]
    by_cases hdm : (s.indebug && i.dm.writegpr) = true
    · rw [if_pos hdm]
      rw [Bool.and_eq_true] at hdm
      have hs : s.control.state = .debug := of_decide_eq_true hdm.1
      refine ⟨_, rfl, follows_of_halted ?_ (fun r hr0 => ?_) ?_⟩
      · change h'.pc = o.nextNpc cfg s i
        rw [nextNpc_of_idle htrap hload hc, hpc, hh.pc]
      · change _ = o.nextRegs cfg io s i r
        rw [Observer.nextRegs, if_pos hdm.1, if_pos hdm.2, Hart.write_regs _ _ hr0,
          Function.update_apply, Function.update_apply, hold r hr0]
      · rw [clock_state]
        exact stateNext_of_debug hs
    · rw [if_neg hdm]
      have hsame : o.nextRegs cfg io s i = o.regs := by
        rw [Observer.nextRegs, hc]
        cases hrun : s.indebug with
        | false => rfl
        | true =>
          rw [hrun, Bool.true_and] at hdm
          rw [if_pos rfl, if_neg hdm]
      have hq : Silent cfg io prog s o i h h' :=
        ⟨hpc, hregs, hpending, hc, htrap, hload, hsame⟩
      exact ⟨h', rfl, hq.follows hinv hh hr hsafe⟩

/-! ## Runs -/

theorem follows_of_start {s : Core} {o : Observer} {regs : RegType → DataType} {pc : DataType}
    (hpc : o.npc = pc) (hregs : o.regs = regs) (hs : s.control.state = .boot0) :
    Follows cfg prog s o (.start pc regs) := by
  apply follows_of_none
  · exact hpc.symm
  · intro r hr0
    rw [hregs]
    exact Function.update_of_ne hr0 0 regs
  · rfl
  · rw [hs]
    decide

/-- The run of the hart on the events of a trace ends where the pipeline is. -/
structure TraceInv (cfg : Generics) (prog : DataType → DataType)
    (q : (Core × Observer) × IsaTrace) : Prop where
  stage : StageInv cfg q.1.1 q.1.2
  program : FromProgram cfg prog q.1.2
  run : ∃ h, Hart.run (Isa.instruction cfg.extensions) prog q.2.start q.2.events = some h ∧
    Follows cfg prog q.1.1 q.1.2 h

theorem traceInv_step {q : (Core × Observer) × IsaTrace} (hinv : TraceInv cfg prog q)
    (hsafe : IsaSafe cfg prog q.1 i) : TraceInv cfg prog ((traced cfg io).next q i) where
  stage := stageInv_step hinv.stage hsafe.stage
  program := fromProgram_step hinv.program hsafe
  run := by
    change ∃ h, Hart.run _ _ (q.1.1.nextTrace cfg io i q.1.2 q.2).start
      (q.1.1.nextTrace cfg io i q.1.2 q.2).events = some h ∧
      Follows cfg prog (q.1.1.step cfg io i) (q.1.2.next cfg io q.1.1 i) h
    rw [nextTrace]
    cases hr : i.sreset with
    | true =>
      rw [if_pos rfl, step_reset _ _ _ _ hr, Observer.next, if_pos hr]
      exact ⟨_, rfl, follows_of_start rfl rfl rfl⟩
    | false =>
      obtain ⟨h, hrun, hh⟩ := hinv.run
      obtain ⟨h', hrun', hh'⟩ := follows_clock io hinv.stage hinv.program hh hr hsafe
      rw [if_neg Bool.false_ne_true, step_clock _ _ _ _ hr, Observer.next, if_neg (by simp [hr])]
      exact ⟨h', (Hart.run_append hrun).trans hrun', hh'⟩

theorem traceInv_of_reachable {q : (Core × Observer) × IsaTrace}
    (hq : (traced cfg io).Reachable (fun q i => IsaSafe cfg prog q.1 i) q) :
    TraceInv cfg prog q := by
  induction hq with
  | init =>
    refine ⟨stageInv_of_reachable (.init (M := observed cfg io)), fun x hx => ?_, _, rfl,
      follows_of_start rfl rfl rfl⟩
    cases hx
  | step i _ hsafe ih => exact traceInv_step ih hsafe

/-- In every safe run the core executes its program: the events of the run, from the reset on, are
a run of the instruction set, in which every load and store makes its own access once. The
register file holds the registers of the hart, and the instruction in the execute stage is the
one at its PC. -/
theorem executes_program {q : (Core × Observer) × IsaTrace}
    (hq : (traced cfg io).Reachable (fun q i => IsaSafe cfg prog q.1 i) q) :
    ∃ h, Hart.run (Isa.instruction cfg.extensions) prog q.2.start q.2.events = some h ∧
      (∀ r, q.1.1.regs.port1 cfg r = h.regs r ∧ q.1.1.regs.port2 cfg r = h.regs r) ∧
      (q.1.1.control.state ≠ .debug → q.1.2.slot.isSome = true → q.1.1.idEx.pc = h.pc) := by
  obtain ⟨hinv, -, h, hrun, hh⟩ := traceInv_of_reachable hq
  refine ⟨h, hrun, fun r => ?_, fun hs hslot => ?_⟩
  · by_cases hr0 : r = 0
    · rw [hr0, h.zero]
      exact ⟨hinv.zero.port1, hinv.zero.port2⟩
    · rw [hh.regs r hr0]
      exact ⟨hinv.forward.port1 r hr0, hinv.forward.port2 r hr0⟩
  · obtain ⟨x, hx⟩ := Option.isSome_iff_exists.mp hslot
    rw [hh.pc]
    exact (hinv.pipeline.filled hs hx).idEx

/-- `addi x5, x0, 5; addi x8, x0, 9; mul x6, x5, x8; sw x6, 8(x5); lw x7, 4(x8); beq x7, x6, -4`. -/
def sixWords : List DataType :=
  [0x00500293, 0x00900413, 0x02828333, 0x0062a423, 0x00442383, 0xfe638ee3]

def sixStimuli : List Stimulus :=
  .replicate 9 .quiet ++ [.ready, .quiet, .ready] ++ .replicate 3 .quiet

/-- A run of six instructions, with 45 in `x6` at its end. -/
theorem six_words_executed : ∃ h, Hart.run (Isa.instruction Generics.plain.extensions)
    (programWord sixWords) (.start 0 fun _ => 0)
      ((traced .plain .none).run (programInputs .plain .none sixWords sixStimuli)).2.events =
        some h ∧ h.regs 6 = 45 := by
  have hreach : (traced .plain .none).Reachable
      (fun q i => IsaSafe .plain (programWord sixWords) q.1 i)
      ((traced .plain .none).run (programInputs .plain .none sixWords sixStimuli)) :=
    Machine.Reachable.init.runFrom_of_meets (by decide +kernel)
  obtain ⟨h, hrun, hregs, -⟩ := executes_program hreach
  refine ⟨h, hrun, ?_⟩
  rw [← (hregs 6).1]
  decide +kernel

end Simulation

end Core

end ThuasRiscv
