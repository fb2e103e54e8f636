import ThuasRiscv.Bus.Contents
import ThuasRiscv.Core.IsaRefinement

/-!
# The core and its storage

What the core makes of the memories: the access that it makes in a clock changes
the storage, and a load that completes has the bytes of the storage. Without
`FAST_MEM` a store waits in the registered interface for one clock; the storage
has it already.
-/

namespace ThuasRiscv

open ByteStore Transition

namespace System

variable {nRom nBoot nRam : ℕ} (g : SystemGenerics) (io : Peripherals)
  (s : System nRom nBoot nRam) (i : SystemInput)

/-- The access that the core makes in this clock. With `FAST_MEM` it is on the bus in this clock,
otherwise in the next one. -/
def made : BusRequest :=
  s.core.busAccess g.core (s.coreInput g i)
    (if g.core.fastMem then s.core.fastDisable g.core (s.coreInput g i)
    else s.core.slowDisable g.core (s.coreInput g i))

/-- The bytes of the memories, with the store that waits in the registered interface. -/
def settled : Contents nRom nBoot nRam :=
  if g.core.fastMem then s.bus.contents else s.bus.contents.after g.bus s.core.bus

variable {g io s i} {last : Option Flight}

theorem contents_step :
    (s.step g io i).bus.contents = s.bus.contents.after g.bus (s.request g i) :=
  DataBus.contents_clock i.core.sreset

/-- A clock does to the storage what the access of the core does. -/
theorem settled_step (hr : i.core.sreset = false) :
    (s.step g io i).settled g = (s.settled g).after g.bus (s.made g i) := by
  rw [settled, settled, contents_step]
  cases hf : g.core.fastMem with
  | true =>
    rw [if_pos rfl, if_pos rfl, request, Core.busRequest, if_pos hf, made, if_pos hf]
    rfl
  | false =>
    rw [if_neg Bool.false_ne_true, if_neg Bool.false_ne_true, request, Core.busRequest, hf,
      if_neg Bool.false_ne_true, step_core hr, Core.clock_bus, Core.nextBus, hf,
      if_neg Bool.false_ne_true, made, hf, if_neg Bool.false_ne_true]

/-! ## Accesses of the execute stage -/

theorem made_stb (ha : s.core.accessesBus g.core (s.coreInput g i) = true) :
    (s.made g i).stb = true := by
  simp only [Core.accessesBus, Bool.and_eq_true] at ha
  rw [made, Core.busAccess, ha.1.1, Bool.true_or]

/-- The access of the execute stage, as an event of the hart, does to the storage what the request
does. -/
theorem afterAccess_made (c : Contents nRom nBoot nRam)
    (ha : s.core.accessesBus g.core (s.coreInput g i) = true) :
    (Contents.storage nRom nBoot nRam g.bus).afterAccess c (s.made g i).access =
      c.after g.bus (s.made g i) := by
  rw [BusRequest.access, Contents.after, made_stb ha, Bool.true_and]
  by_cases hw : (s.made g i).acc = .write
  · rw [if_pos hw, if_pos (decide_eq_true hw)]
    rfl
  · rw [if_neg hw, if_neg (by simpa using hw)]
    rfl

/-- When the Debug Module makes a strobe outside of debug mode, the execute stage is empty. -/
theorem memaccess_of_dm (hinv : BusInv g s last) (hsafe : DmChecks s i)
    (hd : s.core.indebug = false) (hdm : i.core.dm.stb = true) : s.core.idEx.memaccess = .nop := by
  have hstate := hinv.ack2 (hsafe hdm)
  have hnot : s.core.control.state ≠ .debug := of_decide_eq_false hd
  cases hinv.stage with
  | booting _ hfree | resting _ hfree | resuming _ hfree | resuming2 _ hfree
  | resuming3 _ hfree => exact hfree.memaccess
  | halted hs => exact absurd hs hnot
  | executing hs | waiting _ _ hs | sleeping hs | trapping hs | trapped hs =>
    rw [hs] at hstate
    simp at hstate

/-- Without an access of the execute stage nothing is stored. -/
theorem after_made_of_not_accessesBus (hinv : BusInv g s last) (hsafe : DmChecks s i)
    (hd : s.core.indebug = false) (c : Contents nRom nBoot nRam)
    (ha : s.core.accessesBus g.core (s.coreInput g i) = false) :
    c.after g.bus (s.made g i) = c := by
  apply Contents.after_of_not_write
  rw [made, Core.busAccess, hd]
  rw [Core.accessesBus] at ha
  generalize (if g.core.fastMem then s.core.fastDisable g.core (s.coreInput g i)
    else s.core.slowDisable g.core (s.coreInput g i)) = disable at ha ⊢
  cases disable with
  | true => simp
  | false =>
    by_cases hacc : s.core.idEx.memaccess = .nop
    · simp [hacc]
    · have hmem : s.core.idEx.ismem = false := by simpa [hacc] using ha
      have hdm : (s.coreInput g i).dm.stb = false := by
        cases hdm : i.core.dm.stb with
        | false => exact hdm
        | true => exact absurd (memaccess_of_dm hinv hsafe hd hdm) hacc
      rw [hmem, hdm]
      rfl

/-! ## Loads -/

/-- An access that was strobed in the clock before has been read, unless it is a store. -/
def ReadInv (s : System nRom nBoot nRam) (last : Option Flight) : Prop :=
  ∀ f, last = some f → 0 < f.age ∧
    (f.age = 1 → f.request.acc ≠ .write → ∀ slave, s.bus.Reads f.request.addr slave)

theorem readInv_step (hinv : ReadInv s last) :
    ReadInv (s.step g io i) ((Flight.current last (s.request g i)).map Flight.older) := by
  intro f hf
  obtain ⟨f', hcur, rfl⟩ := Option.map_eq_some_iff.mp hf
  refine ⟨Nat.succ_pos _, fun hage hacc slave => ?_⟩
  have hzero : f'.age = 0 := Nat.succ.inj hage
  rw [Flight.current] at hcur
  split_ifs at hcur with hstrobe
  · obtain rfl := Option.some_injective _ hcur
    exact DataBus.reads_clock i.core.sreset hacc slave
  · have hpos := (hinv f' hcur).1
    omega

/-- In the executing state a load from a memory is not complete. -/
theorem not_leaves_of_load (hinv : BusInv g s last) (hs : s.core.control.state = .exec)
    (hmem : s.core.idEx.ismem = true) (hacc : s.core.idEx.memaccess = .read)
    (hplain : s.core.idEx.aluOp.plain = true) {slave : Slave}
    (hsel : g.bus.map.select (s.core.operandA + s.core.idEx.imm) = some slave) (hio : slave ≠ .io) :
    s.core.leaves g.core (s.coreInput g i) = false := by
  by_contra hleave
  simp only [Core.leaves, Bool.not_eq_false, Bool.and_eq_true, Bool.not_eq_true'] at hleave
  obtain ⟨⟨hstall, htrig⟩, htrap⟩ := hleave
  have hready : (s.response g i).ready = true := by
    rw [Core.stall_eq, hs, hmem, Bool.true_and, Bool.or_eq_false_iff] at hstall
    exact (Bool.not_eq_false' _).mp hstall.1
  cases hinv.stage with
  | executing _ hslot hport hb =>
    cases hf : g.core.fastMem with
    | false =>
      have hq : ¬ g.bus.Active (s.request g i) := by
        rw [request, Core.busRequest, hf, if_neg Bool.false_ne_true]
        exact hport hf
      have hlines : (s.response g i).lines = .silent := DataBus.lines_idle hb hq
      have hno : (s.response g i).ready = false := congrArg Lines.ready hlines
      rw [hno] at hready
      cases hready
    | true =>
      have hreq := request_fast hf hs (Core.penalty_plain hplain) htrig htrap hmem
      have haccess : s.core.idEx.HasAccess := by
        cases hslot with
        | access h => exact h
        | free h => rw [h.ismem] at hmem; cases hmem
        | mret _ h => rw [h] at hmem; cases hmem
      have hans := answers_executing hb hreq haccess
      have hlatency : g.bus.latency (s.request g i) = 1 := by
        rw [DataBus.latency_memory (by rw [hreq]; exact hsel) hio, hreq, hacc]
        rfl
      rw [BusGenerics.Answers, hlatency, if_neg (by decide)] at hans
      have hno : (s.response g i).ready = false := congrArg Lines.ready hans
      rw [hno] at hready
      cases hready
  | booting h | waiting _ _ h | sleeping h | trapping h | trapped h | halted h | resuming h
  | resuming2 h | resuming3 h => rw [hs] at h; cases h
  | resting h => rw [hs] at h; cases h

/-- A load from a memory that completes has the bytes of the storage. -/
theorem load_gives (hinv : BusInv g s last) (hsafe : DmChecks s i) (hread : ReadInv s last)
    (hs : s.core.control.state = .mem) (hacc : s.core.idEx.memaccess = .read) {slave : Slave}
    (hsel : g.bus.map.select (s.core.operandA + s.core.idEx.imm) = some slave) (hio : slave ≠ .io)
    (hleave : s.core.leaves g.core (s.coreInput g i) = true) :
    (s.settled g).read g.bus s.core.idEx.memsize.bytes (s.core.operandA + s.core.idEx.imm) =
      some (bytesOf (s.response g i).data s.core.idEx.memsize.bytes) := by
  simp only [Core.leaves, Bool.and_eq_true, Bool.not_eq_true'] at hleave
  obtain ⟨⟨hstall, -⟩, htrap⟩ := hleave
  have hready : (s.response g i).ready = true := by
    rw [Core.stall_eq, hs] at hstall
    exact (Bool.not_eq_false' _).mp hstall
  have hdm := dm_quiet hinv hsafe hs
  cases hinv.stage with
  | waiting q age _ hw =>
    obtain ⟨haddr, hsize, hstb, -⟩ := request_of_waiting hs hdm hw
    have hsel' : g.bus.map.select q.addr = some slave := by rw [hw.addr]; exact hsel
    rcases answers_cases (answers_waiting hs hdm hw) hw.access.1 (error_of_trapRequest htrap) with
      ⟨hage, -, hverdict⟩ | ⟨-, hno⟩
    · rw [DataBus.latency_memory hsel' hio, hw.acc, hacc] at hage
      have hage : age = 1 := hage
      subst hage
      obtain ⟨hwaits, hlast, hport⟩ := hw.flight (by decide)
      have hreads := (hread _ hlast).2 rfl (by rw [hw.acc, hacc]; decide) slave
      have ha : NaturallyAligned q.size q.addr := by
        rw [BusGenerics.verdict] at hverdict
        split_ifs at hverdict with _ ha
        exact ha
      have hdly : s.bus.stbDly slave = true := by
        rw [hwaits.mem slave hio, DataBus.memRequest_of_strobe hw.stb hw.access.1 hsel', hw.acc,
          hacc]
        rfl
      have hsettled : s.settled g = s.bus.contents := by
        rw [settled]
        split_ifs with hf
        · rfl
        · apply Contents.after_of_not_write
          rw [hport (by simpa using hf)]
          rfl
      have hdata := DataBus.bytesOf_response (x := i.bus) (by rw [haddr]; exact hsel') hio hdly
        (by rw [haddr]; exact hreads) (by rw [haddr, hsize]; exact ha)
      rw [haddr, hsize, hw.addr, hw.size] at hdata
      rw [hsettled, hdata]
      rfl
    · rw [hready] at hno
      cases hno
  | booting h | executing h | sleeping h | trapping h | trapped h | halted h | resuming h
  | resuming2 h | resuming3 h => rw [hs] at h; cases h
  | resting h => rw [hs] at h; cases h

/-! ## Fetches -/

/-- The states in which the fetched word is at the address that the decode stage holds. -/
def prefetched : StateType → Bool
  | .boot1 | .exec | .mem | .md | .md2 | .wfi | .flush2 | .mret2 | .trap3 | .debugflush3 => true
  | _ => false

/-- The fetched word is the one that the storage has at the address in the decode stage. -/
def FetchInv (g : SystemGenerics) (s : System nRom nBoot nRam) : Prop :=
  prefetched s.core.control.state = true → ∀ slave, g.bus.fetchSelect s.core.ifIdPc = some slave →
    s.bus.instrWord g.bus slave = (s.settled g).fetch g.bus s.core.ifIdPc

/-- No store that is made or that waits in the registered interface changes the instruction that
makes it or the two words behind it. -/
structure Undisturbed (g : SystemGenerics) (s : System nRom nBoot nRam) (i : SystemInput) :
    Prop where
  executed : ((s.settled g).after g.bus (s.made g i)).fetch g.bus s.core.idEx.pc =
    (s.settled g).fetch g.bus s.core.idEx.pc
  fetched : ((s.settled g).after g.bus (s.made g i)).fetch g.bus s.core.ifIdPc =
    (s.settled g).fetch g.bus s.core.ifIdPc
  port : ((s.settled g).after g.bus (s.made g i)).fetch g.bus s.core.pc =
    s.bus.contents.fetch g.bus s.core.pc

instance : Decidable (Undisturbed g s i) :=
  decidable_of_iff (_ ∧ _ ∧ _)
    ⟨fun h => ⟨h.1, h.2.1, h.2.2⟩, fun h => ⟨h.executed, h.fetched, h.port⟩⟩

/-- The debugger works on the memories. -/
def debugging : StateType → Bool
  | .debug | .debugflush => true
  | _ => false

theorem instrWord_step (slave : Slave) : (s.step g io i).bus.instrWord g.bus slave =
    if (s.core.instrRequest g.core (s.coreInput g i)).stall then s.bus.instrWord g.bus slave
    else s.bus.contents.word g.bus slave s.core.pc :=
  DataBus.instrWord_clock i.core.sreset slave

/-- An instruction is decoded in the states in which its word has been fetched. -/
theorem prefetched_of_decode {c : Core} {cfg : Generics} {ci : CoreInput}
    (hocd : c.control.state = .debug → cfg.haveOcd = true) (ha : c.advance cfg ci = .decode) :
    prefetched c.control.state = true := by
  obtain ⟨hleave, hflush⟩ := Core.advance_eq_decode_iff.mp ha
  have hrun := Core.indebug_of_leaves hocd hleave
  simp only [Core.flushDecode, Core.flush_eq, Bool.or_eq_false_iff,
    decide_eq_false_iff_not] at hflush
  obtain ⟨⟨hf, hd₁⟩, hd₂⟩ := hflush
  cases hs : c.control.state <;> simp_all [prefetched, Core.indebug]

/-- A clock in which the fetched word stays does not come from a state in which it is not there. -/
theorem prefetched_of_stall {c : Core} {cfg : Generics} {ci : CoreInput}
    (ha : c.advance cfg ci = .stall) : prefetched c.control.state = true := by
  have hstall := (Core.advance_eq_stall_iff.mp ha).2.2
  rw [Core.stall_eq] at hstall
  cases hs : c.control.state <;> rw [hs] at hstall <;> first | rfl | cases hstall

theorem not_prefetched_of_trigger {c : Core} {cfg : Generics} {ci : CoreInput}
    (ha : c.advance cfg ci = .trigger) : prefetched (c.stateNext cfg ci) = false := by
  have htrig := Core.advance_eq_trigger_iff.mp ha
  rw [Core.stallOnTrigger_eq] at htrig
  cases hs : c.control.state <;> rw [hs] at htrig
  case exec =>
    rw [Core.stateNext, hs]
    exact congrArg prefetched (Core.execNext_eq_debug_iff.mpr htrig)
  case debug =>
    rcases Core.stateNext_of_debug (i := ci) hs with h | h <;> rw [h] <;> rfl
  all_goals cases htrig

/-- Behind an instruction that leaves the execute stage the next word is fetched. -/
theorem pcOp_of_leaves {c : Core} {cfg : Generics} {ci : CoreInput} {o : Observer}
    (hinv : Core.PipelineInv cfg c o) (hleave : c.leaves cfg ci = true)
    (hn : prefetched (c.stateNext cfg ci) = true) : c.idEx.pcOp ≠ .hold := by
  cases hinv.stage with
  | target _ _ hin | fetched _ _ hin => rw [hin.pcOp]; decide
  | executing x instr hs hx hid hshape =>
    intro hop
    rcases hshape.pcOp_cases with ⟨h, -⟩ | ⟨h, -⟩ | ⟨h | h, -⟩ | ⟨h, -⟩ | ⟨-, h⟩
    · rw [hop] at h; cases h
    · rw [hop] at h; cases h
    · rw [hop] at h; cases h
    · rw [hop] at h; cases h
    · rw [hop] at h; cases h
    · exact Core.pcOp_ne_hold hinv.dcsr hs hleave h
  | loading _ _ _ hop => rw [hop]; decide
  | computed _ _ _ hop => rw [hop]; decide
  | computing _ hs | sleeping _ hs =>
    simp [Core.leaves, Core.stall_eq, hs] at hleave
  | trapping hs => rw [Core.stateNext, hs] at hn; cases hn
  | resuming hs => rw [Core.stateNext, hs] at hn; cases hn
  | halted hs =>
    rcases Core.stateNext_of_debug (i := ci) hs with h | h <;> rw [h] at hn <;> cases hn

theorem fetchInv_step {o : Observer} (hinv : FetchInv g s) (hp : Core.PipelineInv g.core s.core o)
    (hr : i.core.sreset = false) (hsafe : Core.TrapSafe g.core s.core (s.coreInput g i))
    (hu : debugging s.core.control.state = false → Undisturbed g s i) :
    FetchInv g (s.step g io i) := by
  intro hn slave hsel
  have hcore : (s.step g io i).core = s.core.clock g.core io (s.coreInput g i) := step_core hr
  rw [step_state hr] at hn
  rw [settled_step hr, instrWord_step]
  rw [hcore, Core.clock_ifIdPc] at hsel ⊢
  have hdebug : debugging s.core.control.state = false := by
    cases hs : s.core.control.state with
    | debug =>
      rcases Core.stateNext_of_debug (i := s.coreInput g i) hs with h | h <;> rw [h] at hn <;>
        cases hn
    | debugflush => rw [Core.stateNext, hs] at hn; cases hn
    | _ => rfl
  obtain ⟨-, hfetched, hport⟩ := hu hdebug
  have hnext (hleave : s.core.leaves g.core (s.coreInput g i) = true) :
      (if (s.core.instrRequest g.core (s.coreInput g i)).stall then s.bus.instrWord g.bus slave
        else s.bus.contents.word g.bus slave s.core.pc) =
          ((s.settled g).after g.bus (s.made g i)).fetch g.bus
            (s.core.nextIfIdPc g.core (s.coreInput g i)) := by
    have hif := Core.nextIfIdPc_of_leaves hleave (pcOp_of_leaves hp hleave hn)
    have hgo : (s.core.instrRequest g.core (s.coreInput g i)).stall = false := by
      simp only [Core.leaves, Bool.and_eq_true, Bool.not_eq_true'] at hleave
      rw [Core.instrRequest, hleave.1.1, hleave.1.2]
      rfl
    rw [hif] at hsel
    rw [hif, hgo, if_neg Bool.false_ne_true, hport, Contents.fetch, hsel]
  cases ha : s.core.advance g.core (s.coreInput g i) with
  | trigger => rw [not_prefetched_of_trigger ha] at hn; cases hn
  | trap =>
    rw [(Core.advance_trap_iff_stateNext hp.trap (i := s.coreInput g i) hr hsafe).mp ha] at hn
    cases hn
  | stall =>
    have hpre := prefetched_of_stall ha
    have hload := hp.loadPc_eq_false (fun hs => by rw [hs] at hpre; cases hpre)
    have hstall : (s.core.instrRequest g.core (s.coreInput g i)).stall = true := by
      rw [Core.instrRequest, (Core.advance_eq_stall_iff.mp ha).2.2]
      rfl
    rw [(Core.pcs_of_stall hload ha).2] at hsel ⊢
    rw [if_pos hstall, hinv hpre slave hsel, hfetched]
  | bubble => exact hnext ((Core.leaves_iff_advance _ _ _).mpr (.inl ha))
  | decode => exact hnext ((Core.leaves_iff_advance _ _ _).mpr (.inr ha))

end System

end ThuasRiscv
