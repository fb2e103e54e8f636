import ThuasRiscv.Core.CsrFrame
import ThuasRiscv.Core.Forwarding
import ThuasRiscv.Core.PipelineInvariant

/-!
# Instructions retired

The pulse that `minstret` counts is derived from the states of the controller and
not from the execute stage. A jump and an MRET are counted when their flush ends;
until then they are in flight.
-/

namespace ThuasRiscv

open Transition

/-! ## The counter -/

/-- `minstreth:minstret` -/
def CsrReg.retired (c : CsrReg) : BitVec 64 := c.minstreth ++ c.minstret

/-- A counter in two words is one of 64 bits. -/
theorem bump_append (enable : Bool) (low high : DataType) :
    ((bump enable low high).2 ++ (bump enable low high).1 : BitVec 64) =
      (high ++ low) + BitVec.ofNat 64 enable.toNat := by
  apply BitVec.eq_of_toNat_eq
  have happ : ∀ x y : DataType, (x ++ y : BitVec 64).toNat = x.toNat * 2 ^ 32 + y.toNat := by
    intro x y
    rw [BitVec.toNat_append, Nat.shiftLeft_eq, ← Nat.shiftLeft_eq,
      ← Nat.shiftLeft_add_eq_or_of_lt y.isLt, Nat.shiftLeft_eq]
  have hlow := low.isLt
  have hhigh := high.isLt
  cases enable with
  | false => simp [bump]
  | true =>
    rw [BitVec.toNat_add, happ, happ, bump, if_pos rfl]
    by_cases hall : low = BitVec.allOnes 32
    · subst hall
      simp [BitVec.toNat_add]
      omega
    · have hne : low.toNat ≠ 2 ^ 32 - 1 := fun h => hall (BitVec.eq_of_toNat_eq (by simpa using h))
      have hone : (low + 1).toNat = low.toNat + 1 := by
        have h1 : (1 : DataType).toNat = 1 := rfl
        rw [BitVec.toNat_add]
        omega
      simp only [hall, if_false, hone, Bool.toNat_true, BitVec.toNat_ofNat]
      omega

theorem add_one_and_ne {x k : DataType} (hk : k.getLsbD 0 = true) : (x + 1) &&& k ≠ x &&& k := by
  intro h
  have hbit := congrArg (BitVec.getLsbD · 0) h
  simp only [BitVec.getLsbD_and, hk, Bool.and_true] at hbit
  have hone : (1 : DataType).toNat = 1 := rfl
  simp only [BitVec.getLsbD, Nat.testBit_zero, BitVec.toNat_add, hone, decide_eq_decide] at hbit
  omega

theorem bump_low_iff {k : DataType} (hk : k.getLsbD 0 = true) (enable : Bool)
    (low high : DataType) : (bump enable low high).1 &&& k = low &&& k ↔ enable = false := by
  cases enable with
  | false => exact iff_of_true rfl rfl
  | true => exact iff_of_false (add_one_and_ne hk) (by decide)

theorem bump_high_iff {k : DataType} (hk : k.getLsbD 0 = true) (enable : Bool)
    (low high : DataType) : (bump enable low high).2 &&& k = high &&& k ↔
      (enable && low == BitVec.allOnes 32) = false := by
  cases enable with
  | false => exact iff_of_true rfl rfl
  | true =>
    rw [bump, if_pos rfl, Bool.true_and, beq_eq_false_iff_ne]
    by_cases hall : low = BitVec.allOnes 32
    · simp only [hall, if_true]
      exact iff_of_false (add_one_and_ne hk) fun h => h rfl
    · rw [if_neg hall]
      exact iff_of_true rfl hall

/-- Without bits to set or to clear a CSR instruction gives the old value back. -/
theorem csrOperate_of_read {op : CsrOp} (hop : op ≠ .rw ∧ op ≠ .rwi) (x : DataType) :
    csrOperate op 0 0 x = x := by
  cases op with
  | rw => exact absurd rfl hop.1
  | rwi => exact absurd rfl hop.2
  | nop => rfl
  | rs | rsi => simp [csrOperate]
  | rc | rci => exact BitVec.and_allOnes

namespace CsrReg

variable {cfg : Generics} {c : CsrReg} {g : CsrSignals}

/-- The two words of the counter. -/
def retiredWords (c : CsrReg) : DataType × DataType := (c.minstret, c.minstreth)

theorem retired_eq (c : CsrReg) : c.retired = c.retiredWords.2 ++ c.retiredWords.1 := rfl

theorem writeBack_retiredWords (n : CsrReg) {a : CsrAddr}
    (h : a ≠ minstretAddr ∧ a ≠ minstrethAddr) (v : DataType) :
    (n.writeBack a v).retiredWords = n.retiredWords := by
  unfold writeBack
  repeat refine field_ite retiredWords (fun h' => by
    first | rfl | exact absurd h' h.1 | exact absurd h' h.2) ?_
  split <;> (try split) <;> (try split) <;> rfl

theorem debugWrite_retiredWords (n : CsrReg) {a : CsrAddr}
    (h : a ≠ minstretAddr ∧ a ≠ minstrethAddr) (v : DataType) :
    (n.debugWrite a v).retiredWords = n.retiredWords :=
  field_ite retiredWords (fun _ => rfl)
    (field_ite retiredWords (fun _ => rfl) (n.writeBack_retiredWords h v))

theorem next_retiredWords : (c.next cfg g).retiredWords = (c.written cfg g).retiredWords := by
  rw [next_eq]
  exact field_ite retiredWords (fun _ => rfl) (field_ite retiredWords (fun _ => rfl) rfl)

theorem countUp_retiredWords (cfg : Generics) (hc : c.mcountinhibit.getLsbD 2 = false)
    (instret : Bool) (event : Fin 7 → Bool) :
    (c.countUp cfg instret event).retiredWords = bump instret c.minstret c.minstreth := by
  simp only [retiredWords, countUp, hc, Bool.not_false, Bool.and_true]

/-- The counter in one clock. -/
theorem next_retired (hc : c.mcountinhibit.getLsbD 2 = false)
    (hw : g.writes = true → g.addr ≠ minstretAddr ∧ g.addr ≠ minstrethAddr)
    (hd : g.debugWrites cfg = true → g.addr ≠ minstretAddr ∧ g.addr ≠ minstrethAddr) :
    (c.next cfg g).retired = c.retired + BitVec.ofNat 64 g.instret.toNat := by
  have hwritten : (c.written cfg g).retiredWords =
      (c.countUp cfg g.instret g.event).retiredWords :=
    written_frame retiredWords (fun h n v => n.writeBack_retiredWords (hw h) v)
      (fun h n v => n.debugWrite_retiredWords (hd h) v)
      (fun n => field_ite retiredWords (fun _ => rfl) rfl) fun _ _ => rfl
  rw [retired_eq, next_retiredWords, hwritten, countUp_retiredWords cfg hc, bump_append]
  rfl

/-- A CSR instruction writes after the counters have counted. -/
theorem written_retiredWords_of_writes (hw : g.writes = true) :
    (c.written cfg g).retiredWords = ((c.countUp cfg g.instret g.event).writeBack g.addr
      (csrOperate g.op g.dataout g.immrs1 (c.content g.dontCare g.addr))).retiredWords := by
  have hdebug : g.indebug = false := by
    simp only [CsrSignals.writes, Bool.and_eq_true, Bool.not_eq_true'] at hw
    exact hw.1.2
  have hcause : ∀ n : CsrReg, (n.loadCause cfg g.dcsrCause).retiredWords = n.retiredWords :=
    fun n => field_ite retiredWords (fun _ => rfl) rfl
  simp only [written, hdebug, hw, Bool.false_and, Bool.false_eq_true, if_false, if_true]
  exact field_ite retiredWords (fun _ => hcause _) (hcause _)

theorem retired_eq_iff {low high low' high' : DataType} :
    (high ++ low : BitVec 64) = high' ++ low' ↔ low = low' ∧ high = high' := by
  constructor
  · intro h
    have hlow := congrArg (BitVec.extractLsb' 0 32) h
    have hhigh := congrArg (BitVec.extractLsb' 32 32) h
    rw [BitVec.extractLsb'_append_eq_right, BitVec.extractLsb'_append_eq_right] at hlow
    rw [BitVec.extractLsb'_append_eq_left, BitVec.extractLsb'_append_eq_left] at hhigh
    exact ⟨hlow, hhigh⟩
  · intro h
    rw [h.1, h.2]

/-- A CSR instruction that only reads writes the old word over the count. -/
theorem next_retired_of_read_iff (cfg : Generics) (hc : c.mcountinhibit.getLsbD 2 = false)
    (hw : g.writes = true) (hop : g.op ≠ .rw ∧ g.op ≠ .rwi) (hzero : g.dataout = 0)
    (himm : g.immrs1 = 0) (ha : g.addr = minstretAddr ∨ g.addr = minstrethAddr) :
    (c.next cfg g).retired = c.retired + BitVec.ofNat 64 g.instret.toNat ↔
      (g.instret = true → g.addr ≠ minstretAddr ∧
        (g.addr = minstrethAddr → c.minstret ≠ BitVec.allOnes 32)) := by
  have hones : (BitVec.allOnes 32).getLsbD 0 = true := by decide
  have hcount := countUp_retiredWords cfg hc g.instret g.event
  have hold : c.retired + BitVec.ofNat 64 g.instret.toNat =
      (bump g.instret c.minstret c.minstreth).2 ++ (bump g.instret c.minstret c.minstreth).1 :=
    (bump_append _ _ _).symm
  have hnext : (c.next cfg g).retiredWords = _ :=
    next_retiredWords.trans (written_retiredWords_of_writes hw)
  rw [hzero, himm, csrOperate_of_read hop] at hnext
  rw [hold, retired_eq, hnext]
  rcases ha with ha | ha
  · have hlow := bump_low_iff hones g.instret c.minstret c.minstreth
    rw [BitVec.and_allOnes, BitVec.and_allOnes] at hlow
    rw [ha]
    change ((c.countUp cfg g.instret g.event).retiredWords.2 ++ c.minstret : BitVec 64) = _ ↔ _
    rw [hcount, retired_eq_iff, eq_comm, hlow]
    simp
  · have hhigh := bump_high_iff hones g.instret c.minstret c.minstreth
    rw [BitVec.and_allOnes, BitVec.and_allOnes] at hhigh
    rw [ha]
    change (c.minstreth ++ (c.countUp cfg g.instret g.event).retiredWords.1 : BitVec 64) = _ ↔ _
    rw [hcount, retired_eq_iff, eq_comm (a := c.minstreth), hhigh]
    cases g.instret <;> simp [minstretAddr, minstrethAddr]

end CsrReg

/-! ## What is counted -/

/-- The pipeline is flushed after a jump or an MRET. -/
def StateType.flushing : StateType → Bool
  | .flush | .flush2 | .mret | .mret2 => true
  | _ => false

/-- A CSR instruction neither jumps nor returns from a trap. -/
theorem IdEx.Shape.plain_of_csr {cfg : Generics} {pc instr : DataType} {d : IdEx}
    (h : IdEx.Shape cfg pc instr d) (hop : d.csrOp ≠ .nop) :
    d.aluOp.plain = true ∧ d.mretRequest = false := by
  cases h with
  | csr => exact ⟨rfl, rfl⟩
  | _ => exact absurd rfl hop

namespace Core

variable {cfg : Generics} {io : Peripherals} {s : Core} {o : Observer} {i : CoreInput}

/-- A jump or an MRET that is not counted yet. -/
def inFlight (s : Core) : Bool := s.control.state.flushing

/-- The core and its observer with the number of instructions that it has completed. -/
def counted (cfg : Generics) (io : Peripherals) : Machine ((Core × Observer) × ℕ) CoreInput :=
  (observed cfg io).observe 0 fun p i n =>
    if i.sreset then 0 else n + (p.2.commits cfg p.1 i).isSome.toNat

/-- The CSR instruction of this clock writes its register: it exchanges the value, or its source is
not `x0` and not the immediate 0. -/
def modifiesCsr (cfg : Generics) (s : Core) (i : CoreInput) : Bool :=
  s.writesCsr cfg i && (s.idEx.csrOp = .rw || s.idEx.csrOp = .rwi || s.idEx.csrImmrs1 ≠ 0)

/-- The counter is enabled and neither software nor the debugger writes it. -/
structure CounterRuns (cfg : Generics) (s : Core) (i : CoreInput) : Prop where
  enabled : s.csr.mcountinhibit.getLsbD 2 = false
  program : s.modifiesCsr cfg i = true → s.csrAddrV i ≠ minstretAddr ∧ s.csrAddrV i ≠ minstrethAddr
  debugger : (s.csrSignals cfg i).debugWrites cfg = true →
    s.csrAddrV i ≠ minstretAddr ∧ s.csrAddrV i ≠ minstrethAddr

/-- The pulse agrees with the execute stage: no executing cycle has an empty execute stage, as the
first one after a trap entry has, and no instruction completes in `state_exec` with a memory access
of one cycle, on a breakpoint address or under a halt request that is not served; no trap is
requested when the wait for the memory or for the MD unit ends. -/
structure PulseAgrees (cfg : Generics) (s : Core) (o : Observer) (i : CoreInput) : Prop where
  empty : s.control.state = .exec → s.leaves cfg i = true → o.slot = none →
    (s.bpmatch = true ∨ i.haltReq = true) ∧ s.idEx.mretRequest = false
  plain : s.control.state = .exec → s.leaves cfg i = true → o.slot ≠ none →
    s.penalty = true ∨ s.idEx.ismem = false ∧ s.bpmatch = false ∧ i.haltReq = false
  mem : s.control.state = .mem → i.bus.ready = true → s.trapRequest cfg i = false
  md : s.control.state = .md2 → s.trapRequest cfg i = false ∧ o.slot ≠ none

/-- The pulse agrees with the execute stage and reaches the counter: no completing instruction reads
`minstret`, or `minstreth` when the low word overflows, since the read writes the old word over the
count, and the `x0` that such a read has as its source is zero. -/
structure CountsOnce (cfg : Generics) (s : Core) (o : Observer) (i : CoreInput) : Prop where
  pulse : PulseAgrees cfg s o i
  zero : s.writesCsr cfg i = true → s.csrAddrV i = minstretAddr ∨ s.csrAddrV i = minstrethAddr →
    s.operandA = 0
  read : s.leaves cfg i = true → s.writesCsr cfg i = true → s.csrAddrV i ≠ minstretAddr ∧
    (s.csrAddrV i = minstrethAddr → s.csr.minstret ≠ BitVec.allOnes 32)

instance : Decidable (CounterRuns cfg s i) :=
  decidable_of_iff
    (s.csr.mcountinhibit.getLsbD 2 = false ∧
      (s.modifiesCsr cfg i = true → s.csrAddrV i ≠ minstretAddr ∧ s.csrAddrV i ≠ minstrethAddr) ∧
      ((s.csrSignals cfg i).debugWrites cfg = true →
        s.csrAddrV i ≠ minstretAddr ∧ s.csrAddrV i ≠ minstrethAddr))
    ⟨fun h => ⟨h.1, h.2.1, h.2.2⟩, fun h => ⟨h.1, h.2, h.3⟩⟩

set_option synthInstance.maxSize 1000 in
instance : Decidable (PulseAgrees cfg s o i) :=
  decidable_of_iff
    ((s.control.state = .exec → s.leaves cfg i = true → o.slot.isNone = true →
        (s.bpmatch = true ∨ i.haltReq = true) ∧ s.idEx.mretRequest = false) ∧
      (s.control.state = .exec → s.leaves cfg i = true → o.slot.isSome = true →
        s.penalty = true ∨ s.idEx.ismem = false ∧ s.bpmatch = false ∧ i.haltReq = false) ∧
      (s.control.state = .mem → i.bus.ready = true → s.trapRequest cfg i = false) ∧
      (s.control.state = .md2 → s.trapRequest cfg i = false ∧ o.slot.isSome = true))
    (by
      simp only [Option.isNone_iff_eq_none, Option.isSome_iff_ne_none]
      exact ⟨fun h => ⟨h.1, h.2.1, h.2.2.1, h.2.2.2⟩, fun h => ⟨h.1, h.2, h.3, h.4⟩⟩)

instance : Decidable (CountsOnce cfg s o i) :=
  decidable_of_iff
    (PulseAgrees cfg s o i ∧
      (s.writesCsr cfg i = true → s.csrAddrV i = minstretAddr ∨ s.csrAddrV i = minstrethAddr →
        s.operandA = 0) ∧
      (s.leaves cfg i = true → s.writesCsr cfg i = true → s.csrAddrV i ≠ minstretAddr ∧
        (s.csrAddrV i = minstrethAddr → s.csr.minstret ≠ BitVec.allOnes 32)))
    ⟨fun h => ⟨h.1, h.2.1, h.2.2⟩, fun h => ⟨h.1, h.2, h.3⟩⟩

/-! ## The pulse -/

/-- An EBREAK traps or halts. -/
theorem ebreak_of_leaves (hd : cfg.haveOcd = false → s.csr.dcsr = 0)
    (hs : s.control.state = .exec) (h : s.leaves cfg i = true) : s.idEx.ebreakRequest = false := by
  by_contra he
  simp only [Bool.not_eq_false] at he
  simp only [leaves, Bool.and_eq_true, Bool.not_eq_true', stallOnTrigger_eq, hs, triggers] at h
  cases hm : s.ebreakm with
  | true =>
    have ho : cfg.haveOcd = true := by
      by_contra ho
      simp [ebreakm, hd (by simpa using ho)] at hm
    simp [ho, he, hm] at h
  | false =>
    have hebreak := (noException_of_trapRequest h.2).ebreak
    rw [he, hm] at hebreak
    cases hebreak

theorem instret_exec (hd : cfg.haveOcd = false → s.csr.dcsr = 0)
    (hs : s.control.state = .exec) : s.instret cfg i = (s.leaves cfg i && !s.idEx.ismem &&
      !s.penalty && !s.idEx.mretRequest && !i.haltReq && !s.bpmatch) := by
  cases hl : s.leaves cfg i with
  | true =>
    have he := ebreak_of_leaves hd hs hl
    simp only [leaves, Bool.and_eq_true, Bool.not_eq_true', stall_eq, hs,
      Bool.or_eq_false_iff] at hl
    simp [instret, hs, hl, he]
  | false =>
    simp only [leaves, stall_eq, hs] at hl
    simp only [instret, hs]
    cases ht : s.trapRequest cfg i <;> cases hg : s.stallOnTrigger cfg i <;>
      cases hm : s.idEx.ismem <;> cases hmd : s.idEx.mdStart <;> simp_all

theorem instret_eq (hd : cfg.haveOcd = false → s.csr.dcsr = 0) :
    s.instret cfg i = match s.control.state with
      | .exec => s.leaves cfg i && !s.idEx.ismem && !s.penalty && !s.idEx.mretRequest &&
          !i.haltReq && !s.bpmatch
      | .mem => i.bus.ready
      | .md2 | .flush2 | .mret2 => true
      | _ => false := by
  cases hs : s.control.state
  case exec => exact instret_exec hd hs
  all_goals simp [instret, hs]

/-! ## The execute stage -/

/-- What the execute stage holds in a run whose instructions are counted once. -/
structure RetireInv (cfg : Generics) (s : Core) (o : Observer) : Prop where
  dcsr : cfg.haveOcd = false → s.csr.dcsr = 0
  debug : s.control.state = .debug → cfg.haveOcd = true
  coherent : s.idEx.Coherent
  filled : o.slot ≠ none → s.control.state = .exec ∨ s.control.state = .mem ∨
    s.control.state = .md ∨ s.control.state = .md2 ∨ s.control.state = .wfi ∨
    s.control.state = .debug
  empty : o.slot = none → s.idEx.ismem = false ∧ s.idEx.mdStart = false ∧
    s.idEx.wfiRequest = false ∧ s.idEx.aluOp.plain = true ∧ s.idEx.csrOp = .nop
  csr : s.idEx.csrOp ≠ .nop → s.idEx.aluOp.plain = true ∧ s.idEx.mretRequest = false
  mret : o.slot ≠ none → s.idEx.mretRequest = true → s.idEx.aluOp = .mret
  mem : s.control.state = .mem → o.slot ≠ none

theorem retireInv_initial (cfg : Generics) :
    RetireInv cfg (Core.initial cfg) (Observer.initial cfg) where
  dcsr _ := rfl
  debug h := by cases h
  coherent := .of_inert rfl rfl rfl
  filled h := absurd rfl h
  empty _ := ⟨rfl, rfl, rfl, rfl, rfl⟩
  csr h := absurd rfl h
  mret h := absurd rfl h
  mem h := by cases h

theorem stateNext_of_not_leaves (hc : s.idEx.Coherent) (hs : s.control.state = .exec)
    (h : s.leaves cfg i = false) : (s.stateNext cfg i).flushing = false := by
  cases ha : s.advance cfg i with
  | trigger =>
    have htrig := advance_eq_trigger_iff.mp ha
    simp only [stallOnTrigger_eq, hs] at htrig
    simp [stateNext, hs, execNext, htrig, StateType.flushing]
  | trap =>
    obtain ⟨hg, ht⟩ := advance_eq_trap_iff.mp ha
    simp only [stallOnTrigger_eq, hs] at hg
    simp [stateNext, hs, execNext, hg, ht, StateType.flushing]
  | stall =>
    rcases stall_cases hc ha with ⟨-, -, -, hn⟩ | ⟨-, -, hn⟩ | ⟨h', -⟩ | ⟨h', -⟩ | ⟨h', -⟩
    · rw [hn]; rfl
    · rw [hn]; rfl
    all_goals rw [hs] at h'; cases h'
  | bubble => rw [(advance_eq_bubble_iff.mp ha).1] at h; cases h
  | decode => rw [(advance_eq_decode_iff.mp ha).1] at h; cases h

/-! ## One clock -/

/-- The number of instructions that the pulse has not counted yet, after a clock. -/
def Balanced (cfg : Generics) (s : Core) (o : Observer) (i : CoreInput) : Prop :=
  (s.instret cfg i).toNat + (s.stateNext cfg i).flushing.toNat =
    s.inFlight.toNat + (o.commits cfg s i).isSome.toNat

theorem balanced_exec (hinv : RetireInv cfg s o) (hs : s.control.state = .exec) :
    Balanced cfg s o i ↔ PulseAgrees cfg s o i := by
  have hcounts : PulseAgrees cfg s o i ↔ (s.leaves cfg i = true →
      (o.slot = none → (s.bpmatch = true ∨ i.haltReq = true) ∧ s.idEx.mretRequest = false) ∧
      (o.slot ≠ none →
        s.penalty = true ∨ s.idEx.ismem = false ∧ s.bpmatch = false ∧ i.haltReq = false)) := by
    constructor
    · exact fun h hl => ⟨h.empty hs hl, h.plain hs hl⟩
    · intro h
      exact ⟨fun _ hl => (h hl).1, fun _ hl => (h hl).2, fun hs' => by simp [hs] at hs',
        fun hs' => by simp [hs] at hs'⟩
  rw [hcounts, Balanced, instret_eq hinv.dcsr, hs]
  have hfly : s.inFlight = false := by simp [inFlight, hs, StateType.flushing]
  cases hl : s.leaves cfg i with
  | false =>
    rw [stateNext_of_not_leaves hinv.coherent hs hl, commits_of_not_leaves hl, hfly]
    simp
  | true =>
    rw [stateNext_of_leaves hs hl, commits_of_leaves hl, hfly]
    cases hslot : o.slot with
    | none =>
      obtain ⟨hmem, -, hwfi, hplain, -⟩ := hinv.empty hslot
      rw [hmem, hwfi, penalty_plain hplain]
      cases s.idEx.mretRequest <;> cases i.haltReq <;> cases s.bpmatch <;>
        simp [StateType.flushing]
    | some x =>
      have hmret := hinv.mret (by simp [hslot])
      cases hw : s.idEx.wfiRequest with
      | true =>
        obtain ⟨hplain, hm⟩ := hinv.coherent.wfi hw
        have hmem : s.idEx.ismem = false := by
          by_contra hmem
          simp [(hinv.coherent.mem (by simpa using hmem)).2.1] at hw
        rw [penalty_plain hplain, hm, hmem]
        cases i.haltReq <;> cases s.bpmatch <;> simp [StateType.flushing]
      | false =>
        cases hm : s.idEx.mretRequest with
        | true => simp [penalty_mret (hmret hm), StateType.flushing]
        | false =>
          cases hp : s.penalty with
          | true => simp [StateType.flushing]
          | false =>
            cases s.idEx.ismem <;> cases i.haltReq <;> cases s.bpmatch <;>
              simp [StateType.flushing]

/-- The pulse balances the completed instructions if and only if it agrees with the execute
stage. -/
theorem balanced_iff (hinv : RetireInv cfg s o) :
    Balanced cfg s o i ↔ PulseAgrees cfg s o i := by
  by_cases hs : s.control.state = .exec
  · exact balanced_exec hinv hs
  have hcounts : PulseAgrees cfg s o i ↔
      (s.control.state = .mem → i.bus.ready = true → s.trapRequest cfg i = false) ∧
      (s.control.state = .md2 → s.trapRequest cfg i = false ∧ o.slot ≠ none) :=
    ⟨fun h => ⟨h.mem, h.md⟩, fun h => ⟨fun h' => absurd h' hs, fun h' => absurd h' hs, h.1, h.2⟩⟩
  rw [hcounts, Balanced, instret_eq hinv.dcsr, inFlight, stateNext]
  cases h : s.control.state
  case exec => exact absurd h hs
  case mem =>
    have hcommits : (o.commits cfg s i).isSome = (i.bus.ready && !s.trapRequest cfg i) := by
      have hsome := Option.isSome_iff_ne_none.mpr (hinv.mem h)
      simp [Observer.commits, leaves, stall_eq, stallOnTrigger_eq, h,
        apply_ite Option.isSome, hsome]
    rw [hcommits]
    cases i.bus.ready <;> cases s.trapRequest cfg i <;> simp [StateType.flushing]
  case md2 =>
    have hcommits : (o.commits cfg s i).isSome = (!s.trapRequest cfg i && o.slot.isSome) := by
      cases ht : s.trapRequest cfg i <;>
        simp [Observer.commits, leaves, stall_eq, stallOnTrigger_eq, h, ht]
    rw [hcommits]
    cases s.trapRequest cfg i <;> cases o.slot <;> simp [StateType.flushing]
  case md =>
    have hc : o.commits cfg s i = none := commits_of_not_leaves (by simp [leaves, stall_eq, h])
    rw [hc]
    cases s.mdReady cfg <;> simp [StateType.flushing]
  case wfi =>
    have hc : o.commits cfg s i = none := commits_of_not_leaves (by simp [leaves, stall_eq, h])
    rw [hc]
    cases i.haltReq && cfg.haveOcd <;> cases s.trapRequest cfg i <;> simp [StateType.flushing]
  case debug =>
    have hc : o.commits cfg s i = none :=
      commits_of_not_leaves (by simp [leaves, stallOnTrigger_eq, h, hinv.debug h])
    rw [hc]
    cases i.resumeReq <;> simp [StateType.flushing]
  case trap2 =>
    have hc : o.commits cfg s i = none := commits_of_none (by simpa [h] using hinv.filled)
    rw [hc]
    cases s.isstepping <;> simp [StateType.flushing]
  all_goals
    have hc : o.commits cfg s i = none := commits_of_none (by simpa [h] using hinv.filled)
    simp [hc, StateType.flushing]

/-! ## Runs -/

/-- No decoded instruction is in the execute stage while an MRET flushes the pipeline. -/
theorem stateNext_ne_mret (hinv : RetireInv cfg s o) (hc : PulseAgrees cfg s o i)
    (ha : s.advance cfg i = .decode) : s.stateNext cfg i ≠ .mret := by
  intro h
  obtain ⟨hleave, hflush⟩ := advance_eq_decode_iff.mp ha
  by_cases hs : s.control.state = .exec
  · have hm : s.idEx.mretRequest = true := by
      by_contra hm
      rw [stateNext_of_leaves hs hleave] at h
      split_ifs at h
    by_cases hslot : o.slot = none
    · rw [(hc.empty hs hleave hslot).2] at hm
      cases hm
    · have hp := penalty_mret (hinv.mret hslot hm)
      simp [flushDecode, flush, hp] at hflush
  · unfold stateNext at h
    cases h' : s.control.state <;> simp only [h'] at h
    case exec => exact hs h'
    all_goals first | cases h | (split_ifs at h)

theorem retireInv_filled (hinv : RetireInv cfg s o) (hc : PulseAgrees cfg s o i)
    (h : o.nextSlot cfg s i ≠ none) : s.stateNext cfg i = .exec ∨ s.stateNext cfg i = .mem ∨
      s.stateNext cfg i = .md ∨ s.stateNext cfg i = .md2 ∨ s.stateNext cfg i = .wfi ∨
      s.stateNext cfg i = .debug := by
  rcases stateNext_of_nextSlot hinv.debug hinv.coherent h with
    hn | hn | hn | hn | hn | hn | ⟨hn, ha⟩
  case inr.inr.inr.inr.inr.inr => exact absurd hn (stateNext_ne_mret hinv hc ha)
  all_goals simp [hn]

theorem retireInv_clock (hinv : RetireInv cfg s o) (hc : PulseAgrees cfg s o i) :
    RetireInv cfg (s.clock cfg io i) (o.clock cfg io s i) where
  dcsr h := CsrReg.next_dcsr h
  debug h := haveOcd_of_stateNext hinv.debug (clock_state cfg io s i ▸ h)
  coherent := coherent_nextIdEx
  filled h := by
    rw [clock_state]
    exact retireInv_filled hinv hc h
  empty h := by
    have h : o.nextSlot cfg s i = none := h
    rw [clock_idEx, nextIdEx_eq]
    rw [Observer.nextSlot] at h
    cases ha : s.advance cfg i with
    | stall =>
      rw [ha] at h
      exact ⟨rfl, rfl, rfl, (hinv.empty h).2.2.2⟩
    | decode =>
      rw [ha] at h
      cases h
    | _ => exact ⟨rfl, rfl, rfl, rfl, rfl⟩
  csr h := by
    rw [clock_idEx, nextIdEx_eq] at h ⊢
    cases ha : s.advance cfg i with
    | stall =>
      rw [ha] at h
      exact hinv.csr h
    | decode =>
      rw [ha] at h
      exact (decode_shape _ _ _ _ _).plain_of_csr h
    | _ =>
      rw [ha] at h
      exact absurd rfl h
  mret h hm := by
    obtain ⟨x, hx⟩ := Option.ne_none_iff_exists'.mp h
    rw [clock_idEx] at hm ⊢
    rcases nextSlot_eq_some hx with ⟨-, hslot, hid⟩ | ⟨ha, -, -⟩
    · rw [hid] at hm ⊢
      exact hinv.mret (by simp [hslot]) hm
    · rw [nextIdEx_eq, ha] at hm ⊢
      exact (decode_shape _ _ _ _ _).aluOp_of_mret hm
  mem h := by
    obtain ⟨ha, hcase⟩ := advance_of_stateNext_mem (clock_state cfg io s i ▸ h)
    change o.nextSlot cfg s i ≠ none
    rw [nextSlot_of_stall ha]
    rcases hcase with ⟨-, hm⟩ | hs
    · intro hslot
      rw [(hinv.empty hslot).1] at hm
      cases hm
    · exact hinv.mem hs

/-- A clock of a run in which the counter counts and no instruction is miscounted. -/
def RetireSafe (cfg : Generics) (p : (Core × Observer) × ℕ) (i : CoreInput) : Prop :=
  i.sreset = false → CounterRuns cfg p.1.1 i ∧ CountsOnce cfg p.1.1 p.1.2 i

/-- The counter and the instruction in flight give the number of completed instructions. -/
def CountsRetired (s : Core) (n : ℕ) : Prop :=
  s.csr.retired + BitVec.ofNat 64 s.inFlight.toNat = BitVec.ofNat 64 n

theorem countsRetired_reset (hc : s.csr = .reset) (hs : s.control = .reset) :
    CountsRetired s 0 := by
  rw [CountsRetired, hc, inFlight, hs]
  rfl

/-- A CSR instruction on the counter only reads it. -/
theorem CounterRuns.reads (hc : CounterRuns cfg s i) (hw : s.writesCsr cfg i = true)
    (ha : s.csrAddrV i = minstretAddr ∨ s.csrAddrV i = minstrethAddr) :
    (s.idEx.csrOp ≠ .rw ∧ s.idEx.csrOp ≠ .rwi) ∧ s.idEx.csrImmrs1 = 0 := by
  have hm : s.modifiesCsr cfg i = false := by
    by_contra hm
    obtain ⟨hlow, hhigh⟩ := hc.program (by simpa using hm)
    exact ha.elim hlow hhigh
  simpa [modifiesCsr, hw, and_assoc] using hm

/-- The pulse reaches the counter. -/
def CountArrives (cfg : Generics) (s : Core) (i : CoreInput) : Prop :=
  s.instret cfg i = true → s.writesCsr cfg i = true → s.csrAddrV i ≠ minstretAddr ∧
    (s.csrAddrV i = minstrethAddr → s.csr.minstret ≠ BitVec.allOnes 32)

theorem retired_clock_iff (io : Peripherals) (hc : CounterRuns cfg s i)
    (hz : s.writesCsr cfg i = true → s.csrAddrV i = minstretAddr ∨ s.csrAddrV i = minstrethAddr →
      s.operandA = 0) :
    (s.clock cfg io i).csr.retired =
        s.csr.retired + BitVec.ofNat 64 (s.instret cfg i).toNat ↔ CountArrives cfg s i := by
  by_cases hread : s.writesCsr cfg i = true ∧
      (s.csrAddrV i = minstretAddr ∨ s.csrAddrV i = minstrethAddr)
  · obtain ⟨hw, ha⟩ := hread
    obtain ⟨hop, himm⟩ := hc.reads hw ha
    have h := CsrReg.next_retired_of_read_iff cfg hc.enabled hw hop (hz hw ha) himm ha
    exact h.trans ⟨fun h hi _ => h hi, fun h hi => h hi hw⟩
  · have hw : s.writesCsr cfg i = true →
        s.csrAddrV i ≠ minstretAddr ∧ s.csrAddrV i ≠ minstrethAddr := by
      intro hw
      exact not_or.mp fun ha => hread ⟨hw, ha⟩
    have h : (s.clock cfg io i).csr.retired =
        s.csr.retired + BitVec.ofNat 64 (s.instret cfg i).toNat :=
      CsrReg.next_retired hc.enabled hw hc.debugger
    exact iff_of_true h fun _ hw' => ⟨(hw hw').1, fun ha => absurd ha (hw hw').2⟩

theorem of_writesCsr (h : s.writesCsr cfg i = true) : s.idEx.csrOp ≠ .nop ∧
    s.trapRequest cfg i = false ∧ s.indebug = false ∧ s.stallOnTrigger cfg i = false := by
  change (s.csrSignals cfg i).writes = true at h
  simp only [CsrSignals.writes, csrSignals, Bool.and_eq_true, Bool.not_eq_true'] at h
  exact ⟨of_decide_eq_true h.1.1.1, h.1.1.2, h.1.2, h.2⟩

/-- A CSR instruction does not wait in a clock that counts. -/
theorem leaves_of_instret (hinv : RetireInv cfg s o) (hi : s.instret cfg i = true)
    (hw : s.writesCsr cfg i = true) : s.leaves cfg i = true := by
  obtain ⟨-, htrap, -, htrigger⟩ := of_writesCsr hw
  rw [instret_eq hinv.dcsr] at hi
  cases hs : s.control.state <;> simp only [hs] at hi
  case exec =>
    simp only [Bool.and_eq_true] at hi
    exact hi.1.1.1.1.1
  case mem => simp [leaves, stall_eq, htrap, htrigger, hs, hi]
  case md2 | flush2 | mret2 => simp [leaves, stall_eq, htrap, htrigger, hs]
  all_goals cases hi

/-- A CSR instruction that leaves the execute stage completes, and it is no jump. -/
theorem completes_of_csr (hinv : RetireInv cfg s o) (hl : s.leaves cfg i = true)
    (hw : s.writesCsr cfg i = true) : s.inFlight = false ∧
      (s.stateNext cfg i).flushing = false ∧ (o.commits cfg s i).isSome = true := by
  obtain ⟨hop, htrap, hdebug, -⟩ := of_writesCsr hw
  obtain ⟨hplain, hmret⟩ := hinv.csr hop
  have hslot : o.slot ≠ none := fun h => hop (hinv.empty h).2.2.2.2
  have hcommits : (o.commits cfg s i).isSome = true := by
    rw [commits_of_leaves hl]
    exact Option.isSome_iff_ne_none.mpr hslot
  have hstall : s.stall i = false := by
    simp only [leaves, Bool.and_eq_true, Bool.not_eq_true'] at hl
    exact hl.1.1
  rw [stall_eq] at hstall
  rw [inFlight]
  rcases hinv.filled hslot with hs | hs | hs | hs | hs | hs
  · rw [stateNext_of_leaves hs hl, penalty_plain hplain, hmret, hs]
    cases s.idEx.wfiRequest <;> exact ⟨rfl, rfl, hcommits⟩
  · have hready : i.bus.ready = true := by simpa [hs] using hstall
    simp [stateNext, hs, hready, htrap, hcommits, StateType.flushing]
  · simp [hs] at hstall
  · simp [stateNext, hs, hcommits, StateType.flushing]
  · simp [hs] at hstall
  · simp [indebug, hs] at hdebug

/-- Where the count reaches the counter, it keeps up if and only if the pulse is balanced. -/
theorem countsRetired_clock {n : ℕ} (h : CountsRetired s n)
    (hr : (s.clock cfg io i).csr.retired =
      s.csr.retired + BitVec.ofNat 64 (s.instret cfg i).toNat) :
    CountsRetired (s.clock cfg io i) (n + (o.commits cfg s i).isSome.toNat) ↔
      Balanced cfg s o i := by
  have hfly : (s.clock cfg io i).inFlight = (s.stateNext cfg i).flushing := by
    rw [inFlight, clock_state]
  have hn : BitVec.ofNat 64 n = s.csr.retired + BitVec.ofNat 64 s.inFlight.toNat := h.symm
  rw [CountsRetired, hr, hfly, BitVec.ofNat_add, hn, BitVec.add_assoc,
    BitVec.add_assoc, BitVec.add_right_inj, Balanced]
  cases s.instret cfg i <;> cases (s.stateNext cfg i).flushing <;>
    cases s.inFlight <;> cases (o.commits cfg s i).isSome <;> decide

/-- The counter keeps up in a clock if and only if it counts once. -/
theorem countsRetired_clock_iff {n : ℕ} (hinv : RetireInv cfg s o) (h : CountsRetired s n)
    (hc : CounterRuns cfg s i) (hz : s.writesCsr cfg i = true →
      s.csrAddrV i = minstretAddr ∨ s.csrAddrV i = minstrethAddr → s.operandA = 0) :
    CountsRetired (s.clock cfg io i) (n + (o.commits cfg s i).isSome.toNat) ↔
      CountsOnce cfg s o i := by
  by_cases harrives : CountArrives cfg s i
  · rw [countsRetired_clock h ((retired_clock_iff io hc hz).mpr harrives), balanced_iff hinv]
    constructor
    · intro hp
      refine ⟨hp, hz, fun hl hw => harrives ?_ hw⟩
      have hbal : Balanced cfg s o i := (balanced_iff hinv).mpr hp
      obtain ⟨hfly, hnext, hcommits⟩ := completes_of_csr hinv hl hw
      rw [Balanced, hfly, hnext, hcommits] at hbal
      simpa using hbal
    · exact CountsOnce.pulse
  · -- The pulse of a completing read is lost.
    obtain ⟨hi, hlost⟩ := Classical.not_imp.mp harrives
    obtain ⟨hw, hno⟩ := Classical.not_imp.mp hlost
    have hl : s.leaves cfg i = true := leaves_of_instret hinv hi hw
    apply iff_of_false
    · intro hcount
      obtain ⟨hfly, hnext, hcommits⟩ := completes_of_csr hinv hl hw
      apply harrives
      rw [← retired_clock_iff io hc hz, hi]
      have hfly' : (s.clock cfg io i).inFlight = false := by rw [inFlight, clock_state, hnext]
      rw [CountsRetired, hfly'] at hcount
      rw [CountsRetired, hfly] at h
      rw [hcommits, BitVec.ofNat_add, ← h] at hcount
      simpa using hcount
    · intro honce
      exact hno (honce.read hl hw)

instance {p : (Core × Observer) × ℕ} : Decidable (RetireSafe cfg p i) :=
  inferInstanceAs (Decidable (_ → _))

theorem retireInv_of_reachable {n : ℕ}
    (h : (counted cfg io).Reachable (RetireSafe cfg) ((s, o), n)) :
    RetireInv cfg s o ∧ CountsRetired s n := by
  refine h.invariant (P := fun p => RetireInv cfg p.1.1 p.1.2 ∧ CountsRetired p.1.1 p.2)
    ⟨retireInv_initial cfg, countsRetired_reset rfl rfl⟩ ?_
  rintro ⟨⟨s, o⟩, n⟩ i - hsafe ⟨hinv, hcount⟩
  change RetireInv cfg (s.step cfg io i) (o.next cfg io s i) ∧
    CountsRetired (s.step cfg io i)
      (if i.sreset then 0 else n + (o.commits cfg s i).isSome.toNat)
  cases hr : i.sreset with
  | true =>
    rw [step_reset _ _ _ _ hr, Observer.next, if_pos hr]
    have h := retireInv_initial cfg
    exact ⟨⟨fun _ => rfl, h.debug, h.coherent, fun h => absurd rfl h,
      fun _ => ⟨rfl, rfl, rfl, rfl, rfl⟩, fun h => absurd rfl h, fun h => absurd rfl h, h.mem⟩,
      countsRetired_reset rfl rfl⟩
  | false =>
    obtain ⟨hruns, honce⟩ := hsafe hr
    rw [step_clock _ _ _ _ hr, Observer.next, if_neg (by simp [hr])]
    exact ⟨retireInv_clock hinv honce.pulse,
      (countsRetired_clock_iff hinv hcount hruns honce.zero).mpr honce⟩

/-- In a run without writes of the counter and without a miscounted clock the counter holds the
number of completed instructions, but for a jump or an MRET that is being flushed. A further clock,
in which `x0` reads zero, keeps this if and only if it is not miscounted either. -/
theorem minstret_counts_retired (cfg : Generics) (io : Peripherals) {s : Core} {o : Observer}
    {n : ℕ} (h : (counted cfg io).Reachable (RetireSafe cfg) ((s, o), n)) :
    CountsRetired s n ∧ ∀ i : CoreInput, i.sreset = false → CounterRuns cfg s i →
      (s.idEx.csrImmrs1 = 0 → s.operandA = 0) →
        (CountsRetired (s.step cfg io i) (n + (o.commits cfg s i).isSome.toNat) ↔
          CountsOnce cfg s o i) := by
  obtain ⟨hinv, hcount⟩ := retireInv_of_reachable h
  refine ⟨hcount, fun i hr hruns hzero => ?_⟩
  rw [step_clock _ _ _ _ hr]
  exact countsRetired_clock_iff hinv hcount hruns fun hw ha => hzero (hruns.reads hw ha).2

/-- The inputs of a run of a program, with one stimulus for each clock. -/
def countedProgram (words : List DataType) (xs : List Stimulus) : (Core × Observer) × ℕ :=
  (counted .plain .none).run (programInputs .plain .none words xs)

/-- `addi x1, x0, 5; mul x2, x1, x1; jal x0, 8; addi x0, x0, 0; addi x3, x2, 1` -/
theorem mul_and_jump_count_once :
    CountsRetired
        (countedProgram [0x00500093, 0x02108133, 0x0080006f, 0x00000013, 0x00110193]
          (.replicate 10 .quiet)).1.1
        (countedProgram [0x00500093, 0x02108133, 0x0080006f, 0x00000013, 0x00110193]
          (.replicate 10 .quiet)).2 ∧
      (countedProgram [0x00500093, 0x02108133, 0x0080006f, 0x00000013, 0x00110193]
        (.replicate 10 .quiet)).2 = 4 :=
  ⟨(minstret_counts_retired .plain .none
      (Machine.Reachable.init.runFrom_of_meets (M := counted .plain .none) (by decide +kernel))).1,
    by decide +kernel⟩

/-- An ECALL that traps: the empty execute stage behind the trap entry is counted. -/
theorem bubble_after_trap_is_counted :
    ¬ ∀ s o n, (counted .plain .none).Reachable
      (fun p i => i.sreset = false → CounterRuns .plain p.1.1 i) ((s, o), n) →
        CountsRetired s n := by
  intro h
  have hmeets : (counted .plain .none).Meets
      (fun p i => i.sreset = false → CounterRuns .plain p.1.1 i) (counted .plain .none).init
      (programInputs .plain .none [0x00000073] (.replicate 6 .quiet)) := by decide +kernel
  have hcount := h _ _ _ (Machine.Reachable.init.runFrom_of_meets hmeets)
  exact absurd hcount (by rw [CountsRetired]; decide +kernel)

end Core

end ThuasRiscv
