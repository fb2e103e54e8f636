import ThuasRiscv.Bus.TrapIsolation
import ThuasRiscv.Debug.DebugBus
import ThuasRiscv.Debug.MemoryCommand

/-!
# Failed memory commands

The core answers an access of the Debug Module that ends in an error with an
acknowledge and a bus error in the same clock. The acknowledge moves the data and
increments the address, as it does for an access that succeeds.
-/

namespace ThuasRiscv

open Transition

/-! ## The wait for the access -/

namespace Dm

variable {aam : Bool} {c d : Dm} {j : DmInput}

/-- The lines while the module waits: the strobe of both and the line of a write are asserted in the
first clock only. -/
def waitLines (c : Dm) (first : Bool) : DmCoreDataRequest :=
  { c.prepareMemory.request with stb := first, writemem := first && c.isWrite }

/-- The module `d` waits for the access of the command that `c` prepared, and asks for it. -/
structure Awaits (c d : Dm) (first : Bool) : Prop extends WaitsFor c d where
  request : d.request = c.waitLines first
  noRaise : d.raises = false

theorem Awaits.start (hs : c.state = .preparemem) (hw : (c.clock j aam).state = c.waitState) :
    Awaits c (c.clock j aam) true := by
  have ha : c.dmActive = true := by
    by_contra ha
    rw [(clock_of_inactive aam (by simpa using ha)).1] at hw
    exact (waitState_ne c).1 hw.symm
  refine ⟨(waitsFor_prepared aam hs ha).1, ?_, ?_⟩
  · change (c.execute j aam).request = _
    rw [execute_request ha, hs]
    simp [waitLines, prepareMemory]
  · change (c.execute j aam).raises = false
    rw [execute_raises ha, hs]

/-- A module that still waits saw no acknowledge. -/
theorem Awaits.next {first : Bool} (h : Awaits c d first)
    (hw : (d.clock j aam).state = c.waitState) : Awaits c (d.clock j aam) false := by
  have ha : d.dmActive = true := by
    by_contra ha
    rw [(clock_of_inactive aam (by simpa using ha)).1] at hw
    exact (waitState_ne c).1 hw.symm
  obtain ⟨hstate, htimeout, -⟩ := h.execute_state aam (j := j) ha
  rw [hw] at hstate
  have hne : c.waitState ≠ .error ∧ c.waitState ≠ .idle := by
    unfold waitState
    split_ifs <;> decide
  have hc : 0 < d.counter := by
    by_contra hc
    rw [if_neg hc] at hstate
    exact hne.1 hstate
  have hack : ¬ j.core.ack = true := by
    intro hack
    rw [if_pos hc, if_pos hack] at hstate
    exact hne.2 hstate
  refine ⟨⟨hw, ?_, ?_, h.command_clock aam, ?_⟩, ?_, ?_⟩
  · rw [h.data0_clock, if_neg fun hk => hack hk.1]
  · rw [h.data1_clock, if_neg hack]
  · rw [htimeout, decide_eq_false (Nat.ne_of_gt hc)]
  · change (d.execute j aam).request = _
    rw [execute_request ha, h.state, h.request, waitState, waitLines]
    cases hwr : c.isWrite <;> simp [waitLines, prepareMemory, hwr]
  · change (d.execute j aam).raises = false
    rw [execute_raises ha, h.state, waitState]
    cases c.isWrite <;> simp [Nat.ne_of_gt hc]

/-- A checked memory command has a size. -/
theorem incrementSize_ne_zero (h : d.isAccessMemory aam = true) : d.incrementSize ≠ 0 := by
  simp only [isAccessMemory, Bool.and_eq_true, Bool.or_eq_true, decide_eq_true_eq] at h
  rcases h.1.1.1.2 with (hs | hs) | hs <;> simp [incrementSize, hs]

theorem incremented_eq_iff (h : d.isAccessMemory aam = true) :
    d.incremented aam = d.data1 ↔ d.postIncrements aam = false := by
  rw [incremented]
  cases d.postIncrements aam with
  | false => simp
  | true => simpa using incrementSize_ne_zero h

/-- What the command asks for on the bus. -/
def memoryAccess (c : Dm) : BusRequest := Core.debugAccess (c.waitLines true)

/-- The lines for the registers stay low. -/
theorem waitLines_registers (hl : c.request.drives = false) (first : Bool) :
    (c.waitLines first).readgpr = false ∧ (c.waitLines first).readcsr = false ∧
      (c.waitLines first).writegpr = false ∧ (c.waitLines first).writecsr = false := by
  simp only [DmCoreDataRequest.drives, Bool.or_eq_false_iff] at hl
  simp [waitLines, prepareMemory, hl]

theorem memoryAccess_eq (h : c.isAccessMemory aam = true) :
    c.memoryAccess.stb = true ∧ c.memoryAccess.acc = (if c.isWrite then .write else .read) ∧
      c.memoryAccess.size ≠ .unknown ∧ c.memoryAccess.addr = c.data1 := by
  simp only [isAccessMemory, Bool.and_eq_true, Bool.or_eq_true, decide_eq_true_eq] at h
  have hlow : c.command.extractLsb' 20 2 = (c.command.extractLsb' 20 3).extractLsb' 0 2 := by
    ext k hk
    have hk' : k < 3 := by omega
    simp [hk']
  refine ⟨rfl, ?_, ?_, rfl⟩
  · cases hw : c.isWrite <;>
      simp [memoryAccess, Core.debugAccess, Core.dmMemAccess, waitLines, prepareMemory, hw]
  · rcases h.1.1.1.2 with (hs | hs) | hs <;> cases hw : c.isWrite <;>
      simp [memoryAccess, Core.debugAccess, Core.dmMemSize, waitLines, prepareMemory, hw, hlow, hs]

/-- After the first clock a read is held, and a write is gone. -/
theorem heldAccess_eq (c : Dm) : (Core.debugAccess (c.waitLines false)).stb = false ∧
    (Core.debugAccess (c.waitLines false)).addr = c.memoryAccess.addr ∧
    (Core.debugAccess (c.waitLines false)).acc ≠ .write ∧
    (c.isWrite = true → (Core.debugAccess (c.waitLines false)).acc = .nop ∧
      (Core.debugAccess (c.waitLines false)).size = .unknown) := by
  refine ⟨rfl, rfl, ?_, fun hw => ?_⟩
  · cases hw : c.isWrite <;>
      simp [Core.debugAccess, Core.dmMemAccess, waitLines, prepareMemory, hw]
  · simp [Core.debugAccess, Core.dmMemAccess, Core.dmMemSize, waitLines, prepareMemory, hw]

end Dm

/-- The answer of a halted hart to a memory access with an error: an acknowledge and a bus error. -/
theorem Core.dmResponse_of_error {cfg : Generics} {io : Peripherals} {s : Core} {i : CoreInput}
    (hd : s.indebug = true) (hlegal : s.idEx.illegalInstructionDecode = false)
    (hgpr : i.dm.readgpr = false) (hcsr : i.dm.readcsr = false) (hwcsr : i.dm.writecsr = false)
    (he : i.bus.error = true) :
    s.dmResponse cfg io i = ⟨if i.dm.readmem then i.bus.data else 0, false, true, true⟩ := by
  simp [dmResponse, illegalInstructionCsr, hd, hlegal, hgpr, hcsr, hwcsr, he]

namespace DebugBus

variable {nRom nBoot nRam : ℕ} (aam : Bool) (g : SystemGenerics) (io : Peripherals)
  (s : DebugBus nRom nBoot nRam) (i : ℕ → DebugBusInput)

/-- The state `n` clocks after `s`. -/
def after : ℕ → DebugBus nRom nBoot nRam
  | 0 => s
  | n + 1 => (after n).step aam g io (i n)

/-- The access that is on the bus `n` clocks after `s`. -/
def requestAt (n : ℕ) : BusRequest := (after aam g io s i n).request g (i n)

/-- The answer of the bus `n` clocks after `s`. -/
def responseAt (n : ℕ) : BusResponse := (after aam g io s i n).response g (i n)

/-- The access of the command that is prepared in `s` ends in an error `k` clocks later, on a hart
that is halted and not reset. -/
structure FailsAt (k : ℕ) : Prop where
  pos : 0 < k
  waits : ∀ m, m ≤ k → 0 < m → (after aam g io s i m).debug.dm.state = s.debug.dm.waitState
  halted : ∀ m, m ≤ k → (after aam g io s i m).debug.core.indebug = true
  running : ∀ m, m ≤ k → (after aam g io s i m).debug.sresetSys (i m).debug = false
  error : (responseAt aam g io s i k).error = true

/-- The bus error is reported, the data registers and the memories are what they were in `s`, and no
register of a device was written. -/
structure AtomicAt (k : ℕ) : Prop where
  cmderr : (after aam g io s i k).debug.dm.cmderr = 0 →
    (after aam g io s i (k + 1)).debug.dm.cmderr = 0b101
  data0 : (after aam g io s i (k + 1)).debug.dm.data0 = s.debug.dm.data0
  data1 : (after aam g io s i (k + 1)).debug.dm.data1 = s.debug.dm.data1
  writes : ∀ m, m ≤ k → g.bus.writes (requestAt aam g io s i m) (i m).bus.openBits false = false
  rom : (after aam g io s i (k + 1)).bus.rom.bytes = s.bus.rom.bytes
  boot : (after aam g io s i (k + 1)).bus.boot.bytes = s.bus.boot.bytes
  ram : (after aam g io s i (k + 1)).bus.ram.bytes = s.bus.ram.bytes

/-- The command does not increment the address, and a read finds in `data0` already what is on the
data lines with the error; `x` are the bits that a memory leaves open. -/
structure KeepsData (x : DataType) : Prop where
  data0 : s.debug.dm.isWrite = true ∨
    s.debug.dm.data0 = g.bus.errorData s.debug.dm.data1 x
  data1 : s.debug.dm.postIncrements aam = false

/-- The clock in which the access is strobed on the bus. -/
def strobeClock (g : SystemGenerics) : ℕ := if g.core.fastMem then 1 else 2

/-- A memory command that fails, in a run of the system. -/
structure FailedRun (le se : Bool) (k : ℕ) : Prop where
  reachable : (machine aam g io nRom nBoot nRam le se).Reachable Machine.free s
  prepares : s.debug.dm.state = .preparemem
  fails : FailsAt aam g io s i k

namespace FailedRun

variable {aam g io s i} {le se : Bool} {k m : ℕ} (h : FailedRun aam g io s i le se k)
include h

theorem after_reachable (n : ℕ) :
    (machine aam g io nRom nBoot nRam le se).Reachable Machine.free (after aam g io s i n) := by
  induction n with
  | zero => exact h.reachable
  | succ n ih => exact ih.step (i n) trivial

theorem prepared : Prepared aam g s :=
  (inv_of_reachable h.reachable).prepared h.prepares (h.fails.halted 0 (Nat.zero_le _))

theorem haveOcd : g.core.haveOcd = true :=
  (haltedInv h.reachable).haveOcd (h.fails.halted 0 (Nat.zero_le _))

theorem lines : s.debug.dm.request.drives = false := by
  have hinv := (inv_of_reachable h.reachable).lines
  rwa [Dm.LinesInv, h.prepares] at hinv

/-! ### One clock -/

theorem core_succ (hm : m ≤ k) : (after aam g io s i (m + 1)).debug.core =
    (after aam g io s i m).debug.core.clock g.core io ((after aam g io s i m).debug.coreInput
      ((after aam g io s i m).debugInput g (i m))) :=
  step_core (h.fails.running m hm)

theorem dm_succ (hm : m ≤ k) : (after aam g io s i (m + 1)).debug.dm =
    (after aam g io s i m).debug.dm.clock ((after aam g io s i m).debug.dmInput g.core io
      ((after aam g io s i m).debugInput g (i m))) aam := by
  have hr := h.fails.running m hm
  simp only [DebugSystem.sresetSys, Bool.or_eq_false_iff] at hr
  exact Dm.step_eq_clock hr.1.1

theorem bus_succ (hm : m ≤ k) : ∃ f, (after aam g io s i (m + 1)).bus =
    (after aam g io s i m).bus.clock g.bus (requestAt aam g io s i m) (i m).bus f false :=
  step_bus (h.fails.running m hm)

/-- The module waits, by induction on the clocks. -/
theorem awaits (hpos : 0 < m) (hm : m ≤ k) :
    s.debug.dm.Awaits (after aam g io s i m).debug.dm (m = 1) := by
  induction m with
  | zero => exact absurd hpos (lt_irrefl 0)
  | succ m ih =>
    have hw := h.fails.waits (m + 1) hm (Nat.succ_pos m)
    rw [h.dm_succ (Nat.le_of_succ_le hm)] at hw ⊢
    rcases Nat.eq_zero_or_pos m with rfl | hm0
    · exact Dm.Awaits.start h.prepares hw
    · rw [decide_eq_false (by omega)]
      exact (ih hm0 (by omega)).next hw

/-- Nothing of the core is left in the execute stage. -/
theorem ismem (hm : m ≤ k) : (after aam g io s i m).debug.core.idEx.ismem = false := by
  cases m with
  | zero => exact h.prepared.ismem
  | succ m =>
    rw [h.core_succ (by omega)]
    exact Core.ismem_nextIdEx_halted (h.fails.halted m (by omega)) h.haveOcd

/-! ### The access on the bus -/

theorem requestAt_fast (hf : g.core.fastMem = true) (hm : m ≤ k) : requestAt aam g io s i m =
    Core.debugAccess (after aam g io s i m).debug.dm.request := by
  rw [requestAt, request, Core.busRequest, if_pos hf]
  exact Core.busAccess_halted (h.fails.halted m hm) h.haveOcd (h.ismem hm) _

theorem requestAt_slow (hf : g.core.fastMem = false) (hm : m + 1 ≤ k) :
    requestAt aam g io s i (m + 1) =
      Core.debugAccess (after aam g io s i m).debug.dm.request := by
  rw [requestAt, request, Core.busRequest, hf, if_neg Bool.false_ne_true, h.core_succ (by omega),
    Core.clock_bus, Core.nextBus, hf, if_neg Bool.false_ne_true]
  exact Core.busAccess_halted (h.fails.halted m (by omega)) h.haveOcd (h.ismem (by omega)) _

theorem prepare_nop : (Core.debugAccess s.debug.dm.request).acc = .nop :=
  Core.dmMemAccess_of_not_drives h.lines

/-- Before the strobe there is no access on the bus. -/
theorem requestAt_before (hm : m ≤ k) (hw : m < strobeClock g) :
    (requestAt aam g io s i m).acc = .nop := by
  unfold strobeClock at hw
  cases hf : g.core.fastMem with
  | true =>
    rw [hf, if_pos rfl] at hw
    obtain rfl : m = 0 := by omega
    rw [h.requestAt_fast hf hm]
    exact h.prepare_nop
  | false =>
    cases m with
    | zero =>
      rw [requestAt, request, Core.busRequest, hf, if_neg Bool.false_ne_true]
      exact h.prepared.port hf
    | succ m =>
      rw [hf, if_neg Bool.false_ne_true] at hw
      obtain rfl : m = 0 := by omega
      rw [h.requestAt_slow hf hm]
      exact h.prepare_nop

theorem requestAt_strobe (hw : strobeClock g ≤ k) :
    requestAt aam g io s i (strobeClock g) = s.debug.dm.memoryAccess := by
  unfold strobeClock at hw ⊢
  have hreq := (h.awaits Nat.one_pos h.fails.pos).request
  rw [decide_eq_true rfl] at hreq
  cases hf : g.core.fastMem <;> simp only [hf, Bool.false_eq_true, if_false, if_true] at hw ⊢
  · rw [h.requestAt_slow hf hw, hreq]
    rfl
  · rw [h.requestAt_fast hf hw, hreq]
    rfl

theorem requestAt_held (hw : strobeClock g < m) (hm : m ≤ k) :
    requestAt aam g io s i m = Core.debugAccess (s.debug.dm.waitLines false) := by
  unfold strobeClock at hw
  cases hf : g.core.fastMem <;> simp only [hf, Bool.false_eq_true, if_false, if_true] at hw
  · obtain ⟨n, rfl⟩ : ∃ n, m = n + 1 := ⟨m - 1, by omega⟩
    have hreq := (h.awaits (m := n) (by omega) (by omega)).request
    rw [decide_eq_false (by omega)] at hreq
    rw [h.requestAt_slow hf hm, hreq]
  · have hreq := (h.awaits (m := m) (by omega) hm).request
    rw [decide_eq_false (by omega)] at hreq
    rw [h.requestAt_fast hf hm, hreq]

/-! ### What waits on the bus -/

/-- A clock without an access drains the bus. -/
theorem drained_succ (hm : m ≤ k) (hw : m < strobeClock g) :
    (after aam g io s i (m + 1)).bus.Drained ∧
      ∃ r, (after aam g io s i (m + 1)).bus.io.buffer.lines = { Lines.silent with ready := r } := by
  obtain ⟨f, hbus⟩ := h.bus_succ hm
  have hstb := stb_of_nop g.bus.map (h.requestAt_before hm hw)
  rw [hbus]
  exact ⟨DataBus.drained_clock hstb, DataBus.buffer_clock_of_not_stb hstb⟩

/-- The bus is idle when the access is strobed. -/
theorem idle (hw : strobeClock g ≤ k) : (after aam g io s i (strobeClock g)).bus.Idle g.bus := by
  have hpos : 0 < strobeClock g := by
    unfold strobeClock
    split_ifs <;> decide
  have hdrained : (after aam g io s i (strobeClock g - 1)).bus.Drained := by
    cases hf : g.core.fastMem with
    | true =>
      rw [strobeClock, if_pos hf]
      exact h.prepared.drained hf
    | false =>
      have htwo : strobeClock g = 2 := by simp [strobeClock, hf]
      rw [htwo]
      exact (h.drained_succ (Nat.zero_le k) hpos).1
  obtain ⟨f, hbus⟩ := h.bus_succ (m := strobeClock g - 1) (by omega)
  have hstb := stb_of_nop g.bus.map
    (h.requestAt_before (m := strobeClock g - 1) (by omega) (by omega))
  rw [Nat.sub_add_cancel hpos] at hbus
  rw [hbus]
  exact DataBus.idle_clock hdrained hstb

/-- The error does not come before the strobe. -/
theorem strobeClock_le : strobeClock g ≤ k := by
  by_contra hlt
  have hnop := h.requestAt_before le_rfl (by omega : k < strobeClock g)
  obtain ⟨n, rfl⟩ : ∃ n, k = n + 1 := ⟨k - 1, by have := h.fails.pos; omega⟩
  obtain ⟨hdrained, hbuffer⟩ := h.drained_succ (m := n) (by omega) (by omega)
  have herror := DataBus.error_of_drained (g := g.bus) (x := (i (n + 1)).bus) hdrained hbuffer
    fun ha => ha.1 hnop
  have hfails := h.fails.error
  rw [responseAt, response, ← requestAt, herror] at hfails
  cases hfails

/-- The access in flight, by induction on its age. -/
theorem waits (hm : strobeClock g + (m + 1) ≤ k) :
    (after aam g io s i (strobeClock g + (m + 1))).bus.Waits g.bus s.debug.dm.memoryAccess
      (m + 1) := by
  induction m with
  | zero =>
    obtain ⟨f, hbus⟩ := h.bus_succ (m := strobeClock g) (by omega)
    rw [h.requestAt_strobe (by omega)] at hbus
    rw [hbus]
    exact DataBus.waits_one (h.idle (by omega)).io
  | succ m ih =>
    obtain ⟨f, hbus⟩ := h.bus_succ (m := strobeClock g + (m + 1)) (by omega)
    rw [h.requestAt_held (by omega) (by omega)] at hbus
    rw [show strobeClock g + (m + 1 + 1) = strobeClock g + (m + 1) + 1 from rfl, hbus]
    refine DataBus.waits_succ (ih (by omega)) (Nat.succ_pos m) fun slave => ?_
    simp [AddressMap.memRequest, (Dm.heldAccess_eq s.debug.dm).1]

/-! ### What the bus does -/

theorem access : s.debug.dm.memoryAccess.stb = true ∧
    s.debug.dm.memoryAccess.acc = (if s.debug.dm.isWrite then .write else .read) ∧
    s.debug.dm.memoryAccess.size ≠ .unknown ∧
    s.debug.dm.memoryAccess.addr = s.debug.dm.data1 :=
  Dm.memoryAccess_eq h.prepared.command

theorem access_acc_ne : s.debug.dm.memoryAccess.acc ≠ .nop := by
  rw [h.access.2.1]
  split_ifs <;> decide

/-- The clock of the error is that of the strobe, or a later one. -/
theorem strobe_or_later : k = strobeClock g ∨ ∃ n, k = strobeClock g + (n + 1) := by
  have hle := h.strobeClock_le
  rcases Nat.eq_or_lt_of_le hle with heq | hlt
  · exact .inl heq.symm
  · exact .inr ⟨k - strobeClock g - 1, by omega⟩

/-- The bus does not accept a store that ends in an error. -/
theorem verdict_ne_ready (hw : s.debug.dm.isWrite = true) :
    g.bus.verdict s.debug.dm.memoryAccess ≠ .ready := by
  intro hv
  obtain ⟨hstb, -, hsize, -⟩ := h.access
  have herror := h.fails.error
  have hidle := h.idle h.strobeClock_le
  rcases h.strobe_or_later with rfl | ⟨n, rfl⟩
  · rw [responseAt, response, ← requestAt, h.requestAt_strobe le_rfl] at herror
    have hanswer := DataBus.answers_strobe (x := (i (strobeClock g)).bus) hidle hstb
      h.access_acc_ne hsize
    rw [System.error_of_answers hanswer hv] at herror
    cases herror
  · obtain ⟨-, haddr, -, hgone⟩ := Dm.heldAccess_eq s.debug.dm
    obtain ⟨hnop, hunknown⟩ := hgone hw
    rw [responseAt, response, ← requestAt, h.requestAt_held (by omega) le_rfl] at herror
    have hanswer := DataBus.answers_of_error (h.waits le_rfl) hstb h.access_acc_ne
      (fun ha => ha.1 hnop) haddr hunknown herror
    rw [System.error_of_answers hanswer hv] at herror
    cases herror

/-- No byte of a memory and no register of a device is written. -/
theorem writes_eq_false (hm : m ≤ k) (x : DataType) :
    g.bus.writes (requestAt aam g io s i m) x false = false := by
  by_contra hwrites
  rw [Bool.not_eq_false, DataBus.writes_iff] at hwrites
  obtain ⟨hstb, hacc, hv⟩ := hwrites
  rcases Nat.lt_trichotomy m (strobeClock g) with hlt | rfl | hgt
  · rw [h.requestAt_before hm hlt] at hacc
    cases hacc
  · rw [h.requestAt_strobe hm] at hacc hv
    cases hw : s.debug.dm.isWrite with
    | true => exact h.verdict_ne_ready hw hv
    | false =>
      rw [h.access.2.1, hw] at hacc
      cases hacc
  · rw [h.requestAt_held hgt hm] at hacc
    exact (Dm.heldAccess_eq s.debug.dm).2.2.1 hacc

theorem bytes_eq {n : ℕ} (hn : n ≤ k + 1) :
    (after aam g io s i n).bus.rom.bytes = s.bus.rom.bytes ∧
      (after aam g io s i n).bus.boot.bytes = s.bus.boot.bytes ∧
      (after aam g io s i n).bus.ram.bytes = s.bus.ram.bytes := by
  induction n with
  | zero => exact ⟨rfl, rfl, rfl⟩
  | succ n ih =>
    obtain ⟨hrom, hboot, hram⟩ := ih (by omega)
    obtain ⟨f, hbus⟩ := h.bus_succ (m := n) (by omega)
    obtain ⟨hrom', hboot', hram'⟩ := DataBus.bytes_clock_of_not_writes
      (b := (after aam g io s i n).bus) (f := f) false
      (h.writes_eq_false (m := n) (by omega) (i n).bus.openBits)
    rw [hbus]
    exact ⟨hrom'.trans hrom, hboot'.trans hboot, hram'.trans hram⟩

/-- What is on the data lines with the error. -/
theorem data_eq : (responseAt aam g io s i k).data =
    g.bus.errorData s.debug.dm.data1 (i k).bus.openBits := by
  obtain ⟨-, -, -, haddr⟩ := h.access
  have herror := h.fails.error
  have hidle := h.idle h.strobeClock_le
  have hsettled : (after aam g io s i (strobeClock g)).bus.Settled :=
    (inv_of_reachable (h.after_reachable _)).settled
  rw [responseAt, response, ← requestAt] at herror ⊢
  rcases h.strobe_or_later with rfl | ⟨n, rfl⟩
  · rw [h.requestAt_strobe le_rfl] at herror ⊢
    rw [DataBus.data_strobe hidle hsettled herror, haddr]
  · obtain ⟨hstb, hheld, -, -⟩ := Dm.heldAccess_eq s.debug.dm
    rw [h.requestAt_held (by omega) le_rfl] at herror ⊢
    refine (DataBus.data_wait (h.waits le_rfl) (fun hone => ?_) hstb hheld herror).trans
      (by rw [haddr])
    obtain rfl : n = 0 := by omega
    obtain ⟨f, hbus⟩ := h.bus_succ (m := strobeClock g) (by omega)
    rw [show strobeClock g + (0 + 1) = strobeClock g + 1 from rfl, hbus]
    exact hidle.data_fused hsettled

/-! ### What the Debug Module does -/

/-- The answer of the core in the clock of the error. -/
theorem dmResponse_eq : ((after aam g io s i k).debug.dmInput g.core io
    ((after aam g io s i k).debugInput g (i k))).core =
      ⟨if s.debug.dm.isWrite then 0 else g.bus.errorData s.debug.dm.data1 (i k).bus.openBits,
        false, true, true⟩ := by
  have hd := h.fails.halted k le_rfl
  have hlegal := (haltedInv (h.after_reachable k)).legal hd
  have hreq := (h.awaits h.fails.pos le_rfl).request
  obtain ⟨hgpr, hcsr, -, hwcsr⟩ := Dm.waitLines_registers h.lines (decide (k = 1))
  rw [← hreq] at hgpr hcsr hwcsr
  have hmem : (after aam g io s i k).debug.dm.request.readmem = !s.debug.dm.isWrite := by
    rw [hreq]
    rfl
  refine (Core.dmResponse_of_error hd hlegal hgpr hcsr hwcsr h.fails.error).trans ?_
  have hdata : ((after aam g io s i k).response g (i k)).data = _ := h.data_eq
  change DmCoreDataResponse.mk (if (after aam g io s i k).debug.dm.request.readmem then
    ((after aam g io s i k).response g (i k)).data else 0) _ _ _ = _
  rw [hmem, hdata]
  cases s.debug.dm.isWrite <;> rfl

/-- The bus error is reported, unless an older error is there. -/
theorem cmderr_eq (h0 : (after aam g io s i k).debug.dm.cmderr = 0) :
    (after aam g io s i (k + 1)).debug.dm.cmderr = 0b101 := by
  have hraise := (h.awaits h.fails.pos le_rfl).noRaise
  simp only [Dm.raises, Bool.or_eq_false_iff] at hraise
  rw [h.dm_succ le_rfl]
  change Dm.nextCmderr _ _ = _
  rw [Dm.nextCmderr, h.dmResponse_eq, if_pos h0]
  simp [hraise]

/-- A read takes what is on the data lines. -/
theorem data0_eq : (after aam g io s i (k + 1)).debug.dm.data0 =
    if s.debug.dm.isWrite then s.debug.dm.data0
    else g.bus.errorData s.debug.dm.data1 (i k).bus.openBits := by
  rw [h.dm_succ le_rfl, (h.awaits h.fails.pos le_rfl).data0_clock, h.dmResponse_eq]
  cases s.debug.dm.isWrite <;> simp

/-- The address is incremented as after an access that succeeds. -/
theorem data1_eq : (after aam g io s i (k + 1)).debug.dm.data1 = s.debug.dm.incremented aam := by
  rw [h.dm_succ le_rfl, (h.awaits h.fails.pos le_rfl).data1_clock, h.dmResponse_eq, if_pos rfl]

end FailedRun

/-- A memory command whose access ends in an error reports it and writes nothing to the memories and
the devices. It leaves the data registers alone if and only if it does not increment the address and,
if it reads, `data0` holds already what is on the data lines with the error. -/
theorem failed_access_is_atomic_iff (aam : Bool) (g : SystemGenerics) (io : Peripherals)
    {nRom nBoot nRam : ℕ} {le se : Bool} {s : DebugBus nRom nBoot nRam}
    (h : (machine aam g io nRom nBoot nRam le se).Reachable Machine.free s)
    (hs : s.debug.dm.state = .preparemem) {i : ℕ → DebugBusInput} {k : ℕ}
    (hf : FailsAt aam g io s i k) :
    AtomicAt aam g io s i k ↔ KeepsData aam g s (i k).bus.openBits := by
  have hrun : FailedRun aam g io s i le se k := ⟨h, hs, hf⟩
  have hdata0 := hrun.data0_eq
  have hdata1 := hrun.data1_eq
  have hincremented := Dm.incremented_eq_iff hrun.prepared.command
  constructor
  · intro hatomic
    refine ⟨?_, hincremented.mp (hdata1.symm.trans hatomic.data1)⟩
    cases hw : s.debug.dm.isWrite with
    | true => exact .inl rfl
    | false =>
      rw [hatomic.data0, hw] at hdata0
      exact .inr hdata0
  · intro hkeeps
    obtain ⟨hrom, hboot, hram⟩ := hrun.bytes_eq le_rfl
    refine ⟨hrun.cmderr_eq, ?_, ?_, fun m hm => hrun.writes_eq_false hm _, hrom, hboot, hram⟩
    · rw [hdata0]
      rcases hkeeps.data0 with hw | hd
      · rw [hw, if_pos rfl]
      · rw [← hd, ite_self]
    · rw [hdata1]
      exact hincremented.mpr hkeeps.data1

/-- A clock with silent devices. -/
def silentDevices (d : DebugInput) : DebugBusInput := ⟨d, ⟨fun _ => 0, 0⟩⟩

/-- Halt, write 5 to `data0` and an address to `data1`, and dispatch a command. -/
def dispatched (addr cmd : DataType) : DebugBus 2 2 2 :=
  (machine true System.bufferedIo .none 2 2 2 false false).run
    ([DebugInput.write addrDmcontrol 0x80000001, .wait, .wait, .wait, .write addrDmcontrol 1,
      .write addrData0 5, .write addrData1 addr, .write addrCommand cmd, .wait].map silentDevices)

/-- A word is written to an address at which nothing is. -/
theorem failed_store_is_atomic : AtomicAt true System.bufferedIo .none
    (dispatched 0x50000000 0x02210000) (fun _ => silentDevices .wait) 2 :=
  (failed_access_is_atomic_iff true System.bufferedIo .none
    (Machine.reachable_run (M := machine true System.bufferedIo .none 2 2 2 false false) _)
    (by decide +kernel)
    ⟨by decide, by decide +kernel, by decide +kernel, by decide +kernel, by decide +kernel⟩).mpr
    ⟨.inl (by decide +kernel), by decide +kernel⟩

/-- A word is read, with post-increment, from an address at which nothing is: the address is
incremented. -/
theorem failed_load_increments : ¬ ∀ (aam : Bool) (g : SystemGenerics) (io : Peripherals)
    (nRom nBoot nRam : ℕ) (le se : Bool) (s : DebugBus nRom nBoot nRam),
      (machine aam g io nRom nBoot nRam le se).Reachable Machine.free s →
        s.debug.dm.state = .preparemem → ∀ (i : ℕ → DebugBusInput) (k : ℕ),
          FailsAt aam g io s i k → AtomicAt aam g io s i k := by
  intro h
  have hatomic := h true System.bufferedIo .none 2 2 2 false false (dispatched 0x50000000 0x02280000)
    (Machine.reachable_run _) (by decide +kernel) (fun _ => silentDevices .wait) 2
    ⟨by decide, by decide +kernel, by decide +kernel, by decide +kernel, by decide +kernel⟩
  exact absurd hatomic.data1 (by decide +kernel)

end DebugBus

end ThuasRiscv
