import Mathlib.Order.Defs.LinearOrder
import ThuasRiscv.Debug.DebugModule

/-!
# The outcome of a memory command

After the dispatch of an Access Memory command the module waits for the
acknowledge of the core, with a counter that expires in the last clock of the
limit. In that clock the acknowledge still moves the data, but the state machine
has decided for a timeout.
-/

namespace ThuasRiscv

open Transition

namespace Dm

variable (aam : Bool) (d : Dm) (i : ℕ → DmInput)

/-- The module `n` clocks after the state in which it prepares the access. -/
def after (n : ℕ) : Dm := (machine aam).trace d i n

/-- The command increments the address. -/
def postIncrements : Bool := aam && d.command.getLsbD 19

/-- The address after the command. -/
def incremented : DataType := if d.postIncrements aam then d.data1 + d.incrementSize else d.data1

/-- The first acknowledge comes `k` clocks after the preparation. -/
structure FirstAck (k : ℕ) : Prop where
  pos : 0 < k
  ack : (i k).core.ack = true
  first : ∀ m, 0 < m → m < k → (i m).core.ack = false

/-- The access is acknowledged within the limit: the data is transferred, the address incremented,
and no timeout reported up to clock `n`. -/
structure Acknowledged (n : ℕ) : Prop where
  data0 : ∃ k, k ≤ dmMemoryTimeout ∧ k < n ∧ FirstAck i k ∧
    (after aam d i n).data0 = if d.isWrite then d.data0 else (i k).core.data
  data1 : (after aam d i n).data1 = d.incremented aam
  timeout : ∀ m, 0 < m → m ≤ n → (after aam d i m).timeout = false

/-- No acknowledge comes within the limit: a timeout is reported before clock `n`, and the data is
left alone. -/
structure TimedOut (n : ℕ) : Prop where
  ack : ∀ k, 0 < k → k ≤ dmMemoryTimeout → (i k).core.ack = false
  timeout : ∃ m, 0 < m ∧ m < n ∧ (after aam d i m).timeout = true ∧
    ((after aam d i m).cmderr = 0 → (after aam d i (m + 1)).cmderr = 0b101)
  data0 : (after aam d i n).data0 = d.data0
  data1 : (after aam d i n).data1 = d.data1

/-- The command ends in time, with exactly one outcome. -/
def OneOutcome : Prop :=
  ∃ n, n ≤ dmMemoryTimeout + 2 ∧ (after aam d i n).state = .idle ∧
    (∀ m, m < n → (after aam d i m).busy = true) ∧
      Xor (Acknowledged aam d i n) (TimedOut aam d i n)

/-- The module is active before clock `n`. -/
def ActiveBefore (n : ℕ) : Prop := ∀ m, m < n → (after aam d i m).dmActive = true

/-- The acknowledge comes before the clock in which the counter has expired, or in that clock when
the module is deactivated. -/
def AckInTime : Prop :=
  ∃ k, k ≤ dmMemoryTimeout ∧ FirstAck i k ∧ ActiveBefore aam d i k ∧
    (k = dmMemoryTimeout → (after aam d i k).dmActive = false)

/-- No acknowledge comes while the module waits. -/
def NoAck : Prop :=
  ActiveBefore aam d i (dmMemoryTimeout + 1) ∧
    ∀ k, 0 < k → k ≤ dmMemoryTimeout → (i k).core.ack = false

/-- The state in which a command waits. -/
def waitState : DmState := if d.isWrite then .writemem1 else .readmem1

/-- The module `d` waits for the access of the command that `c` prepared. -/
structure WaitsFor (c d : Dm) : Prop where
  state : d.state = c.waitState
  data0 : d.data0 = c.data0
  data1 : d.data1 = c.data1
  command : d.command = c.command
  timeout : d.timeout = false

variable {aam d i}

theorem after_succ (hr : ∀ n, (i n).sreset = false) (n : ℕ) :
    after aam d i (n + 1) = (after aam d i n).clock (i n) aam := by
  change (after aam d i n).step (i n) aam = _
  rw [step, hr n, if_neg Bool.false_ne_true]

/-! ## One clock of the wait -/

section Wait
variable (aam) {c : Dm} {j : DmInput}

theorem waitState_ne (c : Dm) : c.waitState ≠ .idle ∧ c.waitState ≠ .readreg2 := by
  unfold waitState
  split_ifs <;> decide

theorem WaitsFor.busy (h : WaitsFor c d) : d.busy = true := by
  rw [Dm.busy, h.state, decide_eq_true (waitState_ne c).1]

theorem WaitsFor.data0_clock (h : WaitsFor c d) : (d.clock j aam).data0 =
    if j.core.ack = true ∧ c.isWrite = false then j.core.data else c.data0 := by
  change d.nextData0 j = _
  rw [nextData0, h.busy, data0mustread, h.state, h.data0, waitState]
  cases c.isWrite <;> cases j.core.ack <;> simp

theorem WaitsFor.data1_clock (h : WaitsFor c d) : (d.clock j aam).data1 =
    if j.core.ack = true then c.incremented aam else c.data1 := by
  have hsize : d.incrementSize = c.incrementSize := by rw [incrementSize, h.command]; rfl
  change d.nextData1 j aam = _
  rw [nextData1, h.busy, data1mustincrement, h.state, h.data1, hsize, h.command, incremented,
    postIncrements, waitState]
  cases c.isWrite <;> cases j.core.ack <;> simp

theorem WaitsFor.command_clock (h : WaitsFor c d) : (d.clock j aam).command = c.command := by
  change d.nextCommand j = _
  rw [nextCommand, h.busy, h.command]
  simp

/-- A deactivated module abandons the command. -/
theorem clock_of_inactive (ha : d.dmActive = false) :
    (d.clock j aam).state = .idle ∧ (d.clock j aam).timeout = false := by
  have hx : d.execute j aam = { d with
      illegalState := false, illegalCmd := false, timeout := false, state := .idle, counter := 0
      request := .idle } := by
    simp [execute, ha]
  exact ⟨congrArg Dm.state hx, congrArg Dm.timeout hx⟩

theorem WaitsFor.execute_state (h : WaitsFor c d) (ha : d.dmActive = true) :
    (d.clock j aam).state = (if 0 < d.counter then
      (if j.core.ack = true then .idle else c.waitState) else .error) ∧
    (d.clock j aam).timeout = decide (d.counter = 0) ∧
    (0 < d.counter → (d.clock j aam).counter = d.counter - 1) := by
  have hstate := h.state
  change (d.execute j aam).state = _ ∧ (d.execute j aam).timeout = _ ∧
    (_ → (d.execute j aam).counter = _)
  unfold waitState at hstate ⊢
  by_cases hc : 0 < d.counter
  · cases hw : c.isWrite <;> simp only [hw, Bool.false_eq_true, if_true, if_false] at hstate ⊢ <;>
      simp [execute, ha, hstate, awaitMemory, hc, Nat.ne_of_gt hc]
  · have h0 : d.counter = 0 := by omega
    cases hw : c.isWrite <;> simp only [hw, Bool.false_eq_true, if_true, if_false] at hstate ⊢ <;>
      simp [execute, ha, hstate, awaitMemory, h0]

/-- The counter has expired: the state machine reports a timeout. -/
theorem WaitsFor.expired (h : WaitsFor c d) (ha : d.dmActive = true) (hc : d.counter = 0) :
    (d.clock j aam).state = .error ∧ (d.clock j aam).timeout = true ∧
      (d.clock j aam).illegalState = false ∧ (d.clock j aam).illegalCmd = false := by
  have hstate := h.state
  change (d.execute j aam).state = _ ∧ (d.execute j aam).timeout = _ ∧
    (d.execute j aam).illegalState = _ ∧ (d.execute j aam).illegalCmd = _
  unfold waitState at hstate
  cases hw : c.isWrite <;> simp only [hw, Bool.false_eq_true, if_true, if_false] at hstate <;>
    simp [execute, ha, hstate, awaitMemory, hc]

/-- The extra cycle to get `cmderr` in place. -/
theorem clock_of_error (hs : d.state = .error) :
    (d.clock j aam).state = .idle ∧ (d.clock j aam).data0 = d.data0 ∧
      (d.clock j aam).data1 = d.data1 := by
  have hbusy : d.busy = true := by rw [busy, hs]; rfl
  refine ⟨?_, ?_, ?_⟩
  · change (d.execute j aam).state = .idle
    cases ha : d.dmActive <;> simp [execute, ha, hs]
  · change d.nextData0 j = _
    simp [nextData0, hbusy, data0mustread, hs]
  · change d.nextData1 j aam = _
    simp [nextData1, hbusy, data1mustincrement, hs]

theorem cmderr_of_timeout (hst : d.illegalState = false) (hcmd : d.illegalCmd = false)
    (ht : d.timeout = true) (h0 : d.cmderr = 0) : (d.clock j aam).cmderr = 0b101 := by
  change d.nextCmderr j = _
  have h0' : d.cmderr = 0#3 := h0
  simp [nextCmderr, h0', hst, hcmd, ht]

/-- The first clock of the wait. -/
theorem waitsFor_prepared (hs : d.state = .preparemem) (ha : d.dmActive = true) :
    WaitsFor d (d.clock j aam) ∧ (d.clock j aam).counter = dmMemoryTimeout - 1 := by
  have hbusy : d.busy = true := by rw [busy, hs]; rfl
  have hx : d.execute j aam = { d with
      illegalState := false, illegalCmd := false, timeout := false }.prepareMemory := by
    simp [execute, ha, hs]
  refine ⟨⟨congrArg Dm.state hx, ?_, ?_, ?_, congrArg Dm.timeout hx⟩, congrArg Dm.counter hx⟩
  · change d.nextData0 j = _
    simp [nextData0, hbusy, data0mustread, hs]
  · change d.nextData1 j aam = _
    simp [nextData1, hbusy, data1mustincrement, hs]
  · change d.nextCommand j = _
    simp [nextCommand, hbusy]

end Wait

/-! ## The run of a command -/

/-- As long as the module is active and nothing is acknowledged it waits, by induction on the
clocks. -/
theorem waitsFor_after (hr : ∀ n, (i n).sreset = false) (hs : d.state = .preparemem) {n : ℕ}
    (hpos : 0 < n) (hn : n ≤ dmMemoryTimeout) (ha : ActiveBefore aam d i n)
    (hack : ∀ m, 0 < m → m < n → (i m).core.ack = false) :
    WaitsFor d (after aam d i n) ∧ (after aam d i n).counter = dmMemoryTimeout - n := by
  induction n with
  | zero => exact absurd hpos (lt_irrefl 0)
  | succ n ih =>
    rw [after_succ hr]
    rcases Nat.eq_zero_or_pos n with rfl | hn0
    · exact waitsFor_prepared aam hs (ha 0 (by omega))
    · obtain ⟨hw, hc⟩ := ih hn0 (by omega) (fun m hm => ha m (by omega))
        fun m h0 hm => hack m h0 (by omega)
      have hack' := hack n hn0 (by omega)
      have hpos' : 0 < (after aam d i n).counter := by omega
      obtain ⟨hst, hto, hct⟩ := hw.execute_state aam (j := i n) (ha n (by omega))
      rw [if_pos hpos', if_neg (by simp [hack'])] at hst
      refine ⟨⟨hst, ?_, ?_, hw.command_clock aam, ?_⟩, ?_⟩
      · rw [hw.data0_clock, if_neg (by simp [hack'])]
      · rw [hw.data1_clock, if_neg (by simp [hack'])]
      · rw [hto, decide_eq_false (by omega)]
      · rw [hct hpos', hc]
        omega

/-- A command that waits is busy until now and has reported no timeout. -/
theorem busy_before (hr : ∀ n, (i n).sreset = false) (hs : d.state = .preparemem) {n : ℕ}
    (hn : n ≤ dmMemoryTimeout) (ha : ActiveBefore aam d i n)
    (hack : ∀ m, 0 < m → m < n → (i m).core.ack = false) :
    ∀ m, m ≤ n → (after aam d i m).busy = true ∧ (0 < m → (after aam d i m).timeout = false) := by
  intro m hm
  rcases Nat.eq_zero_or_pos m with rfl | h0
  · refine ⟨?_, fun h => absurd h (lt_irrefl 0)⟩
    change d.busy = true
    rw [busy, hs]
    rfl
  · have hw := (waitsFor_after hr hs h0 (by omega) (fun k hk => ha k (by omega))
      fun k h0 hk => hack k h0 (by omega)).1
    exact ⟨hw.busy, fun _ => hw.timeout⟩

/-! ## The outcome -/

/-- The outcome of a command that is acknowledged in time. -/
theorem oneOutcome_of_ackInTime (hr : ∀ n, (i n).sreset = false) (hs : d.state = .preparemem)
    (h : AckInTime aam d i) : OneOutcome aam d i := by
  obtain ⟨k, hk, hfirst, hactive, hlast⟩ := h
  obtain ⟨hw, hc⟩ := waitsFor_after hr hs hfirst.pos hk hactive hfirst.first
  have hbusy := busy_before hr hs hk hactive hfirst.first
  have hidle : (after aam d i (k + 1)).state = .idle ∧
      (after aam d i (k + 1)).timeout = false := by
    rw [after_succ hr]
    by_cases ha : (after aam d i k).dmActive = true
    · have hpos : 0 < (after aam d i k).counter := by
        by_contra h0
        have hk' : k = dmMemoryTimeout := by omega
        simp [hlast hk'] at ha
      obtain ⟨hst, hto, -⟩ := hw.execute_state aam (j := i k) ha
      rw [if_pos hpos, if_pos hfirst.ack] at hst
      exact ⟨hst, hto.trans (decide_eq_false (Nat.ne_of_gt hpos))⟩
    · exact clock_of_inactive aam (by simpa using ha)
  have hacked : Acknowledged aam d i (k + 1) := by
    refine ⟨⟨k, hk, Nat.lt_succ_self k, hfirst, ?_⟩, ?_, fun m h0 hm => ?_⟩
    · rw [after_succ hr, hw.data0_clock, hfirst.ack]
      cases d.isWrite <;> simp
    · rw [after_succ hr, hw.data1_clock, if_pos hfirst.ack]
    · rcases Nat.lt_succ_iff_lt_or_eq.mp (Nat.lt_succ_of_le hm) with hm | rfl
      · exact (hbusy m (Nat.le_of_lt_succ hm)).2 h0
      · exact hidle.2
  refine ⟨k + 1, by omega, hidle.1, fun m hm => (hbusy m (Nat.le_of_lt_succ hm)).1,
    .inl ⟨hacked, fun ht => ?_⟩⟩
  exact absurd (ht.ack k hfirst.pos hk) (by simp [hfirst.ack])

/-- The outcome of a command that is never acknowledged. -/
theorem oneOutcome_of_noAck (hr : ∀ n, (i n).sreset = false) (hs : d.state = .preparemem)
    (h : NoAck aam d i) : OneOutcome aam d i := by
  obtain ⟨hactive, hnone⟩ := h
  have hbefore : ActiveBefore aam d i dmMemoryTimeout := fun m hm => hactive m (by omega)
  have hnone' : ∀ m, 0 < m → m < dmMemoryTimeout → (i m).core.ack = false :=
    fun m h0 hm => hnone m h0 (Nat.le_of_lt hm)
  obtain ⟨hw, hc⟩ := waitsFor_after hr hs (by decide) le_rfl hbefore hnone'
  have hbusy := busy_before hr hs le_rfl hbefore hnone'
  have hlast := hnone dmMemoryTimeout (by decide) le_rfl
  obtain ⟨herr, hto, hill, hcmd⟩ := hw.expired aam (j := i dmMemoryTimeout)
    (hactive _ (Nat.lt_succ_self _)) (by omega)
  have hd0 := hw.data0_clock aam (j := i dmMemoryTimeout)
  have hd1 := hw.data1_clock aam (j := i dmMemoryTimeout)
  rw [if_neg (by simp [hlast])] at hd0 hd1
  rw [← after_succ hr] at herr hto hill hcmd hd0 hd1
  obtain ⟨hidle, he0, he1⟩ := clock_of_error aam (j := i (dmMemoryTimeout + 1)) herr
  rw [← after_succ hr] at hidle he0 he1
  have htimed : TimedOut aam d i (dmMemoryTimeout + 2) := by
    refine ⟨hnone, ⟨dmMemoryTimeout + 1, by omega, by omega, hto, fun h0 => ?_⟩,
      he0.trans hd0, he1.trans hd1⟩
    rw [after_succ hr]
    exact cmderr_of_timeout aam hill hcmd hto h0
  refine ⟨dmMemoryTimeout + 2, le_rfl, hidle, fun m hm => ?_, .inr ⟨htimed, fun ha => ?_⟩⟩
  · by_cases hm' : m ≤ dmMemoryTimeout
    · exact (hbusy m hm').1
    · obtain rfl : m = dmMemoryTimeout + 1 := by omega
      rw [busy, herr]
      rfl
  · obtain ⟨k, hk, -, hfirst, -⟩ := ha.data0
    exact absurd hfirst.ack (by simp [hnone k hfirst.pos hk])

/-- The command ends in the first clock in which the module is idle. -/
theorem end_unique {n m : ℕ} (hn : (after aam d i n).state = .idle)
    (hbn : ∀ k, k < n → (after aam d i k).busy = true) (hm : (after aam d i m).state = .idle)
    (hbm : ∀ k, k < m → (after aam d i k).busy = true) : n = m := by
  rcases Nat.lt_trichotomy n m with h | h | h
  · have := hbm n h
    simp [busy, hn] at this
  · exact h
  · have := hbn m h
    simp [busy, hm] at this

/-- A command that is abandoned before an acknowledge has no outcome. -/
theorem not_oneOutcome_of_abandoned (hr : ∀ n, (i n).sreset = false) (hs : d.state = .preparemem)
    {k : ℕ} (hk : k ≤ dmMemoryTimeout) (ha : ActiveBefore aam d i k)
    (hoff : (after aam d i k).dmActive = false)
    (hack : ∀ m, 0 < m → m ≤ k → (i m).core.ack = false) : ¬ OneOutcome aam d i := by
  rintro ⟨n, -, hidle, hb, hx⟩
  have hbusy := busy_before hr hs hk ha fun m h0 hm => hack m h0 (Nat.le_of_lt hm)
  have hend := clock_of_inactive aam (j := i k) hoff
  rw [← after_succ hr] at hend
  obtain rfl : n = k + 1 := end_unique hidle hb hend.1 fun m hm =>
    (hbusy m (Nat.le_of_lt_succ hm)).1
  rcases hx with ⟨hacked, -⟩ | ⟨htimed, -⟩
  · obtain ⟨m, -, hm, hfirst, -⟩ := hacked.data0
    exact absurd hfirst.ack (by simp [hack m hfirst.pos (Nat.le_of_lt_succ hm)])
  · obtain ⟨m, h0, hm, ht, -⟩ := htimed.timeout
    exact absurd ht (by simp [(hbusy m (Nat.le_of_lt_succ hm)).2 h0])

/-- The acknowledge meets the expired counter: the data is moved and the timeout is reported. -/
theorem not_oneOutcome_of_lastAck (hr : ∀ n, (i n).sreset = false) (hs : d.state = .preparemem)
    (ha : ActiveBefore aam d i (dmMemoryTimeout + 1)) (hfirst : FirstAck i dmMemoryTimeout) :
    ¬ OneOutcome aam d i := by
  rintro ⟨n, hle, hidle, hb, hx⟩
  have hbefore : ActiveBefore aam d i dmMemoryTimeout := fun m hm => ha m (by omega)
  obtain ⟨hw, hc⟩ := waitsFor_after hr hs hfirst.pos le_rfl hbefore hfirst.first
  obtain ⟨herr, hto, -, -⟩ := hw.expired aam (j := i dmMemoryTimeout)
    (ha _ (Nat.lt_succ_self _)) (by omega)
  rw [← after_succ hr] at herr hto
  have hn : dmMemoryTimeout + 1 ≤ n := by
    by_contra hlt
    have := (busy_before hr hs le_rfl hbefore hfirst.first n (by omega)).1
    simp [busy, hidle] at this
  rcases hx with ⟨hacked, -⟩ | ⟨htimed, -⟩
  · exact absurd (hacked.timeout _ (by omega) hn) (by simp [hto])
  · exact absurd (htimed.ack _ hfirst.pos le_rfl) (by simp [hfirst.ack])

/-- For every time of the acknowledge, also none: the module returns to idle in time with exactly
one outcome if and only if it stays active, and the first acknowledge comes before the clock in
which the counter has expired or not at all. -/
theorem memory_command_has_one_outcome_iff (aam : Bool) {d : Dm} {i : ℕ → DmInput}
    (hr : ∀ n, (i n).sreset = false) (hs : d.state = .preparemem) :
    OneOutcome aam d i ↔ AckInTime aam d i ∨ NoAck aam d i := by
  constructor
  · intro h
    by_cases hex : ∃ k, k ≤ dmMemoryTimeout ∧
        ((after aam d i k).dmActive = false ∨ 0 < k ∧ (i k).core.ack = true)
    · -- The first clock in which something happens decides.
      classical
      obtain ⟨hk, hevent⟩ := Nat.find_spec hex
      have hmin (m : ℕ) (hm : m < Nat.find hex) :
          (after aam d i m).dmActive = true ∧ (0 < m → (i m).core.ack = false) := by
        have hnot := Nat.find_min hex hm
        have hm' : m ≤ dmMemoryTimeout := by omega
        simpa [hm'] using hnot
      generalize Nat.find hex = k at hk hevent hmin
      have hactive : ActiveBefore aam d i k := fun m hm => (hmin m hm).1
      by_cases hack : 0 < k ∧ (i k).core.ack = true
      · have hfirst : FirstAck i k := ⟨hack.1, hack.2, fun m h0 hm => (hmin m hm).2 h0⟩
        refine .inl ⟨k, hk, hfirst, hactive, fun hlast => ?_⟩
        subst hlast
        by_contra hon
        refine not_oneOutcome_of_lastAck hr hs (fun m hm => ?_) hfirst h
        rcases Nat.lt_succ_iff_lt_or_eq.mp hm with hm | rfl
        · exact hactive m hm
        · simpa using hon
      · refine absurd h (not_oneOutcome_of_abandoned hr hs hk hactive
          (hevent.resolve_right hack) fun m h0 hm => ?_)
        rcases Nat.lt_or_eq_of_le hm with hm | rfl
        · exact (hmin m hm).2 h0
        · simpa [h0] using hack
    · refine .inr ⟨fun m hm => ?_, fun k h0 hk => ?_⟩
      · by_contra hoff
        exact hex ⟨m, Nat.le_of_lt_succ hm, .inl (by simpa using hoff)⟩
      · by_contra hack
        exact hex ⟨k, hk, .inr ⟨h0, by simpa using hack⟩⟩
  · rintro (h | h)
    · exact oneOutcome_of_ackInTime hr hs h
    · exact oneOutcome_of_noAck hr hs h

/-- Without a write to `dmcontrol` the module stays active. -/
theorem activeBefore_of_quiet (hr : ∀ n, (i n).sreset = false) (ha : d.dmActive = true)
    (hq : ∀ n, writes (i n) addrDmcontrol = false) (n : ℕ) : ActiveBefore aam d i n := by
  intro m _
  induction m with
  | zero => exact ha
  | succ m ih =>
    rw [after_succ hr]
    change controlBit (i m) 0 (after aam d i m).dmActive = true
    rw [controlBit, hq m, if_neg Bool.false_ne_true]
    exact ih (by omega)

/-- A clock with a DMI write and a halted core. -/
def dmiWrite (addr : BitVec 7) (data : DataType) : DmInput where
  sreset := false
  dmi := ⟨addr, data, dmiReqWr⟩
  resetAck := false
  haltAck := true
  resumeAck := false
  core := ⟨0, false, false, false⟩

/-- The core answers with the data 0x1234 when `ack` is set. -/
def answer (ack : Bool) : DmInput :=
  { dmiWrite 0 0 with dmi := ⟨0, 0, 0⟩, core := ⟨0x1234, false, false, ack⟩ }

/-- An Access Memory command that reads a word with post-increment is dispatched. -/
def dispatched : Dm :=
  (machine true).run [dmiWrite addrDmcontrol 1, dmiWrite addrData1 0x20000000,
    dmiWrite addrCommand 0x02280000, answer false]

theorem read_has_one_outcome : OneOutcome true dispatched fun n => answer (n = 1) :=
  (memory_command_has_one_outcome_iff true (fun _ => rfl) (by decide +kernel)).mpr
    (.inl ⟨1, by decide, ⟨by decide, rfl, fun m h0 hm => by omega⟩,
      activeBefore_of_quiet (fun _ => rfl) (by decide +kernel) (fun _ => rfl) 1, nofun⟩)

/-- An acknowledge in the last clock of the limit. -/
theorem late_read_has_two_outcomes : ¬ ∀ (aam : Bool) (d : Dm), (machine aam).Reachable
    Machine.free d → d.state = .preparemem → ∀ i : ℕ → DmInput, (∀ n, (i n).sreset = false) →
      OneOutcome aam d i := by
  intro h
  refine not_oneOutcome_of_lastAck (i := fun n => answer (n = dmMemoryTimeout))
    (fun _ => rfl) (by decide +kernel) (activeBefore_of_quiet (fun _ => rfl) (by decide +kernel)
      (fun _ => rfl) _) ⟨by decide, by simp [answer], fun m _ hm => ?_⟩
    (h true dispatched (Machine.reachable_run _) (by decide +kernel) _ fun _ => rfl)
  simp [answer, Nat.ne_of_lt hm]

end Dm

end ThuasRiscv
