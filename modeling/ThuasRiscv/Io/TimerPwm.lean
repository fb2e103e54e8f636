import ThuasRiscv.Io.TimerPreload

/-!
# PWM duty

In edge-aligned PWM mode an output is computed one step ahead: the step that is
made in front of counter value `c` is active if `c` is below the shadow register,
and the wrap is active unless that is 0. The shadow register is exchanged in the
last step but one of a period, and that step and all steps of the next period use
one value each.
-/

namespace ThuasRiscv

open Transition

inductive TimerChannelName
  | a | b | c
  deriving DecidableEq

namespace TimerChannelName

/-- The register number of the compare register. -/
def register : TimerChannelName → BitVec 3
  | a => 0b101
  | b => 0b110
  | c => 0b111

end TimerChannelName

/-- What an observer saw of a channel. -/
structure PwmLog where
  /-- The last value written. -/
  written : BitVec 16
  /-- The last value written before the last reload point. -/
  next : BitVec 16
  /-- The last value written before the reload point in front of the period in progress. There is
  none in the first period. -/
  duty : Option (BitVec 16)
  /-- The counting steps of the period in progress that are over. -/
  step : ℕ
  deriving DecidableEq

namespace TimerB

variable (s : TimerB) (k : TimerChannelName) (n : BitVec 16) (i : TimerBInput) (o : PwmLog)

def channel : TimerChannelName → TimerChannel
  | .a => s.a
  | .b => s.b
  | .c => s.c

def writesChannel (q : MemRequest) : Bool := q.selects k.register && q.wren

/-- Continuous counting with CMPT = `n`, a channel in edge-aligned PWM mode with its preload bit. -/
structure Pwm : Prop where
  en : s.en = true
  os : s.os = false
  cmpt : s.cmpt = n
  cmptshadow : s.cmptshadow = n
  pos : 1 ≤ n
  mode : (s.channel k).mode = 0b100
  pre : (s.channel k).pre = true

/-- The output is at its active level. -/
def active : Bool := (s.channel k).oc != (s.channel k).pha

/-- The reload point. -/
def atReload : Bool := s.ticks && !s.hits && s.reloads

/-- One clock of the observer. -/
def pwmLog : PwmLog where
  written := if writesChannel k i.request then compareValue i.request else o.written
  next := if s.atReload then o.written else o.next
  duty := if s.ends then some o.next else o.duty
  step := if s.ticks then if s.hits then 0 else o.step + 1 else o.step

/-- The timer from any state on, with the observer. -/
def observed : Machine (TimerB × PwmLog) TimerBInput :=
  (⟨s, clock⟩ : Machine TimerB TimerBInput).observe
    ⟨(s.channel k).cmp, (s.channel k).cmpshadow, none, 0⟩ fun s i => s.pwmLog k i

/-- The counter is not above CMPT, so that the wrap is at CMPT itself, or the wrap from above makes
no difference. -/
def StartsBelow : Prop :=
  s.cntr ≤ n ∨ (s.channel k).cmpshadow = 0 ∨ s.cntr.toNat + 1 < (s.channel k).cmpshadow.toNat

instance : Decidable (s.StartsBelow k n) := inferInstanceAs (Decidable (_ ∨ _ ∨ _))

variable {s k n i o}

/-! ## One clock -/

theorem access_of_quiet (hi : Quiet i) : (s.access i.request).en = s.en ∧
    (s.access i.request).os = s.os ∧ (s.access i.request).cntr = s.cntr ∧
    (s.access i.request).cmptshadow = s.cmptshadow ∧ (s.access i.request).cmpt = s.cmpt := by
  obtain ⟨⟨-, hctrl, hcntr⟩, hcmpt⟩ := hi
  rw [writesCompare] at hcmpt
  rw [access]
  cases hw : i.request.wren with
  | false => exact ⟨rfl, rfl, rfl, rfl, rfl⟩
  | true =>
    rw [hw, Bool.and_true] at hctrl hcntr hcmpt
    simp only [if_true, write, hctrl, hcntr, hcmpt, Bool.false_eq_true, if_false]
    split_ifs <;> exact ⟨rfl, rfl, rfl, rfl, rfl⟩

theorem channel_access (hi : Quiet i) (hen : s.en = true) (hpre : (s.channel k).pre = true) :
    ∃ cm, (s.access i.request).channel k =
      { s.channel k with
        cm := cm
        cmp :=
          if writesChannel k i.request then compareValue i.request else (s.channel k).cmp } := by
  obtain ⟨⟨-, hctrl, hcntr⟩, hcmpt⟩ := hi
  rw [writesCompare] at hcmpt
  rw [access, writesChannel]
  cases hw : i.request.wren with
  | false => exact ⟨(s.channel k).cm, by cases k <;> simp [channel]⟩
  | true =>
    rw [hw, Bool.and_true] at hctrl hcntr hcmpt
    simp only [if_true, write, hctrl, hcntr, hcmpt, Bool.false_eq_true, if_false, Bool.and_true]
    have hshadow : (!s.en || !(s.channel k).pre) = false := by rw [hen, hpre]; rfl
    cases hk : i.request.selects k.register with
    | true =>
      have hother (r : BitVec 3) (hr : k.register ≠ r) : i.request.selects r = false :=
        MemRequest.selects_of_ne hk hr
      refine ⟨(s.channel k).cm, ?_⟩
      cases k <;>
        simp_all [TimerChannelName.register, channel, TimerChannel.writeCompare, compareValue]
    | false =>
      simp only [Bool.false_eq_true, if_false]
      cases k <;> simp [TimerChannelName.register] at hk <;>
        simp only [hk, Bool.false_eq_true, if_false] <;> split_ifs <;> exact ⟨_, rfl⟩

/-- The counting step of a channel in PWM mode. -/
theorem step_of_pwm {c m : TimerChannel} {cntr cmptshadow : BitVec 16} {os ic : Bool}
    (hmode : c.mode = 0b100) :
    (c.step m cntr cmptshadow os ic).oc = c.pwmOutput cntr cmptshadow os ∧
      (c.step m cntr cmptshadow os ic).cmp = m.cmp ∧
      (c.step m cntr cmptshadow os ic).cmpshadow = m.cmpshadow ∧
      (c.step m cntr cmptshadow os ic).pha = m.pha ∧
      (c.step m cntr cmptshadow os ic).mode = m.mode ∧
      (c.step m cntr cmptshadow os ic).pre = m.pre := by
  rw [TimerChannel.step, hmode]
  exact ⟨rfl, rfl, rfl, rfl, rfl, rfl⟩

/-- The channels behind a clock. -/
theorem channel_channels (m : TimerB) (hmode : (s.channel k).mode = 0b100) :
    ((s.channels m i).channel k).oc =
        (if s.ticks then (s.channel k).pwmOutput s.cntr s.cmptshadow s.os else (m.channel k).oc) ∧
      ((s.channels m i).channel k).cmp = (m.channel k).cmp ∧
      ((s.channels m i).channel k).cmpshadow = (m.channel k).cmpshadow ∧
      ((s.channels m i).channel k).pha = (m.channel k).pha ∧
      ((s.channels m i).channel k).mode = (m.channel k).mode ∧
      ((s.channels m i).channel k).pre = (m.channel k).pre := by
  rw [channels]
  split_ifs
  · cases k <;> exact step_of_pwm hmode
  · exact ⟨rfl, rfl, rfl, rfl, rfl, rfl⟩

/-- The counter leaves the channels, the exchange apart. -/
theorem channel_count (m : TimerB) (hen : s.en = true) : (s.count m).channel k =
    if s.atReload then (s.channel k).reload (m.channel k) else m.channel k := by
  rw [atReload, count, if_pos hen, ticks, hen, Bool.true_and]
  by_cases htick : s.prscshadow ≤ s.prescaler
  · rw [if_pos htick, decide_eq_true htick, Bool.true_and]
    cases hhits : s.hits with
    | true =>
      simp only [if_true, wrap, Bool.not_true, Bool.false_and, Bool.false_eq_true, if_false]
      cases k <;> split_ifs <;> rfl
    | false =>
      simp only [Bool.false_eq_true, if_false, Bool.not_false, Bool.true_and]
      cases s.reloads <;> cases k <;> rfl
  · rw [if_neg htick, decide_eq_false htick]
    cases k <;> rfl

/-- The counter with a constant compare value. -/
theorem Pwm.clock_counter (h : s.Pwm k n) (hi : Quiet i) : (s.clock i).en = true ∧
    (s.clock i).os = false ∧ (s.clock i).cmpt = n ∧ (s.clock i).cmptshadow = n ∧
    (s.clock i).cntr = if s.ticks then if s.hits then 0 else s.cntr + 1 else s.cntr := by
  obtain ⟨hen, hos, hcntr, hshadow, hcmpt⟩ := access_of_quiet (s := s) hi
  obtain ⟨a, b, c, hchannels⟩ := exists_channels (s := s) (i := i) (s.count (s.access i.request))
  rw [clock, hi.1.1, if_neg Bool.false_ne_true, hchannels, count, if_pos h.en, ticks, h.en,
    Bool.true_and]
  rw [h.en] at hen
  rw [h.os] at hos
  rw [h.cmptshadow] at hshadow
  rw [h.cmpt] at hcmpt
  by_cases htick : s.prscshadow ≤ s.prescaler
  · rw [if_pos htick, decide_eq_true htick]
    cases s.hits with
    | true => simp [wrap, h.os, hen, hos, hshadow, hcmpt]
    | false => cases s.reloads <;> simp [reload, h.cmpt, hen, hos, hshadow, hcmpt]
  · rw [if_neg htick, decide_eq_false htick]
    simp [hen, hos, hshadow, hcmpt, hcntr]

/-- One clock of the channel. -/
theorem Pwm.clock (h : s.Pwm k n) (hi : Quiet i) : (s.clock i).Pwm k n ∧
    ((s.clock i).channel k).pha = (s.channel k).pha ∧
    ((s.clock i).channel k).cmp =
      (if writesChannel k i.request then compareValue i.request else (s.channel k).cmp) ∧
    ((s.clock i).channel k).cmpshadow =
      (if s.atReload then (s.channel k).cmp else (s.channel k).cmpshadow) ∧
    ((s.clock i).channel k).oc =
      if s.ticks then (s.channel k).pwmOutput s.cntr n false else (s.channel k).oc := by
  obtain ⟨hen, hos, hcmpt, hshadow, -⟩ := h.clock_counter hi
  obtain ⟨cm, haccess⟩ := channel_access hi h.en h.pre
  have hcount := channel_count (k := k) (s.access i.request) h.en
  rw [haccess] at hcount
  obtain ⟨hoc, hcmp, hcmpshadow, hpha, hmode, hpre⟩ :=
    channel_channels (i := i) (s.count (s.access i.request)) h.mode
  have hclock : s.clock i = s.channels (s.count (s.access i.request)) i := by
    rw [TimerB.clock, hi.1.1, if_neg Bool.false_ne_true]
  rw [← hclock, hcount] at hoc hcmp hcmpshadow hpha hmode hpre
  rw [h.os, h.cmptshadow] at hoc
  refine ⟨⟨hen, hos, hcmpt, hshadow, h.pos, ?_, ?_⟩, ?_, ?_, ?_, ?_⟩
  · rw [hmode, ← h.mode]
    split_ifs <;> rfl
  · rw [hpre, ← h.pre]
    split_ifs <;> rfl
  · rw [hpha]
    split_ifs <;> rfl
  · rw [hcmp]
    split_ifs <;> rfl
  · rw [hcmpshadow]
    split_ifs <;> rfl
  · rw [hoc]
    split_ifs <;> rfl

/-! ## The invariant -/

/-- The output of the next step. -/
theorem pwmOutput_iff {c : TimerChannel} {cntr : BitVec 16} :
    (c.pwmOutput cntr n false != c.pha) = true ↔
      c.cmpshadow ≠ 0 ∧ (cntr.toNat + 1 < c.cmpshadow.toNat ∨ cntr = n) := by
  rw [TimerChannel.pwmOutput]
  by_cases hzero : c.cmpshadow = 0
  · rw [if_pos hzero]
    simp [hzero]
  · have hlt : cntr < c.cmpshadow - 1 ↔ cntr.toNat + 1 < c.cmpshadow.toNat := by bv_omega
    rw [if_neg hzero, ← hlt]
    split_ifs with h <;> simp_all

structure PwmInv (s : TimerB) (k : TimerChannelName) (n : BitVec 16) (o : PwmLog) : Prop where
  pwm : s.Pwm k n
  below : s.StartsBelow k n
  written : o.written = (s.channel k).cmp
  next : o.next = (s.channel k).cmpshadow
  later : ∀ m, o.duty = some m → s.cntr ≤ n ∧ o.step = s.cntr.toNat ∧
    (s.cntr < n → (s.channel k).cmpshadow = m) ∧
    (s.active k = true ↔ s.cntr.toNat < m.toNat)

/-- A clock without a counting step. -/
theorem PwmInv.clock_of_not_ticks (h : PwmInv s k n o) (hi : Quiet i) (htick : s.ticks = false) :
    PwmInv (s.clock i) k n (s.pwmLog k i o) := by
  obtain ⟨-, -, -, -, hcntr⟩ := h.pwm.clock_counter hi
  obtain ⟨hpwm, hpha, hcmp, hshadow, hoc⟩ := h.pwm.clock hi
  have hreload : s.atReload = false := by rw [atReload, htick]; rfl
  have hends : s.ends = false := by rw [ends, htick]; rfl
  rw [htick, if_neg Bool.false_ne_true] at hcntr hoc
  rw [hreload, if_neg Bool.false_ne_true] at hshadow
  have hactive : (s.clock i).active k = s.active k := by rw [active, hoc, hpha, active]
  refine ⟨hpwm, ?_, ?_, ?_, fun m hm => ?_⟩
  · rw [StartsBelow, hcntr, hshadow]
    exact h.below
  · rw [pwmLog, hcmp, h.written]
  · rw [pwmLog, hreload, hshadow]
    exact h.next
  · rw [pwmLog, hends] at hm
    rw [pwmLog, htick, hcntr, hshadow, hactive]
    exact h.later m hm

/-- The last step of a period. -/
theorem PwmInv.clock_of_hits (h : PwmInv s k n o) (hi : Quiet i) (htick : s.ticks = true)
    (hhits : s.hits = true) : PwmInv (s.clock i) k n (s.pwmLog k i o) := by
  obtain ⟨-, -, -, -, hcntr⟩ := h.pwm.clock_counter hi
  obtain ⟨hpwm, hpha, hcmp, hshadow, hoc⟩ := h.pwm.clock hi
  have hreload : s.atReload = false := by rw [atReload, htick, hhits]; rfl
  have hends : s.ends = true := by rw [ends, htick, hhits]; rfl
  rw [htick, hhits, if_pos rfl, if_pos rfl] at hcntr
  rw [htick, if_pos rfl] at hoc
  rw [hreload, if_neg Bool.false_ne_true] at hshadow
  have hle : n ≤ s.cntr := by
    rw [← h.pwm.cmptshadow]
    simpa [hits] using hhits
  have hpos : 1 ≤ n.toNat := h.pwm.pos
  refine ⟨hpwm, .inl ?_, ?_, ?_, fun m hm => ?_⟩
  · rw [hcntr]
    bv_omega
  · rw [pwmLog, hcmp, h.written]
  · rw [pwmLog, hreload, hshadow]
    exact h.next
  · have hnext : (s.channel k).cmpshadow = m := by
      rw [pwmLog, hends] at hm
      rw [← h.next]
      exact Option.some_inj.mp hm
    rw [pwmLog, htick, hhits, hcntr, hshadow, active, hoc, hpha, pwmOutput_iff, hnext]
    refine ⟨by bv_omega, rfl, fun _ => rfl, ?_⟩
    have hbelow := h.below
    rw [StartsBelow, hnext] at hbelow
    bv_omega

/-- Any other step. -/
theorem PwmInv.clock_of_not_hits (h : PwmInv s k n o) (hi : Quiet i) (htick : s.ticks = true)
    (hhits : s.hits = false) : PwmInv (s.clock i) k n (s.pwmLog k i o) := by
  obtain ⟨-, -, -, -, hcntr⟩ := h.pwm.clock_counter hi
  obtain ⟨hpwm, hpha, hcmp, hshadow, hoc⟩ := h.pwm.clock hi
  have hends : s.ends = false := by rw [ends, hhits, Bool.and_false]
  rw [htick, hhits, if_pos rfl, if_neg Bool.false_ne_true] at hcntr
  rw [htick, if_pos rfl] at hoc
  have hlt : s.cntr < n := by
    rw [← h.pwm.cmptshadow]
    simpa [hits] using hhits
  have hreload : s.cntr + 1 < n → s.atReload = false := by
    intro hlt'
    rw [atReload, reloads, h.pwm.cmptshadow, decide_eq_false (by bv_omega), Bool.and_false]
  refine ⟨hpwm, .inl ?_, ?_, ?_, fun m hm => ?_⟩
  · rw [hcntr]
    bv_omega
  · rw [pwmLog, hcmp, h.written]
  · rw [pwmLog, hshadow, h.written, h.next]
  · rw [pwmLog, hends] at hm
    obtain ⟨-, hstep, hduty, -⟩ := h.later m hm
    rw [pwmLog, htick, hhits, hcntr, hshadow, active, hoc, hpha, pwmOutput_iff, hduty hlt]
    refine ⟨by bv_omega, ?_, fun hlt' => ?_, ?_⟩
    · simp only [if_true, Bool.false_eq_true, if_false]
      bv_omega
    · rw [hreload hlt', if_neg Bool.false_ne_true]
    · bv_omega

theorem PwmInv.clock (h : PwmInv s k n o) (hi : Quiet i) :
    PwmInv (s.clock i) k n (s.pwmLog k i o) := by
  cases htick : s.ticks with
  | false => exact h.clock_of_not_ticks hi htick
  | true =>
    cases hhits : s.hits with
    | true => exact h.clock_of_hits hi htick hhits
    | false => exact h.clock_of_not_hits hi htick hhits

theorem PwmInv.duty (h : PwmInv s k n o) {m : BitVec 16} (hm : o.duty = some m) :
    o.step ≤ n.toNat ∧ (s.ends = true → o.step = n.toNat) ∧
      (s.active k = true ↔ o.step < min m.toNat (n.toNat + 1)) := by
  obtain ⟨hle, hstep, -, hactive⟩ := h.later m hm
  rw [BitVec.le_def] at hle
  rw [hstep, hactive]
  refine ⟨hle, fun hends => ?_, by omega⟩
  rw [ends, Bool.and_eq_true, hits, decide_eq_true_eq, h.pwm.cmptshadow, BitVec.le_def] at hends
  omega

/-! ## The wrap from above -/

end TimerB

end ThuasRiscv
