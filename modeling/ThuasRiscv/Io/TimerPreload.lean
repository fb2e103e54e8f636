import ThuasRiscv.Io.TimerB
import ThuasRiscv.Periods

/-!
# The preload of the compare register T

A compare value that is written to the running timer with the preload bit set
waits in the register, and the shadow register takes it in the last step but one
of a period, where the counter is one less than the shadow register itself. The
last step is made with the new value already, and a shadow register of 0 is
never exchanged.
-/

namespace ThuasRiscv

open Transition Periods

/-- The counter in counting steps, with the active compare value and the one that is waiting. -/
structure Sawtooth where
  cntr : ℕ
  active : ℕ
  preload : ℕ

namespace Sawtooth

variable (p : Sawtooth)

def step : Sawtooth :=
  if p.active ≤ p.cntr then { p with cntr := 0 }
  else
    { p with
      cntr := p.cntr + 1
      active := if p.cntr + 1 = p.active then p.preload else p.active }

/-- The steps of the period in progress that are left. -/
def length : ℕ := if p.cntr < p.active then max p.preload p.active - p.cntr + 1 else 1

/-- The compare value of the next period. -/
def next : ℕ := if p.cntr < p.active then p.preload else p.active

variable {p}

theorem step_of_le (h : p.active ≤ p.cntr) :
    p.step = { p with cntr := 0 } ∧ p.length = 1 ∧ p.next = p.active := by
  rw [step, length, next, if_pos h, if_neg (Nat.not_lt.mpr h), if_neg (Nat.not_lt.mpr h)]
  exact ⟨rfl, rfl, rfl⟩

theorem step_of_lt (h : p.cntr < p.active) : p.length = p.step.length + 1 ∧
    p.step.next = p.next ∧ p.step.preload = p.preload := by
  rw [step, if_neg (Nat.not_le.mpr h), length, length, next, next]
  simp only
  refine ⟨?_, ?_, trivial⟩ <;> split_ifs <;> omega

/-- The active value stays, or it is exchanged. -/
theorem active_step (p : Sawtooth) :
    p.step.active = p.active ∨ p.step.active = p.preload ∧ p.cntr < p.active := by
  rw [step]
  split_ifs with hle hlast
  · exact .inl rfl
  · exact .inr ⟨rfl, Nat.lt_of_not_le hle⟩
  · exact .inl rfl

end Sawtooth

namespace TimerB

def writesCompare (q : MemRequest) : Bool := q.selects 0b011#3 && q.wren

/-- The value of a write. -/
def compareValue (q : MemRequest) : BitVec 16 := q.data.extractLsb' 0 16

/-- The bus does not write the control register or the counter. -/
def Counts (i : TimerBInput) : Prop :=
  i.sreset = false ∧ (i.request.selects 0b000#3 && i.request.wren) = false ∧
    (i.request.selects 0b010#3 && i.request.wren) = false

/-- The compare register is written. -/
def Writes (i : TimerBInput) : Prop := i.sreset = false ∧ writesCompare i.request = true

/-- The compare register is not written either. -/
def Quiet (i : TimerBInput) : Prop := Counts i ∧ writesCompare i.request = false

instance (i : TimerBInput) : Decidable (Counts i) := inferInstanceAs (Decidable (_ ∧ _ ∧ _))

instance (i : TimerBInput) : Decidable (Quiet i) := inferInstanceAs (Decidable (_ ∧ _))

variable (s : TimerB) (i : TimerBInput)

/-- The timer runs with the T preload bit set. -/
def Running : Prop := s.en = true ∧ s.pret = true

instance : Decidable s.Running := inferInstanceAs (Decidable (_ ∧ _))

/-- The last step of a period. -/
def ends : Bool := s.ticks && s.hits

def sawtooth : Sawtooth := ⟨s.cntr.toNat, s.cmptshadow.toNat, s.cmpt.toNat⟩

/-- The compare register behind a clock. -/
def nextCompare : BitVec 16 :=
  if writesCompare i.request then compareValue i.request else s.cmpt

/-- The active compare value takes the value of a write. -/
def Follows : Prop := ∀ j : ℕ → TimerBInput, Writes (j 0) → (∀ t, Quiet (j (t + 1))) →
  ∃ u, (machine.trace s j u).cmptshadow = compareValue (j 0).request

/-- The value that is written in clock 0 does not change the period in progress, and is the length
of the next one; the active compare value follows all later writes. A one-shot has no next
period. -/
def Preloads (i : ℕ → TimerBInput) : Prop :=
  ∃ e, Period (fun t => (machine.trace s i t).ticks) (fun t => (machine.trace s i t).ends) 0 e
      (s.cmptshadow.toNat - s.cntr.toNat + 1) ∧
    (s.os = false →
      (∃ e', Period (fun t => (machine.trace s i t).ticks) (fun t => (machine.trace s i t).ends)
        (e + 1) e' ((compareValue (i 0).request).toNat + 1)) ∧
      ∀ t, (machine.trace s i (t + 1)).Follows)

/-- The value that the shadow register has in the next period when `v` is written in this clock: in
the last step it is too late for an exchange, and in the clock of the exchange for this one. -/
def exchanged (v : BitVec 16) : BitVec 16 :=
  if s.cmptshadow ≤ s.cntr then s.cmptshadow
  else if s.ticks && s.reloads then s.cmpt
  else v

/-- The exchange does not make the period in progress longer, and in the next period neither; the
value is not 0. -/
def Exchanges (v : BitVec 16) : Prop :=
  s.exchanged v ≤ s.cmptshadow ∧ (s.os = false → 0 < s.exchanged v ∧ s.exchanged v ≤ v)

instance (v : BitVec 16) : Decidable (s.Exchanges v) := inferInstanceAs (Decidable (_ ∧ _))

/-- The timer counts on behind the end of a period, and neither of the compare values is 0. -/
structure Exchanging : Prop where
  run : s.Running
  os : s.os = false
  active : s.cmptshadow ≠ 0
  preload : s.cmpt ≠ 0

variable {s i}

theorem Writes.counts (h : Writes i) : Counts i := by
  have hselects : i.request.selects 0b011#3 = true := (Bool.and_eq_true _ _ ▸ h.2 : _ ∧ _).1
  rw [Counts, MemRequest.selects_of_ne hselects (by decide),
    MemRequest.selects_of_ne hselects (by decide)]
  exact ⟨h.1, rfl, rfl⟩

/-- What the bus leaves of a running timer. -/
theorem access_of_counts (h : s.Running) (hi : Counts i) :
    (s.access i.request).en = true ∧ (s.access i.request).pret = true ∧
      (s.access i.request).os = s.os ∧ (s.access i.request).cntr = s.cntr ∧
      (s.access i.request).cmptshadow = s.cmptshadow ∧
      (s.access i.request).cmpt = s.nextCompare i ∧
      (s.access i.request).prscshadow = s.prscshadow := by
  obtain ⟨hen, hpret⟩ := h
  obtain ⟨-, hctrl, hcntr⟩ := hi
  rw [nextCompare, writesCompare, access]
  cases hw : i.request.wren with
  | false => simp [hen, hpret]
  | true =>
    rw [hw, Bool.and_true] at hctrl hcntr
    simp only [if_true, Bool.and_true, write, hctrl, hcntr, Bool.false_eq_true, if_false]
    cases hc : i.request.selects 0b011#3 with
    | true =>
      rw [MemRequest.selects_of_ne hc (by decide)]
      simp [hen, hpret, compareValue]
    | false =>
      simp only [Bool.false_eq_true, if_false]
      split_ifs <;> simp_all

/-- The channels are apart from the counter. -/
theorem exists_channels (n : TimerB) :
    ∃ a b c, s.channels n i = { n with a := a, b := b, c := c } := by
  rw [channels]
  split_ifs
  · exact ⟨_, _, _, rfl⟩
  · exact ⟨n.a, n.b, n.c, rfl⟩

variable (s) in
theorem reloads_iff (h : s.cntr.toNat < s.cmptshadow.toNat) :
    s.reloads = true ↔ s.cntr.toNat + 1 = s.cmptshadow.toNat := by
  rw [reloads, decide_eq_true_eq]
  bv_omega

theorem step_sawtooth (h : s.cntr.toNat < s.cmptshadow.toNat) : s.sawtooth.step =
    ⟨s.cntr.toNat + 1,
      if s.cntr.toNat + 1 = s.cmptshadow.toNat then s.cmpt.toNat else s.cmptshadow.toNat,
      s.cmpt.toNat⟩ :=
  if_neg (Nat.not_le.mpr h)

/-- The clock of a running timer, as far as the compare register T is concerned. -/
theorem clock_of_counts (h : s.Running) (hi : Counts i) :
    (s.clock i).sawtooth =
        { (if s.ticks then s.sawtooth.step else s.sawtooth) with
          preload := (s.nextCompare i).toNat } ∧
      (s.clock i).os = s.os ∧ (s.clock i).pret = true ∧
      (s.clock i).en = !(s.ends && s.os) ∧
      (s.ticks = false → (s.clock i).prescaler = s.prescaler + 1 ∧
        (s.clock i).prscshadow = s.prscshadow) := by
  obtain ⟨hen, hpret, hos, hcntr, hshadow, hcmpt, hprsc⟩ := access_of_counts h hi
  obtain ⟨a, b, c, hchannels⟩ := exists_channels (s := s) (i := i) (s.count (s.access i.request))
  rw [clock, hi.1, if_neg Bool.false_ne_true, hchannels, count, if_pos h.1]
  by_cases htick : s.prscshadow ≤ s.prescaler
  · have hticks : s.ticks = true := by simp [ticks, h.1, htick]
    rw [if_pos htick, hticks, ends, hticks, Bool.true_and, if_pos rfl]
    by_cases hhit : s.cmptshadow ≤ s.cntr
    · have hle : s.cmptshadow.toNat ≤ s.cntr.toNat := hhit
      rw [(Sawtooth.step_of_le hle).1]
      simp only [hits, hhit, decide_true, if_true, wrap, sawtooth]
      cases hs : s.os <;> simp_all
    · have hlt : s.cntr.toNat < s.cmptshadow.toNat := by
        simpa [BitVec.le_def] using hhit
      have hhits : s.hits = false := by simp [hits, hhit]
      rw [hhits, Bool.false_and, if_neg Bool.false_ne_true, step_sawtooth hlt]
      have hnext : (s.cntr + 1#16).toNat = s.cntr.toNat + 1 := by bv_omega
      cases hreloads : s.reloads with
      | true =>
        have hlast : s.cntr.toNat + 1 = s.cmptshadow.toNat := (s.reloads_iff hlt).mp hreloads
        simp [sawtooth, reload, hnext, hlast, hcmpt, hos, hpret, hen, -BitVec.toNat_add]
      | false =>
        have hlast : s.cntr.toNat + 1 ≠ s.cmptshadow.toNat := by
          rw [Ne, ← s.reloads_iff hlt, hreloads]
          exact Bool.false_ne_true
        simp [sawtooth, hnext, hlast, hshadow, hcmpt, hos, hpret, hen, -BitVec.toNat_add]
  · have hticks : s.ticks = false := by simp [ticks, htick]
    rw [if_neg htick, hticks, ends, hticks]
    simp [sawtooth, hcntr, hshadow, hcmpt, hos, hpret, hen, hprsc]

theorem clock_of_quiet (h : s.Running) (hi : Quiet i) :
    (s.clock i).sawtooth = if s.ticks then s.sawtooth.step else s.sawtooth := by
  have hcmpt : s.nextCompare i = s.cmpt := by rw [nextCompare, hi.2, if_neg Bool.false_ne_true]
  rw [(clock_of_counts h hi.1).1, hcmpt]
  split_ifs
  · have hpreload : s.sawtooth.step.preload = s.cmpt.toNat := by
      rw [Sawtooth.step]
      split_ifs <;> rfl
    rw [← hpreload]
  · rfl

theorem Exchanging.active_clock (h : s.Exchanging) (hi : Counts i) :
    (s.clock i).cmptshadow ≠ 0 := by
  have hactive : s.sawtooth.active ≠ 0 := fun hzero => h.active (BitVec.eq_of_toNat_eq hzero)
  have hpreload : s.sawtooth.preload ≠ 0 := fun hzero => h.preload (BitVec.eq_of_toNat_eq hzero)
  have hnext := congrArg Sawtooth.active (clock_of_counts h.run hi).1
  intro hzero
  rw [sawtooth, hzero] at hnext
  simp only at hnext
  split_ifs at hnext
  · rcases s.sawtooth.active_step with hstay | ⟨hexchange, -⟩
    · exact hactive (by rw [← hstay, ← hnext]; rfl)
    · exact hpreload (by rw [← hexchange, ← hnext]; rfl)
  · exact hactive (by rw [← hnext]; rfl)

theorem Exchanging.clock (h : s.Exchanging) (hi : Counts i)
    (hw : writesCompare i.request = true → compareValue i.request ≠ 0) :
    (s.clock i).Exchanging := by
  obtain ⟨hsaw, hos, hpret, hen, -⟩ := clock_of_counts h.run hi
  rw [h.os, Bool.and_false] at hen
  refine ⟨⟨hen, hpret⟩, hos.trans h.os, h.active_clock hi, fun hzero => ?_⟩
  have hnext := congrArg Sawtooth.preload hsaw
  rw [sawtooth, hzero, nextCompare] at hnext
  simp only at hnext
  split_ifs at hnext with hwrite
  · exact hw hwrite (BitVec.eq_of_toNat_eq hnext.symm)
  · exact h.preload (BitVec.eq_of_toNat_eq hnext.symm)

/-- A shadow register of 0 is never exchanged. -/
theorem clock_cmptshadow_of_zero (h : s.Running) (hos : s.os = false) (hzero : s.cmptshadow = 0)
    (hi : Counts i) :
    (s.clock i).Running ∧ (s.clock i).os = false ∧ (s.clock i).cmptshadow = 0 := by
  obtain ⟨hsaw, hos', hpret, hen, -⟩ := clock_of_counts h hi
  rw [hos, Bool.and_false] at hen
  refine ⟨⟨hen, hpret⟩, hos'.trans hos, ?_⟩
  have hactive : s.sawtooth.active = 0 := by simp [sawtooth, hzero]
  have hnext := congrArg Sawtooth.active hsaw
  have hstep : s.sawtooth.step.active = 0 := by
    rcases s.sawtooth.active_step with hstay | ⟨-, hlt⟩
    · exact hstay.trans hactive
    · omega
  have htoNat : (s.clock i).cmptshadow.toNat = 0 := by
    refine Eq.trans hnext ?_
    simp only
    split_ifs
    · exact hstep
    · exact hactive
  exact BitVec.eq_of_toNat_eq htoNat

/-! ## Runs -/

variable {x : ℕ → TimerB} {i : ℕ → TimerBInput} {a : ℕ}

/-- The prescaler comes to its end. -/
theorem exists_tick (hx : ∀ t, x (t + 1) = (x t).clock (i t)) (h : (x a).Running)
    (hi : ∀ t, a ≤ t → Quiet (i t)) : ∃ k, (∀ j, j < k → (x (a + j)).ticks = false) ∧
      (x (a + k)).ticks = true ∧ (x (a + k)).Running ∧ (x (a + k)).os = (x a).os ∧
      (x (a + k)).sawtooth = (x a).sawtooth := by
  obtain ⟨d, hd⟩ : ∃ d, (x a).prscshadow.toNat - (x a).prescaler.toNat = d := ⟨_, rfl⟩
  induction d generalizing a with
  | zero =>
    refine ⟨0, nofun, ?_, h, rfl, rfl⟩
    have hle : (x a).prscshadow ≤ (x a).prescaler := by
      rw [BitVec.le_def]
      omega
    rw [Nat.add_zero, ticks, h.1, decide_eq_true hle]
    rfl
  | succ d ih =>
    have htick : (x a).ticks = false := by
      have hle : ¬ (x a).prscshadow ≤ (x a).prescaler := by
        rw [BitVec.le_def]
        omega
      rw [ticks, decide_eq_false hle, Bool.and_false]
    have hquiet := hi a le_rfl
    obtain ⟨-, hos, hpret, hen, hwait⟩ := clock_of_counts h hquiet.1
    have hsaw := clock_of_quiet h hquiet
    obtain ⟨hprescaler, hprsc⟩ := hwait htick
    rw [htick, if_neg Bool.false_ne_true] at hsaw
    rw [ends, htick, Bool.false_and, Bool.false_and] at hen
    rw [← hx] at hos hpret hen hsaw hprescaler hprsc
    obtain ⟨k, hbefore, htick', hrun', hos', hsaw'⟩ := ih (a := a + 1) ⟨hen, hpret⟩
      (fun t ht => hi t (by omega)) (by rw [hprescaler, hprsc]; bv_omega)
    rw [Nat.add_right_comm, Nat.add_assoc] at htick' hrun' hos' hsaw'
    refine ⟨k + 1, fun j hj => ?_, htick', hrun', hos'.trans hos, hsaw'.trans hsaw⟩
    cases j with
    | zero => exact htick
    | succ j =>
      rw [← Nat.add_assoc, Nat.add_right_comm]
      exact hbefore j (by omega)

theorem ends_eq (h : s.ticks = true) :
    s.ends = decide (s.sawtooth.active ≤ s.sawtooth.cntr) := by
  rw [ends, h]
  rfl

/-- The period in progress of a timer that is left alone. -/
theorem exists_period (hx : ∀ t, x (t + 1) = (x t).clock (i t)) (h : (x a).Running)
    (hi : ∀ t, a ≤ t → Quiet (i t)) :
    ∃ e, Period (fun t => (x t).ticks) (fun t => (x t).ends) a e (x a).sawtooth.length ∧
      ((x a).os = false → (x (e + 1)).Running ∧ (x (e + 1)).os = false ∧
        (x (e + 1)).sawtooth = ⟨0, (x a).sawtooth.next, (x a).sawtooth.preload⟩) := by
  obtain ⟨n, hn⟩ : ∃ n, (x a).sawtooth.length = n := ⟨_, rfl⟩
  induction n using Nat.strong_induction_on generalizing a with
  | _ n ih =>
    obtain ⟨k, hbefore, htick, hrun, hos, hsaw⟩ := exists_tick hx h hi
    have hwait (j : ℕ) (hj : j < k) : (x (a + j)).ticks = false ∧ (x (a + j)).ends = false := by
      rw [ends, hbefore j hj]
      exact ⟨rfl, rfl⟩
    have hquiet := hi (a + k) (by omega)
    obtain ⟨-, hos', hpret, hen, -⟩ := clock_of_counts hrun hquiet.1
    have hstep := clock_of_quiet hrun hquiet
    rw [htick, if_pos rfl, hsaw] at hstep
    rw [hos] at hos' hen
    rw [← hx] at hos' hpret hen hstep
    have hends := ends_eq htick
    rw [hsaw] at hends
    rcases Nat.lt_or_ge (x a).sawtooth.cntr (x a).sawtooth.active with hlt | hle
    · obtain ⟨hlength, hnext, hpreload⟩ := Sawtooth.step_of_lt hlt
      rw [decide_eq_false (Nat.not_le.mpr hlt)] at hends
      rw [hends, Bool.false_and] at hen
      obtain ⟨e, hperiod, hafter⟩ := ih (x a).sawtooth.step.length (by omega) (a := a + k + 1)
        ⟨hen, hpret⟩ (fun t ht => hi t (by omega)) (by rw [hstep])
      rw [hstep, hos', hnext, hpreload] at hafter
      rw [hstep] at hperiod
      rw [hlength]
      exact ⟨e, (hperiod.step htick hends).wait_add hwait, hafter⟩
    · obtain ⟨hwrap, hlength, hnext⟩ := Sawtooth.step_of_le hle
      rw [decide_eq_true hle] at hends
      rw [hlength, hnext]
      refine ⟨a + k, (Period.single htick hends).wait_add hwait, fun hcont => ?_⟩
      rw [hcont, Bool.and_false] at hen
      exact ⟨⟨hen, hpret⟩, hos'.trans hcont, hstep.trans hwrap⟩

/-! ## Following -/

/-- The clocks behind clock 0 are quiet. -/
theorem quiet_of_pos {i : ℕ → TimerBInput} (h : ∀ t, Quiet (i (t + 1))) :
    ∀ t, 1 ≤ t → Quiet (i t) := by
  intro t ht
  rw [← Nat.sub_add_cancel ht]
  exact h (t - 1)

theorem Exchanging.follows (h : s.Exchanging) : s.Follows := by
  intro j hw hq
  have hx (t : ℕ) : machine.trace s j (t + 1) = (machine.trace s j t).clock (j t) := rfl
  have hquiet := quiet_of_pos hq
  obtain ⟨hsaw, hos, hpret, hen, -⟩ := clock_of_counts h.run hw.counts
  rw [h.os, Bool.and_false] at hen
  rw [nextCompare, if_pos hw.2] at hsaw
  have hpreload : (machine.trace s j 1).sawtooth.preload = (compareValue (j 0).request).toNat :=
    congrArg Sawtooth.preload hsaw
  have hactive : (machine.trace s j 1).sawtooth.active ≠ 0 := fun hzero =>
    h.active_clock hw.counts (BitVec.eq_of_toNat_eq hzero)
  obtain ⟨e, -, hafter⟩ := exists_period hx (a := 1) ⟨hen, hpret⟩ hquiet
  obtain ⟨hrun, hos', hnext⟩ := hafter (hos.trans h.os)
  rw [hpreload, Sawtooth.next] at hnext
  split_ifs at hnext with hlt
  · rw [hpreload] at hnext
    exact ⟨e + 1, BitVec.eq_of_toNat_eq (congrArg Sawtooth.active hnext)⟩
  · -- too late for the period in progress
    obtain ⟨e', -, hafter'⟩ := exists_period hx hrun fun t ht => hquiet t (by omega)
    have hnext' := (hafter' hos').2.2
    rw [hnext, Sawtooth.next, if_pos (Nat.pos_of_ne_zero hactive)] at hnext'
    exact ⟨e' + 1, BitVec.eq_of_toNat_eq (congrArg Sawtooth.active hnext')⟩

/-- A clock with a store to the register at `addr`. -/
def storing (addr data : DataType) : TimerBInput :=
  ⟨⟨true, .word, addr, data, true⟩, false, false, false, false⟩

/-- A clock without an access. -/
def pause : TimerBInput := ⟨⟨false, .word, 0, 0, false⟩, false, false, false, false⟩

/-- A store to the compare register, and nothing else. -/
def comparing (v : DataType) : ℕ → TimerBInput
  | 0 => storing 12 v
  | _ + 1 => pause

theorem comparing_quiet (v : DataType) (t : ℕ) : Quiet (comparing v (t + 1)) := by
  change Quiet pause
  decide

theorem not_follows (h : s.Running) (hos : s.os = false) (hzero : s.cmptshadow = 0) :
    ¬ s.Follows := by
  have hstays (u : ℕ) : (machine.trace s (comparing 1) u).Running ∧
      (machine.trace s (comparing 1) u).os = false ∧
      (machine.trace s (comparing 1) u).cmptshadow = 0 := by
    induction u with
    | zero => exact ⟨h, hos, hzero⟩
    | succ u ih =>
      refine clock_cmptshadow_of_zero ih.1 ih.2.1 ih.2.2 ?_
      cases u with
      | zero => decide
      | succ u => exact (comparing_quiet 1 u).1
  intro hfollows
  obtain ⟨u, hu⟩ := hfollows (comparing 1) ⟨rfl, rfl⟩ (comparing_quiet 1)
  rw [(hstays u).2.2] at hu
  revert hu
  decide

/-! ## The period in which a value is written -/

/-- The exchange in counting steps. -/
theorem toNat_exchanged (v : BitVec 16) : (s.exchanged v).toNat =
    if s.cmptshadow.toNat ≤ s.cntr.toNat then s.cmptshadow.toNat
    else if s.ticks = true ∧ s.cntr.toNat + 1 = s.cmptshadow.toNat then s.cmpt.toNat
    else v.toNat := by
  simp only [exchanged, BitVec.le_def]
  split_ifs with hle hexchange hnow hnow
  · rfl
  · rfl
  · rw [Bool.and_eq_true, s.reloads_iff (Nat.lt_of_not_le hle)] at hexchange
    exact absurd hexchange hnow
  · rw [Bool.and_eq_true, s.reloads_iff (Nat.lt_of_not_le hle)] at hexchange
    exact absurd hnow hexchange
  · rfl

theorem written_period (h : s.Running) (hw : Writes (i 0)) (hq : ∀ t, Quiet (i (t + 1))) :
    ∃ e n,
      Period (fun t => (machine.trace s i t).ticks) (fun t => (machine.trace s i t).ends) 0 e n ∧
      (n = s.cmptshadow.toNat - s.cntr.toNat + 1 ↔
        s.exchanged (compareValue (i 0).request) ≤ s.cmptshadow) ∧
      (s.os = false → (machine.trace s i (e + 1)).Running ∧
        (machine.trace s i (e + 1)).os = false ∧
        (s.exchanged (compareValue (i 0).request) ≤ s.cmptshadow →
          (machine.trace s i (e + 1)).sawtooth = ⟨0,
            (s.exchanged (compareValue (i 0).request)).toNat,
            (compareValue (i 0).request).toNat⟩)) := by
  have hx (t : ℕ) : machine.trace s i (t + 1) = (machine.trace s i t).clock (i t) := rfl
  have hquiet := quiet_of_pos hq
  obtain ⟨hsaw, hos, hpret, hen, -⟩ := clock_of_counts h hw.counts
  rw [nextCompare, if_pos hw.2] at hsaw
  have hstart : s.ends = (s.ticks && decide (s.cmptshadow.toNat ≤ s.cntr.toNat)) := rfl
  cases htick : s.ticks with
  | false =>
    rw [htick, Bool.false_and] at hstart
    rw [htick, if_neg Bool.false_ne_true] at hsaw
    rw [hstart, Bool.false_and] at hen
    have hsaw' : (machine.trace s i 1).sawtooth = ⟨s.cntr.toNat, s.cmptshadow.toNat,
      (compareValue (i 0).request).toNat⟩ := hsaw
    obtain ⟨e, hperiod, hafter⟩ := exists_period hx (a := 1) ⟨hen, hpret⟩ hquiet
    rw [hsaw'] at hperiod hafter
    have hexchanged := s.toNat_exchanged (compareValue (i 0).request)
    rw [htick] at hexchanged
    simp only [Bool.false_eq_true, false_and, if_false] at hexchanged
    refine ⟨e, _, hperiod.wait htick hstart, ?_, fun hcont => ?_⟩
    · rw [Sawtooth.length, BitVec.le_def, hexchanged]
      simp only
      split_ifs <;> omega
    · obtain ⟨hrun, hos', hnext⟩ := hafter (hos.trans hcont)
      refine ⟨hrun, hos', fun _ => hnext.trans ?_⟩
      rw [Sawtooth.next, hexchanged]
      simp only
      split_ifs <;> first | rfl | omega
  | true =>
    rw [htick, Bool.true_and] at hstart
    rw [htick, if_pos rfl] at hsaw
    have hexchanged := s.toNat_exchanged (compareValue (i 0).request)
    simp only [htick, true_and] at hexchanged
    by_cases hle : s.cmptshadow.toNat ≤ s.cntr.toNat
    · rw [decide_eq_true hle] at hstart
      rw [if_pos hle] at hexchanged
      rw [(Sawtooth.step_of_le (p := s.sawtooth) hle).1] at hsaw
      refine ⟨0, 1, Period.single htick hstart, ?_, fun hcont => ?_⟩
      · rw [BitVec.le_def, hexchanged]
        omega
      · rw [hcont, Bool.and_false] at hen
        rw [hexchanged]
        exact ⟨⟨hen, hpret⟩, hos.trans hcont, fun _ => hsaw⟩
    · rw [decide_eq_false hle] at hstart
      rw [if_neg hle] at hexchanged
      rw [hstart, Bool.false_and] at hen
      have hsaw' : (machine.trace s i 1).sawtooth = ⟨s.cntr.toNat + 1,
          if s.cntr.toNat + 1 = s.cmptshadow.toNat then s.cmpt.toNat else s.cmptshadow.toNat,
          (compareValue (i 0).request).toNat⟩ := by
        rw [step_sawtooth (Nat.lt_of_not_le hle)] at hsaw
        exact hsaw
      obtain ⟨e, hperiod, hafter⟩ := exists_period hx (a := 1) ⟨hen, hpret⟩ hquiet
      rw [hsaw'] at hperiod hafter
      refine ⟨e, _, hperiod.step htick hstart, ?_, fun hcont => ?_⟩
      · rw [Sawtooth.length, BitVec.le_def, hexchanged]
        simp only
        split_ifs <;> omega
      · obtain ⟨hrun, hos', hnext⟩ := hafter (hos.trans hcont)
        refine ⟨hrun, hos', fun hexchange => hnext.trans ?_⟩
        rw [BitVec.le_def, hexchanged] at hexchange
        rw [Sawtooth.next, hexchanged]
        simp only
        split_ifs at hexchange ⊢ <;> first | rfl | omega

/-- Behind the write, neither of the compare values is 0. -/
theorem Exchanges.exchanging (h : s.Running) (hos : s.os = false) (hw : Writes (i 0))
    (hx : s.Exchanges (compareValue (i 0).request)) : (machine.trace s i 1).Exchanging := by
  obtain ⟨hle, hcont⟩ := hx
  obtain ⟨hpos, hv⟩ := hcont hos
  obtain ⟨hsaw, hos', hpret, hen, -⟩ := clock_of_counts h hw.counts
  have hexchanged := s.toNat_exchanged (compareValue (i 0).request)
  rw [hos, Bool.and_false] at hen
  rw [nextCompare, if_pos hw.2] at hsaw
  rw [BitVec.le_def] at hle hv
  rw [BitVec.lt_def] at hpos
  refine ⟨⟨hen, hpret⟩, hos'.trans hos, fun hzero => ?_, fun hzero => ?_⟩
  · have hactive := congrArg Sawtooth.active hsaw
    have hnext : (s.clock (i 0)).sawtooth.active = 0 := congrArg BitVec.toNat hzero
    rw [hnext] at hactive
    simp only at hactive
    cases htick : s.ticks with
    | false =>
      rw [htick, if_neg Bool.false_ne_true, sawtooth] at hactive
      simp only at hactive
      omega
    | true =>
      rw [htick, if_pos rfl] at hactive
      rcases Nat.lt_or_ge s.cntr.toNat s.cmptshadow.toNat with hlt | hge
      · rw [step_sawtooth hlt] at hactive
        rw [if_neg (Nat.not_le.mpr hlt), htick] at hexchanged
        simp only [true_and] at hactive hexchanged
        split_ifs at hactive hexchanged <;> omega
      · rw [(Sawtooth.step_of_le (p := s.sawtooth) hge).1, sawtooth] at hactive
        simp only at hactive
        omega
  · have hpreload := congrArg Sawtooth.preload hsaw
    have hnext : (s.clock (i 0)).sawtooth.preload = 0 := congrArg BitVec.toNat hzero
    rw [hnext] at hpreload
    simp only at hpreload
    omega

theorem preloads_iff_exchanges (h : s.Running) (hw : Writes (i 0))
    (hq : ∀ t, Quiet (i (t + 1))) :
    s.Preloads i ↔ s.Exchanges (compareValue (i 0).request) := by
  have hx (t : ℕ) : machine.trace s i (t + 1) = (machine.trace s i t).clock (i t) := rfl
  have hquiet := quiet_of_pos hq
  obtain ⟨e, n, hperiod, hn, hafter⟩ := written_period h hw hq
  constructor
  · rintro ⟨e', hperiod', hcont⟩
    obtain ⟨rfl, rfl⟩ := hperiod.unique hperiod'
    have hle := hn.mp rfl
    refine ⟨hle, fun hos => ?_⟩
    obtain ⟨hrun, hos', hsaw⟩ := hafter hos
    obtain ⟨⟨e', hnext⟩, hfollows⟩ := hcont hos
    have hpos : 0 < (s.exchanged (compareValue (i 0).request)).toNat := by
      by_contra hzero
      have hactive := congrArg Sawtooth.active (hsaw hle)
      refine not_follows hrun hos' (BitVec.eq_of_toNat_eq ?_) (hfollows e)
      exact hactive.trans (Nat.eq_zero_of_not_pos hzero)
    obtain ⟨e'', hlength, -⟩ := exists_period hx hrun fun t ht => hquiet t (by omega)
    have hmax := (hlength.unique hnext).2
    rw [hsaw hle, Sawtooth.length, if_pos hpos] at hmax
    simp only at hmax
    rw [BitVec.lt_def, BitVec.le_def]
    exact ⟨hpos, by omega⟩
  · intro hexchanges
    obtain ⟨hle, hcont⟩ := hexchanges
    rw [hn.mpr hle] at hperiod
    refine ⟨e, hperiod, fun hos => ?_⟩
    obtain ⟨hrun, hos', hsaw⟩ := hafter hos
    obtain ⟨hpos, hv⟩ := hcont hos
    obtain ⟨e', hlength, -⟩ := exists_period hx hrun fun t ht => hquiet t (by omega)
    refine ⟨⟨e', ?_⟩, fun t => ?_⟩
    · have hpos' : 0 < (s.exchanged (compareValue (i 0).request)).toNat := hpos
      rw [hsaw hle, Sawtooth.length, if_pos hpos', Nat.max_eq_left hv] at hlength
      exact hlength
    · have hrun' : (machine.trace s i (t + 1)).Exchanging := by
        induction t with
        | zero => exact Exchanges.exchanging h hos hw ⟨hle, hcont⟩
        | succ t ih =>
          refine ih.clock (hq t).1 fun hwrites => ?_
          rw [(hq t).2] at hwrites
          cases hwrites
      exact hrun'.follows

/-- A write to the running timer does what the preload is for if and only if the value that is
exchanged is not 0, and it is not above the old value and the written one. In a run without a 0 the
active compare value always follows. -/
theorem preload_iff {s : TimerB} (h : s.Running) :
    (∀ i : ℕ → TimerBInput, Writes (i 0) → (∀ t, Quiet (i (t + 1))) →
      (s.Preloads i ↔ s.Exchanges (compareValue (i 0).request))) ∧
    (s.Exchanging → ∀ i : ℕ → TimerBInput,
      (∀ t, Counts (i t) ∧
        (writesCompare (i t).request = true → compareValue (i t).request ≠ 0)) →
      ∀ t, (machine.trace s i t).Follows) := by
  refine ⟨fun i hw hq => preloads_iff_exchanges h hw hq, fun hexchanging i hi t => ?_⟩
  have hrun : (machine.trace s i t).Exchanging := by
    induction t with
    | zero => exact hexchanging
    | succ t ih => exact ih.clock (hi t).1 (hi t).2
  exact hrun.follows

/-- The timer is started with a compare value of 3 and the T preload bit set. -/
def counting : TimerB := machine.run [storing 12 3, storing 0 0x101]

theorem shorter_value_is_preloaded : counting.Preloads (comparing 2) ∧
    ∀ t, (machine.trace counting (comparing 2) t).Follows := by
  have hrun : counting.Running := by decide
  have hexchanging : counting.Exchanging := ⟨hrun, by decide, by decide, by decide⟩
  refine ⟨((preload_iff hrun).1 (comparing 2) ⟨rfl, rfl⟩ (comparing_quiet 2)).mpr (by decide),
    (preload_iff hrun).2 hexchanging (comparing 2) fun t => ?_⟩
  cases t with
  | zero => exact ⟨by decide, fun _ => by decide⟩
  | succ t => exact ⟨(comparing_quiet 2 t).1, fun hw => by cases (comparing_quiet 2 t).2 ▸ hw⟩

/-- The period in progress ends after the new value already. -/
theorem longer_value_is_early : ¬ ∀ s, machine.Reachable Machine.free s → s.Running →
    ∀ i : ℕ → TimerBInput, Writes (i 0) → (∀ t, Quiet (i (t + 1))) → s.Preloads i := by
  intro h
  have hrun : counting.Running := by decide
  have hpreloads := h counting (Machine.reachable_run _) hrun (comparing 5) ⟨rfl, rfl⟩
    (comparing_quiet 5)
  rw [preloads_iff_exchanges hrun ⟨rfl, rfl⟩ (comparing_quiet 5)] at hpreloads
  revert hpreloads
  decide

end TimerB

end ThuasRiscv
