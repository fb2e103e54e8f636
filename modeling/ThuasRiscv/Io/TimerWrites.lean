import ThuasRiscv.Io.TimerA
import ThuasRiscv.Io.TimerPreload

/-!
# Writes to the counters of TIMER1 and TIMER2

Both timers assign the counter in the clock of a counter step, behind the
assignment of a bus write. The bus may not write the counter in such a clock.
-/

namespace ThuasRiscv

open Transition

namespace TimerA

/-- The counter of TIMER1 steps in every clock in which the timer is enabled. -/
def counter : ModuloCounter machine 32 where
  value := cntr
  tick := en
  top := cmpt
  Quiet i := i.sreset = false ∧ writesCounter i = false
  value_next := by
    intro s i hi
    have hnext : (s.clock i).cntr = _ := clock_cntr hi.1
    rw [hi.2] at hnext
    rw [show machine.next s i = s.clock i from rfl, hnext]
    cases s.en <;> rfl

/-- A written value that a counter step assigns too. -/
def Coincides (s : TimerA) (v : DataType) : Prop :=
  s.hits = true ∧ v = 0 ∨ s.hits = false ∧ v = s.cntr + 1

/-- The counter does not step in the clock of the write. -/
theorem counter_write_iff {s : TimerA} {i : TimerAInput} (hr : i.sreset = false)
    (hw : writesCounter i = true) : counter.TakesEffect s i i.request.data ↔
      s.en = false ∨ s.Coincides i.request.data := by
  have hnext : counter.value (machine.next s i) = _ := clock_cntr hr
  rw [ModuloCounter.takesEffect_iff, hnext, hw, if_pos rfl, Coincides, hits]
  cases s.en with
  | false => simp
  | true =>
    rw [if_pos rfl, counted_eq_iff, decide_eq_true_iff, decide_eq_false_iff_not]
    simp

end TimerA

namespace TimerB

/-- A write to the counter register. -/
def writesCounter (i : TimerBInput) : Bool := i.request.wren && i.request.selects 0b010#3

/-- The value of a write to the counter register. -/
def counterValue (i : TimerBInput) : BitVec 16 := i.request.data.extractLsb' 0 16

variable {s : TimerB} {i : TimerBInput}

theorem write_cntr (q : MemRequest) : (s.write q).cntr =
    if q.selects 0b010#3 then q.data.extractLsb' 0 16 else s.cntr := by
  rw [write, force, control]
  split_ifs
  all_goals simp_all [MemRequest.selects]

/-- The counter behind a clock without a reset. -/
theorem clock_cntr (hr : i.sreset = false) : (s.clock i).cntr =
    if s.ticks then counted true s.cmptshadow s.cntr
    else if writesCounter i then counterValue i else s.cntr := by
  have haccess : (s.access i.request).cntr =
      if writesCounter i then counterValue i else s.cntr := by
    rw [access, writesCounter, counterValue]
    cases i.request.wren
    · rfl
    · simp [write_cntr]
  have hchannels : ∀ n : TimerB, (s.channels n i).cntr = n.cntr := by
    intro n
    rw [channels]
    split_ifs <;> rfl
  rw [clock, hr, if_neg Bool.false_ne_true, hchannels, ← haccess, count, ticks, counted]
  by_cases hen : s.en = true
  · by_cases hend : s.prscshadow ≤ s.prescaler
    · by_cases hle : s.cmptshadow ≤ s.cntr
      · simp only [hen, hend, hle, hits, wrap, decide_true, Bool.and_self, if_true]
        split_ifs <;> rfl
      · simp only [hen, hend, hle, hits, reload, decide_true, decide_false, Bool.and_self,
          if_true, if_false, Bool.false_eq_true]
        rfl
    · simp [hen, hend]
  · simp [hen]

/-- The counter of TIMER2 steps at the end of the internal prescaler. -/
def counter : ModuloCounter machine 16 where
  value := cntr
  tick := ticks
  top := cmptshadow
  Quiet i := i.sreset = false ∧ writesCounter i = false
  value_next := by
    intro s i hi
    have hnext : (s.clock i).cntr = _ := clock_cntr hi.1
    rw [hi.2] at hnext
    rw [show machine.next s i = s.clock i from rfl, hnext]
    cases s.ticks <;> rfl

/-- A written value that a counter step assigns too. -/
def Coincides (s : TimerB) (v : BitVec 16) : Prop :=
  s.hits = true ∧ v = 0 ∨ s.hits = false ∧ v = s.cntr + 1

/-- The counter does not step in the clock of the write. -/
theorem counter_write_iff (hr : i.sreset = false) (hw : writesCounter i = true) :
    counter.TakesEffect s i (counterValue i) ↔
      s.ticks = false ∨ s.Coincides (counterValue i) := by
  have hnext : counter.value (machine.next s i) = _ := clock_cntr hr
  rw [ModuloCounter.takesEffect_iff, hnext, hw, if_pos rfl, Coincides, hits]
  cases s.ticks with
  | false => simp
  | true =>
    rw [if_pos rfl, counted_eq_iff, decide_eq_true_iff, decide_eq_false_iff_not]
    simp

end TimerB

/-! ## Both timers -/

/-- A write of a counter takes effect unless the counter steps to another value in that clock. -/
theorem timer_counter_write_iff (s₁ : TimerA) (i₁ : TimerAInput) (s₂ : TimerB)
    (i₂ : TimerBInput) :
    (i₁.sreset = false → TimerA.writesCounter i₁ = true →
      (TimerA.counter.TakesEffect s₁ i₁ i₁.request.data ↔
        s₁.en = false ∨ s₁.Coincides i₁.request.data)) ∧
    (i₂.sreset = false → TimerB.writesCounter i₂ = true →
      (TimerB.counter.TakesEffect s₂ i₂ (TimerB.counterValue i₂) ↔
        s₂.ticks = false ∨ s₂.Coincides (TimerB.counterValue i₂))) := by
  constructor
  · intro hr hw
    exact TimerA.counter_write_iff hr hw
  · intro hr hw
    exact TimerB.counter_write_iff hr hw

/-- TIMER2 waits for the end of its prescaler. -/
def TimerB.prescaled : TimerB :=
  machine.run [storing 12 9, storing 16 1, storing 0 1]

theorem stopped_and_waiting_counters_are_written :
    TimerA.counter.TakesEffect .reset (TimerA.storing 8 5) 5 ∧
    TimerB.counter.TakesEffect TimerB.prescaled (TimerB.storing 8 5) 5 :=
  have h := timer_counter_write_iff .reset (TimerA.storing 8 5) TimerB.prescaled
    (TimerB.storing 8 5)
  ⟨(h.1 rfl (by decide)).mpr (.inl rfl), (h.2 rfl (by decide)).mpr (.inl (by decide))⟩

/-- A running counter steps instead. -/
theorem running_counter_loses_write :
    (¬ ∀ (s : TimerA) (i : TimerAInput), TimerA.machine.Reachable Machine.free s →
      i.sreset = false → TimerA.writesCounter i = true →
      TimerA.counter.TakesEffect s i i.request.data) ∧
    (¬ ∀ (s : TimerB) (i : TimerBInput), TimerB.machine.Reachable Machine.free s →
      i.sreset = false → TimerB.writesCounter i = true →
      TimerB.counter.TakesEffect s i (TimerB.counterValue i)) := by
  constructor
  · intro h
    have heffect := h TimerA.counting (TimerA.storing 8 100) (Machine.reachable_run _) rfl
      (by decide)
    rw [ModuloCounter.takesEffect_iff] at heffect
    revert heffect
    decide
  · intro h
    have heffect := h TimerB.counting (TimerB.storing 8 100) (Machine.reachable_run _) rfl
      (by decide)
    rw [ModuloCounter.takesEffect_iff] at heffect
    revert heffect
    decide

end ThuasRiscv
