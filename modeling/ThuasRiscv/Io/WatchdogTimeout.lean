import ThuasRiscv.Io.Watchdog

/-!
# Lock and timeout of the watchdog

A correct kick or an accepted control write requests a restart, which loads the
counter one clock later. From there the counter runs down, and the watchdog
triggers in the clock in which it is zero. A restart that is requested in that
clock does not stop the trigger.
-/

namespace ThuasRiscv

open Transition

/-- What the watchdog reads in a clock. -/
structure WdtInput where
  request : MemRequest
  sreset : Bool

namespace Wdt

/-- The watchdog from its reset on. -/
def machine : Machine Wdt WdtInput := ⟨reset, fun w i => w.clock i.request i.sreset⟩

variable (w : Wdt) (q : MemRequest)

/-- A correct kick, or a control write that is accepted. -/
def restarts : Bool :=
  writesControl q && !w.lock || writesPassword q && decide (q.data = password)

/-- The value that a restart loads. -/
def timeout : ℕ := w.prescaler.toNat * 256 + 255

/-- Clock `t` has the last restart request before clock `c`, and no reset follows. -/
structure LastRestart (x : ℕ → Wdt) (i : ℕ → WdtInput) (t c : ℕ) : Prop where
  lt : t < c
  restarts : (x t).restarts (i t).request = true
  last : ∀ k, t < k → k < c → (x k).restarts (i k).request = false
  noReset : ∀ k, t ≤ k → k < c → (i k).sreset = false

/-- Lock and timeout over a run. -/
structure LockAndTimeout (x : ℕ → Wdt) (i : ℕ → WdtInput) : Prop where
  locked : ∀ t u, (x t).lock = true → t ≤ u → (∀ k, t ≤ k → k < u → (i k).sreset = false) →
    (x u).lock = true ∧ (x u).en = (x t).en ∧ (x u).nmi = (x t).nmi ∧
      (x u).prescaler = (x t).prescaler
  /-- A control register write with the lock bit set is a violation. -/
  violation : ∀ t, (x t).lock = true → (i t).sreset = false →
    writesControl (i t).request = true → (x (t + 1)).mustreset = true
  /-- A watchdog that is enabled has been restarted. -/
  started : ∀ c, (x c).en = true → ∃ t, LastRestart x i t c
  /-- The trigger is on the line from three clocks behind the run-down on. A restart that clock `c`
  requests does not count. -/
  trigger : ∀ t c, LastRestart x i t c → (x c).en = true → (i c).sreset = false →
    ((x (c + 1)).mustreset = true ↔
      (x c).badWrite (i c).request = true ∨ t + (x c).timeout + 3 ≤ c + 1)

/-! ## One clock -/

variable {w q}

theorem written_mustrestart : (w.written q).mustrestart = w.restarts q := by
  have hexcl : writesControl q = true → writesPassword q = false := by
    simp only [writesControl, writesPassword]
    cases q.addr.getLsbD 2 <;> simp
  rw [written, restarts]
  cases hc : writesControl q with
  | true => cases hl : w.lock <;> simp [hexcl hc]
  | false => cases writesPassword q <;> by_cases hp : q.data = password <;> simp [hp]

theorem mustrestart_clock : (w.clock q false).mustrestart = w.restarts q := by
  rw [← written_mustrestart, clock, if_neg Bool.false_ne_true]
  split_ifs <;> rfl

/-- The settings without an accepted control write. -/
theorem settings_clock (h : (writesControl q && !w.lock) = false) :
    (w.clock q false).lock = w.lock ∧ (w.clock q false).en = w.en ∧
    (w.clock q false).nmi = w.nmi ∧ (w.clock q false).prescaler = w.prescaler := by
  have hwritten : (w.written q).lock = w.lock ∧ (w.written q).en = w.en ∧
      (w.written q).nmi = w.nmi ∧ (w.written q).prescaler = w.prescaler := by
    rw [written]
    cases hc : writesControl q with
    | true =>
      rw [hc, Bool.true_and, Bool.not_eq_false'] at h
      simp [h]
    | false => cases writesPassword q <;> by_cases hp : q.data = password <;> simp [hp]
  rw [clock, if_neg Bool.false_ne_true]
  split_ifs <;> exact hwritten

theorem written_counter : (w.written q).counter = w.counter := by
  rw [written]
  split_ifs <;> rfl

/-- The counter of an enabled watchdog. -/
theorem counter_clock (hen : w.en = true) : (w.clock q false).counter.toNat =
    if w.mustrestart then w.timeout else w.counter.toNat - 1 := by
  rw [clock, if_neg Bool.false_ne_true, if_pos hen]
  cases w.mustrestart with
  | true =>
    have hlow : (0xff#8).toNat < 2 ^ 8 := by decide
    rw [if_pos rfl, if_pos rfl, BitVec.toNat_append, ← Nat.shiftLeft_add_eq_or_of_lt hlow,
      Nat.shiftLeft_eq]
    rfl
  | false =>
    by_cases hzero : w.counter = 0
    · simp [hzero, written_counter]
    · have hpos : w.counter.toNat ≠ 0 := fun h => hzero (BitVec.eq_of_toNat_eq h)
      have hlt := w.counter.isLt
      simp only [hzero, if_false, Bool.false_eq_true]
      rw [BitVec.toNat_sub, show (1 : DataType).toNat = 1 from rfl]
      omega

theorem not_accepted_of_not_restarts (h : w.restarts q = false) :
    (writesControl q && !w.lock) = false := by
  rw [restarts, Bool.or_eq_false_iff] at h
  exact h.1

theorem expired_iff (hen : w.en = true) :
    w.expired = true ↔ w.mustrestart = false ∧ w.counter.toNat = 0 := by
  simp [expired, hen, ← BitVec.toNat_inj]

/-! ## Runs -/

section Runs

variable {i : ℕ → WdtInput} {t c : ℕ}

theorem trace_lock {w : Wdt} {u : ℕ} (hlock : (machine.trace w i t).lock = true) (htu : t ≤ u)
    (hr : ∀ k, t ≤ k → k < u → (i k).sreset = false) :
    (machine.trace w i u).lock = true ∧
      (machine.trace w i u).en = (machine.trace w i t).en ∧
      (machine.trace w i u).nmi = (machine.trace w i t).nmi ∧
      (machine.trace w i u).prescaler = (machine.trace w i t).prescaler := by
  induction u, htu using Nat.le_induction with
  | base => exact ⟨hlock, rfl, rfl, rfl⟩
  | succ u htu ih =>
    obtain ⟨hl, hen, hnmi, hp⟩ := ih fun k hk hku => hr k hk (by omega)
    have hrefused : (writesControl (i u).request && !(machine.trace w i u).lock) = false := by
      rw [hl, Bool.not_true, Bool.and_false]
    have hsettings := settings_clock hrefused
    rw [← hr u htu (Nat.lt_succ_self u)] at hsettings
    exact ⟨hsettings.1.trans hl, hsettings.2.1.trans hen, hsettings.2.2.1.trans hnmi,
      hsettings.2.2.2.trans hp⟩

/-- An enabled watchdog has been restarted, and not been reset since. -/
theorem exists_lastRestart (hen : (machine.trace reset i c).en = true) :
    ∃ t, LastRestart (machine.trace reset i) i t c := by
  induction c with
  | zero => cases hen
  | succ c ih =>
    set w := machine.trace reset i c with hw
    have hnext : machine.trace reset i (c + 1) = w.clock (i c).request (i c).sreset := rfl
    have hr : (i c).sreset = false := by
      by_contra hr
      rw [hnext, clock, if_pos (by simpa using hr)] at hen
      cases hen
    rw [hnext, hr] at hen
    cases hrestart : w.restarts (i c).request with
    | true =>
      refine ⟨c, Nat.lt_succ_self c, hrestart, fun k hk hkc => by omega, fun k hk hkc => ?_⟩
      rwa [Nat.le_antisymm (Nat.le_of_lt_succ hkc) hk]
    | false =>
      rw [(settings_clock (not_accepted_of_not_restarts hrestart)).2.1] at hen
      obtain ⟨t, ht⟩ := ih hen
      refine ⟨t, by have := ht.lt; omega, ht.restarts, fun k hk hkc => ?_, fun k hk hkc => ?_⟩
      · rcases Nat.eq_or_lt_of_le (Nat.le_of_lt_succ hkc) with rfl | hlt
        · exact hrestart
        · exact ht.last k hk hlt
      · rcases Nat.eq_or_lt_of_le (Nat.le_of_lt_succ hkc) with rfl | hlt
        · exact hr
        · exact ht.noReset k hk hlt

/-- A clock behind the last restart. -/
theorem LastRestart.next {w : Wdt} {k : ℕ} (h : LastRestart (machine.trace w i) i t c)
    (hk : t < k) (hkc : k < c) :
    (machine.trace w i (k + 1)).en = (machine.trace w i k).en ∧
      (machine.trace w i (k + 1)).timeout = (machine.trace w i k).timeout ∧
      (machine.trace w i (k + 1)).mustrestart = false ∧
      ((machine.trace w i k).en = true → (machine.trace w i (k + 1)).counter.toNat =
        if (machine.trace w i k).mustrestart then (machine.trace w i k).timeout
        else (machine.trace w i k).counter.toNat - 1) := by
  have hnext : machine.trace w i (k + 1) = (machine.trace w i k).clock (i k).request false := by
    rw [← h.noReset k (Nat.le_of_lt hk) hkc]
    rfl
  have hrestart := h.last k hk hkc
  have hsettings := settings_clock (not_accepted_of_not_restarts hrestart)
  rw [hnext]
  refine ⟨hsettings.2.1, ?_, mustrestart_clock.trans hrestart, counter_clock⟩
  rw [timeout, timeout, hsettings.2.2.2]

theorem LastRestart.before {x : ℕ → Wdt} {c' : ℕ} (h : LastRestart x i t c) (hlt : t < c')
    (hle : c' ≤ c) : LastRestart x i t c' where
  lt := hlt
  restarts := h.restarts
  last k hk hkc := h.last k hk (by omega)
  noReset k hk hkc := h.noReset k hk (by omega)

/-- The settings are those behind the last restart. -/
theorem LastRestart.settings {w : Wdt} (n : ℕ)
    (h : LastRestart (machine.trace w i) i t (t + 1 + n)) :
    (machine.trace w i (t + 1 + n)).en = (machine.trace w i (t + 1)).en ∧
      (machine.trace w i (t + 1 + n)).timeout = (machine.trace w i (t + 1)).timeout := by
  induction n with
  | zero => exact ⟨rfl, rfl⟩
  | succ n ih =>
    obtain ⟨hen, htimeout⟩ := ih (h.before (by omega) (by omega))
    obtain ⟨hen', htimeout', -⟩ := h.next (show t < t + 1 + n by omega) (by omega)
    exact ⟨hen'.trans hen, htimeout'.trans htimeout⟩

/-- A watchdog that is enabled has the counter loaded two clocks behind its last restart; from
there it runs down. -/
theorem LastRestart.runsDown {w : Wdt} (n : ℕ)
    (h : LastRestart (machine.trace w i) i t (t + 2 + n))
    (hen : (machine.trace w i (t + 2 + n)).en = true) :
    (machine.trace w i (t + 2 + n)).mustrestart = false ∧
      (machine.trace w i (t + 2 + n)).counter.toNat =
        (machine.trace w i (t + 2 + n)).timeout - n := by
  induction n with
  | zero =>
    obtain ⟨hen', htimeout, hrestart, hcounter⟩ := h.next (Nat.lt_succ_self t) (by omega)
    have hloaded : (machine.trace w i (t + 1)).mustrestart = true := by
      rw [← h.restarts, ← mustrestart_clock, ← h.noReset t le_rfl (by omega)]
      rfl
    rw [hloaded, if_pos rfl] at hcounter
    exact ⟨hrestart, (hcounter (hen'.symm.trans hen)).trans htimeout.symm⟩
  | succ n ih =>
    obtain ⟨hen', htimeout, hrestart, hcounter⟩ :=
      h.next (show t < t + 2 + n by omega) (by omega)
    have henn : (machine.trace w i (t + 2 + n)).en = true := hen'.symm.trans hen
    obtain ⟨hwait, hvalue⟩ := ih (h.before (by omega) (by omega)) henn
    have hdown := hcounter henn
    rw [hwait, if_neg Bool.false_ne_true, hvalue, ← htimeout] at hdown
    refine ⟨hrestart, ?_⟩
    rw [← Nat.add_assoc, hdown]
    omega

/-- The clocks in which the counter has run down. -/
theorem LastRestart.expired_iff {w : Wdt} (h : LastRestart (machine.trace w i) i t c)
    (hen : (machine.trace w i c).en = true) :
    (machine.trace w i c).expired = true ↔ t + (machine.trace w i c).timeout + 2 ≤ c := by
  rw [Wdt.expired_iff hen]
  rcases Nat.eq_or_lt_of_le h.lt with rfl | hlt
  · have hrestart : (machine.trace w i (t + 1)).mustrestart = true := by
      rw [← h.restarts, ← mustrestart_clock, ← h.noReset t le_rfl (by omega)]
      rfl
    constructor
    · rintro ⟨hwait, -⟩
      rw [hrestart] at hwait
      cases hwait
    · intro hle
      omega
  · obtain ⟨n, rfl⟩ := Nat.exists_eq_add_of_le (show t + 2 ≤ c from hlt)
    obtain ⟨hwait, hvalue⟩ := h.runsDown n hen
    rw [hvalue]
    constructor
    · rintro ⟨-, hzero⟩
      omega
    · intro hle
      exact ⟨hwait, by omega⟩

theorem LastRestart.trigger_iff {w : Wdt} (h : LastRestart (machine.trace w i) i t c)
    (hen : (machine.trace w i c).en = true) (hr : (i c).sreset = false) :
    (machine.trace w i (c + 1)).mustreset = true ↔
      (machine.trace w i c).badWrite (i c).request = true ∨
        t + (machine.trace w i c).timeout + 3 ≤ c + 1 := by
  have hnext : machine.trace w i (c + 1) = (machine.trace w i c).clock (i c).request false := by
    rw [← hr]
    rfl
  rw [hnext, mustreset_clock, Bool.or_eq_true, h.expired_iff hen]
  exact or_congr Iff.rfl (by omega)

end Runs

/-- Lock and timeout, for every sequence of accesses and resets. -/
theorem lock_and_timeout (i : ℕ → WdtInput) : LockAndTimeout (machine.trace reset i) i := by
  constructor
  case locked =>
    intro t u hlock htu hr
    exact trace_lock hlock htu hr
  case violation =>
    intro t hlock hr hwrite
    have hnext : machine.trace reset i (t + 1) =
        (machine.trace reset i t).clock (i t).request false := by
      rw [← hr]
      rfl
    rw [hnext, mustreset_clock, badWrite, hwrite, hlock]
    rfl
  case started =>
    intro c hen
    exact exists_lastRestart hen
  case trigger =>
    intro t c hlast hen hr
    exact hlast.trigger_iff hen hr

/-- The watchdog is started in clock 0, and kicked in the clock in which it expires. -/
def lateKick (k : ℕ) : WdtInput :=
  if k = 0 then ⟨⟨true, .word, 0, 1, true⟩, false⟩
  else if k = 257 then ⟨⟨true, .word, 4, password, true⟩, false⟩
  else ⟨⟨false, .word, 0, 0, false⟩, false⟩

theorem lateKick_restarts {k : ℕ} (hzero : k ≠ 0) (hkick : k ≠ 257) (w : Wdt) :
    w.restarts (lateKick k).request = false := by
  rw [lateKick, if_neg hzero, if_neg hkick]
  rfl

theorem lateKick_sreset (k : ℕ) : (lateKick k).sreset = false := by
  rw [lateKick]
  split_ifs <;> rfl

/-- The trigger is on the line one clock behind a kick. -/
theorem late_kick_does_not_stop_trigger : ¬ ∃ K : ℕ, ∀ (i : ℕ → WdtInput) (t c : ℕ),
    LastRestart (machine.trace reset i) i t (c + 1) → (machine.trace reset i c).en = true →
    (machine.trace reset i c).badWrite (i c).request = false →
    ((machine.trace reset i (c + 1)).mustreset = true ↔
      t + (machine.trace reset i c).timeout + K ≤ c + 1) := by
  rintro ⟨K, h⟩
  have hstart : LastRestart (machine.trace reset lateKick) lateKick 0 257 := by
    constructor
    case lt => omega
    case restarts => rfl
    case last =>
      intro k hk hkc
      exact lateKick_restarts (by omega) (by omega) _
    case noReset =>
      intro k _ _
      exact lateKick_sreset k
  have hkick : LastRestart (machine.trace reset lateKick) lateKick 257 258 := by
    constructor
    case lt => omega
    case restarts => rfl
    case last =>
      intro k hk hkc
      omega
    case noReset =>
      intro k _ _
      exact lateKick_sreset k
  obtain ⟨hen, htimeout⟩ := hstart.settings 256
  have hzero : (machine.trace reset lateKick 257).timeout = 255 := htimeout
  have htrigger := (hstart.trigger_iff hen (lateKick_sreset 257)).mpr (.inr (by rw [hzero]))
  have hearly := (h lateKick 257 257 hkick hen rfl).mp htrigger
  rw [hzero] at hearly
  omega

end Wdt

end ThuasRiscv
