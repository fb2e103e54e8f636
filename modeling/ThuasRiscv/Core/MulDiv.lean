import ThuasRiscv.Core.State

/-!
# The MD unit

The multiplier takes one clock after its operands are registered. The divider
is a machine of its own: it is started by an instruction and then counts 32
steps (16 in the radix-4 unit) whatever the rest of the core does.
-/

namespace ThuasRiscv

namespace MulDiv

def buf1 (m : MulDiv) : BitVec 32 := m.buf.extractLsb' 32 32
def buf2 (m : MulDiv) : BitVec 32 := m.buf.extractLsb' 0 32

/-! ## Multiplier -/

/-- Clock in the multiplicand and the multiplier, extended under the signedness of `md_op`. -/
def loadFactors (m : MulDiv) (mdOp : BitVec 3) (a b : DataType) : MulDiv :=
  if mdOp.getLsbD 1 then
    { m with
      rdataA := BitVec.cons (if mdOp.getLsbD 0 then false else a.msb) a
      rdataB := BitVec.cons false b }
  else { m with rdataA := BitVec.cons a.msb a, rdataB := BitVec.cons b.msb b }

/-- Output of the multiplier. -/
def mul (m : MulDiv) (mdOp : BitVec 3) : DataType :=
  if mdOp.getLsbD 1 || mdOp.getLsbD 0 then m.mulRdInt.extractLsb' 32 32
  else m.mulRdInt.extractLsb' 0 32

/-! ## Divider -/

/-- A signed operation works on the magnitude of a negative operand. -/
def magnitude (mdOp : BitVec 3) (a : DataType) : BitVec 32 :=
  if !mdOp.getLsbD 0 && a.msb then ~~~a + 1 else a

/-- The sign of the quotient or of the remainder. -/
def resultSign (mdOp : BitVec 3) (a b : DataType) : Bool :=
  (!mdOp.getLsbD 0 && !mdOp.getLsbD 1 && a.msb != b.msb && b != 0) ||
    (!mdOp.getLsbD 0 && mdOp.getLsbD 1 && a.msb)

/-- Load the operands: step 0 of both dividers. -/
def loadOperands (cfg : Generics) (m : MulDiv) (mdOp : BitVec 3) (a b : DataType) : MulDiv :=
  let d := magnitude mdOp b
  let m := { m with buf := 0#32 ++ magnitude mdOp a, count := 1, divReady := false,
                    outsign := resultSign mdOp a b }
  if cfg.fastDivide then
    let d1 : BitVec 34 := 0#2 ++ d
    let d2 : BitVec 34 := 0#1 ++ d ++ 0#1
    { m with divisor1 := d1, divisor2 := d2, divisor3 := d2 + d1 }
  else { m with divisor := d }

/-- One step of the radix-4 unit: subtract the largest multiple of the divisor that fits. -/
def reduce4 (m : MulDiv) : BitVec 64 :=
  let top : BitVec 34 := m.buf.extractLsb' 30 34
  let rest : BitVec 32 := m.buf.extractLsb' 30 32
  let low : BitVec 30 := m.buf2.extractLsb' 0 30
  if m.divisor3 ≤ top then (rest - m.divisor3.setWidth 32) ++ (low ++ 0b11#2)
  else if m.divisor2 ≤ top then (rest - m.divisor2.setWidth 32) ++ (low ++ 0b10#2)
  else if m.divisor1 ≤ top then (rest - m.divisor1.setWidth 32) ++ (low ++ 0b01#2)
  else m.buf.extractLsb' 0 62 ++ 0b00#2

/-- One step of the radix-2 unit. -/
def reduce2 (m : MulDiv) : BitVec 64 :=
  let top : BitVec 32 := m.buf.extractLsb' 31 32
  if m.divisor ≤ top then
    (0#1 ++ (m.buf.extractLsb' 31 31 - m.divisor.extractLsb' 0 31)) ++
      (m.buf2.extractLsb' 0 31 ++ 1#1)
  else m.buf.extractLsb' 0 63 ++ 0#1

/-- The number of the last step. -/
def lastStep (cfg : Generics) : ℕ := if cfg.fastDivide then 16 else 32

/-- A step after the first: divide, and signal ready one clock before the end. -/
def divideStep (cfg : Generics) (m : MulDiv) : MulDiv :=
  let m := { m with buf := if cfg.fastDivide then m.reduce4 else m.reduce2 }
  if m.count ≠ lastStep cfg then
    { m with divReady := m.count = lastStep cfg - 1, count := m.count + 1 }
  else { m with divReady := false, count := 0, divRunning := false }

/-- One clock of the divider. A start also restarts a running division. -/
def nextDivider (cfg : Generics) (m : MulDiv) (start : Bool) (mdOp : BitVec 3) (a b : DataType) :
    MulDiv :=
  let m := { m with divReady := false }
  let m := if start then { m with divRunning := true, count := 0 } else m
  if m.divRunning then
    if m.count = 0 then m.loadOperands cfg mdOp a b else m.divideStep cfg
  else m

def quotient (m : MulDiv) : BitVec 32 := if m.outsign then ~~~m.buf2 + 1 else m.buf2
def remainder (m : MulDiv) : BitVec 32 := if m.outsign then ~~~m.buf1 + 1 else m.buf1

/-- Output of the divider. -/
def div (m : MulDiv) (mdOp : BitVec 3) : DataType :=
  if mdOp.getLsbD 1 then m.remainder else m.quotient

/-! ## The unit -/

/-- The control signals of one clock: the execute stage starts an operation with `mdStart`, the
two gates are `trap_request` and `stall_on_trigger`. -/
structure Gate where
  mdStart : Bool
  trapRequest : Bool
  stallOnTrigger : Bool

/-- The start of an operation. -/
def Gate.start (g : Gate) : Bool := g.mdStart && !g.trapRequest && !g.stallOnTrigger

/-- One clock of the MD unit. Only `mul_running` is not gated with the trigger. -/
def next (cfg : Generics) (m : MulDiv) (g : Gate) (mdOp : BitVec 3) (a b : DataType) : MulDiv :=
  let product := m.rdataA.signExtend 66 * m.rdataB.signExtend 66
  let m := nextDivider cfg m (g.start && mdOp.getLsbD 2) mdOp a b
  let m := if g.start then m.loadFactors mdOp a b else m
  { m with
    mulRdInt := product
    mulRunning := g.mdStart && !g.trapRequest && !mdOp.getLsbD 2 }

/-- An operation is ready. -/
def ready (cfg : Generics) (m : MulDiv) : Bool :=
  cfg.haveMuldiv && (m.divReady || m.mulRunning)

/-! ## Phases of the unit -/

variable {cfg : Generics} {m : MulDiv} {g : Gate} {mdOp : BitVec 3} {a b : DataType}

/-- The divider does nothing. -/
def Idle (m : MulDiv) : Prop := m.divRunning = false ∧ m.divReady = false

/-- The divider works; it is ready in its last step. -/
structure Working (cfg : Generics) (m : MulDiv) : Prop where
  running : m.divRunning = true
  pos : m.count ≠ 0
  le : m.count ≤ lastStep cfg
  ready : m.divReady = true ↔ m.count = lastStep cfg

theorem one_lt_lastStep (cfg : Generics) : 1 < lastStep cfg := by
  unfold lastStep; split <;> omega

theorem loadOperands_working (h : m.divRunning = true) :
    (m.loadOperands cfg mdOp a b).Working cfg := by
  have hl := one_lt_lastStep cfg
  have hc : (m.loadOperands cfg mdOp a b).count = 1 := by
    unfold loadOperands; split <;> rfl
  have hr : (m.loadOperands cfg mdOp a b).divRunning = true := by
    unfold loadOperands; split <;> exact h
  have hd : (m.loadOperands cfg mdOp a b).divReady = false := by
    unfold loadOperands; split <;> rfl
  exact ⟨hr, by omega, by omega, by rw [hd, hc]; simp; omega⟩

/-- A step that is not the last one. -/
theorem divideStep_working (h : m.Working cfg) (hr : m.divReady = false) :
    (divideStep cfg { m with divReady := false }).Working cfg := by
  have hlast : m.count ≠ lastStep cfg := fun h' => by simp [h.ready.mpr h'] at hr
  have hle := h.le
  simp only [divideStep, ne_eq, hlast, not_false_eq_true, if_true]
  exact ⟨h.running, by simp, by simp only []; omega, by simp only [decide_eq_true_eq]; omega⟩

theorem divideStep_idle (h : m.Working cfg) (hr : m.divReady = true) :
    (divideStep cfg { m with divReady := false }).Idle := by
  simp [divideStep, h.ready.mp hr, Idle]

theorem nextDivider_idle (h : m.Idle) : (nextDivider cfg m false mdOp a b).Idle := by
  simp [nextDivider, h.1, Idle]

theorem nextDivider_start : (nextDivider cfg m true mdOp a b).Working cfg := by
  simp only [nextDivider, if_true]
  exact loadOperands_working rfl

theorem nextDivider_working (h : m.Working cfg) (mdOp : BitVec 3) (a b : DataType) :
    if m.divReady then (nextDivider cfg m false mdOp a b).Idle
    else (nextDivider cfg m false mdOp a b).Working cfg := by
  have hd : nextDivider cfg m false mdOp a b = divideStep cfg { m with divReady := false } := by
    simp [nextDivider, h.running, h.pos]
  rw [hd]
  cases hr : m.divReady
  · exact divideStep_working h hr
  · exact divideStep_idle h hr

variable (cfg mdOp a b) in
/-- The multiplier does not touch the registers that count the steps of the divider. -/
theorem next_divider (m : MulDiv) (g : Gate) :
    (m.next cfg g mdOp a b).divRunning =
        (nextDivider cfg m (g.start && mdOp.getLsbD 2) mdOp a b).divRunning ∧
      (m.next cfg g mdOp a b).divReady =
        (nextDivider cfg m (g.start && mdOp.getLsbD 2) mdOp a b).divReady ∧
      (m.next cfg g mdOp a b).count =
        (nextDivider cfg m (g.start && mdOp.getLsbD 2) mdOp a b).count := by
  unfold MulDiv.next
  cases g.start
  · exact ⟨rfl, rfl, rfl⟩
  · unfold loadFactors
    cases mdOp.getLsbD 1 <;> exact ⟨rfl, rfl, rfl⟩

theorem next_idle_of (h : (nextDivider cfg m (g.start && mdOp.getLsbD 2) mdOp a b).Idle) :
    (m.next cfg g mdOp a b).Idle := by
  obtain ⟨hr, hd, -⟩ := next_divider cfg mdOp a b m g
  exact ⟨hr.trans h.1, hd.trans h.2⟩

theorem next_working_of
    (h : (nextDivider cfg m (g.start && mdOp.getLsbD 2) mdOp a b).Working cfg) :
    (m.next cfg g mdOp a b).Working cfg := by
  obtain ⟨hr, hd, hc⟩ := next_divider cfg mdOp a b m g
  exact ⟨hr ▸ h.running, hc ▸ h.pos, hc ▸ h.le, by rw [hd, hc]; exact h.ready⟩

/-- Without the start of a division an idle divider stays idle. -/
theorem Idle.next (h : m.Idle) (hs : (g.start && mdOp.getLsbD 2) = false) :
    (m.next cfg g mdOp a b).Idle :=
  next_idle_of (by rw [hs]; exact nextDivider_idle h)

/-- The start of a division, whatever the divider did before. -/
theorem working_of_start (hs : (g.start && mdOp.getLsbD 2) = true) :
    (m.next cfg g mdOp a b).Working cfg :=
  next_working_of (by rw [hs]; exact nextDivider_start)

/-- A working divider goes on until its last step and is idle after it. -/
theorem Working.next (h : m.Working cfg) (hs : (g.start && mdOp.getLsbD 2) = false) :
    if m.divReady then (m.next cfg g mdOp a b).Idle else (m.next cfg g mdOp a b).Working cfg := by
  have hd := nextDivider_working h mdOp a b
  cases hr : m.divReady <;> rw [hr] at hd
  · exact next_working_of (by rw [hs]; exact hd)
  · exact next_idle_of (by rw [hs]; exact hd)

/-- A step that is not the last one is counted. -/
theorem Working.next_count (h : m.Working cfg) (hs : (g.start && mdOp.getLsbD 2) = false)
    (hr : m.divReady = false) : (m.next cfg g mdOp a b).count = m.count + 1 := by
  have hlast : m.count ≠ lastStep cfg := fun h' => by simp [h.ready.mpr h'] at hr
  rw [(next_divider cfg mdOp a b m g).2.2, hs]
  simp [nextDivider, h.running, h.pos, divideStep, hlast]

end MulDiv

end ThuasRiscv
