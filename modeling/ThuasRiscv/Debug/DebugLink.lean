import ThuasRiscv.Debug.Dtm

/-!
# The link of a debugger

What a debugger may assume of the Debug Transport Module with the Debug Module
behind it: a TAP that moves on the edges of TCK, and the updates of its data
registers. An access ends before the register is captured again, except one with
the reserved operation, which ends only by a hard reset.
-/

namespace ThuasRiscv

open Transition ShiftRegister

/-- TMS and TDI on a rising edge of TCK. -/
structure Tick where
  tms : Bool
  tdi : Bool
  deriving DecidableEq

/-- The transport as the debugger sees it: the TAP, the last access and whether it never ends, all
updates and all requests that they made. -/
structure Link where
  state : TapState
  ireg : BitVec 5
  dreg : BitVec 41
  addr : BitVec 7
  data : DataType
  err : Bool
  stuck : Bool
  updates : List (BitVec 5 × BitVec 41)
  sent : List DmiRequest
  deriving DecidableEq

namespace Link

variable (g : DtmGenerics) (l : Link) (t : Tick)

def initial : Link where
  state := .logicReset
  ireg := 0
  dreg := 0
  addr := 0
  data := 0
  err := false
  stuck := false
  updates := []
  sent := []

/-- What the data register captures. -/
def captured : BitVec 41 :=
  if l.ireg = addrIdcode then
    g.version ++ g.partid ++ g.manid ++ BitVec.ofBool true ++ 0b000000000#9
  else if l.ireg = addrDtmcs then 0x00000071#32 ++ 0b000000000#9
  else if l.ireg = addrDmi then l.addr ++ l.data ++ BitVec.ofBool l.err ++ BitVec.ofBool l.err
  else 0

/-- A word in the register `dmi`: an access, which makes a request unless its operation is `nop`. -/
def access (r : DmiRequest) : Link :=
  if l.stuck then { l with err := true }
  else
    { l with
      addr := r.addr
      data := r.data
      stuck := r.op = 0b11
      sent := if r.op = 0 then l.sent else l.sent ++ [r] }

/-- A word in the register `dtmcs` with its reset bits. -/
def control (reset hardreset : Bool) : Link :=
  { l with
    err := l.err && !(reset || hardreset)
    data := if l.stuck && hardreset then 0 else l.data
    stuck := l.stuck && !hardreset }

/-- The update of the data register. -/
def update : Link :=
  if l.ireg = addrDmi then l.access (Dtm.dmiWord l.dreg)
  else if l.ireg = addrDtmcs then l.control (l.dreg.getLsbD 25) (l.dreg.getLsbD 26)
  else l

/-- The registers of the TAP move on. -/
def move : Link :=
  { l with
    state := l.state.next t.tms
    ireg := if l.state = .logicReset || l.state = .irCapture then addrIdcode
      else if l.state = .irShift then shiftIn t.tdi l.ireg
      else l.ireg
    dreg := if l.state = .drCapture then l.captured g
      else if l.state = .drShift then shiftIn t.tdi l.dreg
      else l.dreg }

def logged : Link := { l with updates := l.updates ++ [(l.ireg, l.dreg)] }

/-- A rising edge of TCK. -/
def tick : Link :=
  if (l.move g t).state = .drUpdate then (l.move g t).logged.update else l.move g t

/-- The bit that leaves the TAP on the next edge. -/
def out : Bool :=
  if l.state = .irShift then l.ireg.getLsbD 0
  else l.dreg.getLsbD (40 - (registerSize l.ireg - 1))

end Link

/-! ## The transport with the Debug Module -/

/-- The pins and what the Debug Module reads from the core in one clock. -/
structure JtagInput where
  sreset : Bool
  tck : Bool
  tdi : Bool
  tms : Bool
  resetAck : Bool
  haltAck : Bool
  resumeAck : Bool
  core : DmCoreDataResponse
  deriving DecidableEq

structure JtagSystem where
  dtm : Dtm
  dm : Dm
  deriving DecidableEq

namespace JtagSystem

/-- The pins while the hart only runs. -/
def pins (tck : Bool) (t : Tick) : JtagInput where
  sreset := false
  tck := tck
  tdi := t.tdi
  tms := t.tms
  resetAck := false
  haltAck := false
  resumeAck := false
  core := ⟨0, false, false, false⟩

variable (g : DtmGenerics) (aam : Bool) (s : JtagSystem) (i : JtagInput)

def dtmInput : DtmInput := ⟨i.sreset, i.tck, i.tdi, i.tms, s.dm.response⟩

def dmInput : DmInput := ⟨i.sreset, s.dtm.dmi, i.resetAck, i.haltAck, i.resumeAck, i.core⟩

def step : JtagSystem where
  dtm := s.dtm.step g (s.dtmInput i)
  dm := s.dm.step (s.dmInput i) aam

/-- What a debugger has done and what the Debug Module has been asked: the edges on the pins and
those that the TAP has seen, each with TDO, and the requests with their answers. -/
structure Session where
  link : Link
  driven : List (Tick × Bool)
  ticks : List (Tick × Bool)
  served : List (DmiRequest × DataType)
  deriving DecidableEq

def Session.initial : Session := ⟨.initial, [], [], []⟩

/-- The Debug Module is asked to read or write. -/
def asks : Bool := s.dtm.dmi.op = dmiReqRd || s.dtm.dmi.op = dmiReqWr

/-- A rising edge of TCK on the pins. -/
def drives : Bool := i.tck && !s.dtm.tckFf.getLsbD 0

def tick : Tick := ⟨s.dtm.tms, s.dtm.tdi⟩

/-- The link after the answer of the Debug Module. -/
def answered (l : Link) : Link :=
  if s.asks then { l with data := s.dm.readData (s.dmInput i) } else l

def watch (p : Session) : Session :=
  if i.sreset then ⟨.initial, [], [], []⟩
  else
    { link := if s.dtm.tckRise then (s.answered i p.link).tick g s.tick else s.answered i p.link
      driven := if s.drives i then p.driven ++ [(⟨i.tms, i.tdi⟩, s.dtm.tdo)] else p.driven
      ticks := if s.dtm.tckRise then p.ticks ++ [(s.tick, s.dtm.tdo)] else p.ticks
      served := if s.dtm.dmi.op = 0 then p.served
        else p.served ++ [(s.dtm.dmi, s.dm.readData (s.dmInput i))] }

/-- The transport and the Debug Module with an observer of the session. -/
def observed : Machine (JtagSystem × Session) JtagInput :=
  (Machine.mk ⟨.reset, .reset⟩ (step g aam)).observe .initial (watch g)

end JtagSystem

/-! ## The edges -/

namespace Dtm

variable {g : DtmGenerics} {s : Dtm} {i : DtmInput}

theorem tckRise_iff : s.tckRise = true ↔ s.tckFf.getLsbD 2 = false ∧ s.tckFf.getLsbD 1 = true := by
  have hall : ∀ v : BitVec 3, decide (v.extractLsb' 1 2 = 0b01) = true ↔
      v.getLsbD 2 = false ∧ v.getLsbD 1 = true := by decide
  exact hall s.tckFf

theorem tckFall_iff : s.tckFall = true ↔ s.tckFf.getLsbD 2 = true ∧ s.tckFf.getLsbD 1 = false := by
  have hall : ∀ v : BitVec 3, decide (v.extractLsb' 1 2 = 0b10) = true ↔
      v.getLsbD 2 = true ∧ v.getLsbD 1 = false := by decide
  exact hall s.tckFf

theorem tckFf_clock : (s.clock g i).tckFf.getLsbD 2 = s.tckFf.getLsbD 1 ∧
    (s.clock g i).tckFf.getLsbD 1 = s.tckFf.getLsbD 0 ∧
    (s.clock g i).tckFf.getLsbD 0 = i.tck := by
  have hall : ∀ (v : BitVec 3) (b : Bool),
      (v.extractLsb' 0 2 ++ BitVec.ofBool b).getLsbD 2 = v.getLsbD 1 ∧
      (v.extractLsb' 0 2 ++ BitVec.ofBool b).getLsbD 1 = v.getLsbD 0 ∧
      (v.extractLsb' 0 2 ++ BitVec.ofBool b).getLsbD 0 = b := by decide
  exact hall s.tckFf i.tck

/-- Two rising edges are at least two clocks apart. -/
theorem high_of_tckRise (h : s.tckRise = true) : (s.clock g i).tckFf.getLsbD 2 = true :=
  tckFf_clock.1.trans (tckRise_iff.mp h).2

theorem not_tckRise_of_high (h : s.tckFf.getLsbD 2 = true) : s.tckRise = false := by
  apply Bool.eq_false_iff.mpr
  intro hr
  rw [(tckRise_iff.mp hr).1] at h
  cases h

end Dtm

end ThuasRiscv
