import ThuasRiscv.Debug.DebugLink

/-!
# The transport follows the link of the debugger

An access takes three clocks: the update, the clock in which the Debug Module
reads the request and the clock of its answer. Edges of TCK are at least two
clocks apart, so the access has ended when the TAP captures again.
-/

namespace ThuasRiscv

open Transition

namespace Dm

theorem readData_of_not_rden (d : Dm) {i : DmInput} (h : rden i = false) : d.readData i = 0 := by
  simp [readData, reads, h]

theorem response_step {b : Bool} (d : Dm) {i : DmInput} (h : i.sreset = false) :
    (d.step i b).response = ⟨d.readData i, wren i || rden i⟩ := by
  rw [step, if_neg (Bool.eq_false_iff.mp h)]
  rfl

end Dm

namespace JtagSystem

variable {g : DtmGenerics} {b : Bool} {s : JtagSystem} {i : JtagInput} {p : Session}

/-- No access is under way, unless it never ends. -/
structure Settled (s : JtagSystem) (p : Session) : Prop where
  update : s.dtm.update = false
  op : s.dtm.dmi.op = 0
  response : s.dm.response = ⟨0, false⟩
  busy : s.dtm.busy = p.link.stuck
  addr : s.dtm.dmi.addr = p.link.addr
  data : s.dtm.dmi.data = p.link.data
  sent : p.link.sent = p.served.map Prod.fst

/-- The clock of the update; the link without its update is `l`. -/
structure Updating (s : JtagSystem) (p : Session) (l : Link) : Prop where
  link : p.link = l.update
  update : s.dtm.update = true
  high : s.dtm.tckFf.getLsbD 2 = true
  op : s.dtm.dmi.op = 0
  response : s.dm.response = ⟨0, false⟩
  busy : s.dtm.busy = l.stuck
  addr : s.dtm.dmi.addr = l.addr
  data : s.dtm.dmi.data = l.data
  err : s.dtm.err = l.err
  ireg : s.dtm.ireg = l.ireg
  dreg : s.dtm.dreg = l.dreg
  sent : l.sent = p.served.map Prod.fst

/-- The clock in which the Debug Module reads the request. -/
structure Requesting (s : JtagSystem) (p : Session) : Prop where
  state : s.dtm.state = .drUpdate
  state2 : s.dtm.state2 = .drUpdate
  op : s.dtm.dmi.op ≠ 0
  response : s.dm.response = ⟨0, false⟩
  busy : s.dtm.busy = true
  stuck : p.link.stuck = decide (s.dtm.dmi.op = 0b11)
  addr : s.dtm.dmi.addr = p.link.addr
  data : s.dtm.dmi.data = p.link.data
  sent : p.link.sent = p.served.map Prod.fst ++ [s.dtm.dmi]

/-- The clock in which the Debug Module answers. -/
structure Answering (s : JtagSystem) (p : Session) : Prop where
  update : s.dtm.update = false
  state : s.dtm.state = .drUpdate ∨ s.dtm.state = .runIdle ∨ s.dtm.state = .drScan
  op : s.dtm.dmi.op = 0
  response : s.dm.response = ⟨p.link.data, true⟩
  busy : s.dtm.busy = true
  stuck : p.link.stuck = false
  addr : s.dtm.dmi.addr = p.link.addr
  sent : p.link.sent = p.served.map Prod.fst

/-- How far the last access has come. -/
inductive Phase (s : JtagSystem) (p : Session) : Prop
  | settled (h : Settled s p)
  | updating (l : Link) (h : Updating s p l)
  | requesting (h : Requesting s p)
  | answering (h : Answering s p)

/-- The transport is where the link is. The instruction and the data register are loaded in every
clock of a capture, and in the link when it ends. -/
structure Follows (s : JtagSystem) (p : Session) : Prop where
  state : s.dtm.state = p.link.state
  ireg : p.link.state ≠ .logicReset → p.link.state ≠ .irCapture → s.dtm.ireg = p.link.ireg
  dreg : p.link.state ≠ .drCapture → s.dtm.dreg = p.link.dreg
  err : s.dtm.nextErr = p.link.err
  phase : Phase s p

theorem follows_initial : Follows ⟨.reset, .reset⟩ .initial where
  state := rfl
  ireg h := absurd rfl h
  dreg _ := rfl
  err := rfl
  phase := .settled ⟨rfl, rfl, rfl, rfl, rfl, rfl, rfl⟩

theorem step_eq (hr : i.sreset = false) : (s.step g b i).dtm = s.dtm.clock g (s.dtmInput i) :=
  if_neg (Bool.eq_false_iff.mp hr)

/-- The transport enters the state in which it updates. -/
def enters (s : JtagSystem) : Bool := s.dtm.tckRise && s.dtm.state.next s.dtm.tms = .drUpdate

theorem update_clock {d : DtmInput} : (s.dtm.clock g d).update = s.enters := by
  change (decide (s.dtm.nextState = .drUpdate) && decide (s.dtm.state ≠ .drUpdate)) = _
  rw [Dtm.nextState, enters]
  cases s.dtm.tckRise with
  | false => simp
  | true => cases s.dtm.state <;> cases s.dtm.tms <;> rfl

end JtagSystem

namespace Link

variable {g : DtmGenerics} {l : Link} {t : Tick}

theorem tick_of_ne (h : l.state.next t.tms ≠ .drUpdate) : l.tick g t = l.move g t := if_neg h

theorem tick_of_eq (h : l.state.next t.tms = .drUpdate) :
    l.tick g t = (l.move g t).logged.update := if_pos h

theorem update_tap (l : Link) :
    l.update.state = l.state ∧ l.update.ireg = l.ireg ∧ l.update.dreg = l.dreg := by
  rw [update]
  split_ifs with hdmi
  · rw [access]
    split_ifs <;> exact ⟨rfl, rfl, rfl⟩
  · exact ⟨rfl, rfl, rfl⟩
  · exact ⟨rfl, rfl, rfl⟩

theorem tick_tap (g : DtmGenerics) (l : Link) (t : Tick) : (l.tick g t).state = l.state.next t.tms ∧
    (l.tick g t).ireg = (l.move g t).ireg ∧ (l.tick g t).dreg = (l.move g t).dreg := by
  rw [tick]
  split_ifs with h
  · exact update_tap _
  · exact ⟨rfl, rfl, rfl⟩

end Link

namespace JtagSystem

variable {g : DtmGenerics} {b : Bool} {s : JtagSystem} {i : JtagInput} {p : Session}

theorem watch_link (hr : i.sreset = false) : (s.watch g i p).link =
    if s.dtm.tckRise then (s.answered i p.link).tick g s.tick else s.answered i p.link := by
  rw [watch, if_neg (Bool.eq_false_iff.mp hr)]

theorem watch_served (hr : i.sreset = false) : (s.watch g i p).served =
    if s.dtm.dmi.op = 0 then p.served
      else p.served ++ [(s.dtm.dmi, s.dm.readData (s.dmInput i))] := by
  rw [watch, if_neg (Bool.eq_false_iff.mp hr)]

theorem answered_tap (l : Link) : (s.answered i l).state = l.state ∧
    (s.answered i l).ireg = l.ireg ∧ (s.answered i l).dreg = l.dreg := by
  rw [answered]
  split_ifs <;> exact ⟨rfl, rfl, rfl⟩

theorem answered_of_nop (h : s.dtm.dmi.op = 0) (l : Link) : s.answered i l = l := by
  have hasks : s.asks = false := by simp [asks, h, dmiReqRd, dmiReqWr]
  rw [answered, if_neg (Bool.eq_false_iff.mp hasks)]

theorem nextErr_of_not_update (h : s.dtm.update = false) : s.dtm.nextErr = s.dtm.err := by
  simp [Dtm.nextErr, Dtm.dmireset, Dtm.dmihardreset, Dtm.dtmcsBit, Dtm.updatesDmi, h]

/-- Nothing is under way when the data register captures. -/
theorem Follows.captured_eq (h : Follows s p) (hs : s.dtm.state = .drCapture) :
    s.dtm.captured g = (s.answered i p.link).captured g := by
  have hlink : p.link.state = .drCapture := h.state.symm.trans hs
  have hireg : s.dtm.ireg = p.link.ireg := h.ireg (by simp [hlink]) (by simp [hlink])
  cases h.phase with
  | settled hs' =>
    have herr : s.dtm.err = p.link.err := (nextErr_of_not_update hs'.update).symm.trans h.err
    rw [answered_of_nop hs'.op, Dtm.captured, Link.captured, hireg, hs'.addr, hs'.data, herr]
  | updating l hl =>
    have hupdate := hl.update
    simp [Dtm.update, hs] at hupdate
  | requesting hq =>
    have hstate := hq.state
    rw [hs] at hstate
    cases hstate
  | answering ha =>
    have hstate := ha.state
    simp [hs] at hstate

theorem Follows.state_step (h : Follows s p) (hr : i.sreset = false) :
    (s.step g b i).dtm.state = (s.watch g i p).link.state := by
  rw [step_eq hr, watch_link hr]
  change s.dtm.nextState = _
  rw [Dtm.nextState, h.state]
  split_ifs
  · rw [(Link.tick_tap _ _ _).1, (answered_tap p.link).1]
    rfl
  · exact (answered_tap p.link).1.symm

theorem Follows.ireg_step (h : Follows s p) (hr : i.sreset = false)
    (hreset : (s.watch g i p).link.state ≠ .logicReset)
    (hcapture : (s.watch g i p).link.state ≠ .irCapture) :
    (s.step g b i).dtm.ireg = (s.watch g i p).link.ireg := by
  have hst : (s.answered i p.link).state = s.dtm.state := (answered_tap p.link).1.trans h.state.symm
  rw [step_eq hr, watch_link hr]
  rw [watch_link hr] at hreset hcapture
  change s.dtm.nextIreg = _
  rw [Dtm.nextIreg]
  by_cases hload : (s.dtm.state = .logicReset || s.dtm.state = .irCapture) = true
  · rw [if_pos hload]
    cases hrise : s.dtm.tckRise with
    | false =>
      rw [hrise, if_neg Bool.false_ne_true, hst] at hreset hcapture
      simp [hreset, hcapture] at hload
    | true =>
      rw [if_pos rfl, (Link.tick_tap _ _ _).2.1]
      change _ = if _ then _ else _
      rw [hst, if_pos hload]
  · have hne : s.dtm.state ≠ .logicReset ∧ s.dtm.state ≠ .irCapture := by simpa using hload
    have hireg : s.dtm.ireg = (s.answered i p.link).ireg := by
      rw [(answered_tap p.link).2.1]
      exact h.ireg (h.state ▸ hne.1) (h.state ▸ hne.2)
    rw [if_neg hload]
    cases hrise : s.dtm.tckRise with
    | false => simpa using hireg
    | true =>
      rw [if_pos rfl, (Link.tick_tap _ _ _).2.1]
      change _ = if _ then _ else _
      rw [hst, if_neg hload, hireg]
      simp only [Bool.and_true, decide_eq_true_eq]
      rfl

theorem Follows.dreg_step (h : Follows s p) (hr : i.sreset = false)
    (hcapture : (s.watch g i p).link.state ≠ .drCapture) :
    (s.step g b i).dtm.dreg = (s.watch g i p).link.dreg := by
  have hst : (s.answered i p.link).state = s.dtm.state := (answered_tap p.link).1.trans h.state.symm
  rw [step_eq hr, watch_link hr]
  rw [watch_link hr] at hcapture
  change s.dtm.nextDreg g = _
  rw [Dtm.nextDreg]
  by_cases hload : s.dtm.state = .drCapture
  · rw [if_pos hload]
    cases hrise : s.dtm.tckRise with
    | false =>
      rw [hrise, if_neg Bool.false_ne_true, hst] at hcapture
      exact absurd hload hcapture
    | true =>
      rw [if_pos rfl, (Link.tick_tap _ _ _).2.2]
      change _ = if _ then _ else _
      rw [hst, if_pos hload]
      exact h.captured_eq hload
  · have hdreg : s.dtm.dreg = (s.answered i p.link).dreg := by
      rw [(answered_tap p.link).2.2]
      exact h.dreg (h.state ▸ hload)
    rw [if_neg hload]
    cases hrise : s.dtm.tckRise with
    | false => simpa using hdreg
    | true =>
      rw [if_pos rfl, (Link.tick_tap _ _ _).2.2]
      change _ = if _ then _ else _
      rw [hst, if_neg hload, hdreg]
      simp only [Bool.and_true, decide_eq_true_eq]
      rfl

/-- Unless the transport enters its update, an edge leaves the access of the link as it is. -/
theorem Follows.access_kept (h : Follows s p) (hr : i.sreset = false) (he : s.enters = false) :
    (s.watch g i p).link.addr = p.link.addr ∧
    (s.watch g i p).link.data = (s.answered i p.link).data ∧
    (s.watch g i p).link.err = p.link.err ∧ (s.watch g i p).link.stuck = p.link.stuck ∧
    (s.watch g i p).link.sent = p.link.sent := by
  have hkeep : (s.answered i p.link).addr = p.link.addr ∧
      (s.answered i p.link).err = p.link.err ∧ (s.answered i p.link).stuck = p.link.stuck ∧
      (s.answered i p.link).sent = p.link.sent := by
    rw [answered]
    split_ifs <;> exact ⟨rfl, rfl, rfl, rfl⟩
  obtain ⟨haddr, herr, hstuck, hsent⟩ := hkeep
  rw [watch_link hr]
  cases hrise : s.dtm.tckRise with
  | false => exact ⟨haddr, rfl, herr, hstuck, hsent⟩
  | true =>
    have hne : (s.answered i p.link).state.next s.tick.tms ≠ .drUpdate := by
      rw [(answered_tap p.link).1, ← h.state]
      change s.dtm.state.next s.dtm.tms ≠ _
      simpa [enters, hrise] using he
    rw [if_pos rfl, Link.tick_of_ne hne]
    exact ⟨haddr, rfl, herr, hstuck, hsent⟩

theorem response_step (hr : i.sreset = false) : (s.step g b i).dm.response =
    ⟨s.dm.readData (s.dmInput i), s.asks⟩ := by
  have hresp : (s.step g b i).dm.response = _ := Dm.response_step s.dm hr
  rw [hresp, asks, Bool.or_comm]
  rfl

theorem response_step_of_nop (hr : i.sreset = false) (h : s.dtm.dmi.op = 0) :
    (s.step g b i).dm.response = ⟨0, false⟩ := by
  have hrden : Dm.rden (s.dmInput i) = false := by simp [Dm.rden, dmInput, h, dmiReqRd]
  rw [response_step hr, Dm.readData_of_not_rden _ hrden]
  simp [asks, h, dmiReqRd, dmiReqWr]

/-- Without an update, the interface only waits for the answer. -/
theorem dmi_step (hr : i.sreset = false) (hu : s.dtm.update = false) : (s.step g b i).dtm.dmi =
    if s.dtm.busy && s.dm.response.ack then ⟨s.dtm.dmi.addr, s.dm.response.data, 0⟩
      else { s.dtm.dmi with op := 0 } := by
  rw [step_eq hr]
  change s.dtm.nextDmi _ = _
  cases hb : s.dtm.busy <;>
    simp [Dtm.nextDmi, Dtm.updatesDmi, Dtm.dmihardreset, Dtm.dtmcsBit, dtmInput, hb, hu]

theorem busy_step (hr : i.sreset = false) (hu : s.dtm.update = false) :
    (s.step g b i).dtm.busy = (s.dtm.busy && !s.dm.response.ack) := by
  rw [step_eq hr]
  change s.dtm.nextBusy _ = _
  cases hb : s.dtm.busy <;>
    simp [Dtm.nextBusy, Dtm.updatesDmi, Dtm.dmihardreset, Dtm.dtmcsBit, dtmInput, hb, hu]

theorem update_step (hr : i.sreset = false) : (s.step g b i).dtm.update = s.enters := by
  rw [step_eq hr, update_clock]

theorem nextErr_step (hr : i.sreset = false) (he : s.enters = false) :
    (s.step g b i).dtm.nextErr = s.dtm.nextErr := by
  have herr : (s.step g b i).dtm.err = s.dtm.nextErr := by
    rw [step_eq hr]
    rfl
  rw [nextErr_of_not_update ((update_step hr).trans he), herr]

theorem not_enters_of_state (h : s.dtm.state = .drUpdate ∨ s.dtm.state = .runIdle ∨
    s.dtm.state = .drScan) : s.enters = false := by
  rw [enters]
  rcases h with h | h | h <;> cases htms : s.dtm.tms <;> simp [h, TapState.next]

/-! ### One step of an access -/

theorem Settled.next (h : Settled s p) (hf : Follows s p) (hr : i.sreset = false)
    (he : s.enters = false) : Settled (s.step g b i) (s.watch g i p) := by
  obtain ⟨haddr, hdata, -, hstuck, hsent⟩ := hf.access_kept (g := g) hr he
  rw [answered_of_nop h.op] at hdata
  have hdmi : (s.step g b i).dtm.dmi = { s.dtm.dmi with op := 0 } := by
    rw [dmi_step hr h.update, h.response]
    simp
  constructor
  · exact (update_step hr).trans he
  · rw [hdmi]
  · exact response_step_of_nop hr h.op
  · rw [busy_step hr h.update, h.response, hstuck, ← h.busy]
    simp
  · rw [hdmi, haddr, h.addr]
  · rw [hdmi, hdata, h.data]
  · rw [hsent, watch_served hr, if_pos h.op, h.sent]

theorem Settled.enter (h : Settled s p) (hf : Follows s p) (hr : i.sreset = false)
    (he : s.enters = true) :
    Updating (s.step g b i) (s.watch g i p) (p.link.move g s.tick).logged := by
  have hrise : s.dtm.tckRise = true := by
    rw [enters, Bool.and_eq_true] at he
    exact he.1
  have hdmi : (s.step g b i).dtm.dmi = { s.dtm.dmi with op := 0 } := by
    rw [dmi_step hr h.update, h.response]
    simp
  have hstate : p.link.state.next s.tick.tms = .drUpdate := by
    rw [← hf.state]
    change s.dtm.state.next s.dtm.tms = _
    simpa [enters, hrise] using he
  have hlink : (s.watch g i p).link = (p.link.move g s.tick).logged.update := by
    rw [watch_link hr, answered_of_nop h.op, if_pos hrise, Link.tick_of_eq hstate]
  have htap := Link.update_tap (p.link.move g s.tick).logged
  have hstate' : (s.watch g i p).link.state = .drUpdate := by
    rw [hlink, htap.1]
    exact hstate
  constructor
  · exact hlink
  · exact (update_step hr).trans he
  · rw [step_eq hr]
    exact Dtm.high_of_tckRise hrise
  · rw [hdmi]
  · exact response_step_of_nop hr h.op
  · rw [busy_step hr h.update, h.response, h.busy]
    simp [Link.logged, Link.move]
  · rw [hdmi]
    exact h.addr
  · rw [hdmi]
    exact h.data
  · rw [step_eq hr]
    exact hf.err
  · rw [hf.ireg_step hr (by simp [hstate']) (by simp [hstate']), hlink, htap.2.1]
  · rw [hf.dreg_step hr (by simp [hstate']), hlink, htap.2.2]
  · rw [watch_served hr, if_pos h.op]
    exact h.sent

theorem Answering.next (h : Answering s p) (hf : Follows s p) (hr : i.sreset = false) :
    Settled (s.step g b i) (s.watch g i p) := by
  have he := not_enters_of_state h.state
  obtain ⟨haddr, hdata, -, hstuck, hsent⟩ := hf.access_kept (g := g) hr he
  rw [answered_of_nop h.op] at hdata
  have hdmi : (s.step g b i).dtm.dmi = ⟨s.dtm.dmi.addr, p.link.data, 0⟩ := by
    rw [dmi_step hr h.update, h.response, h.busy]
    rfl
  constructor
  · exact (update_step hr).trans he
  · rw [hdmi]
  · exact response_step_of_nop hr h.op
  · rw [busy_step hr h.update, h.response, hstuck, h.stuck]
    simp
  · rw [hdmi, haddr, h.addr]
  · rw [hdmi, hdata]
  · rw [hsent, watch_served hr, if_pos h.op, h.sent]

/-- The Debug Module answers a read or a write, and nothing else. -/
theorem Requesting.next (h : Requesting s p) (hf : Follows s p) (hr : i.sreset = false) :
    Phase (s.step g b i) (s.watch g i p) := by
  have hupdate : s.dtm.update = false := by simp [Dtm.update, h.state2]
  have he := not_enters_of_state (.inl h.state)
  obtain ⟨haddr, hdata, -, hstuck, hsent⟩ := hf.access_kept (g := g) hr he
  have hdmi : (s.step g b i).dtm.dmi = { s.dtm.dmi with op := 0 } := by
    rw [dmi_step hr hupdate, h.response]
    simp
  have hserved : (s.watch g i p).link.sent = (s.watch g i p).served.map Prod.fst := by
    rw [hsent, watch_served hr, if_neg h.op, h.sent]
    simp
  have hbusy : (s.step g b i).dtm.busy = true := by
    rw [busy_step hr hupdate, h.response, h.busy]
    rfl
  cases hasks : s.asks with
  | false =>
    have hread : s.dm.readData (s.dmInput i) = 0 := by
      apply Dm.readData_of_not_rden
      rw [asks, Bool.or_eq_false_iff] at hasks
      exact hasks.1
    have hreserved : s.dtm.dmi.op = 0b11 := by
      have hall : ∀ op : BitVec 2, op ≠ 0 → (decide (op = dmiReqRd) || decide (op = dmiReqWr)) =
          false → op = 0b11 := by decide
      exact hall _ h.op hasks
    rw [answered, if_neg (Bool.eq_false_iff.mp hasks)] at hdata
    apply Phase.settled
    constructor
    · exact (update_step hr).trans he
    · rw [hdmi]
    · rw [response_step hr, hread, hasks]
    · rw [hbusy, hstuck, h.stuck, hreserved]
      rfl
    · rw [hdmi, haddr, h.addr]
    · rw [hdmi, hdata, h.data]
    · exact hserved
  | true =>
    have hlegal : s.dtm.dmi.op ≠ 0b11 := by
      have hall : ∀ op : BitVec 2, (decide (op = dmiReqRd) || decide (op = dmiReqWr)) = true →
          op ≠ 0b11 := by decide
      exact hall _ hasks
    rw [answered, if_pos hasks] at hdata
    apply Phase.answering
    constructor
    · exact (update_step hr).trans he
    · rw [step_eq hr]
      change s.dtm.nextState = _ ∨ s.dtm.nextState = _ ∨ s.dtm.nextState = _
      rw [Dtm.nextState, h.state]
      cases s.dtm.tckRise <;> cases s.dtm.tms <;> simp [TapState.next]
    · rw [hdmi]
    · rw [response_step hr, hasks, hdata]
    · exact hbusy
    · rw [hstuck, h.stuck, decide_eq_false hlegal]
    · rw [hdmi, haddr, h.addr]
    · exact hserved

namespace Updating

variable {l : Link}

/-- The error flag after the update. -/
theorem nextErr (h : Updating s p l) : s.dtm.nextErr = l.update.err := by
  rw [Dtm.nextErr, Dtm.dmireset, Dtm.dmihardreset, Dtm.updatesDmi, Dtm.dtmcsBit, Dtm.dtmcsBit,
    h.update, h.err, h.busy, h.ireg, h.dreg, Link.update]
  by_cases hdmi : l.ireg = addrDmi
  · rw [if_pos hdmi, hdmi, Link.access]
    cases hs : l.stuck <;> simp [addrDmi, addrDtmcs]
  · rw [if_neg hdmi]
    by_cases hcs : l.ireg = addrDtmcs
    · rw [if_pos hcs, hcs]
      cases h25 : l.dreg.getLsbD 25 <;> cases h26 : l.dreg.getLsbD 26 <;>
        simp_all [Link.control, sizeDtmcs, addrDmi, addrDtmcs]
    · simp [hcs, hdmi]

theorem not_tckRise (h : Updating s p l) : s.dtm.tckRise = false := Dtm.not_tckRise_of_high h.high

theorem not_enters (h : Updating s p l) : s.enters = false := by
  rw [enters, h.not_tckRise, Bool.false_and]

/-- The transport after the update, when the link after it has the given access. -/
theorem settled (h : Updating s p l) (hr : i.sreset = false)
    (hop : (s.dtm.nextDmi (s.dtmInput i)).op = 0)
    (hbusy : s.dtm.nextBusy (s.dtmInput i) = l.update.stuck)
    (haddr : (s.dtm.nextDmi (s.dtmInput i)).addr = l.update.addr)
    (hdata : (s.dtm.nextDmi (s.dtmInput i)).data = l.update.data)
    (hsent : l.update.sent = l.sent) : Settled (s.step g b i) (s.watch g i p) := by
  have hlink : (s.watch g i p).link = l.update := by
    rw [watch_link hr, h.not_tckRise, if_neg Bool.false_ne_true, answered_of_nop h.op, h.link]
  have hdtm : (s.step g b i).dtm = s.dtm.clock g (s.dtmInput i) := step_eq hr
  constructor
  · exact (update_step hr).trans h.not_enters
  · rw [hdtm]
    exact hop
  · exact response_step_of_nop hr h.op
  · rw [hdtm, hlink]
    exact hbusy
  · rw [hdtm, hlink]
    exact haddr
  · rw [hdtm, hlink]
    exact hdata
  · rw [hlink, watch_served hr, if_pos h.op, hsent, h.sent]

theorem bits_op (w : BitVec 41) :
    (w.getLsbD 1 || w.getLsbD 0) = decide ((Dtm.dmiWord w).op ≠ 0) := by
  have hall : ∀ v : BitVec 2, (v.getLsbD 1 || v.getLsbD 0) = decide (v ≠ 0) := by decide
  have hw := hall (Dtm.dmiWord w).op
  simpa [Dtm.dmiWord] using hw

/-- An update of the register `dmi` starts an access, unless the last one has not ended. -/
theorem access_step (h : Updating s p l) (hr : i.sreset = false) (hdmi : l.ireg = addrDmi) :
    Phase (s.step g b i) (s.watch g i p) := by
  have hhard : s.dtm.dmihardreset = false := by
    simp [Dtm.dmihardreset, Dtm.dtmcsBit, h.ireg, hdmi, addrDmi, addrDtmcs]
  have hup : s.dtm.updatesDmi = true := by
    rw [Dtm.updatesDmi, h.update, h.ireg, hdmi]
    rfl
  have hack : (s.dtmInput i).response.ack = false := congrArg DmiResponse.ack h.response
  have hlink : l.update = l.access (Dtm.dmiWord l.dreg) := by rw [Link.update, if_pos hdmi]
  cases hs : l.stuck with
  | true =>
    have hnext : s.dtm.nextDmi (s.dtmInput i) = { s.dtm.dmi with op := 0 } := by
      simp [Dtm.nextDmi, h.busy, hs, hack, hhard]
    rw [Link.access, hs, if_pos rfl] at hlink
    apply Phase.settled
    apply h.settled hr
    · rw [hnext]
    · rw [hlink, Dtm.nextBusy, h.busy, hs, hack, hhard]
      rfl
    · rw [hnext, hlink, h.addr]
    · rw [hnext, hlink, h.data]
    · rw [hlink]
  | false =>
    have hnext : s.dtm.nextDmi (s.dtmInput i) = Dtm.dmiWord l.dreg := by
      simp [Dtm.nextDmi, h.busy, hs, hup, h.dreg]
    have hbusy : s.dtm.nextBusy (s.dtmInput i) = decide ((Dtm.dmiWord l.dreg).op ≠ 0) := by
      rw [← bits_op, Dtm.nextBusy, h.busy, hs, hup, h.dreg]
      rfl
    rw [Link.access, hs, if_neg Bool.false_ne_true] at hlink
    by_cases hnop : (Dtm.dmiWord l.dreg).op = 0
    · apply Phase.settled
      apply h.settled hr
      · rw [hnext, hnop]
      · rw [hbusy, hlink, hnop]
        rfl
      · rw [hnext, hlink]
      · rw [hnext, hlink]
      · rw [hlink, hnop]
        rfl
    · have hdtm : (s.step g b i).dtm = s.dtm.clock g (s.dtmInput i) := step_eq hr
      have hdmi' : (s.step g b i).dtm.dmi = Dtm.dmiWord l.dreg := by
        rw [hdtm]
        exact hnext
      have hwatch : (s.watch g i p).link = l.update := by
        rw [watch_link hr, h.not_tckRise, if_neg Bool.false_ne_true, answered_of_nop h.op, h.link]
      have hstate : s.dtm.state = .drUpdate := by
        have hupdate := h.update
        rw [Dtm.update, Bool.and_eq_true] at hupdate
        simpa using hupdate.1
      apply Phase.requesting
      constructor
      · rw [hdtm]
        change s.dtm.nextState = _
        rw [Dtm.nextState, h.not_tckRise, if_neg Bool.false_ne_true, hstate]
      · rw [hdtm]
        exact hstate
      · rw [hdmi']
        exact hnop
      · exact response_step_of_nop hr h.op
      · rw [hdtm]
        exact hbusy.trans (decide_eq_true hnop)
      · rw [hwatch, hlink, hdmi']
      · rw [hwatch, hlink, hdmi']
      · rw [hwatch, hlink, hdmi']
      · rw [hwatch, hlink, hdmi', watch_served hr, if_pos h.op, ← h.sent]
        exact if_neg hnop

/-- An update of another register ends an access at most. -/
theorem control_step (h : Updating s p l) (hr : i.sreset = false) (hdmi : l.ireg ≠ addrDmi) :
    Settled (s.step g b i) (s.watch g i p) := by
  have hup : s.dtm.updatesDmi = false := by simp [Dtm.updatesDmi, h.ireg, hdmi]
  have hresponse : (s.dtmInput i).response = ⟨0, false⟩ := h.response
  by_cases hcs : l.ireg = addrDtmcs
  · have hhard : s.dtm.dmihardreset = l.dreg.getLsbD 26 := by
      rw [Dtm.dmihardreset, Dtm.dtmcsBit, h.update, h.ireg, hcs, h.dreg]
      rfl
    have hlink : l.update = l.control (l.dreg.getLsbD 25) (l.dreg.getLsbD 26) := by
      rw [Link.update, if_neg hdmi, if_pos hcs]
    have hnext : s.dtm.nextDmi (s.dtmInput i) =
        ⟨l.addr, if l.stuck && l.dreg.getLsbD 26 then 0 else l.data, 0⟩ := by
      rw [Dtm.nextDmi, hup, hresponse, hhard, h.busy, ← h.addr, ← h.data]
      cases l.stuck <;> cases l.dreg.getLsbD 26 <;> rfl
    apply h.settled hr
    · rw [hnext]
    · rw [hlink, Dtm.nextBusy, hup, hresponse, hhard, h.busy, Link.control]
      cases l.stuck <;> rfl
    · rw [hnext, hlink, Link.control]
    · rw [hnext, hlink, Link.control]
    · rw [hlink, Link.control]
  · have hhard : s.dtm.dmihardreset = false := by
      simp [Dtm.dmihardreset, Dtm.dtmcsBit, h.ireg, hcs]
    have hlink : l.update = l := by rw [Link.update, if_neg hdmi, if_neg hcs]
    have hnext : s.dtm.nextDmi (s.dtmInput i) = { s.dtm.dmi with op := 0 } := by
      rw [Dtm.nextDmi, hup, hresponse, hhard]
      cases s.dtm.busy <;> rfl
    apply h.settled hr
    · rw [hnext]
    · rw [hlink, Dtm.nextBusy, hup, hresponse, hhard, h.busy]
      cases l.stuck <;> rfl
    · rw [hnext, hlink, h.addr]
    · rw [hnext, hlink, h.data]
    · rw [hlink]

end Updating

/-! ### Runs -/

theorem Follows.err_step (h : Follows s p) (hr : i.sreset = false) :
    (s.step g b i).dtm.nextErr = (s.watch g i p).link.err := by
  cases he : s.enters with
  | false => rw [nextErr_step hr he, h.err, (h.access_kept hr he).2.2.1]
  | true =>
    cases h.phase with
    | settled hs =>
      have hu := hs.enter (g := g) (b := b) h hr he
      rw [hu.nextErr, hu.link]
    | updating l hu =>
      rw [hu.not_enters] at he
      cases he
    | requesting hq =>
      rw [not_enters_of_state (.inl hq.state)] at he
      cases he
    | answering ha =>
      rw [not_enters_of_state ha.state] at he
      cases he

theorem Follows.phase_step (h : Follows s p) (hr : i.sreset = false) :
    Phase (s.step g b i) (s.watch g i p) := by
  cases h.phase with
  | settled hs =>
    cases he : s.enters with
    | false => exact .settled (hs.next h hr he)
    | true => exact .updating _ (hs.enter h hr he)
  | updating l hu =>
    by_cases hdmi : l.ireg = addrDmi
    · exact hu.access_step hr hdmi
    · exact .settled (hu.control_step hr hdmi)
  | requesting hq => exact hq.next h hr
  | answering ha => exact .settled (ha.next h hr)

theorem follows_of_reachable {q : JtagSystem × Session}
    (h : (observed g b).Reachable Machine.free q) : Follows q.1 q.2 := by
  induction h with
  | init => exact follows_initial
  | @step q i _ _ ih =>
    cases hr : i.sreset with
    | false => exact ⟨ih.state_step hr, ih.ireg_step hr, ih.dreg_step hr, ih.err_step hr,
        ih.phase_step hr⟩
    | true =>
      have hs : q.1.step g b i = ⟨.reset, .reset⟩ := by
        rw [step, Dtm.step, Dm.step]
        simp [dtmInput, dmInput, hr]
      have hp : q.1.watch g i q.2 = .initial := by
        rw [watch, if_pos hr]
        rfl
      change Follows (q.1.step g b i) (q.1.watch g i q.2)
      rw [hs, hp]
      exact follows_initial

end JtagSystem

end ThuasRiscv
