import ThuasRiscv.Debug.LinkRefinement

/-!
# Delivery of the requests of a debugger

The words that a debugger shifts into the register `dmi` reach the Debug Module
in order, each of them once, whatever the pins do. Only an access with the
reserved operation is never answered: what follows is lost until a hard reset,
and the sticky error tells so.
-/

namespace ThuasRiscv

open Transition

namespace JtagSystem

variable {g : DtmGenerics} {b : Bool} {s : JtagSystem} {i : JtagInput} {p : Session}

/-! ## The edges on the pins -/

/-- The edges that are still in the synchronizer, the older one first. -/
def inSync (s : JtagSystem) : List (Tick × Bool) :=
  (if s.dtm.tckFf.getLsbD 1 && !s.dtm.tckFf.getLsbD 2 then
    [(⟨s.dtm.tmsFf.getLsbD 1, s.dtm.tdiFf.getLsbD 1⟩, s.dtm.tdo)] else []) ++
  (if s.dtm.tckFf.getLsbD 0 && !s.dtm.tckFf.getLsbD 1 then
    [(⟨s.dtm.tmsFf.getLsbD 0, s.dtm.tdiFf.getLsbD 0⟩, s.dtm.tdo)] else [])

/-- TCK has been low for three clocks before it rises. -/
def Slow (q : JtagSystem × Session) (i : JtagInput) : Prop :=
  q.1.drives i = true → q.1.dtm.tckFf = 0

instance (q : JtagSystem × Session) (i : JtagInput) : Decidable (Slow q i) :=
  inferInstanceAs (Decidable (_ → _))

theorem delay_getLsbD (v : BitVec 2) (b : Bool) :
    (v.extractLsb' 0 1 ++ BitVec.ofBool b).getLsbD 1 = v.getLsbD 0 ∧
    (v.extractLsb' 0 1 ++ BitVec.ofBool b).getLsbD 0 = b := by
  revert v b
  decide

theorem tckRise_eq : s.dtm.tckRise = (s.dtm.tckFf.getLsbD 1 && !s.dtm.tckFf.getLsbD 2) := by
  apply Bool.eq_iff_iff.mpr
  rw [Dtm.tckRise_iff]
  simp [and_comm]

/-- A clock moves the edges in the synchronizer on and adds the one on the pins. -/
theorem inSync_step (hr : i.sreset = false) : (s.step g b i).inSync =
    (if s.dtm.tckFf.getLsbD 0 && !s.dtm.tckFf.getLsbD 1 then
      [(⟨s.dtm.tmsFf.getLsbD 0, s.dtm.tdiFf.getLsbD 0⟩, s.dtm.nextTdo)] else []) ++
    (if s.drives i then [(⟨i.tms, i.tdi⟩, s.dtm.nextTdo)] else []) := by
  have hdtm : (s.step g b i).dtm = s.dtm.clock g (s.dtmInput i) := step_eq hr
  obtain ⟨h2, h1, h0⟩ := Dtm.tckFf_clock (g := g) (s := s.dtm) (i := s.dtmInput i)
  have htms := delay_getLsbD s.dtm.tmsFf i.tms
  have htdi := delay_getLsbD s.dtm.tdiFf i.tdi
  have htms' : (s.dtm.clock g (s.dtmInput i)).tmsFf =
      s.dtm.tmsFf.extractLsb' 0 1 ++ BitVec.ofBool i.tms := rfl
  have htdi' : (s.dtm.clock g (s.dtmInput i)).tdiFf =
      s.dtm.tdiFf.extractLsb' 0 1 ++ BitVec.ofBool i.tdi := rfl
  rw [inSync, hdtm, h2, h1, h0, htms', htdi', htms.1, htms.2, htdi.1, htdi.2]
  rfl

/-- The older edge in the synchronizer is the one that the TAP sees. -/
theorem inSync_eq : s.inSync = (if s.dtm.tckRise then [(s.tick, s.dtm.tdo)] else []) ++
    (if s.dtm.tckFf.getLsbD 0 && !s.dtm.tckFf.getLsbD 1 then
      [(⟨s.dtm.tmsFf.getLsbD 0, s.dtm.tdiFf.getLsbD 0⟩, s.dtm.tdo)] else []) := by
  rw [inSync, tckRise_eq]
  rfl

theorem watch_driven (hr : i.sreset = false) : (s.watch g i p).driven =
    p.driven ++ if s.drives i then [(⟨i.tms, i.tdi⟩, s.dtm.tdo)] else [] := by
  rw [watch, if_neg (Bool.eq_false_iff.mp hr)]
  cases s.drives i <;> simp

theorem watch_ticks (hr : i.sreset = false) : (s.watch g i p).ticks =
    p.ticks ++ if s.dtm.tckRise then [(s.tick, s.dtm.tdo)] else [] := by
  rw [watch, if_neg (Bool.eq_false_iff.mp hr)]
  cases s.dtm.tckRise <;> simp

/-- The TAP sees the edges on the pins in order, and no others. -/
theorem driven_eq {q : JtagSystem × Session} (h : (observed g b).Reachable Machine.free q) :
    q.2.driven.map Prod.fst = q.2.ticks.map Prod.fst ++ q.1.inSync.map Prod.fst := by
  induction h with
  | init =>
    change [] = [] ++ (inSync ⟨.reset, .reset⟩).map Prod.fst
    decide
  | @step q i _ _ ih =>
    change (q.1.watch g i q.2).driven.map _ =
      (q.1.watch g i q.2).ticks.map _ ++ (q.1.step g b i).inSync.map _
    cases hr : i.sreset with
    | true =>
      have hs : q.1.step g b i = ⟨.reset, .reset⟩ := by
        rw [step, Dtm.step, Dm.step]
        simp [dtmInput, dmInput, hr]
      rw [watch, if_pos hr, hs]
      rfl
    | false =>
      rw [watch_driven hr, watch_ticks hr, inSync_step hr, List.map_append, ih, inSync_eq]
      simp only [List.map_append, List.append_assoc, apply_ite (List.map Prod.fst), List.map_cons,
        List.map_nil]

/-! ## The requests -/

/-- The request on its way to the Debug Module. -/
def underway (s : JtagSystem) : List DmiRequest :=
  if s.dtm.updatesDmi && !s.dtm.busy && (Dtm.dmiWord s.dtm.dreg).op ≠ 0 then
    [Dtm.dmiWord s.dtm.dreg]
  else if s.dtm.dmi.op ≠ 0 then [s.dtm.dmi]
  else []

theorem underway_of_not_update (h : s.dtm.update = false) :
    s.underway = if s.dtm.dmi.op ≠ 0 then [s.dtm.dmi] else [] := by
  simp [underway, Dtm.updatesDmi, h]

theorem Follows.sent_eq (h : Follows s p) :
    p.link.sent = p.served.map Prod.fst ++ s.underway := by
  cases h.phase with
  | settled hs => simp [underway_of_not_update hs.update, hs.op, hs.sent]
  | requesting hq =>
    have hupdate : s.dtm.update = false := by simp [Dtm.update, hq.state2]
    rw [underway_of_not_update hupdate, if_pos hq.op, hq.sent]
  | answering ha => simp [underway_of_not_update ha.update, ha.op, ha.sent]
  | updating l hu =>
    rw [hu.link, underway, hu.op, hu.busy, hu.dreg, Dtm.updatesDmi, hu.update, hu.ireg, ← hu.sent,
      Link.update]
    by_cases hdmi : l.ireg = addrDmi
    · rw [if_pos hdmi, Link.access]
      cases hstuck : l.stuck with
      | true => simp [hdmi]
      | false =>
        by_cases hop : (Dtm.dmiWord l.dreg).op = 0
        · rw [hop]
          simp
        · rw [if_neg Bool.false_ne_true, decide_eq_true hdmi, decide_eq_true hop]
          exact if_neg hop
    · rw [if_neg hdmi, decide_eq_false hdmi]
      by_cases hcs : l.ireg = addrDtmcs
      · simp [hcs, Link.control]
      · simp [hcs]

end JtagSystem

/-! ## What the updates amount to -/

/-- The sticky error, an access that never ends, and the requests. -/
structure Account where
  err : Bool
  stuck : Bool
  sent : List DmiRequest
  deriving DecidableEq

namespace Account

/-- One update of a data register. -/
def add (a : Account) (u : BitVec 5 × BitVec 41) : Account :=
  if u.1 = addrDmi then
    if a.stuck then { a with err := true }
    else
      { a with
        stuck := (Dtm.dmiWord u.2).op = 0b11
        sent := if (Dtm.dmiWord u.2).op = 0 then a.sent else a.sent ++ [Dtm.dmiWord u.2] }
  else if u.1 = addrDtmcs then
    { a with
      err := a.err && !(u.2.getLsbD 25 || u.2.getLsbD 26)
      stuck := a.stuck && !u.2.getLsbD 26 }
  else a

/-- A row of updates from the reset on. -/
def of (us : List (BitVec 5 × BitVec 41)) : Account := us.foldl add ⟨false, false, []⟩

theorem of_concat (us : List (BitVec 5 × BitVec 41)) (u : BitVec 5 × BitVec 41) :
    of (us ++ [u]) = (of us).add u := List.foldl_append

/-- An access with the reserved operation. -/
def Reserved (u : BitVec 5 × BitVec 41) : Prop := u.1 = addrDmi ∧ (Dtm.dmiWord u.2).op = 0b11

/-- The request of an update. -/
def request (u : BitVec 5 × BitVec 41) : Option DmiRequest :=
  if u.1 = addrDmi ∧ (Dtm.dmiWord u.2).op ≠ 0 then some (Dtm.dmiWord u.2) else none

/-- Without a reserved operation no request is lost and no error is set. -/
theorem of_eq_of_not_reserved {us : List (BitVec 5 × BitVec 41)} (h : ∀ u ∈ us, ¬ Reserved u) :
    of us = ⟨false, false, us.filterMap request⟩ := by
  induction us using List.reverseRecOn with
  | nil => rfl
  | append_singleton us u ih =>
    have hu : ¬ Reserved u := h u (by simp)
    rw [of_concat, ih fun v hv => h v (List.mem_append_left _ hv), add, List.filterMap_append]
    by_cases hdmi : u.1 = addrDmi
    · have hop : (Dtm.dmiWord u.2).op ≠ 0b11 := fun hop => hu ⟨hdmi, hop⟩
      rw [if_pos hdmi, if_neg Bool.false_ne_true, decide_eq_false hop]
      by_cases hnop : (Dtm.dmiWord u.2).op = 0
      · have hrequest : request u = none := if_neg fun h => h.2 hnop
        rw [if_pos hnop, List.filterMap_cons_none hrequest, List.filterMap_nil, List.append_nil]
      · have hrequest : request u = some (Dtm.dmiWord u.2) := if_pos ⟨hdmi, hnop⟩
        rw [if_neg hnop, List.filterMap_cons_some hrequest, List.filterMap_nil]
    · have hrequest : request u = none := if_neg fun h => hdmi h.1
      rw [if_neg hdmi, List.filterMap_cons_none hrequest, List.filterMap_nil, List.append_nil]
      split_ifs <;> rfl

end Account

namespace Link

def account (l : Link) : Account := ⟨l.err, l.stuck, l.sent⟩

theorem account_update (l : Link) : l.update.account = l.account.add (l.ireg, l.dreg) := by
  rw [update, Account.add]
  by_cases hdmi : l.ireg = addrDmi
  · rw [if_pos hdmi, if_pos hdmi, access]
    cases hs : l.stuck <;> simp [account, hs]
  · rw [if_neg hdmi, if_neg hdmi]
    by_cases hcs : l.ireg = addrDtmcs
    · rw [if_pos hcs, if_pos hcs]
      rfl
    · rw [if_neg hcs, if_neg hcs]

theorem updates_update (l : Link) : l.update.updates = l.updates := by
  rw [update]
  split_ifs with hdmi
  · rw [access]
    split_ifs <;> rfl
  · rfl
  · rfl

theorem account_tick (g : DtmGenerics) {l : Link} (t : Tick) (h : l.account = .of l.updates) :
    (l.tick g t).account = .of (l.tick g t).updates := by
  rw [tick]
  split_ifs
  · rw [account_update, updates_update]
    change _ = Account.of (l.updates ++ [_])
    rw [Account.of_concat, ← h]
    rfl
  · exact h

end Link

namespace JtagSystem

variable {g : DtmGenerics} {b : Bool} {s : JtagSystem} {i : JtagInput} {p : Session}

theorem account_answered {l : Link} (h : l.account = .of l.updates) :
    (s.answered i l).account = .of (s.answered i l).updates := by
  rw [answered]
  split_ifs <;> exact h

theorem account_of_reachable {q : JtagSystem × Session}
    (h : (observed g b).Reachable Machine.free q) :
    q.2.link.account = .of q.2.link.updates := by
  induction h with
  | init => rfl
  | @step q i _ _ ih =>
    change (q.1.watch g i q.2).link.account = .of (q.1.watch g i q.2).link.updates
    cases hr : i.sreset with
    | true =>
      rw [watch, if_pos hr]
      rfl
    | false =>
      rw [watch_link hr]
      split_ifs
      · exact Link.account_tick g _ (account_answered ih)
      · exact account_answered ih

/-- In every run, the TAP sees the edges on the pins, the requests that the updates make reach the
Debug Module in order and once, at most one of them is on its way, and the sticky error tells
whether an update was lost. Without a reserved operation none is lost. -/
theorem requests_delivered {q : JtagSystem × Session}
    (h : (observed g b).Reachable Machine.free q) :
    q.2.driven.map Prod.fst = q.2.ticks.map Prod.fst ++ q.1.inSync.map Prod.fst ∧
    (Account.of q.2.link.updates).sent = q.2.served.map Prod.fst ++ q.1.underway ∧
    q.1.underway.length ≤ 1 ∧
    q.1.dtm.nextErr = (Account.of q.2.link.updates).err ∧
    ((∀ u ∈ q.2.link.updates, ¬ Account.Reserved u) →
      q.2.served.map Prod.fst ++ q.1.underway = q.2.link.updates.filterMap Account.request ∧
        q.1.dtm.nextErr = false) := by
  have hf := follows_of_reachable h
  have hacc := account_of_reachable h
  have hsent : (Account.of q.2.link.updates).sent = q.2.served.map Prod.fst ++ q.1.underway := by
    rw [← hacc]
    exact hf.sent_eq
  have herr : q.1.dtm.nextErr = (Account.of q.2.link.updates).err := by
    rw [← hacc]
    exact hf.err
  have hone : q.1.underway.length ≤ 1 := by
    rw [underway]
    split_ifs <;> simp
  refine ⟨driven_eq h, hsent, hone, herr, fun hres => ?_⟩
  rw [← hsent, herr, Account.of_eq_of_not_reserved hres]
  exact ⟨rfl, rfl⟩

end JtagSystem

end ThuasRiscv
