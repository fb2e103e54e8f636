import ThuasRiscv.Debug.JtagScan

/-!
# Reading and writing the Debug Module over JTAG

The scan after an access shows the answer of the Debug Module to it. So a word
written to `data0` in one scan and read in the next one is shifted out in the
scan after that, unless an abstract command runs.
-/

namespace ThuasRiscv

open Transition ShiftRegister

namespace Dm

theorem readData_data0 (d : Dm) {i : DmInput} (hop : i.dmi.op = dmiReqRd)
    (haddr : i.dmi.addr = addrData0) : d.readData i = d.data0 := by
  have hreads : ∀ addr, reads i addr = decide (addrData0 = addr) := by
    intro addr
    rw [reads, rden, hop, haddr]
    exact Bool.true_and _
  rw [readData, hreads, hreads, hreads, hreads]
  rfl

end Dm

namespace JtagSystem

variable {g : DtmGenerics} {b : Bool}

/-! ## The answer to the last access -/

/-- The last update was an access that made the request of `w`. -/
def LastAccess (p : Session) (w : BitVec 41) : Prop :=
  ∃ us, p.link.updates = us ++ [(addrDmi, w)] ∧ (Account.of us).stuck = false ∧
    ((Dtm.dmiWord w).op = dmiReqRd ∨ (Dtm.dmiWord w).op = dmiReqWr)

theorem LastAccess.sent {p : Session} {w : BitVec 41} (h : LastAccess p w)
    (hacc : p.link.account = .of p.link.updates) :
    ∃ rs, p.link.sent = rs ++ [Dtm.dmiWord w] := by
  obtain ⟨us, hus, hstuck, hop⟩ := h
  have hne : (Dtm.dmiWord w).op ≠ 0 := by
    rcases hop with hop | hop <;> rw [hop] <;> decide
  have hsent : p.link.sent = (Account.of (us ++ [(addrDmi, w)])).sent := by
    rw [← hus, ← hacc]
    rfl
  rw [Account.of_concat, Account.add, if_pos rfl, hstuck, if_neg Bool.false_ne_true] at hsent
  exact ⟨(Account.of us).sent, hsent.trans (if_neg hne)⟩

theorem updates_watch {s : JtagSystem} {i : JtagInput} {p : Session} (hf : Follows s p)
    (hr : i.sreset = false) (he : s.enters = false) :
    (s.watch g i p).link.updates = p.link.updates := by
  have hanswered : (s.answered i p.link).updates = p.link.updates := by
    rw [answered]
    split_ifs <;> rfl
  rw [watch_link hr]
  cases hrise : s.dtm.tckRise with
  | false => exact hanswered
  | true =>
    have hne : (s.answered i p.link).state.next s.tick.tms ≠ .drUpdate := by
      rw [(answered_tap p.link).1, ← hf.state]
      change s.dtm.state.next s.dtm.tms ≠ _
      simpa [enters, hrise] using he
    rw [if_pos rfl, Link.tick_of_ne hne]
    exact hanswered

/-- When nothing is on its way, the link shows the answer to the last request. -/
theorem answer_shown {q : JtagSystem × Session} (h : (observed g b).Reachable Machine.free q)
    {w : BitVec 41} (hw : LastAccess q.2 w) (hdone : q.1.underway = []) :
    ∃ sv a, q.2.served = sv ++ [(Dtm.dmiWord w, a)] ∧ q.2.link.data = a := by
  induction h with
  | init =>
    obtain ⟨us, hus, -⟩ := hw
    simp [observed, Machine.observe, Session.initial, Link.initial] at hus
  | @step q i hq _ ih =>
    change LastAccess (q.1.watch g i q.2) w at hw
    change (q.1.step g b i).underway = [] at hdone
    change ∃ sv a, (q.1.watch g i q.2).served = _ ∧ (q.1.watch g i q.2).link.data = a
    cases hr : i.sreset with
    | true =>
      obtain ⟨us, hus, -⟩ := hw
      rw [watch, if_pos hr] at hus
      simp [Link.initial] at hus
    | false =>
      have hf := follows_of_reachable hq
      have hsent := hf.sent_eq
      have hsent' : (q.1.watch g i q.2).link.sent = (q.1.watch g i q.2).served.map Prod.fst := by
        have hnext : (observed g b).Reachable Machine.free (_, _) := hq.step i trivial
        rw [(follows_of_reachable hnext).sent_eq]
        change _ ++ (q.1.step g b i).underway = _
        rw [hdone, List.append_nil]
      have hserved := watch_served (g := g) (s := q.1) (p := q.2) hr
      cases he : q.1.enters with
      | true =>
        -- The update has just been made, so its request is still on its way.
        cases hf.phase with
        | settled hs =>
          have hu := hs.enter (g := g) (b := b) hf hr he
          have hacc : (q.1.watch g i q.2).link.account = .of (q.1.watch g i q.2).link.updates :=
            account_of_reachable (hq.step i trivial)
          obtain ⟨us, hus, hstuck, hop⟩ := hw
          have hlen : (q.1.watch g i q.2).link.sent.length =
              (Account.of us).sent.length + 1 := by
            have hne : (Dtm.dmiWord w).op ≠ 0 := by
              rcases hop with hop | hop <;> rw [hop] <;> decide
            have hlast : (q.1.watch g i q.2).link.sent =
                (Account.of (us ++ [(addrDmi, w)])).sent := by
              rw [← hus, ← hacc]
              rfl
            rw [Account.of_concat, Account.add, if_pos rfl, hstuck,
              if_neg Bool.false_ne_true] at hlast
            rw [hlast]
            change (if (Dtm.dmiWord w).op = 0 then _ else _ : List DmiRequest).length = _
            rw [if_neg hne, List.length_append, List.length_singleton]
          have hold : (Account.of us).sent = q.2.link.sent := by
            have hupd : (q.1.watch g i q.2).link.updates = q.2.link.updates ++
                [((q.2.link.move g q.1.tick).ireg, (q.2.link.move g q.1.tick).dreg)] := by
              rw [hu.link, Link.updates_update]
              rfl
            rw [hus] at hupd
            rw [(List.append_inj' hupd rfl).1, ← account_of_reachable hq]
            rfl
          rw [hsent', hserved, if_pos hs.op, List.length_map, hold, hs.sent,
            List.length_map] at hlen
          omega
        | updating l hu =>
          rw [hu.not_enters] at he
          cases he
        | requesting hq' =>
          rw [not_enters_of_state (.inl hq'.state)] at he
          cases he
        | answering ha =>
          rw [not_enters_of_state ha.state] at he
          cases he
      | false =>
        obtain ⟨-, hdata, -, -, hkept⟩ := hf.access_kept (g := g) hr he
        rw [hkept] at hsent'
        have hw' : LastAccess q.2 w := by
          rwa [LastAccess, updates_watch hf hr he] at hw
        rw [hdata]
        by_cases hop : q.1.dtm.dmi.op = 0
        · rw [hserved, if_pos hop] at hsent' ⊢
          rw [answered_of_nop hop]
          apply ih hw'
          rw [hsent] at hsent'
          exact List.append_right_eq_self.mp hsent'
        · -- The Debug Module answers in this clock.
          obtain ⟨rs, hrs⟩ := hw'.sent (account_of_reachable hq)
          rw [hserved, if_neg hop, hrs, List.map_append] at hsent'
          have hdmi : Dtm.dmiWord w = q.1.dtm.dmi :=
            List.singleton_injective (List.append_inj' hsent' rfl).2
          have hasks : q.1.asks = true := by
            obtain ⟨-, -, -, hlegal⟩ := hw'
            rw [hdmi] at hlegal
            rw [asks, Bool.or_eq_true, decide_eq_true_eq, decide_eq_true_eq]
            exact hlegal
          rw [hserved, if_neg hop, answered, if_pos hasks, hdmi]
          exact ⟨_, _, rfl, rfl⟩

/-! ## The register `data0` -/

/-- A request that writes the register at `addr`. -/
def WritesTo (r : DmiRequest) (addr : BitVec 7) : Prop := r.op = dmiReqWr ∧ r.addr = addr

instance (r : DmiRequest) (addr : BitVec 7) : Decidable (WritesTo r addr) :=
  inferInstanceAs (Decidable (_ ∧ _))

/-- The register `data0` after a row of requests. -/
def data0After (d : DataType) (sv : List (DmiRequest × DataType)) : DataType :=
  sv.foldl (fun d r => if WritesTo r.1 addrData0 then r.1.data else d) d

/-- Every read of `data0` is answered with its contents. -/
def ReadsData0 : DataType → List (DmiRequest × DataType) → Prop
  | _, [] => True
  | d, r :: sv => (r.1.op = dmiReqRd → r.1.addr = addrData0 → r.2 = d) ∧
      ReadsData0 (data0After d [r]) sv

theorem data0After_append (d : DataType) (us vs : List (DmiRequest × DataType)) :
    data0After d (us ++ vs) = data0After (data0After d us) vs := List.foldl_append

theorem readsData0_append (d : DataType) (us vs : List (DmiRequest × DataType)) :
    ReadsData0 d (us ++ vs) ↔ ReadsData0 d us ∧ ReadsData0 (data0After d us) vs := by
  induction us generalizing d with
  | nil =>
    change ReadsData0 d vs ↔ True ∧ ReadsData0 d vs
    rw [true_and]
  | cons u us ih =>
    change _ ∧ ReadsData0 _ (us ++ vs) ↔ (_ ∧ ReadsData0 _ us) ∧ _
    rw [ih, and_assoc]
    rfl

theorem dm_step (s : JtagSystem) {i : JtagInput} (hr : i.sreset = false) :
    (s.step g b i).dm = s.dm.clock (s.dmInput i) b := by
  have hr' : ¬ (s.dmInput i).sreset = true := by simpa [dmInput] using hr
  change s.dm.step (s.dmInput i) b = _
  rw [Dm.step, if_neg hr']

theorem writes_eq (s : JtagSystem) (i : JtagInput) (addr : BitVec 7) :
    Dm.writes (s.dmInput i) addr = decide (WritesTo s.dtm.dmi addr) :=
  (Bool.decide_and _ _).symm

/-- Without a write to `command` the Debug Module stays idle. -/
theorem idle_step {s : JtagSystem} {i : JtagInput} (hr : i.sreset = false)
    (hs : s.dm.state = .idle) (hw : ¬ WritesTo s.dtm.dmi addrCommand) :
    (s.step g b i).dm.state = .idle := by
  have hcom : Dm.writes (s.dmInput i) addrCommand = false :=
    (writes_eq s i addrCommand).trans (decide_eq_false hw)
  rw [dm_step s hr]
  change (s.dm.execute (s.dmInput i) b).state = _
  rw [Dm.execute, hcom]
  cases s.dm.dmActive <;> simp [hs]

theorem data0_step {s : JtagSystem} {i : JtagInput} (hr : i.sreset = false)
    (hs : s.dm.state = .idle) : (s.step g b i).dm.data0 =
      if WritesTo s.dtm.dmi addrData0 then s.dtm.dmi.data else s.dm.data0 := by
  rw [dm_step s hr]
  change s.dm.nextData0 (s.dmInput i) = _
  rw [Dm.nextData0, writes_eq]
  simp only [Dm.data0mustread, Dm.busy, hs]
  simp [dmInput]

/-- While no command is written, `data0` keeps what was written to it and is read so. -/
theorem data0_runFrom (q : JtagSystem × Session) {is : List JtagInput}
    (his : ∀ i ∈ is, i.sreset = false) (hs : q.1.dm.state = .idle) :
    ∃ sv, ((observed g b).runFrom q is).2.served = q.2.served ++ sv ∧
      ((∀ r ∈ sv, ¬ WritesTo r.1 addrCommand) →
        ((observed g b).runFrom q is).1.dm.state = .idle ∧
        ((observed g b).runFrom q is).1.dm.data0 = data0After q.1.dm.data0 sv ∧
        ReadsData0 q.1.dm.data0 sv) := by
  induction is using List.reverseRecOn with
  | nil => exact ⟨[], (List.append_nil _).symm, fun _ => ⟨hs, rfl, trivial⟩⟩
  | append_singleton is i ih =>
    obtain ⟨sv, hserved, hdm⟩ := ih fun j hj => his j (List.mem_append_left _ hj)
    have hr : i.sreset = false := his i (by simp)
    rw [Machine.runFrom_append]
    generalize (observed g b).runFrom q is = q' at hserved hdm ⊢
    change ∃ sv, (q'.1.watch g i q'.2).served = _ ∧ (_ → (q'.1.step g b i).dm.state = _ ∧
      (q'.1.step g b i).dm.data0 = _ ∧ _)
    rw [watch_served hr, hserved]
    by_cases hop : q'.1.dtm.dmi.op = 0
    · rw [if_pos hop]
      have hnop : ∀ addr, ¬ WritesTo q'.1.dtm.dmi addr := by
        rintro addr ⟨hwr, -⟩
        rw [hop] at hwr
        cases hwr
      refine ⟨sv, rfl, fun hsv => ?_⟩
      obtain ⟨hidle, hdata, hreads⟩ := hdm hsv
      refine ⟨idle_step hr hidle (hnop _), ?_, hreads⟩
      rw [data0_step hr hidle, if_neg (hnop _), hdata]
    · rw [if_neg hop, List.append_assoc]
      refine ⟨_, rfl, fun hsv => ?_⟩
      obtain ⟨hidle, hdata, hreads⟩ := hdm fun r hr => hsv r (List.mem_append_left _ hr)
      have hw : ¬ WritesTo q'.1.dtm.dmi addrCommand := 
        hsv _ (List.mem_append_right _ List.mem_cons_self)
      refine ⟨idle_step hr hidle hw, ?_, ?_⟩
      · rw [data0_step hr hidle, hdata, data0After_append]
        rfl
      · rw [readsData0_append, ← hdata]
        refine ⟨hreads, fun hrd haddr => ?_, trivial⟩
        exact Dm.readData_data0 _ hrd haddr

/-! ## Scans one after another -/

/-- Where a debugger has the register `dmi` selected and nothing is under way. -/
structure Ready (q : JtagSystem × Session) : Prop where
  state : q.2.link.state = .runIdle
  ireg : q.2.link.ireg = addrDmi
  stuck : q.2.link.stuck = false

theorem underway_of_runIdle {s : JtagSystem} {p : Session} (hf : Follows s p)
    (h : p.link.state = .runIdle) : s.underway = [] := by
  have hne : s.dtm.state ≠ .drUpdate := by simp [hf.state, h]
  cases hf.phase with
  | settled hs => simp [underway_of_not_update hs.update, hs.op]
  | updating l hu =>
    have hupdate := hu.update
    simp [Dtm.update, hne] at hupdate
  | requesting hq => exact absurd hq.state hne
  | answering ha => simp [underway_of_not_update ha.update, ha.op]

theorem bits_ne_nil (w : BitVec 41) : bits w ≠ [] := by
  intro hnil
  have hlen := length_bits w
  rw [hnil] at hlen
  cases hlen

theorem served_runFrom (q : JtagSystem × Session) {is : List JtagInput}
    (his : ∀ i ∈ is, i.sreset = false) :
    ∃ sv, q.2.served ++ sv = ((observed g b).runFrom q is).2.served := by
  induction is generalizing q with
  | nil => exact ⟨[], List.append_nil _⟩
  | cons i is ih =>
    obtain ⟨sv, hsv⟩ := ih ((observed g b).next q i) fun j hj => his j (List.mem_cons_of_mem i hj)
    have hserved : ((observed g b).next q i).2.served = _ := watch_served (his i List.mem_cons_self)
    rw [hserved] at hsv
    split_ifs at hsv with hop
    · exact ⟨sv, hsv⟩
    · exact ⟨_ :: sv, by rw [← List.singleton_append, ← List.append_assoc]; exact hsv⟩

/-- A scan of the register `dmi` with a read or a write. -/
theorem access_scanned {q : JtagSystem × Session} (hq : (observed g b).Reachable Slow q)
    (hr : Ready q) {w : BitVec 41}
    (hop : (Dtm.dmiWord w).op = dmiReqRd ∨ (Dtm.dmiWord w).op = dmiReqWr)
    {is : List JtagInput} {tr : List (Tick × Bool)} (h : Scan g b q (bits w) is tr) :
    Ready ((observed g b).runFrom q is) ∧
    ((observed g b).runFrom q is).2.link.err = q.2.link.err ∧
    ((observed g b).runFrom q is).2.link.addr = (Dtm.dmiWord w).addr ∧
    ∃ a, ((observed g b).runFrom q is).2.served = q.2.served ++ [(Dtm.dmiWord w, a)] ∧
      ((observed g b).runFrom q is).2.link.data = a := by
  have hfree : (observed g b).Reachable Machine.free q := hq.mono fun _ _ _ => trivial
  have hfree' := hfree.runFrom is
  obtain ⟨hforget, -⟩ := h.link hq hr.state (bits_ne_nil w)
  have hne : (Dtm.dmiWord w).op ≠ 0 := by
    rcases hop with hop | hop <;> rw [hop] <;> decide
  have hlegal : (Dtm.dmiWord w).op ≠ 0b11 := by
    rcases hop with hop | hop <;> rw [hop] <;> decide
  have hscanned : (q.2.link.scanned g (bits w)).forget =
      { q.2.link with
        state := .runIdle
        dreg := w
        addr := (Dtm.dmiWord w).addr
        data := 0
        stuck := false
        updates := q.2.link.updates ++ [(addrDmi, w)]
        sent := q.2.link.sent ++ [Dtm.dmiWord w] } := by
    rw [Link.scanned, shiftsIn_bits, Link.update]
    simp only [Link.logged, hr.ireg, if_true, Link.access, hr.stuck, Bool.false_eq_true, if_false,
      if_neg hne, decide_eq_false hlegal, Link.forget]
  rw [hscanned] at hforget
  have hprefix := served_runFrom (g := g) (b := b) q (not_sreset_of_meets h.drives)
  generalize (observed g b).runFrom q is = q' at hforget hfree' hprefix ⊢
  have hstate : q'.2.link.state = .runIdle := by
    have hfield := congrArg Link.state hforget
    exact hfield
  have hireg : q'.2.link.ireg = q.2.link.ireg := by
    have hfield := congrArg Link.ireg hforget
    exact hfield
  have hupdates : q'.2.link.updates = q.2.link.updates ++ [(addrDmi, w)] := by
    have hfield := congrArg Link.updates hforget
    exact hfield
  have hsent : q'.2.link.sent = q.2.link.sent ++ [Dtm.dmiWord w] := by
    have hfield := congrArg Link.sent hforget
    exact hfield
  refine ⟨⟨hstate, hireg.trans hr.ireg, ?_⟩, ?_, ?_, ?_⟩
  · have hfield := congrArg Link.stuck hforget
    exact hfield
  · have hfield := congrArg Link.err hforget
    exact hfield
  · have hfield := congrArg Link.addr hforget
    exact hfield
  · have hdone := underway_of_runIdle (follows_of_reachable hfree) hr.state
    have hdone' := underway_of_runIdle (follows_of_reachable hfree') hstate
    have hlast : LastAccess q'.2 w := by
      refine ⟨q.2.link.updates, hupdates, ?_, hop⟩
      rw [← account_of_reachable hfree]
      exact hr.stuck
    obtain ⟨sv, a, hserved, hdata⟩ := answer_shown hfree' hlast hdone'
    have hold := (follows_of_reachable hfree).sent_eq
    have hnew := (follows_of_reachable hfree').sent_eq
    rw [hdone, List.append_nil] at hold
    rw [hdone', List.append_nil, hsent, hold, hserved, List.map_append] at hnew
    obtain ⟨us, hus⟩ := hprefix
    have hmap : sv.map Prod.fst = q.2.served.map Prod.fst := (List.append_inj_left' hnew rfl).symm
    have hsv : sv = q.2.served := by
      have hlen : sv.length = q.2.served.length := by
        rw [← List.length_map (f := Prod.fst), hmap, List.length_map]
      rw [hserved] at hus
      exact (List.append_inj_left hus hlen.symm).symm
    exact ⟨a, hserved.trans (by rw [hsv]), hdata⟩

theorem dmiWord_append (addr : BitVec 7) (data : DataType) (op : BitVec 2) :
    Dtm.dmiWord (addr ++ data ++ op) = ⟨addr, data, op⟩ := by
  rw [Dtm.dmiWord, DmiRequest.mk.injEq]
  refine ⟨?_, ?_, ?_⟩
  · ext k hk
    have hfrom : 34 + k - 2 - 32 = k := by omega
    rw [BitVec.getElem_extractLsb', BitVec.getLsbD_append, if_neg (by omega),
      BitVec.getLsbD_append, if_neg (by omega), hfrom, BitVec.getLsbD_eq_getElem]
  · ext k hk
    have hfrom : 2 + k - 2 = k := by omega
    rw [BitVec.getElem_extractLsb', BitVec.getLsbD_append, if_neg (by omega), hfrom,
      BitVec.getLsbD_append, if_pos hk, BitVec.getLsbD_eq_getElem]
  · ext k hk
    rw [BitVec.getElem_extractLsb', Nat.zero_add, BitVec.getLsbD_append, if_pos hk,
      BitVec.getLsbD_eq_getElem]

/-- What is written to `data0` in one scan and read in the next is shifted out in the third, below
the address and above the sticky error. -/
theorem data0_round_trip {q : JtagSystem × Session} (hq : (observed g b).Reachable Slow q)
    (hr : Ready q) (hdm : q.1.dm.state = .idle) (v u : DataType) (x : BitVec 41)
    {is₁ is₂ is₃ : List JtagInput} {tr₁ tr₂ tr₃ : List (Tick × Bool)}
    (h₁ : Scan g b q (bits (addrData0 ++ v ++ dmiReqWr)) is₁ tr₁)
    (h₂ : Scan g b ((observed g b).runFrom q is₁) (bits (addrData0 ++ u ++ dmiReqRd)) is₂ tr₂)
    (h₃ : Scan g b ((observed g b).runFrom ((observed g b).runFrom q is₁) is₂) (bits x)
      is₃ tr₃) :
    ((tr₃.map Prod.snd).drop 3).take 41 =
      bits (addrData0 ++ v ++ BitVec.ofBool q.2.link.err ++ BitVec.ofBool q.2.link.err) := by
  have hq₁ := hq.runFrom_of_meets (slow_of_meets h₁.drives)
  have hq₂ := hq₁.runFrom_of_meets (slow_of_meets h₂.drives)
  obtain ⟨hr₁, herr₁, -, a₁, hserved₁, -⟩ :=
    access_scanned hq hr (.inr (by rw [dmiWord_append])) h₁
  obtain ⟨hr₂, herr₂, haddr₂, a₂, hserved₂, hdata₂⟩ :=
    access_scanned hq₁ hr₁ (.inl (by rw [dmiWord_append])) h₂
  rw [dmiWord_append] at hserved₁ hserved₂ haddr₂
  -- The Debug Module stays idle, so `data0` keeps the word that the first scan wrote.
  obtain ⟨sv₁, hsv₁, hdm₁⟩ := data0_runFrom (g := g) (b := b) q
    (not_sreset_of_meets h₁.drives) hdm
  rw [hserved₁] at hsv₁
  obtain rfl := List.append_cancel_left hsv₁
  obtain ⟨hidle₁, hdata₁, -⟩ := hdm₁ (by simp [WritesTo, addrData0, addrCommand])
  obtain ⟨sv₂, hsv₂, hdm₂⟩ := data0_runFrom (g := g) (b := b) _
    (not_sreset_of_meets h₂.drives) hidle₁
  rw [hserved₂] at hsv₂
  obtain rfl := List.append_cancel_left hsv₂
  obtain ⟨-, -, hreads⟩ := hdm₂ (by simp [WritesTo, dmiReqRd, dmiReqWr])
  have hanswer : a₂ = v := by
    have hread : a₂ = _ := hreads.1 rfl rfl
    rw [hread, hdata₁]
    rfl
  have hread := (scan_exchanges hq₂ hr₂.state (w := 41) (by rw [hr₂.ireg]; rfl) x h₃).1
  rw [hread, Link.captured, hr₂.ireg]
  change bits (BitVec.extractLsb' 0 41 (_ ++ _ ++ _ ++ _)) = _
  rw [BitVec.extractLsb'_eq_self, haddr₂, hdata₂, hanswer, herr₂, herr₁]

/-- The edges that select the register `dmi` after the reset. -/
def selectDmi : List Tick :=
  ⟨false, false⟩ :: ⟨true, false⟩ :: ⟨true, false⟩ :: ⟨false, false⟩ :: ⟨false, false⟩ ::
    (shiftTicks (bits addrDmi) ++ [⟨true, false⟩, ⟨false, false⟩])

/-- A debugger writes a word to `data0` and reads it back. -/
theorem data0_read_back : ∃ (q : JtagSystem × Session) (is : List JtagInput)
    (tr : List (Tick × Bool)), (observed .thuas true).Reachable Slow q ∧
      Scan .thuas true q (bits 0#41) is tr ∧ ((tr.map Prod.snd).drop 3).take 41 =
        bits (addrData0 ++ 0xcafe#32 ++ BitVec.ofBool false ++ BitVec.ofBool false) := by
  have hlow : ((observed .thuas true).run (wave selectDmi)).1.dtm.tckFf = 0 :=
    (wave_meets rfl selectDmi).2.1
  have hr : Ready ((observed .thuas true).run (wave selectDmi)) :=
    ⟨by decide +kernel, by decide +kernel, by decide +kernel⟩
  obtain ⟨tr₁, h₁⟩ := scan_wave (g := .thuas) (b := true) hlow (fun _ => false)
    (bits (addrData0 ++ 0xcafe#32 ++ dmiReqWr))
  obtain ⟨tr₂, h₂⟩ := scan_wave (g := .thuas) (b := true) h₁.done (fun _ => false)
    (bits (addrData0 ++ 0#32 ++ dmiReqRd))
  obtain ⟨tr₃, h₃⟩ := scan_wave (g := .thuas) (b := true) h₂.done (fun _ => false)
    (bits 0#41)
  refine ⟨_, _, tr₃, ?_, h₃, ?_⟩
  · exact ((wave_reachable selectDmi).runFrom_of_meets (slow_of_meets h₁.drives)).runFrom_of_meets
      (slow_of_meets h₂.drives)
  have hread := data0_round_trip (wave_reachable selectDmi) hr (by decide +kernel) 0xcafe 0 0
    h₁ h₂ h₃
  rw [hread]
  decide +kernel

/-- The edges of the two scans that write a word to `data0` and request it. -/
def writeAndRead : List Tick :=
  selectDmi ++ scanTicks (fun _ => false) (bits (addrData0 ++ 0xcafe#32 ++ dmiReqWr)) ++
    scanTicks (fun _ => false) (bits (addrData0 ++ 0#32 ++ dmiReqRd))

/-- The Debug Module has served the write and then the read, each once. -/
theorem write_and_read_delivered :
    ((observed .thuas true).run (wave writeAndRead)).2.served.map Prod.fst =
      [⟨addrData0, 0xcafe, dmiReqWr⟩, ⟨addrData0, 0, dmiReqRd⟩] := by
  have hupdates : ((observed .thuas true).run (wave writeAndRead)).2.link.updates =
      [(addrDmi, addrData0 ++ 0xcafe#32 ++ dmiReqWr), (addrDmi, addrData0 ++ 0#32 ++ dmiReqRd)] := by
    decide +kernel
  have hunderway : ((observed .thuas true).run (wave writeAndRead)).1.underway = [] := by
    decide +kernel
  obtain ⟨-, -, -, -, hall⟩ := requests_delivered (g := .thuas) (b := true)
    (Machine.reachable_run (wave writeAndRead))
  rw [hupdates, hunderway, List.append_nil] at hall
  have hserved := (hall ?_).1
  · rw [hserved]
    decide
  · intro u hu hreserved
    simp only [List.mem_cons, List.not_mem_nil, or_false] at hu
    rcases hu with rfl | rfl
    · exact absurd hreserved.2 (by decide)
    · exact absurd hreserved.2 (by decide)

end JtagSystem

end ThuasRiscv
