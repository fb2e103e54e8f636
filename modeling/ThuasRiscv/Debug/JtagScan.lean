import ThuasRiscv.Debug.DmiDelivery

/-!
# Scans over the pins

A debugger that leaves TCK low for three clocks before each edge reads, while it
shifts a word into the selected register, the word that this register captured.
The word that it shifts in is the one that is updated.
-/

namespace ThuasRiscv

open Transition ShiftRegister

/-! ## Ticks in a row -/

/-- The state of the TAP after a row of edges. -/
def TapState.after (st : TapState) (ts : List Tick) : TapState :=
  ts.foldl (fun st t => st.next t.tms) st

/-- No edge comes while the TAP updates a data register. -/
def TapState.Plain : TapState → List Tick → Prop
  | _, [] => True
  | st, t :: ts => st ≠ .drUpdate ∧ Plain (st.next t.tms) ts

namespace TapState

theorem after_concat (st : TapState) (ts : List Tick) (t : Tick) :
    st.after (ts ++ [t]) = (st.after ts).next t.tms := List.foldl_append

theorem plain_append (st : TapState) (us vs : List Tick) :
    st.Plain (us ++ vs) ↔ st.Plain us ∧ (st.after us).Plain vs := by
  induction us generalizing st with
  | nil =>
    change Plain st vs ↔ True ∧ Plain st vs
    rw [true_and]
  | cons u us ih =>
    change st ≠ .drUpdate ∧ Plain _ (us ++ vs) ↔ (st ≠ .drUpdate ∧ Plain _ us) ∧ _
    rw [ih, and_assoc]
    rfl

theorem plain_concat (st : TapState) (ts : List Tick) (t : Tick) :
    st.Plain (ts ++ [t]) ↔ st.Plain ts ∧ st.after ts ≠ .drUpdate := by
  rw [plain_append]
  change _ ∧ (_ ∧ True) ↔ _
  rw [and_true]

end TapState

namespace Link

variable (g : DtmGenerics) {l : Link}

def after (l : Link) (ts : List Tick) : Link := ts.foldl (Link.tick g) l

/-- In the shift states, TDO carries the bit that leaves. -/
def Reads : Link → List (Tick × Bool) → Prop
  | _, [] => True
  | l, (t, o) :: tr =>
    ((l.state = .irShift ∨ l.state = .drShift) → o = l.out) ∧ Reads (l.tick g t) tr

/-- All of the link but the data of the last access. -/
def forget (l : Link) : Link := { l with data := 0 }

theorem after_cons (l : Link) (t : Tick) (ts : List Tick) :
    l.after g (t :: ts) = (l.tick g t).after g ts := rfl

theorem after_append (l : Link) (us vs : List Tick) :
    l.after g (us ++ vs) = (l.after g us).after g vs := List.foldl_append

theorem after_concat (l : Link) (ts : List Tick) (t : Tick) :
    l.after g (ts ++ [t]) = (l.after g ts).tick g t := List.foldl_append

theorem after_state (l : Link) (ts : List Tick) : (l.after g ts).state = l.state.after ts := by
  induction ts using List.reverseRecOn with
  | nil => rfl
  | append_singleton ts t ih => rw [after_concat, (tick_tap g _ t).1, ih, TapState.after_concat]

theorem reads_append (l : Link) (us vs : List (Tick × Bool)) :
    Reads g l (us ++ vs) ↔ Reads g l us ∧ Reads g (l.after g (us.map Prod.fst)) vs := by
  induction us generalizing l with
  | nil => simp [Reads, after]
  | cons u us ih =>
    obtain ⟨t, o⟩ := u
    change _ ∧ Reads g _ (us ++ vs) ↔ (_ ∧ Reads g _ us) ∧ _
    rw [ih, and_assoc]
    rfl

/-- Only a capture reads the data of the last access. -/
theorem forget_tick {l l' : Link} (h : l.forget = l'.forget) (t : Tick)
    (hs : l.state = .drUpdate) : (l.tick g t).forget = (l'.tick g t).forget := by
  have hs' : l'.state = .drUpdate := (congrArg Link.state h).symm.trans hs
  have hne : l.state.next t.tms ≠ .drUpdate := by
    rw [hs]
    cases t.tms <;> simp [TapState.next]
  have hne' : l'.state.next t.tms ≠ .drUpdate := hs'.trans hs.symm ▸ hne
  have hmove : ∀ l : Link, l.state = .drUpdate → (l.move g t).forget =
      { l.forget with state := l.forget.state.next t.tms } := by
    intro l hl
    simp [move, forget, hl]
  rw [tick_of_ne hne, tick_of_ne hne', hmove l hs, hmove l' hs', h]

end Link

/-! ## The session in a row of clocks -/

namespace JtagSystem

variable {g : DtmGenerics} {b : Bool} {s : JtagSystem} {i : JtagInput} {p : Session}

theorem Follows.answered_eq (h : Follows s p) (hs : p.link.state ≠ .drUpdate) :
    s.answered i p.link = p.link := by
  cases h.phase with
  | settled hs' => exact answered_of_nop hs'.op _
  | updating l hu => exact answered_of_nop hu.op _
  | requesting hq => exact absurd (h.state.symm.trans hq.state) hs
  | answering ha => exact answered_of_nop ha.op _

theorem forget_answered (l : Link) : (s.answered i l).forget = l.forget := by
  rw [answered]
  split_ifs <;> rfl

/-- In a shift state, TDO has the bit that leaves once TCK has fallen. -/
theorem tdo_eq {q : JtagSystem × Session} (h : (observed g b).Reachable Machine.free q)
    (hs : q.2.link.state = .irShift ∨ q.2.link.state = .drShift)
    (hlow : q.1.dtm.tckFf.getLsbD 2 = false) : q.1.dtm.tdo = q.2.link.out := by
  induction h with
  | init => simp [observed, Machine.observe, Session.initial, Link.initial] at hs
  | @step q i hq _ ih =>
    change (q.1.watch g i q.2).link.state = _ ∨ (q.1.watch g i q.2).link.state = _ at hs
    change (q.1.step g b i).dtm.tckFf.getLsbD 2 = _ at hlow
    change (q.1.step g b i).dtm.tdo = (q.1.watch g i q.2).link.out
    cases hr : i.sreset with
    | true =>
      rw [watch, if_pos hr] at hs
      simp [Link.initial] at hs
    | false =>
      have hf := follows_of_reachable hq
      have hdtm : (q.1.step g b i).dtm = q.1.dtm.clock g (q.1.dtmInput i) := step_eq hr
      rw [hdtm, Dtm.tckFf_clock.1] at hlow
      have hrise : q.1.dtm.tckRise = false := by
        rw [tckRise_eq, hlow, Bool.false_and]
      have hlink : (q.1.watch g i q.2).link = q.1.answered i q.2.link := by
        rw [watch_link hr, hrise, if_neg Bool.false_ne_true]
      have hstate : (q.1.watch g i q.2).link.state = q.2.link.state := by
        rw [hlink, (answered_tap _).1]
      rw [hstate] at hs
      have hne : q.2.link.state ≠ .drUpdate := by
        intro heq
        simp [heq] at hs
      have hireg : q.1.dtm.ireg = q.2.link.ireg := by
        apply hf.ireg <;> intro heq <;> simp [heq] at hs
      have hdreg : q.1.dtm.dreg = q.2.link.dreg := by
        apply hf.dreg
        intro heq
        simp [heq] at hs
      rw [hlink, hf.answered_eq hne, hdtm]
      change q.1.dtm.nextTdo = _
      rw [Dtm.nextTdo]
      cases hfall : q.1.dtm.tckFall with
      | false =>
        have hlow2 : q.1.dtm.tckFf.getLsbD 2 = false := by
          apply Bool.eq_false_iff.mpr
          intro hhigh
          rw [Dtm.tckFall_iff.mpr ⟨hhigh, hlow⟩] at hfall
          cases hfall
        exact ih hs hlow2
      | true =>
        rw [if_pos rfl, hf.state, hireg, Dtm.dregOut, hireg, hdreg, Link.out]
        rcases hs with hs | hs <;> simp [hs]

/-- With slow edges TDO is stable from an edge on the pins until the TAP has seen it. -/
theorem driven_eq_of_slow {q : JtagSystem × Session} (h : (observed g b).Reachable Slow q) :
    q.2.driven = q.2.ticks ++ q.1.inSync ∧
      (q.1.dtm.tckFf.getLsbD 0 = true → q.1.dtm.tckFf.getLsbD 1 = false →
        q.1.dtm.tckFf.getLsbD 2 = false) := by
  induction h with
  | init =>
    change [] = [] ++ inSync ⟨.reset, .reset⟩ ∧ (Dtm.reset.tckFf.getLsbD 0 = true →
      Dtm.reset.tckFf.getLsbD 1 = false → Dtm.reset.tckFf.getLsbD 2 = false)
    decide
  | @step q i hq hslow ih =>
    change (q.1.watch g i q.2).driven = (q.1.watch g i q.2).ticks ++ (q.1.step g b i).inSync ∧
      ((q.1.step g b i).dtm.tckFf.getLsbD 0 = true →
        (q.1.step g b i).dtm.tckFf.getLsbD 1 = false →
        (q.1.step g b i).dtm.tckFf.getLsbD 2 = false)
    cases hr : i.sreset with
    | true =>
      have hs : q.1.step g b i = ⟨.reset, .reset⟩ := by
        rw [step, Dtm.step, Dm.step]
        simp [dtmInput, dmInput, hr]
      rw [watch, if_pos hr, hs]
      decide
    | false =>
      have hdtm : (q.1.step g b i).dtm = q.1.dtm.clock g (q.1.dtmInput i) := step_eq hr
      obtain ⟨h2, h1, h0⟩ := Dtm.tckFf_clock (g := g) (s := q.1.dtm) (i := q.1.dtmInput i)
      rw [hdtm, h2, h1, h0]
      constructor
      · have hpending : q.1.dtm.tckFall = true → q.1.drives i = false ∧
            (q.1.dtm.tckFf.getLsbD 0 && !q.1.dtm.tckFf.getLsbD 1) = false := by
          intro hfall
          have hhigh := (Dtm.tckFall_iff.mp hfall).1
          constructor
          · apply Bool.eq_false_iff.mpr
            intro hd
            rw [hslow hd] at hhigh
            cases hhigh
          · apply Bool.eq_false_iff.mpr
            intro hp
            rw [Bool.and_eq_true, Bool.not_eq_true'] at hp
            rw [ih.2 hp.1 hp.2] at hhigh
            cases hhigh
        rw [watch_driven hr, watch_ticks hr, inSync_step hr, ih.1, inSync_eq]
        cases hfall : q.1.dtm.tckFall with
        | true =>
          rw [(hpending hfall).1, (hpending hfall).2]
          simp
        | false => simp only [Dtm.nextTdo, hfall, if_neg Bool.false_ne_true, List.append_assoc]
      · intro hck hlow
        have hdrives : q.1.drives i = true := by
          rw [drives, hlow]
          exact (Bool.and_true _).trans hck
        rw [hslow hdrives]
        rfl

theorem plain_dropLast {st : TapState} {ts : List Tick} (h : st.Plain ts) :
    st.Plain ts.dropLast := by
  induction ts using List.reverseRecOn with
  | nil => exact h
  | append_singleton ts t _ =>
    rw [List.dropLast_concat]
    exact ((TapState.plain_concat st ts t).mp h).1

/-- In a row of clocks the link moves by the edges that the TAP sees. While a data register is
updated, the answer of the Debug Module comes in too. -/
theorem link_runFrom {q : JtagSystem × Session} (hq : (observed g b).Reachable Machine.free q)
    {is : List JtagInput} (his : ∀ i ∈ is, i.sreset = false) :
    ∃ tr, ((observed g b).runFrom q is).2.ticks = q.2.ticks ++ tr ∧
      (q.2.link.state.Plain (tr.map Prod.fst) →
        q.2.link.state.after (tr.map Prod.fst) ≠ .drUpdate →
        ((observed g b).runFrom q is).2.link = q.2.link.after g (tr.map Prod.fst)) ∧
      (q.2.link.state.Plain (tr.map Prod.fst).dropLast →
        ((observed g b).runFrom q is).2.link.forget =
          (q.2.link.after g (tr.map Prod.fst)).forget ∧ q.2.link.Reads g tr) := by
  induction is using List.reverseRecOn with
  | nil => exact ⟨[], (List.append_nil _).symm, fun _ _ => rfl, fun _ => ⟨rfl, trivial⟩⟩
  | append_singleton is i ih =>
    obtain ⟨tr, hticks, hexact, hforget⟩ := ih fun j hj => his j (List.mem_append_left _ hj)
    have hr : i.sreset = false := his i (by simp)
    have hq' := hq.runFrom is
    rw [Machine.runFrom_append]
    generalize (observed g b).runFrom q is = q' at hticks hexact hforget hq' ⊢
    change ∃ tr, (q'.1.watch g i q'.2).ticks = _ ∧ _
    have hf := follows_of_reachable hq'
    have hlink : (q'.1.watch g i q'.2).link = _ := watch_link hr
    have hexact' : q.2.link.state.Plain (tr.map Prod.fst) →
        q.2.link.state.after (tr.map Prod.fst) ≠ .drUpdate →
        q'.1.answered i q'.2.link = q.2.link.after g (tr.map Prod.fst) := by
      intro hplain hne
      rw [hf.answered_eq, hexact hplain hne]
      rw [hexact hplain hne, Link.after_state]
      exact hne
    cases hrise : q'.1.dtm.tckRise with
    | false =>
      rw [hrise, if_neg Bool.false_ne_true] at hlink
      refine ⟨tr, ?_, ?_, ?_⟩
      · rw [watch_ticks hr, hrise, hticks]
        simp
      · intro hplain hne
        exact hlink.trans (hexact' hplain hne)
      · intro hplain
        constructor
        · change (q'.1.watch g i q'.2).link.forget = _
          rw [hlink, forget_answered, (hforget hplain).1]
        · exact (hforget hplain).2
    | true =>
      rw [hrise, if_pos rfl] at hlink
      refine ⟨tr ++ [(q'.1.tick, q'.1.dtm.tdo)], ?_, ?_, ?_⟩
      · rw [watch_ticks hr, hrise, hticks, if_pos rfl, List.append_assoc]
      · intro hplain _
        rw [List.map_append] at hplain ⊢
        obtain ⟨hp, hne⟩ := (TapState.plain_concat _ _ _).mp hplain
        change (q'.1.watch g i q'.2).link = q.2.link.after g (_ ++ [q'.1.tick])
        rw [hlink, hexact' hp hne, Link.after_concat]
      · rw [List.map_append]
        intro hplain
        change q.2.link.state.Plain (_ ++ [q'.1.tick]).dropLast at hplain
        rw [List.dropLast_concat] at hplain
        obtain ⟨hf', hreads⟩ := hforget (plain_dropLast hplain)
        have hst : q'.2.link.state = (q.2.link.after g (tr.map Prod.fst)).state := by
          have hstate := congrArg Link.state hf'
          exact hstate
        constructor
        · change (q'.1.watch g i q'.2).link.forget = (q.2.link.after g (_ ++ [q'.1.tick])).forget
          rw [hlink, Link.after_concat]
          by_cases hup : q.2.link.state.after (tr.map Prod.fst) = .drUpdate
          · apply Link.forget_tick
            · rw [forget_answered, hf']
            · rw [(answered_tap _).1, hst, Link.after_state]
              exact hup
          · rw [hexact' hplain hup]
        · rw [Link.reads_append]
          refine ⟨hreads, fun hs => ?_, trivial⟩
          have hup : q.2.link.state.after (tr.map Prod.fst) ≠ .drUpdate := by
            rw [← Link.after_state g]
            intro heq
            simp [heq] at hs
          rw [← hexact hplain hup]
          apply tdo_eq hq'
          · rw [hst]
            exact hs
          · exact (Dtm.tckRise_iff.mp hrise).1

end JtagSystem

/-! ## A scan of a data register -/

/-- The edges that shift bits in; the last one leaves the shift state. -/
def shiftTicks : List Bool → List Tick
  | [] => []
  | [b] => [⟨true, b⟩]
  | b :: bs => ⟨false, b⟩ :: shiftTicks bs

/-- The edges of a scan, from the idle state and back to it. Outside the shift state TDI is free. -/
def scanTicks (pad : ℕ → Bool) (bs : List Bool) : List Tick :=
  ⟨true, pad 0⟩ :: ⟨false, pad 1⟩ :: ⟨false, pad 2⟩ :: (shiftTicks bs ++
    [⟨true, pad 3⟩, ⟨false, pad 4⟩])

theorem shiftTicks_cons_cons (b c : Bool) (bs : List Bool) :
    shiftTicks (b :: c :: bs) = ⟨false, b⟩ :: shiftTicks (c :: bs) := rfl

theorem length_shiftTicks (bs : List Bool) : (shiftTicks bs).length = bs.length := by
  induction bs with
  | nil => rfl
  | cons b bs ih =>
    cases bs with
    | nil => rfl
    | cons c bs =>
      rw [shiftTicks_cons_cons, List.length_cons, ih, List.length_cons, List.length_cons,
        List.length_cons]

theorem TapState.plain_shiftTicks (bs : List Bool) : TapState.drShift.Plain (shiftTicks bs) := by
  induction bs with
  | nil => trivial
  | cons b bs ih =>
    cases bs with
    | nil => exact ⟨by decide, trivial⟩
    | cons c bs => exact ⟨by decide, ih⟩

theorem TapState.drShift_after {bs : List Bool} (hbs : bs ≠ []) :
    TapState.drShift.after (shiftTicks bs) = .drExit1 := by
  induction bs with
  | nil => exact absurd rfl hbs
  | cons b bs ih =>
    cases bs with
    | nil => rfl
    | cons c bs => exact ih (by simp)

namespace Link

variable {g : DtmGenerics} {l : Link}

/-- While bits are shifted in, the captured ones come out. -/
theorem after_shiftTicks (hl : l.state = .drShift) {bs : List Bool} (hbs : bs ≠ [])
    {tr : List (Tick × Bool)} (htr : tr.map Prod.fst = shiftTicks bs) (hreads : l.Reads g tr) :
    l.after g (shiftTicks bs) = { l with state := .drExit1, dreg := shiftsIn bs l.dreg } ∧
      tr.map Prod.snd = leaving (40 - (registerSize l.ireg - 1)) bs l.dreg := by
  induction bs generalizing l tr with
  | nil => exact absurd rfl hbs
  | cons b bs ih =>
    obtain ⟨⟨t, o⟩, tr, rfl⟩ : ∃ x tr', tr = x :: tr' := by
      cases tr with
      | nil => cases bs <;> cases htr
      | cons x tr' => exact ⟨x, tr', rfl⟩
    have hout : o = l.dreg.getLsbD (40 - (registerSize l.ireg - 1)) := by
      rw [hreads.1 (.inr hl), out, hl]
      rfl
    have htick : ∀ tms, l.tick g ⟨tms, b⟩ =
        { l with state := TapState.drShift.next tms, dreg := shiftIn b l.dreg } := by
      intro tms
      have hne : l.state.next tms ≠ .drUpdate := by
        rw [hl]
        cases tms <;> decide
      rw [tick_of_ne hne]
      simp [move, hl]
    cases bs with
    | nil =>
      rw [List.map_cons, shiftTicks, List.cons_eq_cons] at htr
      have hnil : tr = [] := List.map_eq_nil_iff.mp htr.2
      subst hnil
      constructor
      · exact htick true
      · rw [hout]
        rfl
    | cons c bs =>
      rw [List.map_cons, shiftTicks_cons_cons, List.cons_eq_cons] at htr
      have hhead : t = ⟨false, b⟩ := htr.1
      have hreads' : (l.tick g ⟨false, b⟩).Reads g tr := hhead ▸ hreads.2
      have hstay : TapState.drShift.next false = .drShift := rfl
      rw [htick, hstay] at hreads'
      obtain ⟨hafter, hleaving⟩ := ih (l := { l with state := .drShift, dreg := shiftIn b l.dreg })
        rfl (by simp) htr.2 hreads'
      dsimp only at hafter hleaving
      constructor
      · rw [shiftTicks_cons_cons, after_cons, htick, hstay, hafter, shiftsIn_cons b]
      · rw [List.map_cons, hleaving, hout, leaving_cons _ b]

/-- The link after a scan that brings in `bs`. -/
def scanned (g : DtmGenerics) (l : Link) (bs : List Bool) : Link :=
  { ({ l with
      state := .drUpdate
      dreg := shiftsIn bs (l.captured g) } : Link).logged.update with state := .runIdle }

/-- An edge outside the capture and shift states. -/
theorem tick_of_still {st : TapState} {t : Tick}
    (hst : st = .runIdle ∨ st = .drScan ∨ st = .drExit1 ∨ st = .drUpdate)
    (hne : st.next t.tms ≠ .drUpdate) (l : Link) :
    ({ l with state := st } : Link).tick g t = { l with state := st.next t.tms } := by
  rw [tick_of_ne hne]
  rcases hst with rfl | rfl | rfl | rfl <;> simp [move]

/-- A scan from the idle state. -/
theorem after_scanTicks (hl : l.state = .runIdle) {pad : ℕ → Bool} {bs : List Bool} (hbs : bs ≠ [])
    {tr : List (Tick × Bool)} (htr : tr.map Prod.fst = scanTicks pad bs) (hreads : l.Reads g tr) :
    l.after g (scanTicks pad bs) = l.scanned g bs ∧ ((tr.map Prod.snd).drop 3).take bs.length =
      leaving (40 - (registerSize l.ireg - 1)) bs (l.captured g) := by
  obtain ⟨x₁, tr₁, rfl, h₁, htr₁⟩ := List.map_eq_cons_iff.mp htr
  obtain ⟨x₂, tr₂, rfl, h₂, htr₂⟩ := List.map_eq_cons_iff.mp htr₁
  obtain ⟨x₃, tr₃, rfl, h₃, htr₃⟩ := List.map_eq_cons_iff.mp htr₂
  obtain ⟨shifts, rest, rfl, hshifts, hrest⟩ := List.map_eq_append_iff.mp htr₃
  have hl' : l = { l with state := .runIdle } := by rw [← hl]
  have hscan : l.tick g x₁.1 = { l with state := .drScan } := by
    rw [h₁, hl']
    exact tick_of_still (.inl rfl) (by simp [TapState.next]) _
  have hcapture : (l.tick g x₁.1).tick g x₂.1 = { l with state := .drCapture } := by
    rw [hscan, h₂]
    exact tick_of_still (.inr (.inl rfl)) (by simp [TapState.next]) _
  have hshift : ((l.tick g x₁.1).tick g x₂.1).tick g x₃.1 =
      { l with state := .drShift, dreg := l.captured g } := by
    rw [hcapture, h₃, tick_of_ne (by simp [TapState.next])]
    rfl
  have hreads' : (((l.tick g x₁.1).tick g x₂.1).tick g x₃.1).Reads g (shifts ++ rest) :=
    hreads.2.2.2
  rw [hshift, reads_append] at hreads'
  obtain ⟨hafter, hleaving⟩ := after_shiftTicks
    (l := { l with state := .drShift, dreg := l.captured g }) rfl hbs hshifts hreads'.1
  dsimp only at hafter hleaving
  constructor
  · rw [h₁] at hshift
    rw [h₂] at hshift
    rw [h₃] at hshift
    rw [scanTicks, after_cons, after_cons, after_cons, hshift, after_append, hafter, after_cons,
      tick_of_eq rfl, after_cons]
    have hmove : ({ l with state := .drExit1, dreg := shiftsIn bs (l.captured g) } : Link).move g
        ⟨true, pad 3⟩ = { l with state := .drUpdate, dreg := shiftsIn bs (l.captured g) } := rfl
    rw [hmove]
    have hstate := (update_tap ({ l with
      state := .drUpdate
      dreg := shiftsIn bs (l.captured g) } : Link).logged).1
    change _ = TapState.drUpdate at hstate
    have hself : ∀ m : Link, m.state = .drUpdate → m.tick g ⟨false, pad 4⟩ =
        { m with state := .runIdle } := by
      intro m hm
      have hm' : m = { m with state := .drUpdate } := by rw [← hm]
      rw [hm']
      exact tick_of_still (.inr (.inr (.inr rfl))) (by simp [TapState.next]) m
    exact hself _ hstate
  · have hlen : shifts.length = bs.length := by
      rw [← List.length_map (f := Prod.fst), hshifts, length_shiftTicks]
    rw [← hleaving, List.map_cons, List.map_cons, List.map_cons, List.map_append]
    simp [← hlen]

end Link

theorem TapState.plain_scanTicks (pad : ℕ → Bool) {bs : List Bool} (hbs : bs ≠ []) :
    TapState.runIdle.Plain (scanTicks pad bs).dropLast := by
  have hlast : scanTicks pad bs = (⟨true, pad 0⟩ :: ⟨false, pad 1⟩ :: ⟨false, pad 2⟩ ::
      (shiftTicks bs ++ [⟨true, pad 3⟩])) ++ [⟨false, pad 4⟩] := by simp [scanTicks]
  rw [hlast, List.dropLast_concat]
  refine ⟨by simp, by simp [TapState.next], by simp [TapState.next], ?_⟩
  change TapState.drShift.Plain _
  rw [TapState.plain_concat, TapState.drShift_after hbs]
  exact ⟨TapState.plain_shiftTicks bs, by simp⟩

namespace Link

variable {g : DtmGenerics} {l : Link}

theorem length_captured_field {w : ℕ} (hw : registerSize l.ireg = w) : 1 ≤ w ∧ w ≤ 41 := by
  rw [← hw, registerSize]
  split_ifs <;> decide

/-- A word as long as the selected register: the captured word comes out, and the top of the data
register holds the new one. -/
theorem scanned_word {w : ℕ} (hw : registerSize l.ireg = w) (x : BitVec w) :
    leaving (40 - (registerSize l.ireg - 1)) (bits x) (l.captured g) =
      bits ((l.captured g).extractLsb' (41 - w) w) ∧
    (shiftsIn (bits x) (l.captured g)).extractLsb' (41 - w) w = x := by
  obtain ⟨hpos, hle⟩ := length_captured_field hw
  constructor
  · have hfrom : 40 - (w - 1) = 40 + 1 - w := by omega
    rw [hw, hfrom]
    exact leaving_eq_bits (l.captured g) (length_bits x) hle
  · ext k hk
    rw [← BitVec.getLsbD_eq_getElem, ← BitVec.getLsbD_eq_getElem, BitVec.getLsbD_extractLsb',
      decide_eq_true hk, Bool.true_and]
    exact getLsbD_shiftsIn_bits x (l.captured g) hk hle

theorem scanned_tap (bs : List Bool) : (l.scanned g bs).state = .runIdle ∧
    (l.scanned g bs).ireg = l.ireg ∧
    (l.scanned g bs).updates = l.updates ++ [(l.ireg, shiftsIn bs (l.captured g))] := by
  refine ⟨rfl, (update_tap _).2.1, ?_⟩
  rw [scanned]
  exact updates_update _

end Link

namespace JtagSystem

variable {g : DtmGenerics} {b : Bool}

/-- A clock has no reset, and its edge is slow. -/
def Drives (q : JtagSystem × Session) (i : JtagInput) : Prop := i.sreset = false ∧ Slow q i

instance (q : JtagSystem × Session) (i : JtagInput) : Decidable (Drives q i) :=
  inferInstanceAs (Decidable (_ ∧ _))

theorem not_sreset_of_meets {q : JtagSystem × Session} {is : List JtagInput}
    (h : (observed g b).Meets Drives q is) : ∀ i ∈ is, i.sreset = false := by
  induction is generalizing q with
  | nil => simp
  | cons i is ih =>
    intro j hj
    rcases List.mem_cons.mp hj with rfl | hmem
    · exact h.1.1
    · exact ih h.2 j hmem

theorem slow_of_meets {q : JtagSystem × Session} {is : List JtagInput}
    (h : (observed g b).Meets Drives q is) : (observed g b).Meets Slow q is := by
  induction is generalizing q with
  | nil => trivial
  | cons i is ih => exact ⟨h.1.2, ih h.2⟩

theorem inSync_of_low {s : JtagSystem} (h : s.dtm.tckFf = 0) : s.inSync = [] := by
  simp [inSync, h]

/-- A scan on the pins, with TDO as the debugger reads it before each edge. -/
structure Scan (g : DtmGenerics) (b : Bool) (q : JtagSystem × Session) (bs : List Bool)
    (is : List JtagInput) (tr : List (Tick × Bool)) : Prop where
  low : q.1.dtm.tckFf = 0
  drives : (observed g b).Meets Drives q is
  driven : ((observed g b).runFrom q is).2.driven = q.2.driven ++ tr
  ticks : ∃ pad, tr.map Prod.fst = scanTicks pad bs
  done : ((observed g b).runFrom q is).1.dtm.tckFf = 0

/-- The link after a scan on the pins; the data are those of the last answer. -/
theorem Scan.link {q : JtagSystem × Session} {bs : List Bool} {is : List JtagInput}
    {tr : List (Tick × Bool)} (h : Scan g b q bs is tr)
    (hq : (observed g b).Reachable Slow q) (hidle : q.2.link.state = .runIdle) (hbs : bs ≠ []) :
    ((observed g b).runFrom q is).2.link.forget = (q.2.link.scanned g bs).forget ∧
    ((tr.map Prod.snd).drop 3).take bs.length =
      leaving (40 - (registerSize q.2.link.ireg - 1)) bs (q.2.link.captured g) := by
  have hfree : (observed g b).Reachable Machine.free q := hq.mono fun _ _ _ => trivial
  obtain ⟨pad, htr⟩ := h.ticks
  have hstart : q.2.driven = q.2.ticks := by
    rw [(driven_eq_of_slow hq).1, inSync_of_low h.low, List.append_nil]
  have hend := (driven_eq_of_slow (hq.runFrom_of_meets (slow_of_meets h.drives))).1
  rw [inSync_of_low h.done, List.append_nil, h.driven, hstart] at hend
  obtain ⟨tr', hticks, -, hforget⟩ := link_runFrom hfree (not_sreset_of_meets h.drives)
  rw [hticks] at hend
  obtain rfl := List.append_cancel_left hend
  rw [htr, hidle] at hforget
  obtain ⟨hlink, hreads⟩ := hforget (TapState.plain_scanTicks pad hbs)
  obtain ⟨hafter, hout⟩ := Link.after_scanTicks hidle hbs htr hreads
  rw [hafter] at hlink
  exact ⟨hlink, hout⟩

/-! ## The fastest waveform -/

/-- TCK is high for one clock and low for three clocks. -/
def wave (ts : List Tick) : List JtagInput :=
  ts.flatMap fun t => [pins true t, pins false t, pins false t, pins false t]

theorem tckFf_next (q : JtagSystem × Session) (tck : Bool) (t : Tick) :
    ((observed g b).next q (pins tck t)).1.dtm.tckFf =
      q.1.dtm.tckFf.extractLsb' 0 2 ++ BitVec.ofBool tck := by
  change (q.1.step g b (pins tck t)).dtm.tckFf = _
  rw [step_eq rfl]
  rfl

theorem driven_next (q : JtagSystem × Session) (tck : Bool) (t : Tick) :
    ((observed g b).next q (pins tck t)).2.driven =
      q.2.driven ++ if tck && !q.1.dtm.tckFf.getLsbD 0 then [(t, q.1.dtm.tdo)] else [] :=
  watch_driven (s := q.1) (i := pins tck t) rfl

theorem wave_meets {q : JtagSystem × Session} (hq : q.1.dtm.tckFf = 0) (ts : List Tick) :
    (observed g b).Meets Drives q (wave ts) ∧
      ((observed g b).runFrom q (wave ts)).1.dtm.tckFf = 0 ∧
      ∃ tr, ((observed g b).runFrom q (wave ts)).2.driven = q.2.driven ++ tr ∧
        tr.map Prod.fst = ts := by
  induction ts generalizing q with
  | nil => exact ⟨trivial, hq, [], (List.append_nil _).symm, rfl⟩
  | cons t ts ih =>
    have h₁ := tckFf_next (g := g) (b := b) q true t
    have h₂ := tckFf_next (g := g) (b := b) ((observed g b).next q (pins true t)) false t
    have h₃ := tckFf_next (g := g) (b := b) ((observed g b).next
      ((observed g b).next q (pins true t)) (pins false t)) false t
    have h₄ := tckFf_next (g := g) (b := b) ((observed g b).next ((observed g b).next
      ((observed g b).next q (pins true t)) (pins false t)) (pins false t)) false t
    rw [hq] at h₁
    rw [h₁] at h₂
    rw [h₂] at h₃
    rw [h₃] at h₄
    obtain ⟨hmeets, hlow, tr, hdriven, htr⟩ := ih (h₄.trans (by decide))
    have hfalse : ∀ q' : JtagSystem × Session, Drives q' (pins false t) :=
      fun q' => ⟨rfl, fun hd => by simp [drives, pins] at hd⟩
    refine ⟨⟨⟨rfl, fun _ => hq⟩, hfalse _, hfalse _, hfalse _, hmeets⟩, hlow,
      (t, q.1.dtm.tdo) :: tr, ?_, ?_⟩
    · refine hdriven.trans ?_
      rw [driven_next, driven_next, driven_next, driven_next, hq]
      simp
    · rw [List.map_cons, htr]

/-- Every word can be scanned. -/
theorem scan_wave {q : JtagSystem × Session} (hq : q.1.dtm.tckFf = 0) (pad : ℕ → Bool)
    (bs : List Bool) : ∃ tr, Scan g b q bs (wave (scanTicks pad bs)) tr := by
  obtain ⟨hmeets, hlow, tr, hdriven, htr⟩ := wave_meets (g := g) (b := b) hq (scanTicks pad bs)
  exact ⟨tr, hq, hmeets, hdriven, ⟨pad, htr⟩, hlow⟩

theorem wave_reachable (ts : List Tick) :
    (observed g b).Reachable Slow ((observed g b).run (wave ts)) :=
  Machine.Reachable.init.runFrom_of_meets (slow_of_meets (wave_meets rfl ts).1)

/-- A scan with slow edges exchanges the word in the selected register: the debugger reads what the
register captured, and exactly the word that it shifted in is updated. -/
theorem scan_exchanges {q : JtagSystem × Session} (hq : (observed g b).Reachable Slow q)
    (hidle : q.2.link.state = .runIdle) {w : ℕ} (hw : registerSize q.2.link.ireg = w) (x : BitVec w)
    {is : List JtagInput} {tr : List (Tick × Bool)} (h : Scan g b q (bits x) is tr) :
    ((tr.map Prod.snd).drop 3).take w = bits ((q.2.link.captured g).extractLsb' (41 - w) w) ∧
    (∃ d : BitVec 41, d.extractLsb' (41 - w) w = x ∧
      ((observed g b).runFrom q is).2.link.updates =
        q.2.link.updates ++ [(q.2.link.ireg, d)]) ∧
    ((observed g b).runFrom q is).2.link.state = .runIdle ∧
    ((observed g b).runFrom q is).2.link.ireg = q.2.link.ireg := by
  have hpos := (Link.length_captured_field hw).1
  have hbs : bits x ≠ [] := by
    intro hnil
    have hlen := length_bits x
    rw [hnil, List.length_nil] at hlen
    omega
  obtain ⟨hlink, hout⟩ := h.link hq hidle hbs
  obtain ⟨hleaving, hword⟩ := Link.scanned_word (g := g) hw x
  obtain ⟨hstate, hireg, hupdates⟩ := q.2.link.scanned_tap (g := g) (bits x)
  rw [length_bits, hleaving] at hout
  refine ⟨hout, ⟨_, hword, ?_⟩, ?_, ?_⟩
  · rw [← hupdates]
    have hfield := congrArg Link.updates hlink
    exact hfield
  · rw [← hstate]
    have hfield := congrArg Link.state hlink
    exact hfield
  · rw [← hireg]
    have hfield := congrArg Link.ireg hlink
    exact hfield

/-- After the reset, the identification of the processor is shifted out. -/
theorem idcode_read : ∃ tr, Scan .thuas false ((observed .thuas false).run (wave [⟨false, false⟩]))
    (bits 0#32) (wave (scanTicks (fun _ => false) (bits 0#32))) tr ∧
    ((tr.map Prod.snd).drop 3).take 32 = bits 0x0face001#32 := by
  obtain ⟨tr, h⟩ := scan_wave (g := .thuas) (b := false)
    (q := (observed .thuas false).run (wave [⟨false, false⟩]))
    (wave_meets rfl [⟨false, false⟩]).2.1 (fun _ => false) (bits 0#32)
  refine ⟨tr, h, ?_⟩
  have hread := (scan_exchanges (wave_reachable [⟨false, false⟩]) (by decide +kernel)
    (w := 32) (by decide +kernel) 0#32 h).1
  rw [hread]
  decide +kernel

end JtagSystem

end ThuasRiscv
