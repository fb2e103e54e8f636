import ThuasRiscv.Core.Csr

/-!
# What one clock leaves in single registers

The chain of updates in the CSR process, read off for the registers that the
control flow depends on: `mstatus`, `mepc`, `dcsr` and `dpc`.
-/

namespace ThuasRiscv

theorem setBit_eq_self {x : DataType} {n : ℕ} (hn : n < 32) (h : x.getLsbD n = false) :
    setBit x n false = x := by
  apply BitVec.eq_of_getLsbD_eq
  intro j _
  rw [getLsbD_setBit _ hn]
  split_ifs with hj
  · rw [hj, h]
  · rfl

theorem getLsbD_mepcOf_zero (pc : DataType) : (mepcOf pc).getLsbD 0 = false := by
  rw [mepcOf, getLsbD_setBit _ (by decide), if_neg (by decide), getLsbD_setBit _ (by decide),
    if_pos rfl]

theorem getLsbD_mepcOf_one (pc : DataType) : (mepcOf pc).getLsbD 1 = false := by
  rw [mepcOf, getLsbD_setBit _ (by decide), if_pos rfl]

theorem mepcOf_eq_self {pc : DataType} (h0 : pc.getLsbD 0 = false) (h1 : pc.getLsbD 1 = false) :
    mepcOf pc = pc := by
  rw [mepcOf, setBit_eq_self (by decide) h0, setBit_eq_self (by decide) h1]

theorem mepcOf_mepcOf (pc : DataType) : mepcOf (mepcOf pc) = mepcOf pc :=
  mepcOf_eq_self (getLsbD_mepcOf_zero pc) (getLsbD_mepcOf_one pc)

/-- The Debug Module writes a CSR. -/
def CsrSignals.debugWrites (cfg : Generics) (g : CsrSignals) : Bool :=
  g.indebug && g.writecsr && cfg.haveOcd

namespace CsrReg

variable (cfg : Generics) (c : CsrReg) (g : CsrSignals)

/-- The registers after the writes of this clock, before the hard wired bits and the traps. -/
def written : CsrReg :=
  let n := c.countUp cfg g.instret g.event
  let n := if g.writes then
      n.writeBack g.addr (csrOperate g.op g.dataout g.immrs1 (c.content g.dontCare g.addr))
    else n
  let n := n.loadCause cfg g.dcsrCause
  let n := if g.loadDpc && cfg.haveOcd then { n with dpc := g.trap.pc } else n
  if g.indebug && g.writecsr && cfg.haveOcd then n.debugWrite g.addr g.debugData else n

theorem next_eq : c.next cfg g =
    let n := (c.written cfg g).hardwire cfg
    let n := if g.entersTrap then c.trapEntry n g.trap
      else if g.trapRelease then c.trapRelease n else n
    { n with mepc := mepcOf n.mepc } := rfl

/-! ## One register at a time -/

/-- A field of a chain of alternatives that all agree on it. -/
theorem field_ite {β : Type*} (f : CsrReg → β) {p : Prop} [Decidable p] {x y : CsrReg} {b : β}
    (hx : p → f x = b) (hy : f y = b) : f (if p then x else y) = b := by
  by_cases h : p
  · rw [if_pos h, hx h]
  · rw [if_neg h, hy]

theorem writeBack_mstatus (addr : CsrAddr) (v : DataType) :
    (c.writeBack addr v).mstatus = if addr = mstatusAddr then v else c.mstatus := by
  by_cases h : addr = mstatusAddr
  · subst h
    rfl
  · rw [if_neg h]
    unfold writeBack
    repeat refine field_ite mstatus (fun h' => by first | rfl | exact absurd h' h) ?_
    split <;> (try split) <;> (try split) <;> rfl

theorem writeBack_mepc (addr : CsrAddr) (v : DataType) :
    (c.writeBack addr v).mepc = if addr = mepcAddr then v else c.mepc := by
  by_cases h : addr = mepcAddr
  · subst h
    rfl
  · rw [if_neg h]
    unfold writeBack
    repeat refine field_ite mepc (fun h' => by first | rfl | exact absurd h' h) ?_
    split <;> (try split) <;> (try split) <;> rfl

theorem writeBack_dpc (addr : CsrAddr) (v : DataType) : (c.writeBack addr v).dpc = c.dpc := by
  unfold writeBack
  repeat refine field_ite dpc (fun _ => rfl) ?_
  split <;> (try split) <;> (try split) <;> rfl

/-- A register that has no write of its own in debug mode is written as by an instruction. -/
theorem debugWrite_field {β : Type*} (f : CsrReg → β) {a addr : CsrAddr} {v : DataType} {b : β}
    (ha : a ≠ dcsrAddr ∧ a ≠ dpcAddr) (hdcsr : f { c with dcsr := v } = f c)
    (hdpc : f { c with dpc := v } = f c)
    (hw : f (c.writeBack addr v) = if addr = a then b else f c) :
    f (c.debugWrite addr v) = if addr = a then b else f c := by
  rw [debugWrite]
  by_cases h1 : addr = dcsrAddr
  · rw [if_pos h1, hdcsr, if_neg (by rw [h1]; exact ha.1.symm)]
  · rw [if_neg h1]
    by_cases h2 : addr = dpcAddr
    · rw [if_pos h2, hdpc, if_neg (by rw [h2]; exact ha.2.symm)]
    · rw [if_neg h2, hw]

theorem debugWrite_mstatus (addr : CsrAddr) (v : DataType) :
    (c.debugWrite addr v).mstatus = if addr = mstatusAddr then v else c.mstatus :=
  c.debugWrite_field mstatus (by decide) rfl rfl (c.writeBack_mstatus addr v)

theorem debugWrite_mepc (addr : CsrAddr) (v : DataType) :
    (c.debugWrite addr v).mepc = if addr = mepcAddr then v else c.mepc :=
  c.debugWrite_field mepc (by decide) rfl rfl (c.writeBack_mepc addr v)

theorem debugWrite_dpc (addr : CsrAddr) (v : DataType) :
    (c.debugWrite addr v).dpc = if addr = dpcAddr then v else c.dpc := by
  unfold debugWrite
  by_cases h : addr = dpcAddr
  · subst h
    rfl
  · rw [if_neg h, if_neg h]
    exact field_ite dpc (fun _ => rfl) (c.writeBack_dpc addr v)

theorem loadCause_eq (cause : BitVec 4) : (c.loadCause cfg cause).mstatus = c.mstatus ∧
    (c.loadCause cfg cause).mepc = c.mepc ∧ (c.loadCause cfg cause).dpc = c.dpc := by
  unfold loadCause
  split_ifs <;> exact ⟨rfl, rfl, rfl⟩

theorem writeBack_dcsr (addr : CsrAddr) (v : DataType) :
    (c.writeBack addr v).dcsr = c.dcsr := by
  unfold writeBack
  repeat refine field_ite dcsr (fun _ => rfl) ?_
  split <;> (try split) <;> (try split) <;> rfl

theorem debugWrite_dcsr (addr : CsrAddr) (v : DataType) :
    (c.debugWrite addr v).dcsr = if addr = dcsrAddr then v else c.dcsr := by
  unfold debugWrite
  by_cases h : addr = dcsrAddr
  · subst h
    rfl
  · rw [if_neg h, if_neg h]
    exact field_ite dcsr (fun _ => rfl) (c.writeBack_dcsr addr v)

theorem loadCause_dcsr (cause : BitVec 4) : (c.loadCause cfg cause).dcsr =
    if cause.getLsbD 3 && cfg.haveOcd then
      setBit (setBit (setBit c.dcsr 6 (cause.getLsbD 0)) 7 (cause.getLsbD 1)) 8 (cause.getLsbD 2)
    else c.dcsr := apply_ite dcsr _ _ _

/-! ## The writes of one clock -/

variable {cfg c g}

/-- A register that no write of this clock reaches holds what the counters leave in it. -/
theorem written_frame {β : Type*} (f : CsrReg → β)
    (hw : g.writes = true → ∀ n v, f (n.writeBack g.addr v) = f n)
    (hd : g.debugWrites cfg = true → ∀ n v, f (n.debugWrite g.addr v) = f n)
    (hcause : ∀ n, f (n.loadCause cfg g.dcsrCause) = f n)
    (hdpc : ∀ n pc, f { n with dpc := pc } = f n) :
    f (c.written cfg g) = f (c.countUp cfg g.instret g.event) := by
  have hload : ∀ n : CsrReg, f (if g.loadDpc && cfg.haveOcd then { n with dpc := g.trap.pc }
      else n) = f n := fun n => field_ite f (fun _ => hdpc n _) rfl
  have hprogram : ∀ n v, f (if g.writes then n.writeBack g.addr v else n) = f n :=
    fun n v => field_ite f (fun h => hw h n v) rfl
  refine field_ite f (fun h => ?_) ?_
  · rw [hd h, hload, hcause, hprogram]
  · rw [hload, hcause, hprogram]

/-- The Debug Module writes last. -/
theorem written_mstatus_eq : (c.written cfg g).mstatus =
    if g.debugWrites cfg = true ∧ g.addr = mstatusAddr then g.debugData
    else if g.writes = true ∧ g.addr = mstatusAddr then
      csrOperate g.op g.dataout g.immrs1 (c.content g.dontCare g.addr)
    else c.mstatus := by
  have hload : ∀ n : CsrReg, (if g.loadDpc && cfg.haveOcd then { n with dpc := g.trap.pc }
      else n).mstatus = n.mstatus := fun n => field_ite mstatus (fun _ => rfl) rfl
  have hprogram : ∀ n : CsrReg, (if g.writes then n.writeBack g.addr
      (csrOperate g.op g.dataout g.immrs1 (c.content g.dontCare g.addr)) else n).mstatus =
      if g.writes = true ∧ g.addr = mstatusAddr then
        csrOperate g.op g.dataout g.immrs1 (c.content g.dontCare g.addr) else n.mstatus := by
    intro n
    cases g.writes
    · simp only [Bool.false_eq_true, if_false, false_and]
    · simp only [if_true, true_and]
      exact n.writeBack_mstatus _ _
  have hdebug : ∀ n : CsrReg, (if g.indebug && g.writecsr && cfg.haveOcd then
      n.debugWrite g.addr g.debugData else n).mstatus =
      if g.debugWrites cfg = true ∧ g.addr = mstatusAddr then g.debugData else n.mstatus := by
    intro n
    rw [CsrSignals.debugWrites]
    cases g.indebug && g.writecsr && cfg.haveOcd
    · simp only [Bool.false_eq_true, if_false, false_and]
    · simp only [if_true, true_and]
      exact n.debugWrite_mstatus _ _
  simp only [written]
  rw [hdebug, hload, (loadCause_eq _ _ _).1, hprogram]
  rfl

theorem written_mstatus (hw : g.writes = true → g.addr ≠ mstatusAddr)
    (hd : g.debugWrites cfg = true → g.addr ≠ mstatusAddr) :
    (c.written cfg g).mstatus = c.mstatus := by
  rw [written_mstatus_eq, if_neg fun h => hd h.1 h.2, if_neg fun h => hw h.1 h.2]

theorem written_mepc (hw : g.writes = true → g.addr ≠ mepcAddr)
    (hd : g.debugWrites cfg = true → g.addr ≠ mepcAddr) :
    (c.written cfg g).mepc = c.mepc :=
  written_frame mepc (fun h n v => (n.writeBack_mepc _ v).trans (if_neg (hw h)))
    (fun h n v => (n.debugWrite_mepc _ v).trans (if_neg (hd h)))
    (fun n => (loadCause_eq cfg n _).2.1) fun _ _ => rfl

theorem written_dpc (hd : g.debugWrites cfg = true → g.addr ≠ dpcAddr) :
    (c.written cfg g).dpc = if g.loadDpc && cfg.haveOcd then g.trap.pc else c.dpc := by
  have hload : ∀ n : CsrReg, (if g.loadDpc && cfg.haveOcd then { n with dpc := g.trap.pc }
      else n).dpc = if g.loadDpc && cfg.haveOcd then g.trap.pc else n.dpc :=
    fun n => apply_ite dpc _ _ _
  refine field_ite dpc (fun h => ?_) ?_
  · rw [debugWrite_dpc, if_neg (hd h), hload, (loadCause_eq _ _ _).2.2]
    congr 1
    exact field_ite dpc (fun _ => writeBack_dpc _ _ _) rfl
  · rw [hload, (loadCause_eq _ _ _).2.2]
    congr 1
    exact field_ite dpc (fun _ => writeBack_dpc _ _ _) rfl

/-! ## The registers after one clock -/

theorem next_dcsr (h : cfg.haveOcd = false) : (c.next cfg g).dcsr = 0 := by
  have hz : ((c.written cfg g).hardwire cfg).dcsr = 0 := by simp [hardwire, h]
  rw [next_eq]
  exact field_ite dcsr (fun _ => hz) (field_ite dcsr (fun _ => hz) hz)

/-- Unless the Debug Module writes it, only the cause in `dcsr` changes. -/
theorem next_dcsr_eq (ho : cfg.haveOcd = true)
    (hd : g.debugWrites cfg = true → g.addr ≠ dcsrAddr) :
    (c.next cfg g).dcsr = (c.loadCause cfg g.dcsrCause).dcsr &&& dcsrMask ||| dcsrFixed := by
  have hcause : ∀ n : CsrReg, n.dcsr = c.dcsr →
      (n.loadCause cfg g.dcsrCause).dcsr = (c.loadCause cfg g.dcsrCause).dcsr := by
    intro n hn
    rw [loadCause_dcsr, loadCause_dcsr, hn]
  have hload : ∀ n : CsrReg, (if g.loadDpc && cfg.haveOcd then { n with dpc := g.trap.pc }
      else n).dcsr = n.dcsr := fun n => field_ite dcsr (fun _ => rfl) rfl
  have hwritten : (c.written cfg g).dcsr = (c.loadCause cfg g.dcsrCause).dcsr := by
    refine field_ite dcsr (fun h => ?_) ?_
    · rw [debugWrite_dcsr, if_neg (hd h), hload, hcause]
      exact field_ite dcsr (fun _ => writeBack_dcsr _ _ _) rfl
    · rw [hload, hcause]
      exact field_ite dcsr (fun _ => writeBack_dcsr _ _ _) rfl
  have hnext : (c.next cfg g).dcsr = ((c.written cfg g).hardwire cfg).dcsr := by
    rw [next_eq]
    exact field_ite dcsr (fun _ => rfl) (field_ite dcsr (fun _ => rfl) rfl)
  rw [hnext, hardwire]
  simp only [ho, if_true, hwritten]

/-- The cause is in bits 6 to 8. -/
theorem getLsbD_next_dcsr (ho : cfg.haveOcd = true)
    (hd : g.debugWrites cfg = true → g.addr ≠ dcsrAddr) {k : ℕ} (hk : k < 6)
    (hm : dcsrMask.getLsbD k = true) (hf : dcsrFixed.getLsbD k = false) :
    (c.next cfg g).dcsr.getLsbD k = c.dcsr.getLsbD k := by
  have hcause : (c.loadCause cfg g.dcsrCause).dcsr.getLsbD k = c.dcsr.getLsbD k := by
    rw [loadCause_dcsr]
    split_ifs
    · rw [getLsbD_setBit _ (by decide), if_neg (by omega), getLsbD_setBit _ (by decide),
        if_neg (by omega), getLsbD_setBit _ (by decide), if_neg (by omega)]
    · rfl
  rw [next_dcsr_eq ho hd, BitVec.getLsbD_or, BitVec.getLsbD_and, hm, hf, Bool.and_true,
    Bool.or_false, hcause]

theorem next_dcsr_cause (ho : cfg.haveOcd = true)
    (hd : g.debugWrites cfg = true → g.addr ≠ dcsrAddr) (hl : g.dcsrCause.getLsbD 3 = true) :
    (c.next cfg g).dcsr.extractLsb' 6 3 = g.dcsrCause.extractLsb' 0 3 := by
  have hmask : ∀ k : Fin 3, dcsrMask.getLsbD (6 + k) = true ∧
      dcsrFixed.getLsbD (6 + k) = false := by decide
  rw [next_dcsr_eq ho hd, loadCause_dcsr, if_pos (by simp [hl, ho])]
  apply BitVec.eq_of_getLsbD_eq
  intro k hk
  rw [BitVec.getLsbD_extractLsb', BitVec.getLsbD_extractLsb', BitVec.getLsbD_or,
    BitVec.getLsbD_and, (hmask ⟨k, hk⟩).1, (hmask ⟨k, hk⟩).2, Bool.and_true, Bool.or_false,
    getLsbD_setBit _ (by decide), getLsbD_setBit _ (by decide), getLsbD_setBit _ (by decide)]
  match k, hk with
  | 0, _ | 1, _ | 2, _ => rfl

theorem next_dpc_eq_hardwire : (c.next cfg g).dpc = ((c.written cfg g).hardwire cfg).dpc := by
  rw [next_eq]
  exact field_ite dpc (fun _ => rfl) (field_ite dpc (fun _ => rfl) rfl)

theorem getLsbD_next_dpc : (c.next cfg g).dpc.getLsbD 0 = false := by
  rw [next_dpc_eq_hardwire, hardwire]
  simp only []
  split_ifs
  · rw [getLsbD_setBit _ (by decide), if_pos rfl]
  · rfl

theorem next_dpc (ho : cfg.haveOcd = true) (hd : g.debugWrites cfg = true → g.addr ≠ dpcAddr) :
    (c.next cfg g).dpc = setBit (if g.loadDpc then g.trap.pc else c.dpc) 0 false := by
  rw [next_dpc_eq_hardwire, hardwire]
  simp only [ho, if_true]
  rw [written_dpc hd, ho, Bool.and_true]

theorem getLsbD_next_mepc : (c.next cfg g).mepc.getLsbD 0 = false := getLsbD_mepcOf_zero _

theorem mepcOf_next_mepc : mepcOf (c.next cfg g).mepc = (c.next cfg g).mepc := mepcOf_mepcOf _

/-- Without a trap and without a write to it, `mepc` stays. -/
theorem next_mepc (ht : g.entersTrap = false) (hw : g.writes = true → g.addr ≠ mepcAddr)
    (hd : g.debugWrites cfg = true → g.addr ≠ mepcAddr) (hc : mepcOf c.mepc = c.mepc) :
    (c.next cfg g).mepc = c.mepc := by
  rw [next_eq]
  simp only [ht, Bool.false_eq_true, if_false]
  have h : (if g.trapRelease then c.trapRelease ((c.written cfg g).hardwire cfg)
      else (c.written cfg g).hardwire cfg).mepc = c.mepc :=
    field_ite mepc (fun _ => written_mepc hw hd) (written_mepc hw hd)
  rw [h, hc]

/-- Without a trap, a trap release and a write to it, the interrupt enable bits stay. -/
theorem next_mstatus (ht : g.entersTrap = false) (hr : g.trapRelease = false)
    (hw : g.writes = true → g.addr ≠ mstatusAddr)
    (hd : g.debugWrites cfg = true → g.addr ≠ mstatusAddr) :
    (c.next cfg g).mstatus = c.mstatus &&& mstatusMask := by
  rw [next_eq]
  simp only [ht, hr, Bool.false_eq_true, if_false, hardwire, written_mstatus hw hd]

/-- A trap release restores MIE. -/
theorem next_mstatus_of_release (ht : g.entersTrap = false) (hr : g.trapRelease = true) :
    (c.next cfg g).mstatus.getLsbD 3 = c.mstatus.getLsbD 7 := by
  rw [next_eq]
  simp only [ht, hr, Bool.false_eq_true, if_false, if_true, trapRelease, mstatusWith_mie]

end CsrReg

end ThuasRiscv
