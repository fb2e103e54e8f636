import ThuasRiscv.Core.CsrWarl

/-!
# The control and status registers as a map

Every register of the CSR process has a name. An address names at most one of them, a write
replaces the word of one name, and the hard wired bits are a mask of each name. The lists of the
process are compared with this map here, and later proofs use the map.
-/

namespace ThuasRiscv

/-- The registers of the CSR process; the performance counters and selectors 3 to 9 by their number
less 3. -/
inductive CsrName where
  | mstatus | mie | mtvec | mcountinhibit | mscratch | mepc | mcause | mtval
  | mcycle | mcycleh | minstret | minstreth
  | mhpmcounter (k : Fin 7) | mhpmcounterh (k : Fin 7) | mhpmevent (k : Fin 7)
  | dcsr | dpc | tselect | tdata1 | tdata2
  deriving DecidableEq

namespace CsrName

/-- The selector 4. -/
abbrev mhpmevent4 : CsrName := .mhpmevent CsrReg.selector4

/-- The address of the machine mode. -/
def addr : CsrName → CsrAddr
  | mstatus => mstatusAddr
  | mie => mieAddr
  | mtvec => mtvecAddr
  | mcountinhibit => mcountinhibitAddr
  | mscratch => mscratchAddr
  | mepc => mepcAddr
  | mcause => mcauseAddr
  | mtval => mtvalAddr
  | mcycle => mcycleAddr
  | mcycleh => mcyclehAddr
  | minstret => minstretAddr
  | minstreth => minstrethAddr
  | mhpmcounter k => mhpmcounterBase + 3 + BitVec.ofNat 12 k
  | mhpmcounterh k => mhpmcounterhBase + 3 + BitVec.ofNat 12 k
  | mhpmevent k => mhpmeventBase + 3 + BitVec.ofNat 12 k
  | dcsr => dcsrAddr
  | dpc => dpcAddr
  | tselect => tselectAddr
  | tdata1 => tdata1Addr
  | tdata2 => tdata2Addr

/-- The free-running counters. -/
def isCounter : CsrName → Bool
  | mcycle | mcycleh | minstret | minstreth | mhpmcounter _ | mhpmcounterh _ => true
  | _ => false

/-- The registers that an instruction cannot write. -/
def isDebugOnly : CsrName → Bool
  | dcsr | dpc | tselect => true
  | _ => false

/-- The bits that a write can change. -/
def mask (cfg : Generics) : CsrName → DataType
  | mstatus => mstatusMask
  | mie => mieMask
  | mtvec => 0xfffffffd
  | mcountinhibit => mcountinhibitMask cfg
  | mepc => 0xfffffffc
  | mcause => mcauseMask
  | mscratch | mtval | mcycle | mcycleh | minstret | minstreth => BitVec.allOnes 32
  | mhpmcounter _ => if cfg.haveZihpm then BitVec.allOnes 32 else 0
  | mhpmcounterh _ => if cfg.haveZihpm then 0xff else 0
  | mhpmevent _ => if cfg.haveZihpm then 0x7f else 0
  | dcsr => if cfg.haveOcd then dcsrMask else 0
  | dpc => if cfg.haveOcd then 0xfffffffe else 0
  | tselect => 0
  | tdata1 => if cfg.haveOcd then tdata1Mask else 0
  | tdata2 => if cfg.haveOcd then BitVec.allOnes 32 else 0

/-- The bits that are always one. -/
def fixed (cfg : Generics) : CsrName → DataType
  | dcsr => if cfg.haveOcd then dcsrFixed else 0
  | tdata1 => if cfg.haveOcd then tdata1Fixed else 0
  | _ => 0

theorem fixed_and_mask (cfg : Generics) (r : CsrName) : r.fixed cfg &&& r.mask cfg = 0 := by
  cases r <;> first | exact BitVec.zero_and | skip
  all_goals
    simp only [fixed, mask]
    split <;> decide

theorem fixed_and_not_mask (cfg : Generics) (r : CsrName) :
    r.fixed cfg &&& ~~~r.mask cfg = r.fixed cfg := by
  cases r <;> first | exact BitVec.zero_and | skip
  all_goals
    simp only [fixed, mask]
    split <;> decide

end CsrName

/-! ## Addresses -/

namespace CsrName

def all : List CsrName :=
  [mstatus, mie, mtvec, mcountinhibit, mscratch, mepc, mcause, mtval, mcycle, mcycleh, minstret,
    minstreth, dcsr, dpc, tselect, tdata1, tdata2] ++ (List.finRange 7).map mhpmcounter ++
    (List.finRange 7).map mhpmcounterh ++ (List.finRange 7).map mhpmevent

/-- The register at an address of the machine mode. -/
def at? (a : CsrAddr) : Option CsrName := all.find? fun r => r.addr = a

theorem addr_of_at? {a : CsrAddr} {r : CsrName} (h : at? a = some r) : r.addr = a := by
  simpa using List.find?_some h

theorem at?_addr (r : CsrName) : at? r.addr = some r := by
  have h : ∀ k : Fin 7, at? (mhpmcounter k).addr = some (mhpmcounter k) ∧
      at? (mhpmcounterh k).addr = some (mhpmcounterh k) ∧
      at? (mhpmevent k).addr = some (mhpmevent k) := by decide
  cases r with
  | mhpmcounter k => exact (h k).1
  | mhpmcounterh k => exact (h k).2.1
  | mhpmevent k => exact (h k).2.2
  | _ => rfl

end CsrName

/-- The blocks of the counters, for the machine mode and for the user. -/
def isCounterAddr (a : CsrAddr) : Bool :=
  a.extractLsb' 5 7 ∈ [0b1011000, 0b1011100, 0b1100000, 0b1100100]

/-- The addresses of read-only registers. -/
def isReadOnlyAddr (a : CsrAddr) : Bool := a.extractLsb' 10 2 = 0b11

theorem isCounterAddr_addr {r : CsrName} (hr : r.isCounter = true) :
    isCounterAddr r.addr = true := by
  have h : ∀ k : Fin 7, isCounterAddr (CsrName.mhpmcounter k).addr = true ∧
      isCounterAddr (CsrName.mhpmcounterh k).addr = true := by decide
  cases r with
  | mhpmcounter k => exact (h k).1
  | mhpmcounterh k => exact (h k).2
  | mcycle | mcycleh | minstret | minstreth => rfl
  | _ => cases hr

/-- The bits that an instruction can change at an address. -/
def csrMask (cfg : Generics) (a : CsrAddr) : DataType :=
  match CsrName.at? a with
  | some r => if r.isDebugOnly then 0 else r.mask cfg
  | none => 0

theorem hpmIndex_eq_some {base a : CsrAddr} {k : Fin 7} (h : hpmIndex base a = some k) :
    a = base + 3 + BitVec.ofNat 12 k := by
  simp only [hpmIndex] at h
  split at h
  · next hn =>
    have hk : (a - base).toNat - 3 = k := congrArg Fin.val (Option.some.inj h)
    calc a = base + (a - base) := by rw [BitVec.add_comm, BitVec.sub_add_cancel]
      _ = base + BitVec.ofNat 12 (3 + k) := by
        rw [← hk, Nat.add_sub_cancel' hn.1, BitVec.ofNat_toNat, BitVec.setWidth_eq]
      _ = base + 3 + BitVec.ofNat 12 k := by rw [BitVec.ofNat_add, BitVec.add_assoc]; rfl
  · cases h

/-- The addresses of single registers. -/
def singleAddrs : List CsrAddr :=
  [cycleAddr, timeAddr, instretAddr, cyclehAddr, timehAddr, instrethAddr, mimpidAddr, mstatusAddr,
    misaAddr, mieAddr, mtvecAddr, mcountinhibitAddr, mscratchAddr, mepcAddr, mcauseAddr, mtvalAddr,
    mipAddr, dcsrAddr, dpcAddr, tselectAddr, tdata1Addr, tdata2Addr, tinfoAddr, mxhwAddr,
    mxspeedAddr, mcycleAddr, minstretAddr, mcyclehAddr, minstrethAddr]

/-- The banks of the performance counters are apart from each other and from the rest. -/
structure InBank (a : CsrAddr) (counter counterh event : Option (Fin 7)) : Prop where
  single : a ∉ singleAddrs
  user : hpmIndex hpmcounterBase a = none
  userh : hpmIndex hpmcounterhBase a = none
  counter : hpmIndex mhpmcounterBase a = counter
  counterh : hpmIndex mhpmcounterhBase a = counterh
  event : hpmIndex mhpmeventBase a = event

theorem inBank_mhpmcounter (k : Fin 7) :
    InBank (CsrName.mhpmcounter k).addr (some k) none none := by
  constructor <;> revert k <;> decide +kernel

theorem inBank_mhpmcounterh (k : Fin 7) :
    InBank (CsrName.mhpmcounterh k).addr none (some k) none := by
  constructor <;> revert k <;> decide +kernel

theorem inBank_mhpmevent (k : Fin 7) :
    InBank (CsrName.mhpmevent k).addr none none (some k) := by
  constructor <;> revert k <;> decide +kernel

/-! ## Reading -/

namespace CsrReg

open CsrName

/-- The word of a register. -/
def get (c : CsrReg) : CsrName → DataType
  | .mstatus => c.mstatus
  | .mie => c.mie
  | .mtvec => c.mtvec
  | .mcountinhibit => c.mcountinhibit
  | .mscratch => c.mscratch
  | .mepc => c.mepc
  | .mcause => c.mcause
  | .mtval => c.mtval
  | .mcycle => c.mcycle
  | .mcycleh => c.mcycleh
  | .minstret => c.minstret
  | .minstreth => c.minstreth
  | .mhpmcounter k => c.mhpmcounter k
  | .mhpmcounterh k => c.mhpmcounterh k
  | .mhpmevent k => c.mhpmevent k
  | .dcsr => c.dcsr
  | .dpc => c.dpc
  | .tselect => c.tselect
  | .tdata1 => c.tdata1
  | .tdata2 => c.tdata2

theorem ext_get {c c' : CsrReg} (h : ∀ r, c.get r = c'.get r) : c = c' := by
  have hcounter : c.mhpmcounter = c'.mhpmcounter := funext fun k => h (.mhpmcounter k)
  have hcounterh : c.mhpmcounterh = c'.mhpmcounterh := funext fun k => h (.mhpmcounterh k)
  have hevent : c.mhpmevent = c'.mhpmevent := funext fun k => h (.mhpmevent k)
  obtain ⟨_, _, _, _, _, _, _, _, _, _, _, _, _, _, _, _, _, _, _, _⟩ := c
  obtain ⟨_, _, _, _, _, _, _, _, _, _, _, _, _, _, _, _, _, _, _, _⟩ := c'
  congr
  exacts [h .mstatus, h .mie, h .mtvec, h .mcountinhibit, h .mscratch, h .mepc, h .mcause,
    h .mtval, h .mcycle, h .mcycleh, h .minstret, h .minstreth, h .dcsr, h .dpc, h .tselect,
    h .tdata1, h .tdata2]

variable {cfg : Generics} {io : Peripherals} {w : CsrWires} {c c' : CsrReg} {a : CsrAddr}
  {r : CsrName}

/-- The first bank that has an address is selected. -/
theorem read_of_inBank {x y z : Option (Fin 7)} (h : InBank a x y z) : c.read cfg io w a =
    x.elim (y.elim (z.elim 0 c.mhpmevent) c.mhpmcounterh) c.mhpmcounter := by
  have hs := h.single
  simp only [singleAddrs, List.mem_cons, not_or] at hs
  simp only [read, hs, h.user, h.userh, h.counter, h.counterh, h.event, or_self, if_false]
  cases x <;> cases y <;> cases z <;> rfl

theorem read_addr (r : CsrName) : c.read cfg io w r.addr = c.get r := by
  cases r with
  | mhpmcounter k => exact read_of_inBank (inBank_mhpmcounter k)
  | mhpmcounterh k => exact read_of_inBank (inBank_mhpmcounterh k)
  | mhpmevent k => exact read_of_inBank (inBank_mhpmevent k)
  | _ => rfl

theorem read_of_at? (h : at? a = some r) : c.read cfg io w a = c.get r := by
  rw [← addr_of_at? h]
  exact read_addr r

/-- Alternatives that agree one by one. -/
theorem ite_congr_of {β : Type*} {p : Prop} [Decidable p] {x x' y y' : β} (hx : p → x = x')
    (hy : y = y') : (if p then x else y) = if p then x' else y' := by
  by_cases h : p
  · rw [if_pos h, if_pos h, hx h]
  · rw [if_neg h, if_neg h, hy]

theorem hpmIndex_eq_none (base : CsrAddr) (h : ∀ k : Fin 7, a ≠ base + 3 + BitVec.ofNat 12 k) :
    hpmIndex base a = none := by
  cases hk : hpmIndex base a with
  | none => rfl
  | some k => exact absurd (hpmIndex_eq_some hk) (h k)

/-- The other addresses read as constants, if they are not for the counters of the user. -/
theorem read_of_none (h : at? a = none) (hc : (isCounterAddr a && isReadOnlyAddr a) = false) :
    c.read cfg io w a = c'.read cfg io w a := by
  have huser : ∀ k : Fin 7, (isCounterAddr (hpmcounterBase + 3 + BitVec.ofNat 12 k) &&
      isReadOnlyAddr (hpmcounterBase + 3 + BitVec.ofNat 12 k)) = true := by decide
  have huserh : ∀ k : Fin 7, (isCounterAddr (hpmcounterhBase + 3 + BitVec.ofNat 12 k) &&
      isReadOnlyAddr (hpmcounterhBase + 3 + BitVec.ofNat 12 k)) = true := by decide
  have hname : ∀ r : CsrName, a ≠ r.addr := by
    rintro r rfl
    rw [at?_addr] at h
    cases h
  unfold CsrReg.read
  iterate 25 refine ite_congr_of (fun h' => by
    first
    | rfl
    | (subst h'; cases h)
    | exact h'.elim (fun e => by subst e; cases hc) fun e => by subst e; cases h) ?_
  rw [hpmIndex_eq_none hpmcounterBase, hpmIndex_eq_none hpmcounterhBase,
    hpmIndex_eq_none _ fun k => hname (.mhpmcounter k),
    hpmIndex_eq_none _ fun k => hname (.mhpmcounterh k),
    hpmIndex_eq_none _ fun k => hname (.mhpmevent k)]
  · rintro k rfl
    rw [huserh k] at hc
    cases hc
  · rintro k rfl
    rw [huser k] at hc
    cases hc

/-! ## Writing -/

def set (c : CsrReg) (r : CsrName) (v : DataType) : CsrReg :=
  match r with
  | .mstatus => { c with mstatus := v }
  | .mie => { c with mie := v }
  | .mtvec => { c with mtvec := v }
  | .mcountinhibit => { c with mcountinhibit := v }
  | .mscratch => { c with mscratch := v }
  | .mepc => { c with mepc := v }
  | .mcause => { c with mcause := v }
  | .mtval => { c with mtval := v }
  | .mcycle => { c with mcycle := v }
  | .mcycleh => { c with mcycleh := v }
  | .minstret => { c with minstret := v }
  | .minstreth => { c with minstreth := v }
  | .mhpmcounter k => { c with mhpmcounter := Function.update c.mhpmcounter k v }
  | .mhpmcounterh k => { c with mhpmcounterh := Function.update c.mhpmcounterh k v }
  | .mhpmevent k => { c with mhpmevent := Function.update c.mhpmevent k v }
  | .dcsr => { c with dcsr := v }
  | .dpc => { c with dpc := v }
  | .tselect => { c with tselect := v }
  | .tdata1 => { c with tdata1 := v }
  | .tdata2 => { c with tdata2 := v }

theorem get_set (c : CsrReg) (r : CsrName) (v : DataType) :
    (c.set r v).get = Function.update c.get r v := by
  funext r'
  by_cases h : r' = r
  · subst h
    rw [Function.update_self]
    cases r' with
    | mhpmcounter k | mhpmcounterh k | mhpmevent k => exact Function.update_self ..
    | _ => rfl
  · rw [Function.update_of_ne h]
    cases r <;> cases r' <;> first
      | rfl
      | exact absurd rfl h
      | exact Function.update_of_ne (fun hk => h (congrArg _ hk)) ..

theorem writeBack_of_inBank {x y z : Option (Fin 7)} (v : DataType) (h : InBank a x y z) :
    c.writeBack a v = z.elim (x.elim (y.elim c fun k => c.set (.mhpmcounterh k) v)
      fun k => c.set (.mhpmcounter k) v) fun k => c.set (.mhpmevent k) v := by
  have hs := h.single
  simp only [singleAddrs, List.mem_cons, not_or] at hs
  simp only [writeBack, hs, h.counter, h.counterh, h.event, if_false, set]
  cases x <;> cases y <;> cases z <;> rfl

/-- An instruction writes the register at its address, except the debug registers. -/
theorem writeBack_eq (c : CsrReg) (a : CsrAddr) (v : DataType) :
    c.writeBack a v = match at? a with
      | some r => if r.isDebugOnly then c else c.set r v
      | none => c := by
  cases h : at? a with
  | some r =>
    obtain rfl := addr_of_at? h
    cases r with
    | mhpmcounter k => exact writeBack_of_inBank v (inBank_mhpmcounter k)
    | mhpmcounterh k => exact writeBack_of_inBank v (inBank_mhpmcounterh k)
    | mhpmevent k => exact writeBack_of_inBank v (inBank_mhpmevent k)
    | _ => rfl
  | none =>
    have hname : ∀ r : CsrName, a ≠ r.addr := by
      rintro r rfl
      rw [at?_addr] at h
      cases h
    unfold writeBack
    iterate 14 refine (if_neg fun h' => by subst h'; cases h).trans ?_
    rw [hpmIndex_eq_none _ fun k => hname (.mhpmcounter k),
      hpmIndex_eq_none _ fun k => hname (.mhpmcounterh k),
      hpmIndex_eq_none _ fun k => hname (.mhpmevent k)]

theorem content_of_inBank {x y z : Option (Fin 7)} (d : DataType) (h : InBank a x y z) :
    c.content d a = z.elim (x.elim (y.elim d c.mhpmcounterh) c.mhpmcounter)
      fun k => if k = 1 then d else c.mhpmevent k := by
  have hs := h.single
  simp only [singleAddrs, List.mem_cons, not_or] at hs
  simp only [content, hs, h.counter, h.counterh, h.event, if_false]
  cases x <;> cases y <;> cases z <;> rfl

/-- The old content is selected for every register but the selector 4. -/
theorem content_eq (h : at? a = some r) (hr : r.isDebugOnly = false) (d : DataType) :
    c.content d a = if r = .mhpmevent 1 then d else c.get r := by
  obtain rfl := addr_of_at? h
  cases r with
  | mhpmcounter k => exact content_of_inBank d (inBank_mhpmcounter k)
  | mhpmcounterh k => exact content_of_inBank d (inBank_mhpmcounterh k)
  | mhpmevent k =>
    rw [content_of_inBank d (inBank_mhpmevent k)]
    simp only [CsrName.mhpmevent.injEq, get, Option.elim_some]
  | dcsr | dpc | tselect => cases hr
  | _ => rfl

/-! ## Hard wired bits and counters -/

theorem setBit_false (x : DataType) (n : ℕ) : setBit x n false = x &&& ~~~BitVec.twoPow 32 n := rfl

/-- The hard wired bits, with those of `mepc`, are a mask and fixed ones. -/
theorem get_hardwire (c : CsrReg) (r : CsrName) :
    { c.hardwire cfg with mepc := mepcOf c.mepc }.get r =
      c.get r &&& r.mask cfg ||| r.fixed cfg := by
  have hones : ∀ x : DataType, x &&& BitVec.allOnes 32 ||| 0 = x := fun x => by
    rw [BitVec.and_allOnes]
    exact BitVec.or_zero
  have hnone : ∀ x : DataType, x &&& 0 ||| 0 = 0 := fun x => by
    exact (congrArg (· ||| 0) BitVec.and_zero).trans BitVec.or_zero
  have hmask : ∀ x : DataType, x ||| 0 = x := fun x => BitVec.or_zero
  have hmepc : mepcOf c.mepc = c.mepc &&& 0xfffffffc := by
    rw [mepcOf, setBit_false, setBit_false, BitVec.and_assoc]
    rfl
  cases r with
  | mscratch | mtval | mcycle | mcycleh | minstret | minstreth => exact (hones _).symm
  | mstatus | mie | mcountinhibit | mcause | mtvec => exact (hmask _).symm
  | mepc => exact hmepc.trans (hmask _).symm
  | tselect => exact (hnone _).symm
  | mhpmcounter | mhpmcounterh | mhpmevent | dcsr | dpc | tdata1 | tdata2 =>
    simp only [get, hardwire, CsrName.mask, CsrName.fixed]
    split
    · first | rfl | exact (hones _).symm | exact (hmask _).symm
    · exact (hnone _).symm

theorem get_countUp (c : CsrReg) (instret : Bool) (event : Fin 7 → Bool)
    (hr : r.isCounter = false) :
    (c.countUp cfg instret event).get r = c.get r := by
  cases r <;> first | rfl | cases hr

end CsrReg

end ThuasRiscv
