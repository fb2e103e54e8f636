import ThuasRiscv.CyclicRedundancy
import ThuasRiscv.Io.Crc

/-!
# CRC unit and polynomial division

The library functions write the three registers of the configuration and then
one byte after the other, each time until the status register shows that the
transaction is complete. The unit divides: with every shift its register holds
the code of the bits shifted so far. The counter is loaded with 7, so that the
last bit of every byte is never shifted.
-/

namespace ThuasRiscv

open Transition CyclicRedundancy

/-! ## The library functions -/

namespace CrcInput

variable (i : CrcInput)

/-- Nothing happens on the bus. -/
def Idle : Prop := i.sreset = false ∧ i.request.stb = false

/-- A store of `v` in register `r`. -/
def Stores (r : BitVec 3) (v : DataType) : Prop :=
  i.sreset = false ∧ i.request.selects r = true ∧ i.request.wren = true ∧ i.request.data = v

/-- A load of register `r`. -/
def Loads (r : BitVec 3) : Prop :=
  i.sreset = false ∧ i.request.selects r = true ∧ i.request.wren = false

/-- No write and no reset. -/
def Quiet : Prop := i.sreset = false ∧ (i.request.stb = true → i.request.wren = false)

/-- The clocks between two accesses. There is one at least, in which the unit answers. -/
def Gap (is : List CrcInput) : Prop := is ≠ [] ∧ ∀ i ∈ is, i.Idle

variable {i}

theorem Idle.quiet (h : i.Idle) : i.Quiet := ⟨h.1, fun hs => by simp [h.2] at hs⟩

theorem Loads.quiet {r : BitVec 3} (h : i.Loads r) : i.Quiet := ⟨h.1, fun _ => h.2.2⟩

theorem Gap.quiet {is : List CrcInput} (h : Gap is) : ∀ i ∈ is, i.Quiet :=
  fun i hi => (h.2 i hi).quiet

end CrcInput

open CrcInput

namespace Crc

/-- `while ((CRC->STAT & CRC_TC) == 0);` -/
inductive Awaits : Crc → List CrcInput → Prop
  | complete {s : Crc} {i : CrcInput} {gap : List CrcInput} : i.Loads 0b001#3 → Gap gap →
    (s.clock i).response.data.getLsbD 3 = true → Awaits s (i :: gap)
  | again {s : Crc} {i : CrcInput} {gap is : List CrcInput} : i.Loads 0b001#3 → Gap gap →
    (s.clock i).response.data.getLsbD 3 = false → Awaits (machine.runFrom s (i :: gap)) is →
    Awaits s (i :: gap ++ is)

/-- `crc_write`: write the data register and await the flag. -/
inductive CrcWrite (s : Crc) (data : BitVec 8) : List CrcInput → Prop
  | intro {i : CrcInput} {gap is : List CrcInput} : i.Stores 0b100#3 (data.setWidth 32) → Gap gap →
    Awaits (machine.runFrom s (i :: gap)) is → CrcWrite s data (i :: gap ++ is)

/-- `crc_block`: write every byte of a block. -/
inductive CrcBlock : Crc → List (BitVec 8) → List CrcInput → Prop
  | nil (s : Crc) : CrcBlock s [] []
  | cons {s : Crc} {data : BitVec 8} {block : List (BitVec 8)} {is js : List CrcInput} :
    CrcWrite s data is → CrcBlock (machine.runFrom s is) block js →
    CrcBlock s (data :: block) (is ++ js)

/-- `crc_init`: write the control register, the polynomial and the initial value. -/
inductive CrcInit (ctrl poly sreg : DataType) : List CrcInput → Prop
  | intro {i j k : CrcInput} {gap gap' gap'' : List CrcInput} : i.Stores 0b000#3 ctrl → Gap gap →
    j.Stores 0b010#3 poly → Gap gap' → k.Stores 0b011#3 sreg → Gap gap'' →
    CrcInit ctrl poly sreg (i :: gap ++ (j :: gap' ++ k :: gap''))

/-! ## What is shifted -/

/-- The first `n` bits of a byte, most significant bit first. -/
def leading (n : ℕ) (b : BitVec 8) : List Bool := (List.range n).map fun k => b.getLsbD (7 - k)

variable (s : Crc) (i : CrcInput)

/-- The bits that one clock shifts into the register. -/
def shifts : List Bool :=
  if i.sreset = false ∧ 0 < s.counter then [s.data.getLsbD 7] else []

/-- The bits that a run shifts into the register. -/
def shifted : Crc → List CrcInput → List Bool
  | _, [] => []
  | s, i :: is => s.shifts i ++ shifted (s.clock i) is

/-- The bits that the counter has in store. -/
def pending : List Bool := leading s.counter.toNat s.data

/-- The bits of the CRC. -/
def width (size : BitVec 2) : ℕ :=
  if size = 0b00 then 32 else if size = 0b01 then 24 else if size = 0b10 then 16 else 8

def lowBits (size : BitVec 2) (v : DataType) : BitVec (width size) := v.setWidth (width size)

/-- The unit divides the whole sequence of bytes: `sreg` is what the register holds at the end and
`bits` what was shifted into it. -/
structure Divides (size : BitVec 2) (poly init : DataType) (bytes : List (BitVec 8))
    (sreg : DataType) (bits : List Bool) : Prop where
  value : ofVec (lowBits size sreg) =
    crc (lowBits size poly) (lowBits size init) (bytes.flatMap (leading 8))
  all : bits = bytes.flatMap (leading 8)

variable {s i}

theorem leading_succ {n : ℕ} (hn : n < 8) (b : BitVec 8) :
    leading (n + 1) b = b.getLsbD 7 :: leading n (b.extractLsb' 0 7 ++ 0#1) := by
  rw [leading, List.range_succ_eq_map, List.map_cons, List.map_map, leading]
  congr 1
  apply List.map_congr_left
  intro k hk
  have hk : k < n := List.mem_range.mp hk
  have h : ¬ 7 - k < 1 := by omega
  simp only [Function.comp_apply, BitVec.getLsbD_append, BitVec.getLsbD_extractLsb', h, if_false]
  rw [show 7 - k - 1 = 7 - (k + 1) by omega]
  simp only [decide_eq_true (show 7 - (k + 1) < 7 by omega), Bool.true_and, Nat.zero_add]

theorem length_leading (n : ℕ) (b : BitVec 8) : (leading n b).length = n := by simp [leading]

/-! ## The register -/

theorem width_pos (size : BitVec 2) : 0 < width size := by
  unfold width
  split_ifs <;> omega

theorem width_le (size : BitVec 2) : width size ≤ 32 := by
  unfold width
  split_ifs <;> omega

theorem msb_lowBits (s : Crc) : (lowBits s.size s.sreg).msb = s.msb := by
  rw [lowBits, msb, BitVec.msb_eq_getLsbD_last, BitVec.getLsbD_setWidth]
  unfold width
  split_ifs <;> simp

/-- A shift of the unit is a shift of the selected low bits. -/
theorem lowBits_nextSreg (s : Crc) : lowBits s.size s.nextSreg =
    CyclicRedundancy.step (lowBits s.size s.poly) (lowBits s.size s.sreg) (s.data.getLsbD 7) := by
  have hshift : lowBits s.size (s.sreg.extractLsb' 0 31 ++ 0#1) = lowBits s.size s.sreg <<< 1 := by
    apply BitVec.eq_of_getLsbD_eq
    intro k hk
    have hw : k < 32 := lt_of_lt_of_le hk (width_le _)
    rw [lowBits, lowBits, BitVec.getLsbD_setWidth, BitVec.getLsbD_append,
      BitVec.getLsbD_shiftLeft, BitVec.getLsbD_setWidth, BitVec.getLsbD_extractLsb']
    by_cases h0 : k < 1
    · simp [h0]
    · simp [h0, hk, show k - 1 < 31 by omega, show k - 1 < width s.size by omega]
  rw [nextSreg, CyclicRedundancy.step, msb_lowBits]
  split_ifs
  · rw [lowBits, BitVec.setWidth_xor]
    exact congrArg (· ^^^ _) hshift
  · exact hshift

/-- The state `s'` is reached from `s` by shifts of `bits`, and nothing else changed but the flag
and the response. -/
structure Shifted (s : Crc) (bits : List Bool) (s' : Crc) : Prop where
  size : s'.size = s.size
  poly : s'.poly = s.poly
  pending : bits ++ s'.pending = s.pending
  sreg : lowBits s.size s'.sreg =
    bits.foldl (CyclicRedundancy.step (lowBits s.size s.poly)) (lowBits s.size s.sreg)
  counter : 0 ≤ s'.counter ∧ s'.counter ≤ 8

theorem Shifted.trans {s' s'' : Crc} {bits bits' : List Bool} (h : Shifted s bits s')
    (h' : Shifted s' bits' s'') : Shifted s (bits ++ bits') s'' where
  size := h'.size.trans h.size
  poly := h'.poly.trans h.poly
  pending := by rw [List.append_assoc, h'.pending, h.pending]
  sreg := by
    have hs := h'.sreg
    rw [h.size, h.poly, h.sreg] at hs
    rw [hs, List.foldl_append]
  counter := h'.counter

/-- Without a write the bus changes the flag and the response only. -/
theorem access_of_quiet {q : MemRequest} (h : q.stb = true → q.wren = false) :
    s.access q = { s with response := (s.access q).response, tc := (s.access q).tc } := by
  have hsel (r : BitVec 3) (hw : q.wren = true) : q.selects r = false := by
    cases hs : q.stb with
    | false => simp [MemRequest.selects, hs]
    | true => simp [h hs] at hw
  unfold access
  by_cases hw : q.wren = true
  · simp [hw, hsel _ hw]
  · simp only [hw, Bool.false_eq_true, if_false]
    split <;> rfl

theorem clock_of_quiet (h : i.Quiet) : s.clock i = s.generate (s.access i.request) := by
  rw [clock, h.1, if_neg Bool.false_ne_true]

/-- One clock without a write shifts one bit, as long as there is one in store. -/
theorem shifted_clock (h : i.Quiet) (hc : 0 ≤ s.counter ∧ s.counter ≤ 8) :
    Shifted s (s.shifts i) (s.clock i) := by
  rw [clock_of_quiet h, access_of_quiet h.2, generate, shifts]
  by_cases hpos : 0 < s.counter
  · rw [if_pos hpos, if_pos ⟨h.1, hpos⟩]
    obtain ⟨n, hn⟩ : ∃ n : ℕ, s.counter = n + 1 := ⟨(s.counter - 1).toNat, by omega⟩
    refine ⟨rfl, rfl, ?_, lowBits_nextSreg s, by dsimp only; omega⟩
    have hsucc : s.counter.toNat = n + 1 := by omega
    have hpred : (s.counter - 1).toNat = n := by omega
    rw [pending, pending, hsucc, leading_succ (by omega), hpred]
    rfl
  · rw [if_neg hpos, if_neg (by simp [hpos])]
    exact ⟨rfl, rfl, rfl, rfl, hc⟩

/-- Without a write the flag is set only when there is nothing in store. -/
theorem counter_of_tc (h : i.Quiet) (hc : 0 ≤ s.counter) (ht : (s.clock i).tc = true) :
    (s.clock i).counter = 0 := by
  rw [clock_of_quiet h, access_of_quiet h.2, generate] at ht ⊢
  by_cases hpos : 0 < s.counter
  · simp [hpos] at ht
  · rw [if_neg hpos]
    exact le_antisymm (not_lt.mp hpos) hc

theorem shifted_append (s : Crc) (is js : List CrcInput) :
    shifted s (is ++ js) = shifted s is ++ shifted (machine.runFrom s is) js := by
  induction is generalizing s with
  | nil => rfl
  | cons i is ih => exact (congrArg _ (ih _)).trans (List.append_assoc _ _ _).symm

/-- A run without a write, by induction on the clocks. -/
theorem shifted_run {is : List CrcInput} (h : ∀ i ∈ is, i.Quiet)
    (hc : 0 ≤ s.counter ∧ s.counter ≤ 8) : Shifted s (shifted s is) (machine.runFrom s is) := by
  induction is generalizing s with
  | nil => exact ⟨rfl, rfl, rfl, rfl, hc⟩
  | cons i is ih =>
    have hstep := shifted_clock (h i (by simp)) hc
    exact hstep.trans (ih (fun j hj => h j (by simp [hj])) hstep.counter)

/-- The flag tells that nothing is in store. -/
def FlagHolds (s : Crc) : Prop := s.tc = true → s.counter = 0

theorem flagHolds_run {is : List CrcInput} (h : ∀ i ∈ is, i.Quiet)
    (hc : 0 ≤ s.counter ∧ s.counter ≤ 8) (hne : is ≠ [] ∨ s.FlagHolds) :
    (machine.runFrom s is).FlagHolds := by
  induction is generalizing s with
  | nil => exact hne.resolve_left (by simp)
  | cons i is ih =>
    have hi := h i (by simp)
    exact ih (fun j hj => h j (by simp [hj])) (shifted_clock hi hc).counter
      (.inr (counter_of_tc hi hc.1))

/-- Nothing in store, nothing shifted. -/
theorem Shifted.counter_eq_zero {bits : List Bool} {s' : Crc} (h : Shifted s bits s')
    (h0 : s.counter = 0) : s'.counter = 0 := by
  have hp : bits ++ s'.pending = [] := by
    rw [h.pending, Crc.pending, h0]
    rfl
  have hlen : s'.pending.length = 0 := by rw [(List.append_eq_nil_iff.mp hp).2]; rfl
  rw [Crc.pending, length_leading] at hlen
  have := h.counter
  omega

/-! ## A byte -/

/-- The status register shows the flag. -/
theorem tc_of_loads (h : i.Loads 0b001#3) :
    (s.clock i).response.data.getLsbD 3 = s.tc := by
  have hsel : i.request.stb = true ∧ i.request.isword = true := by
    have := h.2.1
    simp only [MemRequest.selects, Bool.and_eq_true] at this
    exact this.1
  have hdata : (s.clock i).response = .clock i.request (s.readData i.request) false := by
    rw [clock_of_quiet h.quiet, generate, access]
    simp only [h.2.2, Bool.false_eq_true, if_false]
    split_ifs <;> rfl
  have h0 : i.request.selects 0b000#3 = false := MemRequest.selects_of_ne h.2.1 (by decide)
  have hbit (b : Bool) : (0#28 ++ BitVec.ofBool b ++ 0#3).getLsbD 3 = b := by
    cases b <;> rfl
  rw [hdata, IoDevice.clock, readData, h0, h.2.1, hsel.1, hsel.2, h.2.2]
  exact hbit s.tc

theorem Awaits.quiet {is : List CrcInput} (h : Awaits s is) : ∀ i ∈ is, i.Quiet := by
  induction h with
  | complete hi hg _ =>
    intro j hj
    rcases List.mem_cons.mp hj with rfl | hj
    · exact hi.quiet
    · exact hg.quiet j hj
  | again hi hg _ _ ih =>
    intro j hj
    rcases List.mem_append.mp hj with hj | hj
    · rcases List.mem_cons.mp hj with rfl | hj
      · exact hi.quiet
      · exact hg.quiet j hj
    · exact ih j hj

/-- When the loop ends nothing is in store. -/
theorem Awaits.counter_eq_zero {is : List CrcInput} (h : Awaits s is)
    (hc : 0 ≤ s.counter ∧ s.counter ≤ 8) (hf : s.FlagHolds) :
    (machine.runFrom s is).counter = 0 := by
  induction h with
  | @complete s i gap hi hg ht =>
    have hquiet : ∀ j ∈ i :: gap, j.Quiet := (Awaits.complete hi hg ht).quiet
    rw [tc_of_loads hi] at ht
    exact (shifted_run hquiet hc).counter_eq_zero (hf ht)
  | @again s i gap is hi hg _ _ ih =>
    have hquiet : ∀ j ∈ i :: gap, j.Quiet := by
      intro j hj
      rcases List.mem_cons.mp hj with rfl | hj
      · exact hi.quiet
      · exact hg.quiet j hj
    rw [Machine.runFrom_append]
    exact ih (shifted_run hquiet hc).counter (flagHolds_run hquiet hc (.inr hf))

/-- A store to an idle unit. -/
theorem clock_of_stores {r : BitVec 3} {v : DataType} (h : i.Stores r v) (hc : s.counter = 0) :
    s.clock i = { s.access i.request with tc := true } := by
  rw [clock, h.1, if_neg Bool.false_ne_true, generate, hc, if_neg (lt_irrefl 0)]

/-- The byte is loaded, with 7 bits in store. -/
theorem clock_of_storesData {b : BitVec 8} (h : i.Stores 0b100#3 (b.setWidth 32))
    (hc : s.counter = 0) : s.clock i =
      { s with response := (s.clock i).response, data := b, counter := 7, tc := true } := by
  have hne (r : BitVec 3) (hr : 0b100#3 ≠ r) : i.request.selects r = false :=
    MemRequest.selects_of_ne h.2.1 hr
  have hb : (b.setWidth 32).extractLsb' 0 8 = b := by
    apply BitVec.eq_of_getLsbD_eq
    intro k hk
    simp [hk, show k < 32 by omega]
  rw [clock_of_stores h hc, access]
  simp only [h.2.2.1, h.2.2.2, h.2.1, hne 0b000#3 (by decide), hne 0b001#3 (by decide),
    hne 0b010#3 (by decide), hne 0b011#3 (by decide), if_true, Bool.false_eq_true, if_false, hb]

/-- What the shifts of a byte leave: its first seven bits are in the register. -/
structure Written (s : Crc) (bits : List Bool) (s' : Crc) : Prop where
  size : s'.size = s.size
  poly : s'.poly = s.poly
  sreg : lowBits s.size s'.sreg =
    bits.foldl (CyclicRedundancy.step (lowBits s.size s.poly)) (lowBits s.size s.sreg)
  idle : s'.counter = 0

/-- `crc_write` shifts seven bits. -/
theorem written_of_crcWrite {b : BitVec 8} {is : List CrcInput} (h : CrcWrite s b is)
    (hc : s.counter = 0) :
    shifted s is = leading 7 b ∧ Written s (leading 7 b) (machine.runFrom s is) := by
  cases h with
  | @intro i gap is hi hg hw =>
    have hload := clock_of_storesData hi hc
    have hcount : (s.clock i).counter = 7 := by rw [hload]
    have hrange : 0 ≤ (s.clock i).counter ∧ (s.clock i).counter ≤ 8 := by rw [hcount]; decide
    have hgap := shifted_run hg.quiet hrange
    have hpolls := shifted_run hw.quiet hgap.counter
    have hall := hgap.trans hpolls
    have hflag : (machine.runFrom (s.clock i) gap).FlagHolds :=
      flagHolds_run hg.quiet hrange (.inl hg.1)
    have hzero : (machine.runFrom (machine.runFrom (s.clock i) gap) is).counter = 0 :=
      hw.counter_eq_zero hgap.counter hflag
    have hrun : machine.runFrom s (i :: gap ++ is) =
        machine.runFrom (machine.runFrom (s.clock i) gap) is :=
      Machine.runFrom_append (M := machine) s (i :: gap) is
    have hnone : s.shifts i = [] := by rw [shifts, if_neg (by simp [hc])]
    have hbits : shifted s (i :: gap ++ is) =
        shifted (s.clock i) gap ++ shifted (machine.runFrom (s.clock i) gap) is := by
      rw [List.cons_append, shifted, hnone, List.nil_append, shifted_append]
    -- Nothing is in store at the end, so all seven bits have been shifted.
    have hseven : shifted (s.clock i) gap ++ shifted (machine.runFrom (s.clock i) gap) is =
        leading 7 b := by
      have hp := hall.pending
      rw [pending, hzero, pending, hcount] at hp
      have hdata : (s.clock i).data = b := by rw [hload]
      rw [hdata] at hp
      exact (List.append_nil _).symm.trans hp
    rw [hbits, hrun, hseven]
    rw [hseven] at hall
    have hsize : (s.clock i).size = s.size := by rw [hload]
    have hpoly : (s.clock i).poly = s.poly := by rw [hload]
    have hsreg : (s.clock i).sreg = s.sreg := by rw [hload]
    have hs := hall.sreg
    rw [hsize, hpoly, hsreg] at hs
    exact ⟨rfl, hall.size.trans hsize, hall.poly.trans hpoly, hs, hzero⟩

/-- The configuration of the unit, and its counter. -/
def config (s : Crc) : BitVec 2 × DataType × DataType × ℤ := (s.size, s.poly, s.sreg, s.counter)

theorem config_run {is : List CrcInput} (h : ∀ i ∈ is, i.Quiet) (hc : s.counter = 0) :
    (machine.runFrom s is).config = s.config := by
  induction is generalizing s with
  | nil => rfl
  | cons i is ih =>
    have hi := h i (by simp)
    have hstep : (s.clock i).config = s.config := by
      rw [clock_of_quiet hi, access_of_quiet hi.2, generate, hc, if_neg (lt_irrefl 0)]
      simp [config, hc]
    have hzero : (s.clock i).counter = 0 := by
      have := congrArg (fun c => c.2.2.2) hstep
      exact this.trans hc
    exact (ih (fun j hj => h j (by simp [hj])) hzero).trans hstep

/-- A store to a register of the configuration, with the clocks behind it. -/
theorem config_of_stores {r : BitVec 3} {v : DataType} {gap : List CrcInput} (h : i.Stores r v)
    (hg : Gap gap) (hr : r ≠ 0b100#3) (hc : s.counter = 0) :
    (machine.runFrom s (i :: gap)).config =
      (if r = 0b000#3 then v.extractLsb' 4 2 else s.size, if r = 0b010#3 then v else s.poly,
        if r = 0b011#3 then v else s.sreg, 0) := by
  have hload : (s.clock i).config =
      (if r = 0b000#3 then v.extractLsb' 4 2 else s.size, if r = 0b010#3 then v else s.poly,
        if r = 0b011#3 then v else s.sreg, 0) := by
    have hsel (r' : BitVec 3) : i.request.selects r' = decide (r = r') := by
      by_cases he : r = r'
      · rw [← he, h.2.1, decide_eq_true rfl]
      · rw [MemRequest.selects_of_ne h.2.1 he, decide_eq_false he]
    rw [clock_of_stores h hc, access, config]
    simp only [hsel, h.2.2.1, h.2.2.2, decide_eq_true_eq, if_true, hr, if_false]
    split_ifs <;> simp_all
  have hzero : (s.clock i).counter = 0 := congrArg (fun c => c.2.2.2) hload
  exact (config_run hg.quiet hzero).trans hload

/-- `crc_init` configures an idle unit. -/
theorem configured_of_crcInit {ctrl poly sreg : DataType} {is : List CrcInput}
    (h : CrcInit ctrl poly sreg is) (hc : s.counter = 0) :
    (machine.runFrom s is).size = ctrl.extractLsb' 4 2 ∧ (machine.runFrom s is).poly = poly ∧
      (machine.runFrom s is).sreg = sreg ∧ (machine.runFrom s is).counter = 0 := by
  cases h with
  | @intro i j k gap gap' gap'' hi hg hj hg' hk hg'' =>
    have hctrl : (machine.runFrom s (i :: gap)).config =
        (ctrl.extractLsb' 4 2, s.poly, s.sreg, 0) := config_of_stores hi hg (by decide) hc
    rw [Machine.runFrom_append, Machine.runFrom_append]
    generalize machine.runFrom s (i :: gap) = a at hctrl ⊢
    simp only [config, Prod.mk.injEq] at hctrl
    have hpoly : (machine.runFrom a (j :: gap')).config = (a.size, poly, a.sreg, 0) :=
      config_of_stores hj hg' (by decide) hctrl.2.2.2
    generalize machine.runFrom a (j :: gap') = b at hpoly ⊢
    simp only [config, Prod.mk.injEq] at hpoly
    have hsreg : (machine.runFrom b (k :: gap'')).config = (b.size, b.poly, sreg, 0) :=
      config_of_stores hk hg'' (by decide) hpoly.2.2.2
    simp only [config, Prod.mk.injEq] at hsreg
    exact ⟨hsreg.1.trans (hpoly.1.trans hctrl.1), hsreg.2.1.trans hpoly.2.1, hsreg.2.2.1,
      hsreg.2.2.2⟩

/-! ## A block -/

/-- `crc_block`, by induction on the bytes. -/
theorem written_of_crcBlock {bytes : List (BitVec 8)} {is : List CrcInput}
    (h : CrcBlock s bytes is) (hc : s.counter = 0) :
    shifted s is = bytes.flatMap (leading 7) ∧
      Written s (bytes.flatMap (leading 7)) (machine.runFrom s is) := by
  induction h with
  | nil s => exact ⟨rfl, rfl, rfl, rfl, hc⟩
  | @cons s b bytes is js hw _ ih =>
    obtain ⟨hbits, hfirst⟩ := written_of_crcWrite hw hc
    obtain ⟨hrest, hlast⟩ := ih hfirst.idle
    have hs := hlast.sreg
    rw [hfirst.size, hfirst.poly, hfirst.sreg] at hs
    rw [shifted_append, Machine.runFrom_append, hbits, hrest, List.flatMap_cons]
    exact ⟨rfl, hlast.size.trans hfirst.size, hlast.poly.trans hfirst.poly,
      by rw [hs, List.foldl_append], hlast.idle⟩

/-- The unit drops the last bit of every byte, so it divides a sequence of bytes only if there are
none. Its register is still right exactly if the generator divides what the dropped bits change. -/
theorem crc_block_divides_iff {ctrl poly init : DataType} {bytes : List (BitVec 8)}
    {is js : List CrcInput} (hidle : s.counter = 0) (hinit : CrcInit ctrl poly init is)
    (hblock : CrcBlock (machine.runFrom s is) bytes js) :
    let size := ctrl.extractLsb' 4 2
    let unit := machine.runFrom s (is ++ js)
    (ofVec (lowBits size unit.sreg) =
        crc (lowBits size poly) (lowBits size init) (bytes.flatMap (leading 8)) ↔
      generator (lowBits size poly) ∣ augmented (lowBits size init) (bytes.flatMap (leading 7)) -
        augmented (lowBits size init) (bytes.flatMap (leading 8))) ∧
    (Divides size poly init bytes unit.sreg (shifted (machine.runFrom s is) js) ↔ bytes = []) := by
  intro size unit
  obtain ⟨hsize, hpoly, hsreg, hcount⟩ := configured_of_crcInit hinit hidle
  obtain ⟨hbits, hw⟩ := written_of_crcBlock hblock hcount
  have hreg : ofVec (lowBits size unit.sreg) =
      crc (lowBits size poly) (lowBits size init) (bytes.flatMap (leading 7)) := by
    have hs := hw.sreg
    rw [hsize, hpoly, hsreg] at hs
    rw [← ofVec_foldl (width_pos size), ← hs]
    exact congrArg (fun e : Crc => ofVec (lowBits size e.sreg)) (Machine.runFrom_append _ _ _)
  refine ⟨by rw [hreg, crc_eq_iff], fun h => ?_, ?_⟩
  · have hlen := congrArg List.length (hbits.symm.trans h.all)
    simp only [List.length_flatMap, length_leading, List.map_const', List.sum_replicate,
      smul_eq_mul] at hlen
    exact List.length_eq_zero_iff.mp (by omega)
  · rintro rfl
    exact ⟨hreg, hbits⟩

/-! ## The first message of the test program -/

/-- A clock with a strobe for register `r`. -/
def strobe (r : BitVec 3) (v : DataType) (wren : Bool) : CrcInput :=
  ⟨⟨true, .word, 0#27 ++ r ++ 0b00#2, v, wren⟩, false⟩

/-- A clock without a strobe. -/
def rest : CrcInput := ⟨⟨false, .unknown, 0, 0, false⟩, false⟩

/-- CRC-32/BZIP2, starting from all ones. -/
def initializing : List CrcInput :=
  [strobe 0b000 0 true, rest, strobe 0b010 0x04c11db7 true, rest,
    strobe 0b011 0xffffffff true, rest]

/-- Write one 0xff and read the status five times. -/
def writing : List CrcInput :=
  [strobe 0b100 0xff true, rest, strobe 0b001 0 false, rest, strobe 0b001 0 false, rest,
    strobe 0b001 0 false, rest, strobe 0b001 0 false, rest, strobe 0b001 0 false, rest]

theorem gap_rest : Gap [rest] := ⟨by simp, by simp [Idle, rest]⟩

theorem stores_strobe (r : BitVec 3) (v : DataType) : (strobe r v true).Stores r v := by
  have haddr : ∀ r : BitVec 3, (0#27 ++ r ++ 0b00#2).extractLsb' 0 2 = 0 ∧
      (0#27 ++ r ++ 0b00#2).extractLsb' 2 3 = r := by decide
  exact ⟨rfl, by simp [MemRequest.selects, MemRequest.isword, strobe, haddr r], rfl, rfl⟩

theorem crcInit_initializing : CrcInit 0 0x04c11db7 0xffffffff initializing :=
  .intro (stores_strobe 0b000 0) gap_rest (stores_strobe 0b010 0x04c11db7) gap_rest
    (stores_strobe 0b011 0xffffffff) gap_rest

theorem awaits_again {is : List CrcInput}
    (h : (s.clock (strobe 0b001 0 false)).response.data.getLsbD 3 = false)
    (hs : Awaits (machine.runFrom s [strobe 0b001 0 false, rest]) is) :
    Awaits s (strobe 0b001 0 false :: rest :: is) :=
  .again ⟨rfl, rfl, rfl⟩ gap_rest h hs

theorem crcBlock_writing (hs : s = machine.run initializing) : CrcBlock s [0xff] writing := by
  subst hs
  have hpolls : Awaits (machine.runFrom (machine.run initializing) [strobe 0b100 0xff true, rest])
      (writing.drop 2) :=
    awaits_again (by decide) (awaits_again (by decide) (awaits_again (by decide)
      (awaits_again (by decide) (.complete ⟨rfl, rfl, rfl⟩ gap_rest (by decide)))))
  exact .cons (.intro (stores_strobe 0b100 0xff) gap_rest hpolls) (.nil _)

theorem ff_is_not_divided : ¬ Divides 0b00 0x04c11db7 0xffffffff [0xff]
    (machine.run (initializing ++ writing)).sreg (shifted (machine.run initializing) writing) :=
  fun h => absurd ((crc_block_divides_iff (s := reset) rfl crcInit_initializing
    (crcBlock_writing rfl)).2.mp h) (by simp)

/-- The register holds 0xffffff80 instead of 0xffffff00. -/
theorem crc_of_ff_is_wrong : ¬ ∀ (s : Crc) (ctrl poly init : DataType) (bytes : List (BitVec 8))
    (is js : List CrcInput), machine.Reachable Machine.free s → s.counter = 0 →
    CrcInit ctrl poly init is → CrcBlock (machine.runFrom s is) bytes js →
    Divides (ctrl.extractLsb' 4 2) poly init bytes (machine.runFrom s (is ++ js)).sreg
      (shifted (machine.runFrom s is) js) := by
  intro h
  have hv := (h reset 0 0x04c11db7 0xffffffff [0xff] initializing writing .init rfl
    crcInit_initializing (crcBlock_writing rfl)).value
  rw [← ofVec_foldl (width_pos _)] at hv
  revert hv
  rw [ofVec_injective.eq_iff]
  decide +kernel

end Crc

end ThuasRiscv
