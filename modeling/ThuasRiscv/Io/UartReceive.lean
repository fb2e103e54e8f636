import ThuasRiscv.Io.SerialCounters

/-!
# Reads of received characters

The receiver copies every complete character to the data register, where it
stays until the next one is complete. A read of the data register returns the
shift register of the receiver instead, which is cleared when the receiver hunts
for a start bit and filled again bit by bit.
-/

namespace ThuasRiscv

open Transition

/-- What the receiver got from the line. -/
structure UartHistory where
  /-- The last completely received character. -/
  last : BitVec 9
  /-- The bits sampled since the receiver began to hunt for the start bit of the next character, with
  the control register at that time. -/
  sampled : Option (List (UartControl × Bool))
  deriving DecidableEq

/-- Sampled bits as a character. -/
def spell (bits : List (UartControl × Bool)) : BitVec 9 :=
  bits.foldl (fun x p => p.1.shiftIn p.2 x) 0

theorem spell_append (bits : List (UartControl × Bool)) (p : UartControl × Bool) :
    spell (bits ++ [p]) = p.1.shiftIn p.2 (spell bits) := by
  rw [spell, List.foldl_append]
  rfl

namespace Uart

variable (g : UartGenerics) (u : Uart) (i : UartInput) (h : UartHistory)

/-- One clock of the history. -/
def record : UartHistory :=
  if i.sreset then ⟨0, none⟩
  else match u.rx.rxstate with
  | .rxWait => { h with sampled := some [] }
  | .rxIter =>
    if u.rx.rxbittimer = 0 ∧ 0 < u.rx.rxshiftcounter then
      { h with sampled := h.sampled.map (· ++ [(u.ctrl, u.rx.rxdSync)]) }
    else h
  -- The character is complete.
  | .rxReady => ⟨spell (h.sampled.getD []), none⟩
  | _ => h

/-- The device with an observer of the history. -/
def recorded : Machine (Uart × UartHistory) UartInput :=
  (machine g).observe ⟨0, none⟩ record

/-- The states in which bits of the next character are sampled or wait to be copied. -/
def sampling : UartRxState → Bool
  | .rxIter | .rxParity | .rxReady => true
  | _ => false

/-- The data register holds the last character, and the shift register what was sampled since. -/
structure Recorded : Prop where
  data : u.data = h.last.setWidth 12
  rxbuffer : u.rx.rxbuffer = h.sampled.elim h.last spell
  sampling : sampling u.rx.rxstate = true → h.sampled.isSome = true

variable {g u i h}

/-- One clock of the receiver, by its state. -/
theorem Recorded.next (hr : Recorded u h) :
    Recorded (u.clock g i.request i.sreset i.rxd) (u.record i h) := by
  cases hs : i.sreset with
  | true =>
    rw [clock, record, hs, if_pos rfl, if_pos rfl]
    exact ⟨rfl, rfl, fun hsamp => by cases hsamp⟩
  | false =>
    have hdata := hr.data
    have hbuf := hr.rxbuffer
    have hsome := hr.sampling
    rw [clock, record, hs, if_neg Bool.false_ne_true, if_neg Bool.false_ne_true]
    cases hst : u.rx.rxstate with
    | rxIdle =>
      refine ⟨by rw [nextData, hst]; exact hdata, ?_, ?_⟩
      · simp only [nextRx, hst]
        split_ifs <;> exact hbuf
      · simp only [nextRx, hst]
        split_ifs <;> intro hsamp <;> cases hsamp
    | rxWait =>
      -- The shift register is cleared.
      refine ⟨by rw [nextData, hst]; exact hdata, ?_, fun _ => rfl⟩
      simp only [nextRx, hst]
      split_ifs <;> rfl
    | rxIter =>
      obtain ⟨bits, hbits⟩ := Option.isSome_iff_exists.mp (hsome (by rw [hst]; rfl))
      rw [hbits] at hbuf
      refine ⟨?_, ?_, fun _ => ?_⟩
      · rw [nextData, hst]
        split_ifs <;> exact hdata
      · simp only [nextRx, hst, hbits]
        by_cases ht : 0 < u.rx.rxbittimer
        · simp [ht, Nat.ne_of_gt ht, hbits, hbuf]
        · by_cases hc : 0 < u.rx.rxshiftcounter
          · have ht0 : u.rx.rxbittimer = 0 := by omega
            simp [ht0, hc, hbuf, spell_append]
          · simp only [ht, hc, if_false, and_false]
            split_ifs <;> simp [hbits, hbuf]
      · split_ifs <;> simp [hbits]
    | rxParity =>
      obtain ⟨bits, hbits⟩ := Option.isSome_iff_exists.mp (hsome (by rw [hst]; rfl))
      refine ⟨by rw [nextData, hst]; exact hdata, ?_, fun _ => by simp [hbits]⟩
      simp only [nextRx, hst]
      split_ifs <;> exact hbuf
    | rxReady =>
      -- The character is copied, and stays in the shift register for now.
      obtain ⟨bits, hbits⟩ := Option.isSome_iff_exists.mp (hsome (by rw [hst]; rfl))
      rw [hbits] at hbuf
      refine ⟨?_, ?_, ?_⟩
      · simp only [nextData, hst, hbits, hbuf]
        rfl
      · simp only [nextRx, hst, hbits, hbuf]
        rfl
      · simp only [nextRx, hst]
        split_ifs <;> intro hsamp <;> cases hsamp
    | rxBreak =>
      refine ⟨by rw [nextData, hst]; exact hdata, ?_, ?_⟩
      · simp only [nextRx, hst]
        split_ifs <;> exact hbuf
      · simp only [nextRx, hst]
        split_ifs <;> intro hsamp <;> simp [Uart.sampling] at hsamp
    | rxFail =>
      refine ⟨by rw [nextData, hst]; exact hdata, ?_, ?_⟩
      · simp only [nextRx, hst]
        exact hbuf
      · simp only [nextRx, hst]
        intro hsamp
        cases hsamp

theorem recorded_of_reachable {p : Uart × UartHistory}
    (hp : (recorded g).Reachable Machine.free p) : Recorded p.1 p.2 := by
  induction hp with
  | init => exact ⟨rfl, rfl, fun hsamp => by cases hsamp⟩
  | step i _ _ ih => exact ih.next

/-! ## Reads -/

/-- A read returns the shift register. -/
theorem response_of_readsData (hread : readsData i.request = true) (hs : i.sreset = false) :
    ((machine g).next u i).response.data = u.rx.rxbuffer.setWidth 32 := by
  rw [readsData, Bool.and_eq_true, Bool.not_eq_true'] at hread
  obtain ⟨hsel, hwren⟩ := hread
  have hsel' := hsel
  simp only [selects, Bool.and_eq_true, decide_eq_true_eq] at hsel'
  obtain ⟨⟨hstb, hword⟩, haddr⟩ := hsel'
  have hother (r : BitVec 2) (hr : (0b10 : BitVec 2) ≠ r) : selects i.request r = false := by
    rw [selects, haddr, decide_eq_false hr, Bool.and_false]
  have hdata : u.readData i.request = u.rx.rxbuffer.setWidth 32 := by
    rw [readData, hother 0b00 (by decide), hother 0b01 (by decide), hother 0b11 (by decide)]
    rfl
  change (u.clock g i.request i.sreset i.rxd).response.data = _
  rw [clock, hs, if_neg Bool.false_ne_true]
  simp [nextResponse, IoDevice.clock, hstb, hword, hwren, hdata]

/-- For every received bit stream and every read time: a read of the data register returns the last
completely received character exactly if the receiver did not hunt for a start bit since then, or
if the bits sampled since then spell the same character. -/
theorem read_returns_last_iff (g : UartGenerics) {u : Uart} {h : UartHistory}
    (hp : (recorded g).Reachable Machine.free (u, h)) {i : UartInput}
    (hread : readsData i.request = true) (hs : i.sreset = false) :
    ((machine g).next u i).response.data = h.last.setWidth 32 ↔
      ∀ bits ∈ h.sampled, spell bits = h.last := by
  rw [response_of_readsData hread hs, (recorded_of_reachable hp).rxbuffer]
  have hinj (x y : BitVec 9) : x.setWidth 32 = y.setWidth 32 ↔ x = y := by
    rw [BitVec.toNat_inj.symm, BitVec.toNat_inj.symm, BitVec.toNat_setWidth_of_le (by decide),
      BitVec.toNat_setWidth_of_le (by decide)]
  rw [hinj]
  cases h.sampled with
  | none => simp
  | some bits => simp

/-- Two clocks a bit, and the levels of the line clock by clock. -/
def onLine (levels : List Bool) : List UartInput :=
  [⟨UartLink.store 0xc 1, false, true⟩, ⟨UartLink.store 0 1, false, true⟩] ++
    levels.map fun b => ⟨UartLink.noAccess, false, b⟩

/-- The character 0x41 and its stop bit. -/
def letterA : List Bool :=
  [false, true, false, false, false, false, false, true, false, true, true].flatMap fun b => [b, b]

/-- A load of the data register. -/
def readingData : UartInput := ⟨⟨true, .word, 8, 0, false⟩, false, true⟩

/-- The device after a line. -/
def listening (levels : List Bool) : Uart × UartHistory :=
  (recorded ⟨false, false⟩).run (onLine levels)

theorem listening_reachable (levels : List Bool) : (recorded ⟨false, false⟩).Reachable Machine.free
    ((listening levels).1, (listening levels).2) := Machine.reachable_run (onLine levels)

theorem letterA_is_read :
    ((machine ⟨false, false⟩).next (listening letterA).1 readingData).response.data = 0x41 :=
  ((read_returns_last_iff ⟨false, false⟩ (listening_reachable letterA) rfl rfl).mpr
    (by decide +kernel)).trans (by decide +kernel)

/-- A pulse of one clock on the line, too short for a start bit, clears what a read returns. -/
theorem letterA_is_lost : ¬ ∀ (g : UartGenerics) (u : Uart) (h : UartHistory),
    (recorded g).Reachable Machine.free (u, h) → ∀ i, readsData i.request = true →
      i.sreset = false → ((machine g).next u i).response.data = h.last.setWidth 32 := by
  intro h
  have hread := h ⟨false, false⟩ _ _
    (listening_reachable (letterA ++ [false, true, true, true, true])) readingData rfl rfl
  revert hread
  decide +kernel

end Uart

end ThuasRiscv
