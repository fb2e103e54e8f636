import ThuasRiscv.Bus.IoBusSwitch
import ThuasRiscv.Transition

/-!
# TIMER2

A 16-bit timer with a prescaler, a compare register T and three channels A, B
and C for Output Compare, PWM and Input Capture. The compare registers and the
prescaler act through shadow registers. Where the bus and the counter write a
signal in one clock, the counter wins.
-/

namespace ThuasRiscv

/-- The registers of a channel. -/
structure TimerChannel where
  /-- Compare Match Interrupt Enable. -/
  ie : Bool
  /-- Preload the compare register. -/
  pre : Bool
  mode : BitVec 3
  /-- Start phase. -/
  pha : Bool
  /-- Compare Match. -/
  cm : Bool
  cmp : BitVec 16
  cmpshadow : BitVec 16
  oc : Bool
  icsync : BitVec 3
  deriving DecidableEq

structure TimerB where
  en : Bool
  /-- One-shot. -/
  os : Bool
  tcie : Bool
  pret : Bool
  modet : BitVec 3
  phat : Bool
  tc : Bool
  cntr : BitVec 16
  cmpt : BitVec 16
  prsc : BitVec 16
  /-- The internal prescaler. -/
  prescaler : BitVec 16
  prscshadow : BitVec 16
  cmptshadow : BitVec 16
  oct : Bool
  a : TimerChannel
  b : TimerChannel
  c : TimerChannel
  response : IoDevice
  deriving DecidableEq

/-- What the timer reads in a clock: the bus, and the pins that the timer does not drive. -/
structure TimerBInput where
  request : MemRequest
  sreset : Bool
  icoca : Bool
  icocb : Bool
  icocc : Bool

/-- Force an output: toggle, set or clear, or do nothing. -/
def forceOutput (mode : BitVec 3) (oc : Bool) : Bool :=
  match mode with
  | 0b001#3 => !oc
  | 0b010#3 => true
  | 0b011#3 => false
  | _ => oc

namespace TimerChannel

variable (s n : TimerChannel) (k : ℕ) (d : DataType) (cntr cmptshadow : BitVec 16)

def reset : TimerChannel := ⟨false, false, 0, false, false, 0, 0, false, 0⟩

/-! ## Bus accesses, channel A is number 0 -/

/-- A write to the control register with a FOC bit set. -/
def force : TimerChannel :=
  if d.getLsbD (29 + k) then { s with oc := forceOutput (d.extractLsb' (16 + 4 * k) 3) s.oc } else s

/-- The output behind a write to the control register: the start phase, or an immediate output
compare for a start with an all zero compare register. -/
def startOutput (mode : BitVec 3) (pha : Bool) : Bool :=
  if s.cmp = 0 ∧ d.getLsbD 0 = true then
    match mode with
    | 0b001#3 | 0b010#3 => !pha
    | _ => pha
  else pha

/-- A write to the control register without a FOC bit. -/
def control : TimerChannel :=
  let mode := d.extractLsb' (16 + 4 * k) 3
  let pha := d.getLsbD (19 + 4 * k)
  { s with
    ie := d.getLsbD (5 + k)
    pre := d.getLsbD (9 + k)
    mode := mode
    pha := pha
    oc := s.startOutput d mode pha }

/-- A write to the compare register. -/
def writeCompare (en : Bool) : TimerChannel :=
  let v := d.extractLsb' 0 16
  { s with cmp := v, cmpshadow := if !en || !s.pre then v else s.cmpshadow }

/-! ## Counting steps; `n` is what the bus leaves -/

/-- Load the shadow register. -/
def reload : TimerChannel := { n with cmpshadow := s.cmp }

/-- Generate Output Enabled. -/
def ocen : Bool :=
  match s.mode with
  | 0b001#3 | 0b010#3 | 0b011#3 | 0b100#3 => true
  | _ => false

/-- The level of the pin. -/
def pin (ic : Bool) : Bool := if s.ocen then s.oc else ic

/-- Compare match of the next step. -/
def compareMatch : Bool := (s.cmpshadow = 0 && cntr = cmptshadow) || cntr = s.cmpshadow - 1

/-- Set the output on a compare match. -/
def onMatch (oc : Bool) : TimerChannel :=
  if s.compareMatch cntr cmptshadow then { n with oc := oc, cm := true } else n

/-- Edge-aligned PWM. -/
def pwmOutput (os : Bool) : Bool :=
  if s.cmpshadow = 0 then s.pha
  else if cntr < s.cmpshadow - 1 ∨ (cntr = cmptshadow ∧ os = false) then !s.pha
  else s.pha

/-- Copy the counter to the compare register. -/
def capture (edge : Bool) : TimerChannel := if edge then { n with cmp := cntr, cm := true } else n

/-- One counting step of a channel. -/
def step (os ic : Bool) : TimerChannel :=
  let n := { n with icsync := s.icsync.extractLsb' 0 2 ++ BitVec.ofBool (s.pin ic) }
  match s.mode with
  | 0b000#3 => { n with oc := false }
  | 0b001#3 => s.onMatch n cntr cmptshadow (!s.oc)
  | 0b010#3 => s.onMatch n cntr cmptshadow (!s.pha)
  | 0b011#3 => s.onMatch n cntr cmptshadow s.pha
  | 0b100#3 =>
    { n with
      oc := s.pwmOutput cntr cmptshadow os
      cm := if cntr = s.cmpshadow - 1 then true else n.cm }
  | 0b110#3 => n.capture cntr (s.icsync.extractLsb' 1 2 = 0b01)
  | 0b111#3 => n.capture cntr (s.icsync.extractLsb' 1 2 = 0b10)
  | _ => { n with oc := false }

end TimerChannel

namespace TimerB

variable (s n : TimerB) (q : MemRequest) (d : DataType)

def reset : TimerB where
  en := false
  os := false
  tcie := false
  pret := false
  modet := 0
  phat := false
  tc := false
  cntr := 0
  cmpt := 0
  prsc := 0
  prescaler := 0
  prscshadow := 0
  cmptshadow := 0
  oct := false
  a := .reset
  b := .reset
  c := .reset
  response := .reset

/-! ## Bus accesses -/

/-- The control register. -/
def ctrl : DataType :=
  0#4 ++ BitVec.ofBool s.c.pha ++ s.c.mode ++ BitVec.ofBool s.b.pha ++ s.b.mode ++
    BitVec.ofBool s.a.pha ++ s.a.mode ++ BitVec.ofBool s.phat ++ s.modet ++
    BitVec.ofBool s.c.pre ++ BitVec.ofBool s.b.pre ++ BitVec.ofBool s.a.pre ++
    BitVec.ofBool s.pret ++ BitVec.ofBool s.c.ie ++ BitVec.ofBool s.b.ie ++
    BitVec.ofBool s.a.ie ++ BitVec.ofBool s.tcie ++ BitVec.ofBool s.os ++ 0#2 ++
    BitVec.ofBool s.en

/-- The status register. -/
def stat : DataType :=
  0#24 ++ BitVec.ofBool s.c.cm ++ BitVec.ofBool s.b.cm ++ BitVec.ofBool s.a.cm ++
    BitVec.ofBool s.tc ++ 0#4

/-- The register that a read returns. -/
def readData : DataType :=
  if q.selects 0b000#3 then s.ctrl
  else if q.selects 0b001#3 then s.stat
  else if q.selects 0b010#3 then s.cntr.setWidth 32
  else if q.selects 0b011#3 then s.cmpt.setWidth 32
  else if q.selects 0b100#3 then s.prsc.setWidth 32
  else if q.selects 0b101#3 then s.a.cmp.setWidth 32
  else if q.selects 0b110#3 then s.b.cmp.setWidth 32
  else if q.selects 0b111#3 then s.c.cmp.setWidth 32
  else 0

/-- A write to the control register with a FOC bit set, which is not copied. -/
def force : TimerB :=
  { s with
    oct := if d.getLsbD 28 then forceOutput (d.extractLsb' 12 3) s.oct else s.oct
    a := s.a.force 0 d
    b := s.b.force 1 d
    c := s.c.force 2 d }

/-- A write to the control register. -/
def control : TimerB :=
  { s with
    en := d.getLsbD 0
    os := d.getLsbD 3
    tcie := d.getLsbD 4
    pret := d.getLsbD 8
    modet := d.extractLsb' 12 3
    phat := d.getLsbD 15
    oct := d.getLsbD 15
    a := s.a.control 0 d
    b := s.b.control 1 d
    c := s.c.control 2 d }

/-- A write to the register that is selected. -/
def write : TimerB :=
  if q.selects 0b000#3 then
    if q.data.extractLsb' 28 4 ≠ 0 then s.force q.data else s.control q.data
  else if q.selects 0b001#3 then
    { s with
      tc := q.data.getLsbD 4
      a.cm := q.data.getLsbD 5
      b.cm := q.data.getLsbD 6
      c.cm := q.data.getLsbD 7 }
  else if q.selects 0b010#3 then { s with cntr := q.data.extractLsb' 0 16 }
  else if q.selects 0b011#3 then
    { s with
      cmpt := q.data.extractLsb' 0 16
      -- stopped, or preload is off
      cmptshadow := if !s.en || !s.pret then q.data.extractLsb' 0 16 else s.cmptshadow }
  else if q.selects 0b100#3 then
    { s with
      prsc := q.data.extractLsb' 0 16
      prscshadow := if !s.en then q.data.extractLsb' 0 16 else s.prscshadow
      prescaler := 0 }
  else if q.selects 0b101#3 then { s with a := s.a.writeCompare q.data s.en }
  else if q.selects 0b110#3 then { s with b := s.b.writeCompare q.data s.en }
  else if q.selects 0b111#3 then { s with c := s.c.writeCompare q.data s.en }
  else s

/-- The signals as the bus leaves them. -/
def access : TimerB :=
  let n := { s with response := .clock q (s.readData q) false }
  if q.wren then n.write q else n

/-! ## The counter -/

/-- The timer is enabled and the internal prescaler is at its end. -/
def ticks : Bool := s.en && decide (s.prscshadow ≤ s.prescaler)

/-- The counter hits the compare register T. -/
def hits : Bool := decide (s.cmptshadow ≤ s.cntr)

/-- Toggle OCT, or not. -/
def nextOct : Bool :=
  match s.modet with
  | 0b000#3 => false
  | 0b001#3 => !s.oct
  | 0b010#3 => !s.phat
  | 0b011#3 => s.phat
  | _ => false

/-- The counter wraps; a one-shot disables the timer. -/
def wrap : TimerB :=
  let n := { n with cntr := 0, tc := true, oct := s.nextOct }
  if s.os then { n with en := false, prescaler := 0 } else n

/-- Load the shadow registers. -/
def reload : TimerB :=
  { n with
    prscshadow := s.prsc
    cmptshadow := s.cmpt
    a := s.a.reload n.a
    b := s.b.reload n.b
    c := s.c.reload n.c }

/-- The last step but one of a period. -/
def reloads : Bool := s.cntr = s.cmptshadow - 1

/-- The counter in one clock; `n` is what the bus leaves. -/
def count : TimerB :=
  if s.en then
    if s.prscshadow ≤ s.prescaler then
      let n := { n with prescaler := 0 }
      if s.hits then s.wrap n
      else
        let n := if s.reloads then s.reload n else n
        { n with cntr := s.cntr + 1 }
    else { n with prescaler := s.prescaler + 1 }
  else n

/-- The channels in one clock. -/
def channels (i : TimerBInput) : TimerB :=
  if s.ticks then
    { n with
      a := s.a.step n.a s.cntr s.cmptshadow s.os i.icoca
      b := s.b.step n.b s.cntr s.cmptshadow s.os i.icocb
      c := s.c.step n.c s.cntr s.cmptshadow s.os i.icocc }
  else n

/-! ## One clock -/

def clock (i : TimerBInput) : TimerB :=
  if i.sreset then .reset else s.channels (s.count (s.access i.request)) i

def irq : Bool :=
  s.tcie && s.tc || s.a.ie && s.a.cm || s.b.ie && s.b.cm || s.c.ie && s.c.cm

/-- The timer from its reset on. -/
def machine : Transition.Machine TimerB TimerBInput := ⟨reset, clock⟩

end TimerB

end ThuasRiscv
