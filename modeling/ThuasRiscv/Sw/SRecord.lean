import ThuasRiscv.Numerals
import Mathlib.Data.BitVec
import Mathlib.Data.List.Basic

/-!
# Motorola S-records

A record is a line of text: `S`, the type, and hex digits in either case that
spell a count, an address, data and a checksum. The count is the number of
bytes behind it. The types 1, 2 and 3 carry data for an address of two, three
or four bytes; the other types carry none.
-/

namespace ThuasRiscv

/-- A character of one byte. -/
abbrev Ascii := BitVec 8

def ascii (c : Char) : Ascii := BitVec.ofNat 8 c.toNat

namespace SRecord

/-! ## Hex digits -/

/-- The value of a hex digit. -/
def hexDigit? (c : Ascii) : Option (BitVec 4) :=
  if ascii '0' ≤ c ∧ c ≤ ascii '9' then some ((c - ascii '0').setWidth 4)
  else if ascii 'A' ≤ c ∧ c ≤ ascii 'F' then some ((c - ascii 'A' + 10).setWidth 4)
  else if ascii 'a' ≤ c ∧ c ≤ ascii 'f' then some ((c - ascii 'a' + 10).setWidth 4)
  else none

/-- The bytes that a text spells with two hex digits a byte. -/
def hexBytes? : List Ascii → Option (List (BitVec 8))
  | [] => some []
  | [_] => none
  | a :: b :: cs =>
    match hexDigit? a, hexDigit? b, hexBytes? cs with
    | some h, some l, some vs => some ((h ++ l) :: vs)
    | _, _, _ => none

/-- The number that bytes spell, the most significant first. -/
def beNat (vs : List (BitVec 8)) : ℕ := vs.foldl (fun x v => 256 * x + v.toNat) 0

theorem beNat_lt (vs : List (BitVec 8)) : beNat vs < 256 ^ vs.length :=
  Numerals.value_lt fun v _ => v.isLt

/-- The bytes of a number are shifted and added. -/
theorem ofNat_beNat_cons {w : ℕ} (hw : 8 ≤ w) (v : BitVec 8) (vs : List (BitVec 8)) :
    BitVec.ofNat w (beNat (v :: vs)) =
      (v.setWidth w <<< (8 * vs.length)) + BitVec.ofNat w (beNat vs) := by
  have hcons : beNat (v :: vs) = v.toNat * 256 ^ vs.length + beNat vs :=
    Numerals.value_cons v vs
  have hv : v.toNat < 2 ^ w :=
    Nat.lt_of_lt_of_le v.isLt (Nat.pow_le_pow_right (by decide) hw)
  have hfirst : BitVec.ofNat w (v.toNat * 256 ^ vs.length) = v.setWidth w <<< (8 * vs.length) := by
    apply BitVec.eq_of_toNat_eq
    rw [BitVec.toNat_ofNat, BitVec.toNat_shiftLeft, BitVec.toNat_setWidth, Nat.mod_eq_of_lt hv,
      Nat.shiftLeft_eq, Nat.pow_mul]
  rw [hcons, BitVec.ofNat_add, hfirst]

theorem hexBytes?_cons {cs : List Ascii} {v : BitVec 8} {vs : List (BitVec 8)}
    (h : hexBytes? cs = some (v :: vs)) :
    ∃ a b cs' hi lo, cs = a :: b :: cs' ∧ hexDigit? a = some hi ∧ hexDigit? b = some lo ∧
      v = hi ++ lo ∧ hexBytes? cs' = some vs := by
  match cs with
  | [] => cases h
  | [_] => cases h
  | a :: b :: cs' =>
    rw [hexBytes?] at h
    split at h
    · next hi lo vs' ha hb hcs =>
      cases h
      exact ⟨a, b, cs', hi, lo, rfl, ha, hb, rfl, hcs⟩
    · cases h

theorem length_hexBytes? {cs : List Ascii} {vs : List (BitVec 8)} (h : hexBytes? cs = some vs) :
    cs.length = 2 * vs.length := by
  induction vs generalizing cs with
  | nil =>
    match cs with
    | [] => rfl
    | [_] => cases h
    | a :: b :: cs' =>
      rw [hexBytes?] at h
      split at h <;> cases h
  | cons v vs ih =>
    obtain ⟨a, b, cs', hi, lo, rfl, -, -, -, hcs⟩ := hexBytes?_cons h
    rw [List.length_cons, List.length_cons, ih hcs, List.length_cons]
    omega

/-- The digits of some bytes and of the bytes behind them. -/
theorem hexBytes?_append {cs : List Ascii} (vs : List (BitVec 8)) {us : List (BitVec 8)}
    (h : hexBytes? cs = some (vs ++ us)) :
    ∃ as bs, cs = as ++ bs ∧ hexBytes? as = some vs ∧ hexBytes? bs = some us := by
  induction vs generalizing cs with
  | nil => exact ⟨[], cs, rfl, rfl, h⟩
  | cons v vs ih =>
    obtain ⟨a, b, cs', hi, lo, rfl, ha, hb, rfl, hcs⟩ := hexBytes?_cons h
    obtain ⟨as, bs, rfl, has, hbs⟩ := ih hcs
    refine ⟨a :: b :: as, bs, rfl, ?_, hbs⟩
    rw [hexBytes?, ha, hb, has]

theorem isSome_of_mem {cs : List Ascii} {vs : List (BitVec 8)} (h : hexBytes? cs = some vs) :
    ∀ c ∈ cs, (hexDigit? c).isSome = true := by
  induction vs generalizing cs with
  | nil =>
    rw [List.length_eq_zero_iff.mp (length_hexBytes? h)]
    exact nofun
  | cons v vs ih =>
    obtain ⟨a, b, cs', hi, lo, rfl, ha, hb, -, hcs⟩ := hexBytes?_cons h
    intro c hc
    rcases List.mem_cons.mp hc with rfl | hc
    · rw [ha]
      rfl
    · rcases List.mem_cons.mp hc with rfl | hc
      · rw [hb]
        rfl
      · exact ih hcs c hc

/-- There is no end of a line in hex digits. -/
theorem not_mem_of_hexBytes? {cs : List Ascii} {vs : List (BitVec 8)}
    (h : hexBytes? cs = some vs) {c : Ascii} (hc : hexDigit? c = none) : c ∉ cs := by
  intro hmem
  have hsome := isSome_of_mem h c hmem
  rw [hc] at hsome
  cases hsome

/-- A hex digit in upper case. -/
def hexDigit (d : BitVec 4) : Ascii :=
  if d < 10 then ascii '0' + d.setWidth 8 else ascii 'A' + (d.setWidth 8 - 10)

/-- Two hex digits for each byte. -/
def hexText : List (BitVec 8) → List Ascii
  | [] => []
  | v :: vs => hexDigit (v.extractLsb' 4 4) :: hexDigit (v.extractLsb' 0 4) :: hexText vs

theorem hexBytes?_hexText (vs : List (BitVec 8)) : hexBytes? (hexText vs) = some vs := by
  induction vs with
  | nil => rfl
  | cons v vs ih =>
    have hdigit : ∀ d : BitVec 4, hexDigit? (hexDigit d) = some d := by decide
    rw [hexText, hexBytes?, hdigit, hdigit, ih]
    have happend : v.extractLsb' 4 4 ++ v.extractLsb' 0 4 = v := by
      exact BitVec.extractLsb'_append_extractLsb'
    simp only [happend]

/-! ## Records -/

/-- The types of the data records. -/
inductive DataRecordType where
  | s1 | s2 | s3
  deriving DecidableEq, Repr

namespace DataRecordType

def char : DataRecordType → Ascii
  | .s1 => ascii '1'
  | .s2 => ascii '2'
  | .s3 => ascii '3'

/-- The number of bytes of the address. -/
def addressLength : DataRecordType → ℕ
  | .s1 => 2
  | .s2 => 3
  | .s3 => 4

end DataRecordType

/-- A data record. The checksum may have any value, since none of the programs checks it. -/
structure DataRecord where
  type : DataRecordType
  address : List (BitVec 8)
  data : List (BitVec 8)
  checksum : BitVec 8
  digits : List Ascii
  eol : List Ascii
  length_address : address.length = type.addressLength
  count_lt : address.length + data.length + 1 < 256
  spells : hexBytes? digits = some (BitVec.ofNat 8 (address.length + data.length + 1) ::
    (address ++ (data ++ [checksum])))
  eol_eq : eol = [ascii '\n'] ∨ eol = [ascii '\r', ascii '\n']

namespace DataRecord

variable (r : DataRecord)

def line : List Ascii := ascii 'S' :: r.type.char :: (r.digits ++ r.eol)

/-- A data record in upper case on a line of its own. -/
def ofBytes (type : DataRecordType) (address data : List (BitVec 8)) (checksum : BitVec 8)
    (haddress : address.length = type.addressLength)
    (hlt : address.length + data.length + 1 < 256) : DataRecord where
  type := type
  address := address
  data := data
  checksum := checksum
  digits := hexText (BitVec.ofNat 8 (address.length + data.length + 1) ::
    (address ++ (data ++ [checksum])))
  eol := [ascii '\n']
  length_address := haddress
  count_lt := hlt
  spells := hexBytes?_hexText _
  eol_eq := .inl rfl

/-- The address of the first byte. -/
def addr : ℕ := beNat r.address

/-- The address behind the last byte. -/
def last : ℕ := r.addr + r.data.length

end DataRecord

/-- The types of the other records. -/
inductive OtherRecordType where
  | s0 | s4 | s5 | s6 | s7 | s8 | s9
  deriving DecidableEq, Repr

namespace OtherRecordType

def char : OtherRecordType → Ascii
  | .s0 => ascii '0'
  | .s4 => ascii '4'
  | .s5 => ascii '5'
  | .s6 => ascii '6'
  | .s7 => ascii '7'
  | .s8 => ascii '8'
  | .s9 => ascii '9'

/-- The number of digits of the start address of an end record. -/
def startDigits : OtherRecordType → Option ℕ
  | .s7 => some 8
  | .s8 => some 6
  | .s9 => some 4
  | _ => none

end OtherRecordType

/-- A record without data; an end record has at least the digits of count and start address. -/
structure OtherRecord where
  type : OtherRecordType
  text : List Ascii
  no_newline : ascii '\n' ∉ text
  length_le : text.length ≤ 514
  startDigits_le : ∀ k, type.startDigits = some k → 2 + k ≤ text.length

def OtherRecord.line (r : OtherRecord) : List Ascii :=
  ascii 'S' :: r.type.char :: (r.text ++ [ascii '\n'])

inductive Record where
  | data (r : DataRecord)
  | other (r : OtherRecord)

def Record.line : Record → List Ascii
  | .data r => r.line
  | .other r => r.line

/-- A line ends with its only newline. -/
theorem Record.line_eq (r : Record) : ∃ body, r.line = body ++ [ascii '\n'] ∧
    ascii '\n' ∉ body ∧ body.length ≤ 516 := by
  cases r with
  | data r =>
    have hdigits : ascii '\n' ∉ r.digits := not_mem_of_hexBytes? r.spells (by decide)
    have hlen := length_hexBytes? r.spells
    have hlt := r.count_lt
    have hchar : ascii '\n' ≠ r.type.char := by cases r.type <;> decide
    have hS : ascii '\n' ≠ ascii 'S' := by decide
    have hcr : ascii '\n' ≠ ascii '\r' := by decide
    simp only [List.length_cons, List.length_append, List.length_nil] at hlen
    rcases r.eol_eq with h | h
    · refine ⟨ascii 'S' :: r.type.char :: r.digits, ?_, ?_, ?_⟩
      · simp [line, DataRecord.line, h]
      · simp [hS, hchar, hdigits]
      · simp only [List.length_cons]
        omega
    · refine ⟨ascii 'S' :: r.type.char :: (r.digits ++ [ascii '\r']), ?_, ?_, ?_⟩
      · simp [line, DataRecord.line, h]
      · simp [hS, hchar, hdigits, hcr]
      · simp only [List.length_cons, List.length_append, List.length_nil]
        omega
  | other r =>
    have hlen := r.length_le
    have hchar : ascii '\n' ≠ r.type.char := by cases r.type <;> decide
    have hS : ascii '\n' ≠ ascii 'S' := by decide
    refine ⟨ascii 'S' :: r.type.char :: r.text, ?_, ?_, ?_⟩
    · simp [line, OtherRecord.line]
    · simp [hS, hchar, r.no_newline]
    · simp only [List.length_cons]
      omega

/-- The text of a file. -/
def text (rs : List Record) : List Ascii := rs.flatMap Record.line

/-- The data records of a file. -/
def dataRecords (rs : List Record) : List DataRecord :=
  rs.filterMap fun
    | .data r => some r
    | .other _ => none

end SRecord

end ThuasRiscv
