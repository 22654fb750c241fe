import FieldBus.Parameter
import FieldBus.Station
import FieldBus.Value
import Mathlib.Algebra.Group.Nat.Defs
import Mathlib.Data.List.Induction
import Mathlib.Tactic.Common

/-!
# What decimal fields denote

The numbers of a frame travel as strings of digits.  A sender writes each number in one way; a
receiver takes any string that denotes it, whatever its leading zeros.  This file says what a
string denotes, apart from both.

* `Decimal.Denotes` — a string of digits and its number.  What `Decimal.padded` and
  `Decimal.shortest` write denotes the number they were given (`denotes_padded`,
  `denotes_shortest`).
* `Numeral.ofDigits` — a digit string as a receiver holds it while it comes in.
* `Station.Spelling`, `Parameter.Spelling`, `Value.Spelling` — the strings that stand for a
  station, a parameter and a value.  **The string a sender writes is always one of them**
  (`Station.spelling_field`, `Parameter.spelling_field`, `Value.spelling_field`), and a string
  stands for at most one.
-/

namespace FieldBus

namespace Byte

lemma isDigit_iff {b : UInt8} : isDigit b = true ↔ 0x30 ≤ b.toNat ∧ b.toNat ≤ 0x39 := by
  simp [isDigit, UInt8.le_iff_toNat_le]

lemma toNat_ofDigit (n : Nat) : (ofDigit n).toNat = 0x30 + n % 10 := by
  simp only [ofDigit, UInt8.toNat_ofNat']
  omega

lemma isDigit_ofDigit (n : Nat) : isDigit (ofDigit n) = true := by
  rw [isDigit_iff, toNat_ofDigit]
  omega

lemma digit_of_isDigit {b : UInt8} (h : isDigit b = true) : digit b = .ok (b.toNat - 0x30) := by
  rw [digit, if_pos h]

lemma digit_of_not_isDigit {b : UInt8} (h : isDigit b = false) :
    digit b = .error .invalidDigit := by
  rw [digit, if_neg (by simp [h])]

end Byte

/-! ## Strings of digits -/

namespace Decimal

/-- Every byte is a digit. -/
def AllDigits (bytes : Bytes) : Prop := ∀ b ∈ bytes, Byte.isDigit b = true

/-- The number that a string of digits denotes, most significant digit first. -/
def number (digits : Bytes) : Nat := digits.foldl (fun n b => n * 10 + (b.toNat - 0x30)) 0

/-- The string consists of digits and denotes the number. -/
structure Denotes (digits : Bytes) (n : Nat) : Prop where
  allDigits : AllDigits digits
  number_eq : number digits = n

@[simp] lemma allDigits_nil : AllDigits [] := by
  simp [AllDigits]

@[simp] lemma allDigits_cons {b : UInt8} {rest : Bytes} :
    AllDigits (b :: rest) ↔ Byte.isDigit b = true ∧ AllDigits rest := by
  simp [AllDigits]

@[simp] lemma allDigits_append {a b : Bytes} :
    AllDigits (a ++ b) ↔ AllDigits a ∧ AllDigits b := by
  simp [AllDigits, or_imp, forall_and]

lemma allDigits_concat {digits : Bytes} {b : UInt8} (h : AllDigits digits)
    (hb : Byte.isDigit b = true) : AllDigits (digits ++ [b]) :=
  allDigits_append.mpr ⟨h, by simp [hb]⟩

@[simp] lemma number_nil : number [] = 0 := rfl

lemma number_concat (digits : Bytes) (b : UInt8) :
    number (digits ++ [b]) = number digits * 10 + (b.toNat - 0x30) := by
  simp [number, List.foldl_append]

lemma number_zero_cons (digits : Bytes) : number (Byte.ofDigit 0 :: digits) = number digits := by
  simp [number, Byte.toNat_ofDigit]

lemma number_lt {digits : Bytes} (h : AllDigits digits) : number digits < 10 ^ digits.length := by
  -- the number grows at its last digit, so the induction takes digits off the end
  induction digits using List.reverseRecOn with
  | nil => simp
  | append_singleton rest b ih =>
      obtain ⟨hrest, hb⟩ := allDigits_append.mp h
      have hdigit : b.toNat ≤ 0x39 := (Byte.isDigit_iff.mp (hb b (by simp))).2
      have hlt := ih hrest
      rw [number_concat, List.length_append, List.length_singleton, Nat.pow_succ]
      omega

lemma number_lt_of_length_le {width : Nat} {digits : Bytes} (h : AllDigits digits)
    (hlength : digits.length ≤ width) : number digits < 10 ^ width :=
  Nat.lt_of_lt_of_le (number_lt h) (Nat.pow_le_pow_right (by decide) hlength)

lemma denotes_padded {width n : Nat} (h : n < 10 ^ width) : Denotes (padded width n) n := by
  induction width generalizing n with
  | zero => exact ⟨allDigits_nil, by simp at h; simp [padded, h]⟩
  | succ width ih =>
      have hrest := ih (n := n / 10) (by rw [Nat.pow_succ] at h; omega)
      constructor
      · rw [padded, allDigits_append]
        exact ⟨hrest.allDigits, by simp [Byte.isDigit_ofDigit]⟩
      · rw [padded, number_concat, hrest.number_eq, Byte.toNat_ofDigit]
        omega

lemma denotes_trimmed {digits : Bytes} {n : Nat} (h : Denotes digits n) :
    Denotes (trimmed digits) n := by
  fun_induction trimmed digits with
  | case1 => exact h
  | case2 => exact h
  | case3 e rest ih =>
      refine ih ⟨(allDigits_cons.mp h.allDigits).2, ?_⟩
      rw [← number_zero_cons]
      exact h.number_eq
  | case4 => exact h

lemma trimmed_ne_nil {digits : Bytes} (h : digits ≠ []) : trimmed digits ≠ [] := by
  fun_induction trimmed digits with
  | case1 => exact h
  | case2 => simp
  | case3 e rest ih => exact ih (by simp)
  | case4 => simp

lemma denotes_shortest {width n : Nat} (h : n < 10 ^ width) : Denotes (shortest width n) n :=
  denotes_trimmed (denotes_padded h)

lemma length_shortest_le (width n : Nat) : (shortest width n).length ≤ width := by
  have h := length_trimmed_le (padded width n)
  rwa [length_padded] at h

lemma length_shortest_pos (width n : Nat) : 0 < (shortest (width + 1) n).length :=
  List.length_pos_iff.mpr (trimmed_ne_nil (by simp [padded]))

end Decimal

namespace Numeral

/-- The digits of a field that has come in so far, as the receiver holds them. -/
def ofDigits (digits : Bytes) : Numeral := ⟨digits.length, Decimal.number digits⟩

@[simp] lemma count_ofDigits (digits : Bytes) : (ofDigits digits).count = digits.length := rfl

@[simp] lemma value_ofDigits (digits : Bytes) :
    (ofDigits digits).value = Decimal.number digits := rfl

@[simp] lemma ofDigits_nil : ofDigits [] = empty := rfl

lemma push_ofDigits (digits : Bytes) (b : UInt8) :
    (ofDigits digits).push (b.toNat - 0x30) = ofDigits (digits ++ [b]) := by
  simp [ofDigits, push, Decimal.number_concat]

end Numeral

/-! ## The fields of a frame -/

/-- Two digits that denote the number of the station. -/
structure Station.Spelling (station : Station) (field : Bytes) : Prop where
  length_eq : field.length = 2
  denotes : Decimal.Denotes field station.number

/-- Three digits that denote the number of the parameter. -/
structure Parameter.Spelling (parameter : Parameter) (field : Bytes) : Prop where
  length_eq : field.length = 3
  denotes : Decimal.Denotes field parameter.number

/-- The number that a sign and a magnitude stand for. -/
def Value.signed (sign : UInt8) (magnitude : Nat) : Int :=
  if sign = Byte.minus then -(magnitude : Int) else magnitude

/-- A sign and one to five digits that together denote the value. -/
structure Value.Spelling (value : Value) (sign : UInt8) (digits : Bytes) : Prop where
  isSign : Byte.isSign sign = true
  allDigits : Decimal.AllDigits digits
  length_pos : 0 < digits.length
  length_le : digits.length ≤ 5
  number_eq : Value.signed sign (Decimal.number digits) = value.number

namespace Station

lemma Spelling.allDigits_fields {station : Station} {parameter : Parameter} {a p : Bytes}
    (ha : station.Spelling a) (hp : parameter.Spelling p) : Decimal.AllDigits (a ++ p) :=
  Decimal.allDigits_append.mpr ⟨ha.denotes.allDigits, hp.denotes.allDigits⟩

lemma Spelling.length_fields {station : Station} {parameter : Parameter} {a p : Bytes}
    (ha : station.Spelling a) (hp : parameter.Spelling p) : (a ++ p).length = 5 := by
  rw [List.length_append, ha.length_eq, hp.length_eq]

lemma spelling_field (station : Station) : station.Spelling station.field where
  length_eq := Decimal.length_padded _ _
  denotes := Decimal.denotes_padded (Nat.lt_succ_of_le station.number_le)

/-- Two digits always name a station. -/
lemma ofInt_number {field : Bytes} (hlength : field.length = 2)
    (hdigits : Decimal.AllDigits field) :
    ∃ station, ofInt (Decimal.number field) = .ok station ∧ station.Spelling field := by
  have hlt := Decimal.number_lt hdigits
  rw [hlength] at hlt
  refine ⟨⟨Decimal.number field, by omega⟩, ?_, hlength, hdigits, rfl⟩
  rw [ofInt, dif_pos (by omega)]
  rfl

lemma Spelling.ofInt_eq {station : Station} {field : Bytes} (h : station.Spelling field) :
    ofInt (Decimal.number field) = .ok station := by
  have hle := station.number_le
  rw [h.denotes.number_eq, ofInt, dif_pos (by omega)]
  rfl

end Station

namespace Parameter

lemma spelling_field (parameter : Parameter) : parameter.Spelling parameter.field where
  length_eq := Decimal.length_padded _ _
  denotes := Decimal.denotes_padded (Nat.lt_succ_of_le parameter.number_le)

/-- Three digits always name a parameter. -/
lemma ofInt_number {field : Bytes} (hlength : field.length = 3)
    (hdigits : Decimal.AllDigits field) :
    ∃ parameter, ofInt (Decimal.number field) = .ok parameter ∧ parameter.Spelling field := by
  have hlt := Decimal.number_lt hdigits
  rw [hlength] at hlt
  refine ⟨⟨Decimal.number field, by omega⟩, ?_, hlength, hdigits, rfl⟩
  rw [ofInt, dif_pos (by omega)]
  rfl

lemma Spelling.ofInt_eq {parameter : Parameter} {field : Bytes} (h : parameter.Spelling field) :
    ofInt (Decimal.number field) = .ok parameter := by
  have hle := parameter.number_le
  rw [h.denotes.number_eq, ofInt, dif_pos (by omega)]
  rfl

end Parameter

namespace Value

lemma isSign_sign (value : Value) : Byte.isSign value.sign = true := by
  unfold sign
  split_ifs <;> rfl

/-- The sign and the shortest digits of a value denote it. -/
lemma spelling_field (value : Value) :
    value.Spelling value.sign (Decimal.shortest 5 value.number.natAbs) := by
  have hlo := value.le_number
  have hhi := value.number_le
  have hdenotes : Decimal.Denotes (Decimal.shortest 5 value.number.natAbs) value.number.natAbs :=
    Decimal.denotes_shortest (by omega)
  refine ⟨isSign_sign value, hdenotes.allDigits, Decimal.length_shortest_pos _ _,
    Decimal.length_shortest_le _ _, ?_⟩
  rw [hdenotes.number_eq, signed, sign]
  by_cases hneg : value.number < 0
  · rw [if_pos hneg, if_pos rfl]
    omega
  · rw [if_neg hneg, if_neg (by decide)]
    omega

/-- A sign and one to five digits always denote a value. -/
lemma ofInt_signed {sign : UInt8} {digits : Bytes} (hsign : Byte.isSign sign = true)
    (hdigits : Decimal.AllDigits digits) (hpos : 0 < digits.length) (hle : digits.length ≤ 5) :
    ∃ value, ofInt (signed sign (Decimal.number digits)) = .ok value ∧
      value.Spelling sign digits := by
  have hlt : Decimal.number digits < 10 ^ 5 := Decimal.number_lt_of_length_le hdigits hle
  have hrange : -99999 ≤ signed sign (Decimal.number digits) ∧
      signed sign (Decimal.number digits) ≤ 99999 := by
    unfold signed
    split_ifs <;> omega
  refine ⟨⟨_, hrange.1, hrange.2⟩, ?_, hsign, hdigits, hpos, hle, rfl⟩
  rw [ofInt, dif_pos hrange]

lemma Spelling.ofInt_eq {value : Value} {sign : UInt8} {digits : Bytes}
    (h : value.Spelling sign digits) : ofInt (signed sign (Decimal.number digits)) = .ok value := by
  rw [h.number_eq, ofInt, dif_pos ⟨value.le_number, value.number_le⟩]

end Value

end FieldBus
