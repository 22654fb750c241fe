import FieldBus.Proofs.Digits
import FieldBus.Wire.Checksum

/-!
# What the check byte can be

The bytes of a body fall into classes that their upper halves tell apart: 3 for a digit, 2 for a
sign, 0 for the ETX.  Exclusive or works on the halves separately, so the upper half of a check
byte depends only on how many digits and signs the body has, and not on which.  Three things follow
that no line of the program states.

* A check byte is never an opening byte, and never an ETX (`CheckMode.high_finish`).
* The plain check byte over a body and itself is zero (`parity_concat_parity`), so a change of
  exactly one byte, wherever it is, is seen (`parity_set_ne`).
* The printable check byte confuses only bytes that differ in the bit that it moves
  (`CheckMode.eq_or_high_of_finish_eq`).  Digits and signs do not differ in that bit, so either mode
  sees that one was put for another (`checkByte_set_ne`).
-/

namespace FieldBus

namespace Byte

/-- The upper half of a byte. -/
def high (b : UInt8) : UInt8 := b >>> 4

lemma high_xor (a b : UInt8) : high (a ^^^ b) = high a ^^^ high b := by
  rw [high, UInt8.shiftRight_xor]
  rfl

lemma toNat_high (b : UInt8) : (high b).toNat = b.toNat / 16 := by
  simp [high, Nat.shiftRight_eq_div_pow]

lemma high_of_isDigit {b : UInt8} (h : isDigit b = true) : high b = 3 := by
  rw [isDigit_iff] at h
  rw [← UInt8.toNat_inj, toNat_high]
  show b.toNat / 16 = 3
  omega

lemma isSign_iff {b : UInt8} : isSign b = true ↔ b = plus ∨ b = minus := by
  simp [isSign]

lemma high_of_isSign {b : UInt8} (h : isSign b = true) : high b = 2 := by
  rcases isSign_iff.mp h with rfl | rfl <;> rfl

lemma isSign_of_isDigit {b : UInt8} (h : isDigit b = true) : isSign b = false := by
  rw [Bool.eq_false_iff]
  intro hsign
  have hhigh := high_of_isDigit h
  rw [high_of_isSign hsign] at hhigh
  exact absurd hhigh (by decide)

lemma opensFrame_iff {b : UInt8} : opensFrame b = true ↔ b = stx ∨ b = eot := by
  simp [opensFrame]

lemma isDigit_of_opensFrame {b : UInt8} (h : opensFrame b = true) : isDigit b = false := by
  rcases opensFrame_iff.mp h with rfl | rfl <;> rfl

end Byte

/-! ## The exclusive or of a run of bytes -/

@[simp] lemma parity_nil : parity [] = 0 := rfl

lemma foldl_xor (body : Bytes) (x : UInt8) : body.foldl (· ^^^ ·) x = x ^^^ parity body := by
  induction body generalizing x with
  | nil => simp
  | cons b rest ih =>
      rw [parity, List.foldl_cons, List.foldl_cons, ih, ih (0 ^^^ b), UInt8.zero_xor,
        UInt8.xor_assoc]

@[simp] lemma parity_cons (b : UInt8) (rest : Bytes) : parity (b :: rest) = b ^^^ parity rest := by
  rw [parity, List.foldl_cons, foldl_xor, UInt8.zero_xor]

@[simp] lemma parity_append (a b : Bytes) : parity (a ++ b) = parity a ^^^ parity b := by
  rw [parity, List.foldl_append, foldl_xor]
  rfl

lemma parity_concat_parity (body : Bytes) : parity (body ++ [parity body]) = 0 := by
  simp

/-- Replacing a byte changes the exclusive or by what the two bytes differ in. -/
lemma parity_set {bytes : Bytes} {i : Nat} {old : UInt8} (hold : bytes[i]? = some old)
    (b : UInt8) : parity (bytes.set i b) ^^^ parity bytes = old ^^^ b := by
  induction bytes generalizing i with
  | nil => simp at hold
  | cons c rest ih =>
      cases i with
      | zero =>
          obtain rfl : c = old := by simpa using hold
          rw [List.set_cons_zero, parity_cons, parity_cons, UInt8.xor_assoc,
            UInt8.xor_comm c (parity rest), ← UInt8.xor_assoc (parity rest), UInt8.xor_self,
            UInt8.zero_xor, UInt8.xor_comm]
      | succ j =>
          have hrest := ih (i := j) (by simpa using hold)
          rw [List.set_cons_succ, parity_cons, parity_cons, UInt8.xor_comm c (parity rest),
            UInt8.xor_assoc, ← UInt8.xor_assoc _ (parity rest), hrest, UInt8.xor_comm,
            UInt8.xor_assoc, UInt8.xor_self, UInt8.xor_zero]

/-- **A change of exactly one byte changes the exclusive or.** -/
lemma parity_set_ne {bytes : Bytes} {i : Nat} {old b : UInt8} (hold : bytes[i]? = some old)
    (hne : b ≠ old) : parity (bytes.set i b) ≠ parity bytes := by
  intro heq
  have hset := parity_set hold b
  rw [heq, UInt8.xor_self, eq_comm, UInt8.xor_eq_zero_iff] at hset
  exact hne hset.symm

/-! ## Upper halves -/

/-- The upper half of the exclusive or of digits: they cancel in pairs. -/
lemma high_parity_of_allDigits {digits : Bytes} (h : Decimal.AllDigits digits) :
    Byte.high (parity digits) = if digits.length % 2 = 0 then 0 else 3 := by
  induction digits with
  | nil => rfl
  | cons b rest ih =>
      obtain ⟨hb, hrest⟩ := Decimal.allDigits_cons.mp h
      rw [parity_cons, Byte.high_xor, Byte.high_of_isDigit hb, ih hrest, List.length_cons]
      by_cases heven : rest.length % 2 = 0
      · rw [if_pos heven, if_neg (by omega)]
        rfl
      · rw [if_neg heven, if_pos (by omega)]
        rfl

lemma high_parity_of_sign {front digits : Bytes} {sign : UInt8}
    (hfront : Decimal.AllDigits front) (hsign : Byte.isSign sign = true)
    (hdigits : Decimal.AllDigits digits) :
    Byte.high (parity (front ++ sign :: digits ++ [Byte.etx])) = 1 ∨
      Byte.high (parity (front ++ sign :: digits ++ [Byte.etx])) = 2 := by
  simp only [parity_append, parity_cons, parity_nil, Byte.high_xor, Byte.high_of_isSign hsign,
    high_parity_of_allDigits hfront, high_parity_of_allDigits hdigits]
  split_ifs <;> decide

lemma high_parity_of_odd {front : Bytes} (hfront : Decimal.AllDigits front)
    (hodd : front.length % 2 = 1) : Byte.high (parity (front ++ [Byte.etx])) = 3 := by
  simp only [parity_append, parity_cons, parity_nil, Byte.high_xor,
    high_parity_of_allDigits hfront]
  rw [if_neg (by omega)]
  rfl

lemma opensFrame_of_high {b : UInt8} (h : Byte.high b ≠ 0) : Byte.opensFrame b = false := by
  rw [Bool.eq_false_iff]
  intro hopens
  rcases Byte.opensFrame_iff.mp hopens with rfl | rfl <;> exact h rfl

/-- Moving a check byte up, where that is done, keeps its upper half from being zero. -/
lemma CheckMode.high_finish (mode : CheckMode) {b : UInt8} (h : Byte.high b ≠ 0) :
    Byte.high (mode.finish b) ≠ 0 := by
  cases mode with
  | plain => exact h
  | printable =>
      rw [CheckMode.finish]
      split_ifs with hlt
      · rw [ne_eq, ← UInt8.toNat_inj, Byte.toNat_high, UInt8.toNat_add]
        have hlt' : b.toNat < 32 := UInt8.lt_iff_toNat_lt.mp hlt
        simp
        omega
      · exact h

lemma CheckMode.opensFrame_finish (mode : CheckMode) {b : UInt8} (h : Byte.high b ≠ 0) :
    Byte.opensFrame (mode.finish b) = false :=
  opensFrame_of_high (mode.high_finish h)

lemma high_add_xor_high {x : UInt8} (h : x < 0x20) :
    Byte.high (x + 0x20) ^^^ Byte.high x = 2 := by
  have hlt : x.toNat < 32 := UInt8.lt_iff_toNat_lt.mp h
  have hsum : (x + 0x20).toNat = x.toNat + 32 := by
    rw [UInt8.toNat_add]
    exact Nat.mod_eq_of_lt (by show x.toNat + 32 < 256; omega)
  have hhigh : Byte.high x = 0 ∧ Byte.high (x + 0x20) = 2 ∨
      Byte.high x = 1 ∧ Byte.high (x + 0x20) = 3 := by
    simp only [← UInt8.toNat_inj, Byte.toNat_high, hsum]
    show x.toNat / 16 = 0 ∧ (x.toNat + 32) / 16 = 2 ∨ x.toNat / 16 = 1 ∧ (x.toNat + 32) / 16 = 3
    omega
  rcases hhigh with ⟨hx, hy⟩ | ⟨hx, hy⟩
  · rw [hx, hy]
    rfl
  · rw [hx, hy]
    rfl

/-- What comes out as one check byte is one byte, or two that the move makes the same. -/
lemma CheckMode.eq_or_high_of_finish_eq (mode : CheckMode) {x y : UInt8}
    (h : mode.finish x = mode.finish y) : x = y ∨ Byte.high x ^^^ Byte.high y = 2 := by
  cases mode with
  | plain => exact .inl h
  | printable =>
      simp only [CheckMode.finish] at h
      split_ifs at h with hx hy hy
      · exact .inl (by simpa using h)
      · rw [← h, UInt8.xor_comm]
        exact .inr (high_add_xor_high hx)
      · rw [h]
        exact .inr (high_add_xor_high hy)
      · exact .inl h

/-- **A check byte of either mode sees a change of exactly one byte**, unless the change is in the
bit that the printable one moves. -/
lemma checkByte_set_ne (mode : CheckMode) {bytes : Bytes} {i : Nat} {old b : UInt8}
    (hold : bytes[i]? = some old) (hne : b ≠ old) (hhigh : Byte.high old ^^^ Byte.high b ≠ 2) :
    checkByte mode (bytes.set i b) ≠ checkByte mode bytes := by
  intro heq
  rcases mode.eq_or_high_of_finish_eq heq with hsame | hmoved
  · exact parity_set_ne hold hne hsame
  · rw [← Byte.high_xor, parity_set hold, Byte.high_xor] at hmoved
    exact hhigh hmoved

end FieldBus
