import FieldBus.Proofs.CheckByte

/-!
# Which changes a check byte sees

A receiver compares the check byte that was computed from the body that was sent with the one of the
body that came.  Two bodies of the same length, whatever it is, differ in some of their bytes.
Exclusive or is linear, so what the plain check byte sees is whether these differences cancel
(`parity_zipWith`): one difference cannot, and two equal ones do.

The printable check byte merges some of these cases.  It moves the exclusive ors below 0x20 up by
0x20, where others are already (`CheckMode.finish_printable_eq_iff`).  So a change of one byte can
escape it, but only one of the bit that it moves (`checks_printable_set_iff`).

* **`checks_iff_of_length_eq`** — exactly which changes either check byte sees.
-/

namespace FieldBus

variable {body other : Bytes} {i j : Nat} {old a b flip : UInt8}

/-! ## Exclusive or is linear -/

lemma parity_eq_foldr (bytes : Bytes) : parity bytes = bytes.foldr (· ^^^ ·) 0 := by
  induction bytes with
  | nil => rfl
  | cons b rest ih => rw [parity_cons, ih, List.foldr_cons]

lemma parity_zipWith (hlength : other.length = body.length) :
    parity (List.zipWith (· ^^^ ·) body other) = parity body ^^^ parity other := by
  induction body generalizing other with
  | nil =>
      obtain rfl := List.length_eq_zero_iff.mp hlength
      rfl
  | cons b rest ih =>
      obtain ⟨c, tail, rfl⟩ := List.exists_cons_of_length_eq_add_one hlength
      have htail := @ih tail (by simpa using hlength)
      rw [List.zipWith_cons_cons, parity_cons, parity_cons, parity_cons, htail]
      ac_rfl

/-- Replacing a byte adds what it differs in. -/
lemma parity_set_eq (hold : body[i]? = some old) (b : UInt8) :
    parity (body.set i b) = parity body ^^^ (old ^^^ b) := by
  rw [← parity_set hold b, UInt8.xor_comm, UInt8.xor_assoc, UInt8.xor_self, UInt8.xor_zero]

/-- The same difference in two places cancels. -/
lemma parity_set_set (hij : i ≠ j) (ha : body[i]? = some a) (hb : body[j]? = some b)
    (flip : UInt8) :
    parity ((body.set i (a ^^^ flip)).set j (b ^^^ flip)) = parity body := by
  have hb' : (body.set i (a ^^^ flip))[j]? = some b := by rw [List.getElem?_set_ne hij, hb]
  have hcancel : ∀ c : UInt8, c ^^^ (c ^^^ flip) = flip := by
    intro c
    rw [← UInt8.xor_assoc, UInt8.xor_self, UInt8.zero_xor]
  rw [parity_set_eq hb', parity_set_eq ha, hcancel, hcancel, UInt8.xor_assoc, UInt8.xor_self,
    UInt8.xor_zero]

/-! ## What becomes of an exclusive or -/

namespace CheckMode

/-- A printable check byte fits into a byte: nothing wraps around where it is moved up. -/
lemma toNat_finish_printable (x : UInt8) :
    (printable.finish x).toNat = if x.toNat < 0x20 then x.toNat + 0x20 else x.toNat := by
  have hlt : x < 0x20 ↔ x.toNat < 0x20 := UInt8.lt_iff_toNat_lt
  rw [finish]
  simp only [hlt]
  split_ifs with h
  · rw [UInt8.toNat_add]
    exact Nat.mod_eq_of_lt (show x.toNat + 32 < 256 by omega)
  · rfl

lemma le_finish_printable (x : UInt8) : 0x20 ≤ printable.finish x := by
  rw [UInt8.le_iff_toNat_le, toNat_finish_printable]
  show 32 ≤ _
  split_ifs <;> omega

/-- **What the printable check byte merges**: two bytes of which one is moved onto the other. -/
lemma finish_printable_eq_iff {x y : UInt8} :
    printable.finish x = printable.finish y ↔
      x = y ∨ (x < 0x20 ∧ y = x + 0x20) ∨ (y < 0x20 ∧ x = y + 0x20) := by
  have hx := toNat_finish_printable x
  have hy := toNat_finish_printable y
  have hmoved : ∀ z : UInt8, (z + 0x20).toNat = (z.toNat + 0x20) % 256 := fun z => by
    rw [UInt8.toNat_add]
    rfl
  have hlt : ∀ z : UInt8, z < 0x20 ↔ z.toNat < 0x20 := fun _ => UInt8.lt_iff_toNat_lt
  simp only [← UInt8.toNat_inj, hlt, hmoved, hx, hy]
  split_ifs <;> omega

/-- Moving a byte up changes no bit but the one of 0x20. -/
lemma moved_up {x : UInt8} (h : x < 0x20) : x + 0x20 = x ^^^ 0x20 ∧ x + 0x20 < 0x40 := by
  have hall : ∀ n : Fin 32, UInt8.ofNat n + 0x20 = UInt8.ofNat n ^^^ 0x20 ∧
      UInt8.ofNat n + 0x20 < 0x40 := by decide
  have hx := hall ⟨x.toNat, UInt8.lt_iff_toNat_lt.mp h⟩
  rwa [UInt8.ofNat_toNat] at hx

lemma moved_down {x : UInt8} (hlow : ¬ x < 0x20) (h : x < 0x40) : x ^^^ 0x20 < 0x20 := by
  have hall : ∀ n : Fin 64, ¬ UInt8.ofNat n < 0x20 → UInt8.ofNat n ^^^ 0x20 < 0x20 := by decide
  have hx := hall ⟨x.toNat, UInt8.lt_iff_toNat_lt.mp h⟩
  rw [UInt8.ofNat_toNat] at hx
  exact hx hlow

lemma xor_xor_self (x flip : UInt8) : (x ^^^ flip) ^^^ flip = x := by
  rw [UInt8.xor_assoc, UInt8.xor_self, UInt8.xor_zero]

/-- A change of an exclusive or that the printable check byte merges is one of the bit of 0x20, and
of no byte from 0x40 on. -/
lemma moved_iff {x flip : UInt8} :
    (x < 0x20 ∧ x ^^^ flip = x + 0x20) ∨ (x ^^^ flip < 0x20 ∧ x = (x ^^^ flip) + 0x20) ↔
      flip = 0x20 ∧ x < 0x40 := by
  constructor
  · rintro (⟨hlt, heq⟩ | ⟨hlt, heq⟩)
    · rw [(moved_up hlt).1, UInt8.xor_right_inj] at heq
      exact ⟨heq, UInt8.lt_trans hlt (by decide)⟩
    · have hbound := (moved_up hlt).2
      rw [← heq] at hbound
      rw [(moved_up hlt).1, UInt8.xor_assoc] at heq
      have hflip : flip ^^^ 0x20 = 0 := by
        rw [← UInt8.xor_right_inj x, ← heq, UInt8.xor_zero]
      exact ⟨UInt8.xor_eq_zero_iff.mp hflip, hbound⟩
  · rintro ⟨rfl, hlt⟩
    by_cases hlow : x < 0x20
    · exact .inl ⟨hlow, (moved_up hlow).1.symm⟩
    · have hdown := moved_down hlow hlt
      refine .inr ⟨hdown, ?_⟩
      rw [(moved_up hdown).1, xor_xor_self]

end CheckMode

/-! ## What is seen -/

/-- The check byte of one body passes for another if both exclusive ors come to the same. -/
lemma checks_checkByte {mode : CheckMode} : checks mode other (checkByte mode body) = true ↔
    mode.finish (parity other) = mode.finish (parity body) := by
  rw [checks, beq_iff_eq]
  rfl

lemma checks_plain_iff (hlength : other.length = body.length) :
    checks .plain other (checkByte .plain body) = true ↔
      (List.zipWith (· ^^^ ·) body other).foldr (· ^^^ ·) 0 = 0 := by
  rw [checks_checkByte, ← parity_eq_foldr, parity_zipWith hlength, UInt8.xor_eq_zero_iff]
  exact eq_comm

lemma checks_plain_set (hold : body[i]? = some old) (hne : b ≠ old) :
    checks .plain (body.set i b) (checkByte .plain body) = false := by
  rw [Bool.eq_false_iff, Ne, checks_checkByte]
  exact parity_set_ne hold hne

lemma checks_printable_iff : checks .printable other (checkByte .printable body) = true ↔
    parity body = parity other ∨ (parity body < 0x20 ∧ parity other = parity body + 0x20) ∨
      (parity other < 0x20 ∧ parity body = parity other + 0x20) := by
  rw [checks_checkByte, eq_comm, CheckMode.finish_printable_eq_iff]

/-- **The changes of one byte that the printable check byte does not see.** -/
lemma checks_printable_set_iff (hold : body[i]? = some old) (hne : b ≠ old) :
    checks .printable (body.set i b) (checkByte .printable body) = true ↔
      old ^^^ b = 0x20 ∧ parity body < 0x40 := by
  have hchanged : parity body ≠ parity (body.set i b) := (parity_set_ne hold hne).symm
  rw [checks_printable_iff, or_iff_right hchanged, parity_set_eq hold, CheckMode.moved_iff]

lemma checks_set_set (mode : CheckMode) (hij : i ≠ j) (ha : body[i]? = some a)
    (hb : body[j]? = some b) (flip : UInt8) :
    checks mode ((body.set i (a ^^^ flip)).set j (b ^^^ flip)) (checkByte mode body) = true := by
  rw [checks_checkByte, parity_set_set hij ha hb]

/-- **What a check byte sees.**  The plain check byte of one body passes for another of the same
length exactly if the differences of all their bytes cancel.  So it sees every change of one byte,
and never the same change of two.  The printable one passes exactly if the exclusive ors are the
same, or one is below 0x20 and 0x20 less than the other.  It is 0x20 at least and no more than a
byte holds.  Of the changes of one byte it misses those of the bit of 0x20, if the exclusive or is
below 0x40, and it sees all others. -/
theorem checks_iff_of_length_eq (hlength : other.length = body.length) :
    (checks .plain other (checkByte .plain body) = true ↔
        (List.zipWith (· ^^^ ·) body other).foldr (· ^^^ ·) 0 = 0) ∧
      (∀ (i : Nat) (old b : UInt8), body[i]? = some old → b ≠ old →
        checks .plain (body.set i b) (checkByte .plain body) = false ∧
          (checks .printable (body.set i b) (checkByte .printable body) = true ↔
            old ^^^ b = 0x20 ∧ parity body < 0x40)) ∧
      (∀ (i j : Nat) (a b flip : UInt8), i ≠ j → body[i]? = some a → body[j]? = some b →
        ∀ mode, checks mode ((body.set i (a ^^^ flip)).set j (b ^^^ flip)) (checkByte mode body)
          = true) ∧
      (checks .printable other (checkByte .printable body) = true ↔
        parity body = parity other ∨ (parity body < 0x20 ∧ parity other = parity body + 0x20) ∨
          (parity other < 0x20 ∧ parity body = parity other + 0x20)) ∧
      0x20 ≤ checkByte .printable body ∧
      (checkByte .printable body).toNat =
        if (parity body).toNat < 0x20 then (parity body).toNat + 0x20 else (parity body).toNat :=
  ⟨checks_plain_iff hlength,
    fun _ _ _ hold hne => ⟨checks_plain_set hold hne, checks_printable_set_iff hold hne⟩,
    fun _ _ _ _ flip hij ha hb mode => checks_set_set mode hij ha hb flip,
    checks_printable_iff, CheckMode.le_finish_printable _, CheckMode.toNat_finish_printable _⟩

/-- A body of two digits, and one in which the second has lost the bit of 0x20.  The plain check
byte sees it, and the printable one does not. -/
theorem checks_iff_of_lost_bit :
    ([0x31, 0x12] : Bytes).length = ([0x31, 0x32] : Bytes).length ∧
      checks .plain [0x31, 0x12] (checkByte .plain [0x31, 0x32]) = false ∧
      checks .printable [0x31, 0x12] (checkByte .printable [0x31, 0x32]) = true := by
  have hlength : ([0x31, 0x12] : Bytes).length = ([0x31, 0x32] : Bytes).length := rfl
  obtain ⟨-, hone, -, hprintable, -⟩ := checks_iff_of_length_eq hlength
  exact ⟨hlength, (hone 1 0x32 0x12 rfl (by decide)).1, hprintable.mpr (by decide)⟩

end FieldBus
