import FieldBus.Wire.Byte

/-!
# Decimal fields

Numbers travel as ASCII decimal digits, most significant first.  Station and parameter numbers
have a fixed width; the magnitude of a value has as few digits as it needs.

* `Decimal.padded` — the last `width` digits of a number, with leading zeros.
* `Decimal.trimmed` — a digit string without its leading zeros; one digit always stays.
* `Numeral` — a digit string being read: how many digits came, and what number they denote.
-/

namespace FieldBus

namespace Decimal

/-- The last `width` decimal digits of `n`, with leading zeros where `n` has fewer. -/
def padded : (width : Nat) → (n : Nat) → Bytes
  | 0, _ => []
  | width + 1, n => padded width (n / 10) ++ [Byte.ofDigit n]

@[simp] theorem length_padded (width n : Nat) : (padded width n).length = width := by
  induction width generalizing n with
  | zero => rfl
  | succ width ih => simp [padded, ih]

/-- The digits without leading zeros; the last digit stays, whatever it is. -/
def trimmed : Bytes → Bytes
  | [] => []
  | [d] => [d]
  | d :: e :: rest => if d = Byte.ofDigit 0 then trimmed (e :: rest) else d :: e :: rest

theorem length_trimmed_le (digits : Bytes) : (trimmed digits).length ≤ digits.length := by
  fun_induction trimmed digits with
  | case1 => simp
  | case2 => simp
  | case3 e rest ih => exact Nat.le_trans ih (by simp)
  | case4 => simp

/-- As few digits as denote `n`, for an `n` of at most `width` digits. -/
def shortest (width n : Nat) : Bytes := trimmed (padded width n)

end Decimal

/-- A decimal field that is being read: the number of digits so far and the number they denote. -/
structure Numeral where
  count : Nat
  value : Nat
  deriving DecidableEq

namespace Numeral

def empty : Numeral := ⟨0, 0⟩

/-- The field after one more digit. -/
def push (numeral : Numeral) (digit : Nat) : Numeral :=
  ⟨numeral.count + 1, numeral.value * 10 + digit⟩

@[simp] theorem count_empty : empty.count = 0 := rfl

@[simp] theorem value_empty : empty.value = 0 := rfl

@[simp] theorem count_push (numeral : Numeral) (digit : Nat) :
    (numeral.push digit).count = numeral.count + 1 := rfl

@[simp] theorem value_push (numeral : Numeral) (digit : Nat) :
    (numeral.push digit).value = numeral.value * 10 + digit := rfl

end Numeral

end FieldBus
