import Chip8Vm.Text.Numeral
import Mathlib.Algebra.Group.Nat.Defs

/-!
# Numerals read back

The value of a numeral is found by Horner's rule.  It undoes the writing of a
number in every base up to sixteen, with or without leading zeros, so a numeral
determines its number.  A number below a power of the base takes at most as many
digits as the exponent says, and padding then fills it up to exactly that many.
-/

namespace Chip8Vm

namespace Numeral

/-- The value of a digit's character. -/
def digitValue (character : Char) : Nat :=
  if character.toNat < 0x3A then character.toNat - 0x30 else character.toNat - 0x37

/-- The number that a numeral stands for. -/
def value (base : Nat) (numeral : List Char) : Nat :=
  numeral.foldl (fun sum character => sum * base + digitValue character) 0

theorem digitValue_digit {number : Nat} (small : number < 16) :
    digitValue (digit number) = number := by
  revert number
  decide

theorem value_concat (base : Nat) (numeral : List Char) (character : Char) :
    value base (numeral ++ [character]) = value base numeral * base + digitValue character := by
  rw [value, List.foldl_append]
  rfl

section Digits

variable {base : Nat} (valid : 2 ≤ base)

include valid

theorem value_digits (small : base ≤ 16) (number : Nat) :
    value base (digits base number) = number := by
  induction number using Nat.strongRecOn with
  | ind number ih =>
      by_cases below : number < base
      · have single : value base [digit number] = 0 * base + digitValue (digit number) := rfl
        rw [digits_of_lt below, single, digitValue_digit (by omega), Nat.zero_mul, Nat.zero_add]
      · have large : base ≤ number := Nat.le_of_not_lt below
        have shorter : number / base < number := Nat.div_lt_self (by omega) valid
        have last : number % base < base := Nat.mod_lt _ (by omega)
        rw [digits_of_le valid large, value_concat, ih _ shorter, digitValue_digit (by omega)]
        exact Nat.div_add_mod' number base

/-- Every character of a numeral is the digit of a number below the base. -/
theorem mem_digits {number : Nat} {character : Char} (member : character ∈ digits base number) :
    ∃ place, place < base ∧ character = digit place := by
  induction number using Nat.strongRecOn with
  | ind number ih =>
      by_cases below : number < base
      · rw [digits_of_lt below] at member
        exact ⟨number, below, List.mem_singleton.mp member⟩
      · have large : base ≤ number := Nat.le_of_not_lt below
        rw [digits_of_le valid large] at member
        rcases List.mem_append.mp member with earlier | last
        · exact ih _ (Nat.div_lt_self (by omega) valid) earlier
        · exact ⟨number % base, Nat.mod_lt _ (by omega), List.mem_singleton.mp last⟩

theorem length_digits_le {width number : Nat} (fits : number < base ^ (width + 1)) :
    (digits base number).length ≤ width + 1 := by
  induction width generalizing number with
  | zero =>
      rw [Nat.zero_add, Nat.pow_one] at fits
      rw [digits_of_lt fits]
      exact Nat.le_refl 1
  | succ width ih =>
      by_cases below : number < base
      · rw [digits_of_lt below, List.length_singleton]
        omega
      · have large : base ≤ number := Nat.le_of_not_lt below
        have shorter : number / base < base ^ (width + 1) := by
          apply Nat.div_lt_of_lt_mul
          rw [Nat.mul_comm, ← Nat.pow_succ]
          exact fits
        rw [digits_of_le valid large, List.length_append, List.length_singleton]
        exact Nat.succ_le_succ (ih shorter)

end Digits

theorem value_zeros (base count : Nat) (numeral : List Char) :
    value base (List.replicate count '0' ++ numeral) = value base numeral := by
  induction count with
  | zero => rw [List.replicate_zero, List.nil_append]
  | succ count ih =>
      have zero : 0 * base + digitValue '0' = 0 := by
        rw [Nat.zero_mul]
        rfl
      rw [List.replicate_succ, List.cons_append, value, List.foldl_cons, zero]
      exact ih

theorem value_zeroPadded (base width : Nat) (numeral : List Char) :
    value base (zeroPadded width numeral) = value base numeral :=
  value_zeros base _ numeral

theorem length_zeroPadded (width : Nat) (numeral : List Char) :
    (zeroPadded width numeral).length = max width numeral.length := by
  rw [zeroPadded, List.length_append, List.length_replicate]
  omega

/-! ## Hexadecimal and decimal texts -/

theorem value_hex (width number : Nat) : value 16 (hex width number).toList = number := by
  rw [hex, String.toList_ofList, value_zeroPadded, value_digits (by omega) (by omega)]

theorem hex_injective {width number otherWidth other : Nat}
    (same : hex width number = hex otherWidth other) : number = other := by
  rw [← value_hex width number, same, value_hex]

theorem hexLiteral_injective {width number otherWidth other : Nat}
    (same : hexLiteral width number = hexLiteral otherWidth other) : number = other := by
  unfold hexLiteral at same
  exact hex_injective ((String.append_right_inj "0x").mp same)

theorem value_decimal (number : Nat) : value 10 (decimal number).toList = number := by
  rw [decimal, String.toList_ofList, value_digits (by omega) (by omega)]

theorem decimal_injective {number other : Nat} (same : decimal number = decimal other) :
    number = other := by
  rw [← value_decimal number, same, value_decimal]

theorem le_length_hex (width number : Nat) : width ≤ (hex width number).length := by
  rw [hex, String.length_ofList, length_zeroPadded]
  exact Nat.le_max_left _ _

/-- A number that fits its width is written with exactly that many digits. -/
theorem length_hex {width number : Nat} (fits : number < 16 ^ (width + 1)) :
    (hex (width + 1) number).length = width + 1 := by
  rw [hex, String.length_ofList, length_zeroPadded]
  exact Nat.max_eq_left (length_digits_le (by omega) fits)

theorem length_decimal_le {width number : Nat} (fits : number < 10 ^ (width + 1)) :
    (decimal number).length ≤ width + 1 := by
  rw [decimal, String.length_ofList]
  exact length_digits_le (by omega) fits

theorem mem_hex {width number : Nat} {character : Char}
    (member : character ∈ (hex width number).toList) :
    ∃ place, place < 16 ∧ character = digit place := by
  rw [hex, String.toList_ofList, zeroPadded] at member
  rcases List.mem_append.mp member with padding | numeral
  · exact ⟨0, by omega, List.eq_of_mem_replicate padding⟩
  · exact mem_digits (by omega) numeral

theorem mem_decimal {number : Nat} {character : Char}
    (member : character ∈ (decimal number).toList) :
    ∃ place, place < 10 ∧ character = digit place := by
  rw [decimal, String.toList_ofList] at member
  exact mem_digits (by omega) member

end Numeral

end Chip8Vm
