/-!
# Numbers as text

Positional numerals over upper-case digits.  A minimum width pads a numeral
with zeros on the left and never shortens it.
-/

namespace Chip8Vm

namespace Numeral

/-- The character of a digit below sixteen. -/
def digit (value : Nat) : Char :=
  if value < 10 then Char.ofNat (0x30 + value) else Char.ofNat (0x37 + value)

/-- The shortest numeral of a number, most significant digit first. -/
def digits (base value : Nat) : List Char :=
  if value < base ∨ base < 2 then
    [digit value]
  else
    digits base (value / base) ++ [digit (value % base)]
termination_by value
decreasing_by
  rename_i large
  exact Nat.div_lt_self (by omega) (by omega)

/-- A numeral filled up with leading zeros to a minimum width. -/
def zeroPadded (width : Nat) (numeral : List Char) : List Char :=
  List.replicate (width - numeral.length) '0' ++ numeral

/-- An upper-case hexadecimal numeral of at least `width` digits. -/
def hex (width value : Nat) : String :=
  String.ofList (zeroPadded width (digits 16 value))

def hexLiteral (width value : Nat) : String :=
  "0x" ++ hex width value

def decimal (value : Nat) : String :=
  String.ofList (digits 10 value)

theorem digits_of_lt {base value : Nat} (small : value < base) :
    digits base value = [digit value] := by
  rw [digits, if_pos (.inl small)]

theorem digits_of_le {base value : Nat} (valid : 2 ≤ base) (large : base ≤ value) :
    digits base value = digits base (value / base) ++ [digit (value % base)] := by
  rw [digits, if_neg (by omega)]

end Numeral

/-- Text filled up with blanks on the right to a minimum width. -/
def leftAligned (width : Nat) (text : String) : String :=
  text ++ String.ofList (List.replicate (width - text.length) ' ')

end Chip8Vm
