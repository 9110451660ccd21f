import ScriptReader.Text.CodePoint

/-!
# Text — decimal numerals

`Numeral.value` reads a run of digits, `Numeral.decimal` writes a number
without superfluous zeros, and reading gives back what was written
(`Numeral.value_decimal`). Two bounds belong to the numerals of a source:
no run longer than `Numeral.longest` is read at all, and no integer above
`Numeral.greatest` fits.
-/

namespace ScriptReader

namespace Numeral

/-- The length of the longest run of digits that is read. Leading zeros
count. -/
def longest : Nat := 4300

/-- The greatest integer that fits in 64 bits with a sign. -/
def greatest : Nat := 0x7FFFFFFFFFFFFFFF

/-- The number that a run of digits stands for. -/
def value (digits : Text) : Nat :=
  digits.foldl (fun n c => 10 * n + (c.val - '0'.toNat)) 0

/-- A number in decimal digits. -/
def decimal (n : Nat) : Text := (Nat.toDigits 10 n).map .ofChar

/-- An integer in decimal digits, with a minus sign below zero. -/
def signed : Int → Text
  | .ofNat n => decimal n
  | .negSucc n => '-' :: decimal (n + 1)

theorem value_map_ofChar (cs : List Char) :
    value (cs.map .ofChar) = Nat.ofDigitChars 10 cs 0 := by
  rw [value, List.foldl_map]; rfl

/-- **Reading gives back what was written.** -/
theorem value_decimal (n : Nat) : value (decimal n) = n := by
  rw [decimal, value_map_ofChar, Nat.ofDigitChars_toDigits (by decide) (by decide)]

end Numeral

end ScriptReader
