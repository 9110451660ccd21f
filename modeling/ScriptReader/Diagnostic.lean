import ScriptReader.Token.Basic

/-!
# Diagnostics — what is wrong with a source

A malformed statement is reported by a `Diagnostic` and reading goes on.
A run of digits beyond `Numeral.longest` is refused by an `Overlong`, and
reading stops.
-/

namespace ScriptReader

/-- A refused run of digits, by its length. -/
structure Overlong where
  digits : Nat
deriving DecidableEq

namespace Overlong

/-- The wording of a refusal. -/
def message (o : Overlong) : Text :=
  "Exceeds the limit (" ++ Numeral.decimal Numeral.longest ++
    " digits) for integer string conversion: value has " ++ Numeral.decimal o.digits ++
    " digits; use sys.set_int_max_str_digits() to increase the limit"

end Overlong

/-- A report on a malformed statement. -/
structure Diagnostic where
  message : Text
  /-- The byte at which the offending token starts, where that is known. -/
  location : Option Int := none
deriving DecidableEq

/-- What a statement needs at a place where something else stands. -/
inductive Expected where
  | identifier
  | assignment
  | statement
deriving DecidableEq

namespace Expected

/-- The wording of what is needed. -/
def text : Expected → Text
  | identifier => "identifier"
  | assignment => "assignment operator"
  | statement => "statement"

end Expected

namespace Diagnostic

/-- The whole report, after the location if there is one. -/
def text (d : Diagnostic) : Text :=
  match d.location with
  | some n => "Offset " ++ Numeral.signed n ++ ": " ++ d.message
  | none => d.message

/-- The report on a token that stands where something else is needed. -/
def unexpected (found : Token) (needed : Expected) : Diagnostic where
  message := "Unexpected token '" ++ found.literal ++ "'. Expected " ++ needed.text
  location := found.location

end Diagnostic

end ScriptReader
