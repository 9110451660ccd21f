import ScriptReader.Text.Numeral
import ScriptReader.Token.Basic

/-!
# Tables — the fixed vocabulary

The kinds with their numbers, the reserved words with their kinds, and
the literal that each kind gives a token.
-/

namespace ScriptReader

namespace Tables

/-- The version of the vocabulary. -/
def version : String := "0.1.0"

/-- The kinds with their numbers, which start from one. -/
def numbers : List (Kind × Nat) := Kind.all.zipIdx 1

/-- The reserved words with their kinds. -/
def keywords : List (Text × Kind) := Keyword.all.map fun k => (k.spelling, .keyword k)

/-- The literal of a token of each kind, scanned from a question mark at
the start of a source. -/
def literals : List (Kind × Text) :=
  Kind.all.map fun k =>
    (k, Token.literal { kind := k, location := some 0, raw := "?" })

end Tables

end ScriptReader
