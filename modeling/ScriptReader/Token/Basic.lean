import ScriptReader.Text.Numeral
import ScriptReader.Token.Kind

/-!
# Tokens — the token, its literal, and promotion

A token carries its kind, where it starts, the source it was scanned
from, and the number it stands for if it is an integer. `Token.literal`
is its canonical text: the kind alone fixes it for the end, the marks and
the reserved words. `Token.promote?` turns an identifier that spells a
reserved word into that word.
-/

namespace ScriptReader

/-- A token. Nothing ties the fields together: which fields a token of
the scanner carries is a property of the scanner. -/
structure Token where
  kind : Kind
  /-- The byte at which the token starts, where that is known. -/
  location : Option Int := none
  /-- The source the token was scanned from. -/
  raw : Text := []
  /-- The number an integer stands for. -/
  value : Option Int := none
deriving DecidableEq

namespace Token

/-- The token at the end of the source, which carries no field. -/
def eof : Token where
  kind := .eof

instance : Inhabited Token := ⟨eof⟩

/-- The canonical text of a token: `END` for the end, the decimal number
for an integer, the fixed spelling for a mark or a reserved word, and the
source itself for the others. -/
def literal (t : Token) : Text :=
  match t.kind with
  | .eof => "END"
  | .integer => match t.value with
    | some n => Numeral.signed n
    | none => "None"
  | .mark m => m.spelling
  | .keyword k => k.spelling
  | .identifier | .illegal => t.raw

/-- The tokens of the reserved words. -/
def isKeyword (t : Token) : Bool :=
  match t.kind with
  | .keyword _ => true
  | _ => false

/-- The reserved word an identifier spells, at the same place and with no
value. -/
def promote? (t : Token) : Option Token :=
  if t.kind = .identifier then
    (Keyword.ofText? t.raw).map fun k =>
      { kind := .keyword k, location := t.location, raw := t.raw }
  else none

theorem literal_eq_spelling {t : Token} {s : Text} (h : t.kind.spelling? = some s) :
    t.literal = s := by
  unfold literal
  cases hk : t.kind <;> simp_all [Kind.spelling?]

end Token

end ScriptReader
