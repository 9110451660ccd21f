import ScriptReader.Text.Printable

/-!
# Text — quoted texts

A text is shown between quotes: single ones, or double ones where that
saves escaping the single quotes inside. The backslash, the quote in use
and the code points that are not printable are escaped; the rest stands
for itself. An escape by number has a width of its own
(`Quoted.length_hex`), so that what follows is no part of it. The
functions that end in `With` take the printable code points as a
parameter, so that what holds of quoting can be said of every choice of
them.
-/

namespace ScriptReader

namespace Quoted

/-- The last digits of a number in hexadecimal, in lower case. -/
def hex : Nat → Nat → Text
  | 0, _ => []
  | width + 1, n => hex width (n / 16) ++ [.ofChar (Nat.digitChar (n % 16))]

theorem length_hex (width n : Nat) : (hex width n).length = width := by
  induction width generalizing n with
  | zero => rfl
  | succ width ih => simp [hex, ih]

/-- The quote that texts are put between. -/
def singleQuote : CodePoint := '\x27'

/-- The quote that takes its place. -/
def doubleQuote : CodePoint := '\x22'

/-- The mark of an escape. -/
def backslash : CodePoint := '\x5c'

/-- The quote that a text is put between: the double one only for a text
that holds the single one and not the double one. -/
def quoteFor (t : Text) : CodePoint :=
  if singleQuote ∈ t ∧ doubleQuote ∉ t then doubleQuote else singleQuote

/-- A code point by its number, in the shortest of the three forms that
has room for it. -/
def escapeNumber (c : CodePoint) : Text :=
  if c.val < 0x100 then [backslash, 'x'] ++ hex 2 c.val
  else if c.val < 0x10000 then [backslash, 'u'] ++ hex 4 c.val
  else [backslash, 'U'] ++ hex 8 c.val

/-- A code point as it stands between quotes. -/
def escapeWith (printable : CodePoint → Bool) (quote c : CodePoint) : Text :=
  if c = quote ∨ c = backslash then [backslash, c]
  else if c = .ofChar '\n' then [backslash, 'n']
  else if c = .ofChar '\r' then [backslash, 'r']
  else if c = .ofChar '\t' then [backslash, 't']
  else if printable c then [c]
  else escapeNumber c

/-- A text between quotes. -/
def showWith (printable : CodePoint → Bool) (t : Text) : Text :=
  [quoteFor t] ++ t.flatMap (escapeWith printable (quoteFor t)) ++ [quoteFor t]

end Quoted

/-- A text between quotes, with Unicode's printable code points. -/
def Text.quoted (t : Text) : Text := Quoted.showWith CodePoint.isPrintable t

end ScriptReader
