import ScriptReader.Lexeme
import ScriptReader.Options
import ScriptReader.Outcome

/-!
# The cursor — one token at a time

A cursor is the source not yet scanned and the number of bytes before it.
`Cursor.next` skips blanks and scans one token; at the end of the source
it answers with the end token for ever. A run of digits that is too long
is refused: the cursor goes past it, but its bytes are not counted.

Scanning leaves a shorter source unless it was at the end
(`Cursor.length_next_lt`), which is why `Cursor.drain` comes to an end.
-/

namespace ScriptReader

namespace Lexeme

/-- The token of a run of digits: an integer if it fits, and what the
policy makes of it if it does not. -/
def integer (policy : Text) (location : Nat) (run : Text) : Token :=
  if Numeral.value run ≤ Numeral.greatest then
    { kind := .integer, location := some location, raw := run, value := some (Numeral.value run) }
  else if saturates policy then
    { kind := .integer, location := some location, raw := run, value := some Numeral.greatest }
  else
    { kind := .illegal, location := some location, raw := run }

/-- The token of a lexeme, or the refusal of one that is too long. -/
def token (policy : Text) (location : Nat) : Lexeme → Except Overlong Token
  | word spelling =>
    let t : Token := { kind := .identifier, location := some location, raw := spelling }
    .ok (t.promote?.getD t)
  | digits run =>
    if Numeral.longest < run.length then .error ⟨run.length⟩
    else .ok (integer policy location run)
  | mark m => .ok { kind := .mark m, location := some location, raw := m.spelling }
  | stray c => .ok { kind := .illegal, location := some location, raw := [c] }

/-- What scanning a lexeme writes to the log: a warning about an integer
that does not fit. -/
def warnings (policy : Text) (location : Nat) : Lexeme → List Record
  | digits run =>
    if Numeral.value run ≤ Numeral.greatest then [] else [.overflow run location policy]
  | _ => []

theorem kind_integer_ne_eof (policy : Text) (location : Nat) (run : Text) :
    (integer policy location run).kind ≠ .eof := by
  unfold integer
  repeat' split
  all_goals simp

/-- **No lexeme makes the end token.** -/
theorem kind_ne_eof_of_token {policy : Text} {location : Nat} {l : Lexeme} {t : Token}
    (h : l.token policy location = .ok t) : t.kind ≠ .eof := by
  cases l with
  | word spelling =>
    cases h
    unfold Token.promote?
    cases Keyword.ofText? spelling <;> simp
  | digits run =>
    simp only [token] at h
    split at h
    · cases h
    · cases h
      exact kind_integer_ne_eof _ _ _
  | mark m => cases h; simp
  | stray c => cases h; simp

end Lexeme

/-- A place in a source. -/
structure Cursor where
  /-- The source not yet scanned. -/
  rest : Text
  /-- The bytes counted before it. -/
  offset : Nat := 0
deriving DecidableEq

namespace Cursor

/-- The start of a source. -/
def ofText (source : Text) : Cursor where
  rest := source

/-- Whether only blanks are left. -/
def atEnd (s : Cursor) : Bool := s.rest.all CodePoint.isBlank

/-- The place after the blanks, one byte each. -/
def skipBlanks (s : Cursor) : Cursor where
  rest := s.rest.dropWhile CodePoint.isBlank
  offset := s.offset + (s.rest.takeWhile CodePoint.isBlank).length

/-- Scans the lexeme that a source starts with. -/
def scan (policy : Text) (c : CodePoint) (rest : Text) (offset : Nat) : Outcome Cursor Token :=
  let (lexeme, after) := Lexeme.munch c rest
  match lexeme.token policy offset with
  | .error e => ⟨.error e, ⟨after, offset⟩, [.drew (.refused e)]⟩
  | .ok t =>
    ⟨.ok t, ⟨after, offset + lexeme.raw.size⟩,
      (lexeme.warnings policy offset).map .wrote ++ [.drew (.token t)]⟩

/-- Scans the next token under a policy. At the end of the source that is
the end token, and the cursor stays at the end. -/
def next (policy : Text) (s : Cursor) : Outcome Cursor Token :=
  match s.skipBlanks with
  | ⟨[], offset⟩ => ⟨.ok .eof, ⟨[], offset⟩, [.drew (.token .eof)]⟩
  | ⟨c :: rest, offset⟩ => scan policy c rest offset

theorem skipBlanks_eq_nil_iff (s : Cursor) : s.skipBlanks.rest = [] ↔ s.atEnd = true := by
  unfold skipBlanks atEnd
  induction s.rest with
  | nil => simp
  | cons c rest ih => cases h : c.isBlank <;> simp_all

theorem length_skipBlanks_le (s : Cursor) : s.skipBlanks.rest.length ≤ s.rest.length :=
  (List.dropWhile_sublist _).length_le

theorem length_scan_lt (policy : Text) (c : CodePoint) (rest : Text) (offset : Nat) :
    (scan policy c rest offset).state.rest.length < (c :: rest).length := by
  unfold scan
  split
  next h =>
    have := Lexeme.length_munch_lt c rest
    split <;> simp_all

/-- **Scanning leaves a shorter source**, refused or not, unless it was
at the end. -/
theorem length_next_lt {s : Cursor} (policy : Text) (h : s.atEnd = false) :
    (s.next policy).state.rest.length < s.rest.length := by
  have hle := s.length_skipBlanks_le
  unfold next
  split
  · next hs =>
    have : s.skipBlanks.rest = [] := by rw [hs]
    simp [skipBlanks_eq_nil_iff, h] at this
  · next hs =>
    rw [hs] at hle
    exact Nat.lt_of_lt_of_le (length_scan_lt _ _ _ _) hle

theorem length_next_le (policy : Text) (s : Cursor) :
    (s.next policy).state.rest.length ≤ s.rest.length := by
  cases h : s.atEnd with
  | false => exact Nat.le_of_lt (length_next_lt policy h)
  | true =>
    have hnil := (skipBlanks_eq_nil_iff s).2 h
    unfold next
    split
    · simp
    · next hs => rw [hs] at hnil; cases hnil

/-- The end token comes from the end of the source alone. -/
theorem atEnd_of_next_eof {policy : Text} {s : Cursor} {t : Token}
    (h : (s.next policy).result = .ok t) (eof : t.kind = .eof) : s.atEnd = true := by
  rw [← skipBlanks_eq_nil_iff]
  unfold next at h
  split at h
  · next hs => rw [hs]
  · unfold scan at h
    dsimp only at h
    split at h
    · cases h
    · next ht =>
      cases h
      exact absurd eof (Lexeme.kind_ne_eof_of_token ht)

/-- At the end the answer is the end token, and only blanks are passed. -/
theorem next_of_atEnd {policy : Text} {s : Cursor} (h : s.atEnd = true) :
    s.next policy = ⟨.ok .eof, ⟨[], s.skipBlanks.offset⟩, [.drew (.token .eof)]⟩ := by
  have hnil := (skipBlanks_eq_nil_iff s).2 h
  unfold next
  split
  · next hs => rw [hs]
  · next hs => rw [hs] at hnil; cases hnil

theorem result_next_of_atEnd {policy : Text} {s : Cursor} (h : s.atEnd = true) :
    (s.next policy).result = .ok .eof := by
  rw [next_of_atEnd h]

/-- **The end lasts**: a cursor that has answered with the end token has
nothing else to answer with. -/
theorem atEnd_next {policy : Text} {s : Cursor} (h : s.atEnd = true) :
    (s.next policy).state.atEnd = true := by
  rw [next_of_atEnd h]
  rfl

/-- **Asking once draws once**, whatever the answer. -/
theorem length_draws_next (policy : Text) (s : Cursor) : (s.next policy).draws.length = 1 := by
  unfold next
  split
  · rfl
  · unfold scan
    dsimp only
    split <;> simp [Outcome.draws, Event.draws, List.filterMap_append]

/-- The next tokens, at most `n` of them and none beyond the end. Nothing
is scanned after the last of them. -/
def take (policy : Text) : Nat → Cursor → Outcome Cursor (List Token)
  | 0, s => .done [] s
  | n + 1, s =>
    (s.next policy).andThen fun t s =>
      if t.kind = .eof then .done [] s else (take policy n s).map (t :: ·)

/-- All tokens up to the end token, which is drawn too. -/
def drain (policy : Text) (s : Cursor) : Outcome Cursor (List Token) :=
  let o := s.next policy
  if s.atEnd then o.map fun _ => []
  else o.andThen fun t _ => (drain policy o.state).map (t :: ·)
termination_by s.rest.length
decreasing_by exact length_next_lt policy (by simp_all)

end Cursor

end ScriptReader
