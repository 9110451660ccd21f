import ScriptReader.Token.Kind

/-!
# Lexemes — the longest piece of source at a place

A source is a run of lexemes with blanks between them: words, runs of
digits, marks, and single stray code points. `Lexeme.munch` takes the
longest lexeme off a source that starts with no blank. It loses nothing
(`Lexeme.raw_append_munch`), takes at least one code point
(`Lexeme.raw_ne_nil`), and leaves a shorter source
(`Lexeme.length_munch_lt`).
-/

namespace ScriptReader

namespace CodePoint

/-- The four blanks: space, tab, line feed and carriage return. -/
def isBlank (c : CodePoint) : Bool :=
  c.val == 0x20 || c.val == 0x09 || c.val == 0x0A || c.val == 0x0D

/-- The ten decimal digits of ASCII. -/
def isDigit (c : CodePoint) : Bool := decide (0x30 ≤ c.val) && decide (c.val ≤ 0x39)

/-- What a word may start with: a letter of ASCII or a low line. -/
def isWordStart (c : CodePoint) : Bool :=
  (decide (0x61 ≤ c.val) && decide (c.val ≤ 0x7A)) ||
    (decide (0x41 ≤ c.val) && decide (c.val ≤ 0x5A)) || c.val == 0x5F

/-- What a word may go on with. -/
def isWordPart (c : CodePoint) : Bool := c.isWordStart || c.isDigit

end CodePoint

/-- A piece of source that makes one token. -/
inductive Lexeme where
  | word (spelling : Text)
  | digits (run : Text)
  | mark (m : Mark)
  /-- A code point that starts none of the others. -/
  | stray (c : CodePoint)
deriving DecidableEq

namespace Lexeme

/-- The source of a lexeme. -/
def raw : Lexeme → Text
  | word spelling => spelling
  | digits run => run
  | mark m => m.spelling
  | stray c => [c]

/-- A mark of two code points. -/
def longMark? (c : CodePoint) : Text → Option (Mark × Text)
  | [] => none
  | d :: rest => (Mark.ofText? [c, d]).map fun m => (m, rest)

/-- A mark, of two code points if it can be. -/
def markAt? (c : CodePoint) (rest : Text) : Option (Mark × Text) :=
  (longMark? c rest).or ((Mark.ofText? [c]).map fun m => (m, rest))

/-- The longest lexeme of a source `c :: rest` that starts with no blank,
and the source after it. -/
def munch (c : CodePoint) (rest : Text) : Lexeme × Text :=
  if c.isWordStart then
    (word (c :: rest.takeWhile CodePoint.isWordPart), rest.dropWhile CodePoint.isWordPart)
  else if c.isDigit then
    (digits (c :: rest.takeWhile CodePoint.isDigit), rest.dropWhile CodePoint.isDigit)
  else match markAt? c rest with
    | some (m, rest) => (mark m, rest)
    | none => (stray c, rest)

theorem spelling_append_of_longMark? {c : CodePoint} {rest after : Text} {m : Mark}
    (h : longMark? c rest = some (m, after)) : m.spelling ++ after = c :: rest := by
  cases rest with
  | nil => cases h
  | cons d rest =>
    obtain ⟨_, hm, heq⟩ := Option.map_eq_some_iff.1 h
    cases heq
    rw [Mark.ofText?_eq_some_iff.1 hm]
    rfl

theorem spelling_append_of_markAt? {c : CodePoint} {rest after : Text} {m : Mark}
    (h : markAt? c rest = some (m, after)) : m.spelling ++ after = c :: rest := by
  rcases Option.or_eq_some_iff.1 h with h | ⟨-, h⟩
  · exact spelling_append_of_longMark? h
  · obtain ⟨_, hm, heq⟩ := Option.map_eq_some_iff.1 h
    cases heq
    rw [Mark.ofText?_eq_some_iff.1 hm]
    rfl

/-- **No source is lost**: a lexeme and the source after it are the source
before it. -/
theorem raw_append_munch (c : CodePoint) (rest : Text) :
    (munch c rest).1.raw ++ (munch c rest).2 = c :: rest := by
  unfold munch
  split
  · simp [raw]
  · split
    · simp [raw]
    · split
      · next h => exact spelling_append_of_markAt? h
      · rfl

theorem spelling_ne_nil (m : Mark) : m.spelling ≠ [] := by cases m <;> decide

theorem raw_ne_nil (c : CodePoint) (rest : Text) : (munch c rest).1.raw ≠ [] := by
  unfold munch
  split
  · simp [raw]
  · split
    · simp [raw]
    · split
      · exact spelling_ne_nil _
      · simp [raw]

theorem length_munch_lt (c : CodePoint) (rest : Text) :
    (munch c rest).2.length < (c :: rest).length := by
  have h := congrArg List.length (raw_append_munch c rest)
  have := List.length_pos_iff.2 (raw_ne_nil c rest)
  simp only [List.length_append] at h
  omega

end Lexeme

end ScriptReader
