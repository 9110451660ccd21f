import ScriptReader.Lexeme

/-!
# The longest match — what a lexeme is at its place

`Lexeme.munch` is a procedure. Here is what it computes, said without it:
`LongestMatch raw after` lists, class by class, which piece of source
stands at a place with `after` behind it. `longestMatch_iff` says that
the list is the longest match and nothing else: a lexeme, and no lexeme
that starts there is longer. `Lexeme.munch_eq_of_longestMatch` and
`Lexeme.longestMatch_munch` tie the procedure to it.
-/

namespace ScriptReader

/-! ## The classes -/

namespace CodePoint

/-- The equals sign, which makes one mark with the sign before it. -/
def equals : CodePoint := '='

/-- The exclamation mark. -/
def exclamation : CodePoint := '!'

theorem isDigit_eq_false_of_isWordStart {c : CodePoint} (h : c.isWordStart = true) :
    c.isDigit = false := by
  simp only [isWordStart, isDigit, Bool.or_eq_true, Bool.and_eq_true, decide_eq_true_eq,
    beq_iff_eq, Bool.and_eq_false_iff, decide_eq_false_iff_not] at *
  omega

theorem isBlank_eq_false_of_isWordPart {c : CodePoint} (h : c.isWordPart = true) :
    c.isBlank = false := by
  simp only [isWordPart, isWordStart, isDigit, isBlank, Bool.or_eq_true, Bool.and_eq_true,
    decide_eq_true_eq, beq_iff_eq, Bool.or_eq_false_iff, beq_eq_false_iff_ne] at *
  omega

theorem isWordPart_of_isWordStart {c : CodePoint} (h : c.isWordStart = true) :
    c.isWordPart = true := by
  rw [isWordPart, h, Bool.true_or]

theorem isWordPart_of_isDigit {c : CodePoint} (h : c.isDigit = true) : c.isWordPart = true := by
  rw [isWordPart, h, Bool.or_true]

end CodePoint

namespace Text

/-- Whether a text is a word. -/
def isWord : Text → Bool
  | [] => false
  | c :: rest => c.isWordStart && rest.all CodePoint.isWordPart

/-- Whether a text is a run of digits. -/
def isNumeral : Text → Bool
  | [] => false
  | c :: rest => c.isDigit && rest.all CodePoint.isDigit

theorem isNumeral_eq_false_of_isWord {t : Text} (h : t.isWord = true) : t.isNumeral = false := by
  cases t with
  | nil => rfl
  | cons c rest =>
    simp only [isWord, Bool.and_eq_true] at h
    simp [isNumeral, CodePoint.isDigit_eq_false_of_isWordStart h.1]

end Text

/-- A text that is a lexeme wherever it may stand. -/
def IsLexeme (t : Text) : Prop :=
  t.isWord = true ∨ t.isNumeral = true ∨ (∃ m : Mark, t = m.spelling) ∨
    ∃ c : CodePoint, c.isBlank = false ∧ t = [c]

/-- Whether a text is a lexeme is told by its classes and by its first
code point. -/
theorem isLexeme_iff {t : Text} :
    IsLexeme t ↔ t.isWord = true ∨ t.isNumeral = true ∨ (∃ m ∈ Mark.all, t = m.spelling) ∨
      ∃ c ∈ t.head?, c.isBlank = false ∧ t = [c] := by
  refine or_congr_right (or_congr_right (or_congr ?_ ?_))
  · exact ⟨fun ⟨m, hm⟩ => ⟨m, m.mem_all, hm⟩, fun ⟨m, _, hm⟩ => ⟨m, hm⟩⟩
  · constructor
    · rintro ⟨c, visible, rfl⟩
      exact ⟨c, rfl, visible, rfl⟩
    · exact fun ⟨c, _, h⟩ => ⟨c, h⟩

instance : DecidablePred IsLexeme := fun _ => decidable_of_iff _ isLexeme_iff.symm

/-- **The piece of source at a place**, with the source behind it. -/
inductive LongestMatch : Text → Text → Prop
  /-- A word takes all that a word may go on with. -/
  | word {raw after : Text} (isWord : raw.isWord = true)
      (full : ∀ c ∈ after.head?, c.isWordPart = false) : LongestMatch raw after
  /-- A run of digits takes all digits. -/
  | digits {raw after : Text} (isNumeral : raw.isNumeral = true)
      (full : ∀ c ∈ after.head?, c.isDigit = false) : LongestMatch raw after
  /-- An equals sign behind one of these two makes one mark with it. -/
  | long {after : Text} {m : Mark} (pair : m = .equal ∨ m = .notEqual) :
      LongestMatch m.spelling after
  /-- With no equals sign behind it, each of the two is a mark alone. -/
  | short {after : Text} {m : Mark} (single : m = .assign ∨ m = .bang)
      (alone : after.head? ≠ some CodePoint.equals) : LongestMatch m.spelling after
  /-- All else is a single code point. -/
  | single {c : CodePoint} {after : Text} (visible : c.isBlank = false)
      (noWord : c.isWordStart = false) (noDigit : c.isDigit = false)
      (noEquals : c ≠ .equals) (noExclamation : c ≠ .exclamation) : LongestMatch [c] after

/-! ## Marks, by their spellings -/

namespace Mark

theorem ofText?_pair_eq_some_iff {c d : CodePoint} {m : Mark} :
    ofText? [c, d] = some m ↔
      d = .equals ∧ (c = .equals ∧ m = .equal ∨ c = .exclamation ∧ m = .notEqual) := by
  rw [ofText?_eq_some_iff]
  constructor
  · intro h
    cases m <;> simp [spelling, Text.ofString] at h
    all_goals
      obtain ⟨rfl, rfl⟩ := h
      simp [CodePoint.equals, CodePoint.exclamation]
  · rintro ⟨rfl, ⟨rfl, rfl⟩ | ⟨rfl, rfl⟩⟩ <;> rfl

/-- A mark of more than one code point is an equals sign behind one of two. -/
theorem spelling_eq_cons_cons_iff {m : Mark} {c d : CodePoint} {rest : Text} :
    m.spelling = c :: d :: rest ↔
      rest = [] ∧ d = .equals ∧
        (c = .equals ∧ m = .equal ∨ c = .exclamation ∧ m = .notEqual) := by
  constructor
  · intro h
    have hnil : rest = [] := by
      cases m <;> simp_all [spelling, Text.ofString]
    subst hnil
    exact ⟨rfl, ofText?_pair_eq_some_iff.1 (ofText?_eq_some_iff.2 h)⟩
  · rintro ⟨rfl, hm⟩
    exact ofText?_eq_some_iff.1 (ofText?_pair_eq_some_iff.2 hm)

/-- No mark starts like a word or like a number. -/
theorem head_spelling {m : Mark} {c : CodePoint} {rest : Text} (h : m.spelling = c :: rest) :
    c.isWordStart = false ∧ c.isDigit = false ∧ c.isBlank = false := by
  cases m <;> simp only [spelling, Text.ofString] at h <;> cases h <;> decide

end Mark

/-! ## The procedure finds it -/

namespace Lexeme

/-- The lexeme of a piece of source. -/
def ofRaw (raw : Text) : Lexeme :=
  if raw.isWord then word raw
  else if raw.isNumeral then digits raw
  else match Mark.ofText? raw with
    | some m => mark m
    | none => stray (raw.headD default)

theorem ofRaw_spelling (m : Mark) : ofRaw m.spelling = mark m := by
  cases m <;> rfl

theorem ofRaw_of_isNumeral {raw : Text} (h : raw.isNumeral = true) : ofRaw raw = digits raw := by
  rw [ofRaw, if_neg, if_pos h]
  intro isWord
  rw [Text.isNumeral_eq_false_of_isWord isWord] at h
  cases h

theorem munch_of_isWordStart {c : CodePoint} (h : c.isWordStart = true) (rest : Text) :
    munch c rest = (word (c :: rest.takeWhile CodePoint.isWordPart),
      rest.dropWhile CodePoint.isWordPart) := by
  rw [munch, if_pos h]

theorem munch_of_isDigit {c : CodePoint} (h : c.isDigit = true) (rest : Text) :
    munch c rest = (digits (c :: rest.takeWhile CodePoint.isDigit),
      rest.dropWhile CodePoint.isDigit) := by
  have hw : ¬ c.isWordStart = true := fun hw => by
    rw [CodePoint.isDigit_eq_false_of_isWordStart hw] at h
    cases h
  rw [munch, if_neg hw, if_pos h]

/-- Two code points that are a mark together are taken together. -/
theorem munch_pair {c : CodePoint} {m : Mark} (h : Mark.ofText? [c, .equals] = some m)
    (rest : Text) : munch c (.equals :: rest) = (mark m, rest) := by
  have hm := Mark.ofText?_eq_some_iff.1 h
  obtain ⟨hw, hd, -⟩ := Mark.head_spelling hm
  simp [munch, hw, hd, markAt?, longMark?, h]

/-- And a code point that makes no mark with the next one is taken alone. -/
theorem munch_single {c : CodePoint} {rest : Text} (hw : c.isWordStart = false)
    (hd : c.isDigit = false) (alone : longMark? c rest = none) :
    munch c rest = (ofRaw [c], rest) := by
  have hword : ¬ Text.isWord [c] = true := by simp [Text.isWord, hw]
  have hnum : ¬ Text.isNumeral [c] = true := by simp [Text.isNumeral, hd]
  rw [munch, if_neg (by simp [hw]), if_neg (by simp [hd]), ofRaw, if_neg hword, if_neg hnum,
    markAt?, alone]
  cases Mark.ofText? [c] <;> rfl

theorem longMark?_eq_none {c : CodePoint} {rest : Text}
    (h : rest.head? ≠ some .equals ∨ (c ≠ .equals ∧ c ≠ .exclamation)) :
    longMark? c rest = none := by
  cases rest with
  | nil => rfl
  | cons d rest =>
    rw [longMark?, Option.map_eq_none_iff]
    cases hm : Mark.ofText? [c, d] with
    | none => rfl
    | some m =>
      obtain ⟨rfl, hc⟩ := Mark.ofText?_pair_eq_some_iff.1 hm
      simp only [List.head?_cons, ne_eq, not_true_eq_false, false_or] at h
      rcases hc with ⟨rfl, -⟩ | ⟨rfl, -⟩
      · exact absurd rfl h.1
      · exact absurd rfl h.2

section Runs

variable {p : CodePoint → Bool} {run after : Text}

/-- A run that nothing after it goes on is what is taken off. -/
theorem takeWhile_run (all : run.all p = true) (full : ∀ c ∈ after.head?, p c = false) :
    (run ++ after).takeWhile p = run := by
  rw [List.takeWhile_append_of_pos (by simpa using all)]
  cases after with
  | nil => simp
  | cons d after => simp [full d rfl]

theorem dropWhile_run (all : run.all p = true) (full : ∀ c ∈ after.head?, p c = false) :
    (run ++ after).dropWhile p = after := by
  rw [List.dropWhile_append_of_pos (by simpa using all)]
  cases after with
  | nil => rfl
  | cons d after => simp [full d rfl]

end Runs

/-- **The longest match is what `munch` takes.** -/
theorem munch_eq_of_longestMatch {raw after : Text} (h : LongestMatch raw after) {c : CodePoint}
    {rest : Text} (source : c :: rest = raw ++ after) : munch c rest = (ofRaw raw, after) := by
  cases h with
  | word isWord full =>
    obtain _ | ⟨d, run⟩ := raw
    · cases isWord
    rw [List.cons_append, List.cons.injEq] at source
    obtain ⟨rfl, rfl⟩ := source
    have hraw := isWord
    simp only [Text.isWord, Bool.and_eq_true] at isWord
    rw [munch_of_isWordStart isWord.1, takeWhile_run isWord.2 full, dropWhile_run isWord.2 full,
      ofRaw, if_pos hraw]
  | digits isNumeral full =>
    obtain _ | ⟨d, run⟩ := raw
    · cases isNumeral
    rw [List.cons_append, List.cons.injEq] at source
    obtain ⟨rfl, rfl⟩ := source
    have hraw := isNumeral
    simp only [Text.isNumeral, Bool.and_eq_true] at isNumeral
    -- Words are asked for first, and a run of digits is none.
    have hword : ¬ Text.isWord (c :: run) = true := fun hw => by
      rw [Text.isNumeral_eq_false_of_isWord hw] at hraw
      cases hraw
    rw [munch_of_isDigit isNumeral.1, takeWhile_run isNumeral.2 full,
      dropWhile_run isNumeral.2 full, ofRaw, if_neg hword, if_pos hraw]
  | long pair =>
    rw [ofRaw_spelling]
    rcases pair with rfl | rfl <;> obtain ⟨rfl, rfl⟩ := List.cons.inj source
    · exact munch_pair rfl _
    · exact munch_pair rfl _
  | short single alone =>
    rcases single with rfl | rfl <;> obtain ⟨rfl, rfl⟩ := List.cons.inj source
    · exact munch_single rfl rfl (longMark?_eq_none (.inl alone))
    · exact munch_single rfl rfl (longMark?_eq_none (.inl alone))
  | single visible noWord noDigit noEquals noExclamation =>
    obtain ⟨rfl, rfl⟩ := List.cons.inj source
    exact munch_single noWord noDigit (longMark?_eq_none (.inr ⟨noEquals, noExclamation⟩))

theorem raw_ofRaw {raw : Text} (h : IsLexeme raw) : (ofRaw raw).raw = raw := by
  unfold ofRaw
  split
  · rfl
  · next hw =>
    split
    · rfl
    · next hd =>
      split
      · next m hm => exact Mark.ofText?_eq_some_iff.1 hm
      · next hnone =>
        rcases h with h | h | ⟨m, rfl⟩ | ⟨c, -, rfl⟩
        · exact absurd h hw
        · exact absurd h hd
        · rw [Mark.ofText?_spelling] at hnone
          cases hnone
        · rfl

theorem head?_dropWhile_eq_false (p : CodePoint → Bool) (t : Text) :
    ∀ c ∈ (t.dropWhile p).head?, p c = false := by
  intro c hc
  have hnot := List.head?_dropWhile_not p t
  rw [Option.mem_def.1 hc] at hnot
  exact hnot

/-- The two marks that go on with an equals sign, and the two they become. -/
theorem longestMatch_munch_pair {c : CodePoint} {short long : Mark}
    (hshort : short = .assign ∨ short = .bang) (hlong : long = .equal ∨ long = .notEqual)
    (hc : short.spelling = [c]) (hpair : Mark.ofText? [c, .equals] = some long) (rest : Text) :
    LongestMatch (munch c rest).1.raw (munch c rest).2 := by
  obtain ⟨hw, hd, -⟩ := Mark.head_spelling hc
  by_cases alone : rest.head? = some .equals
  · obtain ⟨d, rest, rfl⟩ := List.exists_cons_of_ne_nil (l := rest) (by rintro rfl; cases alone)
    obtain rfl : d = .equals := Option.some.inj alone
    rw [munch_pair hpair]
    exact .long hlong
  · rw [munch_single hw hd (longMark?_eq_none (.inl alone)), ← hc, ofRaw_spelling]
    exact .short hshort alone

/-- **And what it takes is the longest match**, wherever no blank stands. -/
theorem longestMatch_munch {c : CodePoint} (visible : c.isBlank = false) (rest : Text) :
    LongestMatch (munch c rest).1.raw (munch c rest).2 := by
  cases hw : c.isWordStart with
  | true =>
    rw [munch_of_isWordStart hw]
    refine .word ?_ (head?_dropWhile_eq_false _ _)
    simp [raw, Text.isWord, hw]
  | false =>
    cases hd : c.isDigit with
    | true =>
      rw [munch_of_isDigit hd]
      refine .digits ?_ (head?_dropWhile_eq_false _ _)
      simp [raw, Text.isNumeral, hd]
    | false =>
      by_cases hc : c = .equals ∨ c = .exclamation
      · rcases hc with rfl | rfl
        · exact longestMatch_munch_pair (.inl rfl) (.inl rfl) rfl rfl rest
        · exact longestMatch_munch_pair (.inr rfl) (.inr rfl) rfl rfl rest
      · rw [not_or] at hc
        rw [munch_single hw hd (longMark?_eq_none (.inr hc)),
          raw_ofRaw (.inr (.inr (.inr ⟨c, visible, rfl⟩)))]
        exact .single visible hw hd hc.1 hc.2

end Lexeme

/-! ## The longest lexeme at a place -/

/-- A lexeme that goes on after its first part is a word, a run of digits
or one of two marks, and the part that it goes on with fits. -/
theorem IsLexeme.extension {c d : CodePoint} {run more : Text}
    (h : IsLexeme (c :: (run ++ d :: more))) :
    c.isWordStart = true ∧ d.isWordPart = true ∨ c.isDigit = true ∧ d.isDigit = true ∨
      run = [] ∧ d = .equals ∧ (c = .equals ∨ c = .exclamation) := by
  rcases h with h | h | ⟨m, hm⟩ | ⟨e, -, he⟩
  · simp only [Text.isWord, List.all_append, List.all_cons, Bool.and_eq_true] at h
    exact .inl ⟨h.1, h.2.2.1⟩
  · simp only [Text.isNumeral, List.all_append, List.all_cons, Bool.and_eq_true] at h
    exact .inr (.inl ⟨h.1, h.2.2.1⟩)
  · right; right
    cases run with
    | nil =>
      obtain ⟨-, hd, hc⟩ := Mark.spelling_eq_cons_cons_iff.1 hm.symm
      exact ⟨rfl, hd, hc.imp And.left And.left⟩
    | cons e run =>
      obtain ⟨hnil, -⟩ := Mark.spelling_eq_cons_cons_iff.1 hm.symm
      simp at hnil
  · simp at he

theorem IsLexeme.ne_nil {t : Text} (h : IsLexeme t) : t ≠ [] := by
  rintro rfl
  rcases h with h | h | ⟨m, hm⟩ | ⟨c, -, hc⟩
  · cases h
  · cases h
  · exact Lexeme.spelling_ne_nil m hm.symm
  · cases hc

/-- A code point that starts a lexeme is no blank. -/
theorem IsLexeme.isBlank_eq_false {c : CodePoint} {run : Text} (h : IsLexeme (c :: run)) :
    c.isBlank = false := by
  rcases h with h | h | ⟨m, hm⟩ | ⟨d, hd, heq⟩
  · simp only [Text.isWord, Bool.and_eq_true] at h
    exact CodePoint.isBlank_eq_false_of_isWordPart (CodePoint.isWordPart_of_isWordStart h.1)
  · simp only [Text.isNumeral, Bool.and_eq_true] at h
    exact CodePoint.isBlank_eq_false_of_isWordPart (CodePoint.isWordPart_of_isDigit h.1)
  · exact (Mark.head_spelling hm.symm).2.2
  · cases heq
    exact hd

namespace LongestMatch

variable {raw after : Text}

theorem isLexeme (h : LongestMatch raw after) : IsLexeme raw := by
  cases h with
  | word isWord _ => exact .inl isWord
  | digits isNumeral _ => exact .inr (.inl isNumeral)
  | long _ => exact .inr (.inr (.inl ⟨_, rfl⟩))
  | short _ _ => exact .inr (.inr (.inl ⟨_, rfl⟩))
  | single visible _ _ _ _ => exact .inr (.inr (.inr ⟨_, visible, rfl⟩))

/-- The next code point does not go on with the match. -/
theorem no_extension {c d : CodePoint} {run : Text} (h : LongestMatch (c :: run) after)
    (next : after.head? = some d) :
    ¬ (c.isWordStart = true ∧ d.isWordPart = true) ∧ ¬ (c.isDigit = true ∧ d.isDigit = true) ∧
      ¬ (run = [] ∧ d = .equals ∧ (c = .equals ∨ c = .exclamation)) := by
  generalize hraw : c :: run = raw at h
  cases h with
  | word isWord full =>
    subst hraw
    simp only [Text.isWord, Bool.and_eq_true] at isWord
    have hd := full d next
    refine ⟨by simp [hd], by simp [CodePoint.isDigit_eq_false_of_isWordStart isWord.1], ?_⟩
    rintro ⟨-, -, rfl | rfl⟩ <;> exact absurd isWord.1 (by decide)
  | digits isNumeral full =>
    subst hraw
    simp only [Text.isNumeral, Bool.and_eq_true] at isNumeral
    have hd := full d next
    refine ⟨fun hw => ?_, by simp [hd], ?_⟩
    · rw [CodePoint.isDigit_eq_false_of_isWordStart hw.1] at isNumeral
      cases isNumeral.1
    · rintro ⟨-, -, rfl | rfl⟩ <;> exact absurd isNumeral.1 (by decide)
  | long pair =>
    obtain ⟨hw, hn, -⟩ := Mark.head_spelling hraw.symm
    refine ⟨by simp [hw], by simp [hn], ?_⟩
    rintro ⟨rfl, -, -⟩
    rcases pair with rfl | rfl <;> cases hraw
  | short single alone =>
    obtain ⟨hw, hn, -⟩ := Mark.head_spelling hraw.symm
    refine ⟨by simp [hw], by simp [hn], ?_⟩
    rintro ⟨-, rfl, -⟩
    exact alone next
  | single visible noWord noDigit noEquals noExclamation =>
    cases hraw
    exact ⟨by simp [noWord], by simp [noDigit], by simp [noEquals, noExclamation]⟩

/-- No lexeme at the place is longer. -/
theorem length_le (h : LongestMatch raw after) {t : Text} (lexeme : IsLexeme t)
    (here : t <+: raw ++ after) : t.length ≤ raw.length := by
  refine Nat.le_of_not_lt fun hlt => ?_
  -- A longer lexeme goes on with the first code point behind the match.
  obtain ⟨ext, rfl⟩ : raw <+: t :=
    List.prefix_of_prefix_length_le (List.prefix_append raw after) here (by omega)
  obtain ⟨c, run, rfl⟩ := List.exists_cons_of_ne_nil h.isLexeme.ne_nil
  obtain _ | ⟨d, more⟩ := ext
  · simp at hlt
  obtain ⟨behind, rfl⟩ := (List.prefix_append_right_inj _).1 here
  obtain ⟨hw, hd, hm⟩ := h.no_extension (d := d) rfl
  rcases lexeme.extension with h | h | h
  · exact hw h
  · exact hd h
  · exact hm h

end LongestMatch

/-- **The list of classes says the longest match**: a lexeme, and no
lexeme that starts at the place is longer. -/
theorem longestMatch_iff {raw after : Text} :
    LongestMatch raw after ↔
      IsLexeme raw ∧ ∀ t, IsLexeme t → t <+: raw ++ after → t.length ≤ raw.length := by
  constructor
  · exact fun h => ⟨h.isLexeme, fun t => h.length_le⟩
  · rintro ⟨lexeme, longest⟩
    obtain ⟨c, run, rfl⟩ := List.exists_cons_of_ne_nil lexeme.ne_nil
    -- what the procedure takes is one more lexeme at the place, and as long
    have hmunch := Lexeme.longestMatch_munch lexeme.isBlank_eq_false (run ++ after)
    have hall := Lexeme.raw_append_munch c (run ++ after)
    rw [← List.cons_append] at hall
    have hle := hmunch.length_le lexeme (hall ▸ List.prefix_append _ _)
    have hge := longest _ hmunch.isLexeme (hall ▸ List.prefix_append _ _)
    obtain ⟨hraw, hafter⟩ := List.append_inj hall (by omega)
    rwa [hraw, hafter] at hmunch

end ScriptReader
