import Mathlib.Data.List.Chain
import ScriptReader.Proofs.Slices

/-!
# Layouts — a source written from its lexemes

A layout is a list of lexemes with blanks before, between and behind
them. Scanning its text gives the lexemes back, unless two neighbours
with no blank between them fuse (`Fuses`). What fuses is told by the
lexemes alone, and it is all that a longest match depends on
(`longestMatch_append_iff`): a lexeme stays whole in front of blanks and
in front of every lexeme that it does not fuse with.

A layout that is `Layout.Apart` cuts its text into its own lexemes
(`Layout.cut_text`), and no other layout does (`Layout.apart_of_cut`).
`tokenize_layout_iff` is the theorem for scanning.
-/

namespace ScriptReader

/-! ## What a lexeme goes on with -/

namespace IsLexeme

variable {c : CodePoint} {run : Text}

/-- A word is a lexeme that starts like one. -/
theorem isWord_iff (h : IsLexeme (c :: run)) :
    Text.isWord (c :: run) = true ↔ c.isWordStart = true := by
  constructor
  · intro word
    rw [Text.isWord, Bool.and_eq_true] at word
    exact word.1
  · intro start
    rcases h with word | numeral | ⟨m, hm⟩ | ⟨d, -, hd⟩
    · exact word
    · rw [Text.isNumeral, Bool.and_eq_true, CodePoint.isDigit_eq_false_of_isWordStart start]
        at numeral
      cases numeral.1
    · rw [(Mark.head_spelling hm.symm).1] at start
      cases start
    · cases hd
      rw [Text.isWord, start]
      rfl

/-- A number is a lexeme that starts like one. -/
theorem isNumeral_iff (h : IsLexeme (c :: run)) :
    Text.isNumeral (c :: run) = true ↔ c.isDigit = true := by
  constructor
  · intro numeral
    rw [Text.isNumeral, Bool.and_eq_true] at numeral
    exact numeral.1
  · intro start
    rcases h with word | numeral | ⟨m, hm⟩ | ⟨d, -, hd⟩
    · rw [Text.isWord, Bool.and_eq_true] at word
      rw [CodePoint.isDigit_eq_false_of_isWordStart word.1] at start
      cases start
    · exact numeral
    · rw [(Mark.head_spelling hm.symm).2.1] at start
      cases start
    · cases hd
      rw [Text.isNumeral, start]
      rfl

end IsLexeme

/-- **Lexemes that fuse** when nothing stands between them: a word goes on
with a word or a number, a number goes on with a number, and an equals
sign makes one mark with the sign before it. -/
def Fuses (left right : Text) : Prop :=
  left.isWord = true ∧ (right.isWord = true ∨ right.isNumeral = true) ∨
    left.isNumeral = true ∧ right.isNumeral = true ∨
      (left = [.equals] ∨ left = [.exclamation]) ∧ right.head? = some .equals

instance (left right : Text) : Decidable (Fuses left right) := by
  unfold Fuses
  infer_instance

section Match

variable {c d : CodePoint} {run more left right after rest : Text}

/-- Whether lexemes fuse is told by the code points at the seam. -/
theorem fuses_cons_iff (hleft : IsLexeme (c :: run)) (hright : IsLexeme (d :: more)) :
    Fuses (c :: run) (d :: more) ↔
      c.isWordStart = true ∧ d.isWordPart = true ∨ c.isDigit = true ∧ d.isDigit = true ∨
        run = [] ∧ d = .equals ∧ (c = .equals ∨ c = .exclamation) := by
  have hpart : d.isWordPart = true ↔ d.isWordStart = true ∨ d.isDigit = true := by
    rw [CodePoint.isWordPart, Bool.or_eq_true]
  rw [Fuses, hleft.isWord_iff, hleft.isNumeral_iff, hright.isWord_iff, hright.isNumeral_iff, hpart]
  simp only [List.cons.injEq, List.head?_cons, Option.some.injEq]
  constructor
  · rintro (h | h | ⟨⟨rfl, rfl⟩ | ⟨rfl, rfl⟩, rfl⟩)
    · exact .inl h
    · exact .inr (.inl h)
    · exact .inr (.inr ⟨rfl, rfl, .inl rfl⟩)
    · exact .inr (.inr ⟨rfl, rfl, .inr rfl⟩)
  · rintro (h | h | ⟨rfl, rfl, rfl | rfl⟩)
    · exact .inl h
    · exact .inr (.inl h)
    · exact .inr (.inr ⟨.inl ⟨rfl, rfl⟩, rfl⟩)
    · exact .inr (.inr ⟨.inr ⟨rfl, rfl⟩, rfl⟩)

/-- A lexeme is the longest match where the next code point does not go on
with it. -/
theorem IsLexeme.longestMatch (lexeme : IsLexeme (c :: run))
    (stops : ∀ d ∈ after.head?, ¬ (c.isWordStart = true ∧ d.isWordPart = true ∨
      c.isDigit = true ∧ d.isDigit = true ∨
        run = [] ∧ d = .equals ∧ (c = .equals ∨ c = .exclamation))) :
    LongestMatch (c :: run) after := by
  refine longestMatch_iff.2 ⟨lexeme, fun t ht here => Nat.le_of_not_lt fun hlt => ?_⟩
  -- A longer lexeme would go on with the code point behind.
  obtain ⟨ext, rfl⟩ : c :: run <+: t :=
    List.prefix_of_prefix_length_le (List.prefix_append (c :: run) after) here (Nat.le_of_lt hlt)
  obtain _ | ⟨d, more⟩ := ext
  · rw [List.append_nil] at hlt
    exact absurd hlt (Nat.lt_irrefl _)
  · obtain ⟨behind, rfl⟩ := (List.prefix_append_right_inj _).1 here
    exact stops d rfl ht.extension

/-- **In front of a lexeme** a lexeme stays whole exactly if the two do not
fuse. -/
theorem longestMatch_append_iff (hleft : IsLexeme left) (hright : IsLexeme right) :
    LongestMatch left (right ++ rest) ↔ ¬ Fuses left right := by
  obtain ⟨c, run, rfl⟩ := List.exists_cons_of_ne_nil hleft.ne_nil
  obtain ⟨d, more, rfl⟩ := List.exists_cons_of_ne_nil hright.ne_nil
  rw [fuses_cons_iff hleft hright]
  constructor
  · intro longest
    obtain ⟨hw, hd, hm⟩ := longest.no_extension (d := d) rfl
    rintro (h | h | h)
    · exact hw h
    · exact hd h
    · exact hm h
  · intro apart
    refine hleft.longestMatch fun e he => ?_
    cases he
    exact apart

/-- **And in front of blanks**, or of nothing, every lexeme does. -/
theorem longestMatch_of_blank (hleft : IsLexeme left)
    (blank : ∀ d ∈ after.head?, d.isBlank = true) : LongestMatch left after := by
  obtain ⟨c, run, rfl⟩ := List.exists_cons_of_ne_nil hleft.ne_nil
  refine hleft.longestMatch fun d hd => ?_
  have hblank := blank d hd
  have noPart : ¬ d.isWordPart = true := fun part => by
    rw [CodePoint.isBlank_eq_false_of_isWordPart part] at hblank
    cases hblank
  rintro (⟨-, part⟩ | ⟨-, digit⟩ | ⟨-, rfl, -⟩)
  · exact noPart part
  · exact noPart (CodePoint.isWordPart_of_isDigit digit)
  · cases hblank

end Match

/-! ## Layouts -/

/-- A lexeme that can be read, behind blanks. -/
structure Piece where
  blanks : Text
  raw : Text
  blank : blanks.all CodePoint.isBlank = true := by decide
  lexeme : IsLexeme raw := by decide
  readable : raw.isNumeral = true → raw.length ≤ Numeral.longest := by decide

/-- The source of a piece. -/
def Piece.text (p : Piece) : Text := p.blanks ++ p.raw

/-- **Lexemes with blanks between them.** -/
structure Layout where
  pieces : List Piece
  /-- The blanks behind the last lexeme. -/
  trailing : Text
  blank : trailing.all CodePoint.isBlank = true := by decide

namespace Layout

/-- The text of a layout. -/
def text (l : Layout) : Text := l.pieces.flatMap Piece.text ++ l.trailing

/-- The lexemes of a layout. -/
def raws (l : Layout) : List Text := l.pieces.map Piece.raw

/-- What stands before each lexeme of pieces that have a text before
them. -/
def frontsFrom (before : Text) : List Piece → List Text
  | [] => []
  | p :: ps => (before ++ p.blanks) :: frontsFrom (before ++ p.text) ps

/-- The text before each lexeme of a layout. -/
def fronts (l : Layout) : List Text := frontsFrom [] l.pieces

/-- **A layout is apart** when blanks stand between neighbours that fuse. -/
def Apart (l : Layout) : Prop := l.pieces.IsChain fun p q => Fuses p.raw q.raw → q.blanks ≠ []

instance (l : Layout) : Decidable l.Apart := inferInstanceAs (Decidable (List.IsChain _ _))

section Pieces

variable {p q : Piece} {ps : List Piece} {w v raw after behind trailing before : Text}
  {raws : List Text} {ts : List Token} {n : Nat}

theorem flatMap_text_cons (p : Piece) (ps : List Piece) (trailing : Text) :
    (p :: ps).flatMap Piece.text ++ trailing =
      p.blanks ++ p.raw ++ (ps.flatMap Piece.text ++ trailing) := by
  rw [List.flatMap_cons, Piece.text, List.append_assoc]

/-- What stands behind a piece that is apart from the next one does not go
on with it. -/
theorem longestMatch_of_isChain (blank : trailing.all CodePoint.isBlank = true)
    (apart : (p :: ps).IsChain fun p q => Fuses p.raw q.raw → q.blanks ≠ []) :
    LongestMatch p.raw (ps.flatMap Piece.text ++ trailing) := by
  cases ps with
  | nil =>
    refine longestMatch_of_blank p.lexeme fun d hd => ?_
    exact List.all_eq_true.1 blank d (List.mem_of_head? hd)
  | cons q ps =>
    obtain ⟨hpq, -⟩ := List.isChain_cons_cons.1 apart
    rw [flatMap_text_cons, List.append_assoc]
    rcases hblanks : q.blanks with _ | ⟨d, w⟩
    · exact (longestMatch_append_iff p.lexeme q.lexeme).2 fun fuses => hpq fuses hblanks
    · refine longestMatch_of_blank p.lexeme fun e he => ?_
      cases he
      exact List.all_eq_true.1 q.blank d (by rw [hblanks]; exact .head w)

/-- **Pieces that are apart cut their text.** -/
theorem cut_of_isChain (blank : trailing.all CodePoint.isBlank = true)
    (apart : ps.IsChain fun p q => Fuses p.raw q.raw → q.blanks ≠ []) :
    Cut (ps.flatMap Piece.text ++ trailing) (ps.map Piece.raw) := by
  induction ps with
  | nil => exact .blank blank
  | cons p ps ih =>
    rw [flatMap_text_cons]
    exact .lexeme p.blank (longestMatch_of_isChain blank apart) (ih apart.tail)

/-- The blanks in front of a lexeme are those that a text starts with. -/
theorem blanks_eq_of_append_eq (hw : w.all CodePoint.isBlank = true)
    (hv : v.all CodePoint.isBlank = true) (lexeme : IsLexeme raw)
    (h : w ++ raw ++ after = v ++ raw ++ behind) : w = v ∧ after = behind := by
  obtain ⟨c, run, rfl⟩ := List.exists_cons_of_ne_nil lexeme.ne_nil
  have visible : ∀ {rest : Text}, ∀ d ∈ ((c :: run) ++ rest).head?, d.isBlank = false := by
    intro rest d hd
    cases hd
    exact lexeme.isBlank_eq_false
  rw [List.append_assoc, List.append_assoc] at h
  have htake := congrArg (List.takeWhile CodePoint.isBlank) h
  rw [Lexeme.takeWhile_run hw visible, Lexeme.takeWhile_run hv visible] at htake
  subst htake
  exact ⟨rfl, List.append_cancel_left (List.append_cancel_left h)⟩

/-- A cut that starts with a lexeme of the text cuts what is behind it. -/
theorem longestMatch_of_cut (blank : w.all CodePoint.isBlank = true) (lexeme : IsLexeme raw)
    (cut : Cut (w ++ raw ++ after) (raw :: raws)) : LongestMatch raw after ∧ Cut after raws := by
  generalize hsource : w ++ raw ++ after = source at cut
  cases cut with
  | lexeme blank' longest behind =>
    obtain ⟨rfl, rfl⟩ := blanks_eq_of_append_eq blank blank' lexeme hsource
    exact ⟨longest, behind⟩

/-- **And pieces that cut their text are apart.** -/
theorem isChain_of_cut (cut : Cut (ps.flatMap Piece.text ++ trailing) (ps.map Piece.raw)) :
    ps.IsChain fun p q => Fuses p.raw q.raw → q.blanks ≠ [] := by
  induction ps with
  | nil => exact .nil
  | cons p ps ih =>
    rw [flatMap_text_cons] at cut
    obtain ⟨longest, behind⟩ := longestMatch_of_cut p.blank p.lexeme cut
    cases ps with
    | nil => exact .singleton p
    | cons q ps =>
      refine .cons_cons (fun fuses hnil => ?_) (ih behind)
      rw [flatMap_text_cons, hnil, List.nil_append] at longest
      exact (longestMatch_append_iff p.lexeme q.lexeme).1 longest fuses

/-- **Tokens over the text of their own pieces** are located where the
lexemes stand. -/
theorem map_location_of_spread (spread : Spread n (ps.flatMap Piece.text ++ trailing) ts)
    (hraws : ts.map Token.raw = ps.map Piece.raw) (hbefore : before.size = n) :
    ts.map Token.location = (frontsFrom before ps).map fun front => some (front.size : Int) := by
  induction ps generalizing n before ts with
  | nil =>
    obtain rfl := List.map_eq_nil_iff.1 hraws
    rfl
  | cons p ps ih =>
    obtain ⟨t, ts, rfl, hraw, hraws⟩ := List.map_eq_cons_iff.1 hraws
    rw [flatMap_text_cons] at spread
    generalize hsource : p.blanks ++ p.raw ++ (ps.flatMap Piece.text ++ trailing) = source at spread
    cases spread with
    | @token _ w after _ _ blank lexeme located behind =>
      rw [← hraw] at hsource
      obtain ⟨rfl, rfl⟩ := blanks_eq_of_append_eq p.blank blank lexeme hsource
      have hsize : (before ++ p.text).size = n + p.blanks.size + t.raw.size := by
        rw [Piece.text, ← hraw, Text.size_append, Text.size_append, hbefore, Nat.add_assoc]
      rw [List.map_cons, frontsFrom, List.map_cons, ih behind hraws hsize, located,
        Text.size_append, hbefore]

end Pieces

variable {l : Layout}

/-- **A layout that is apart cuts its text** into its lexemes. -/
theorem cut_text (apart : l.Apart) : Cut l.text l.raws := cut_of_isChain l.blank apart

/-- **And no other layout does.** -/
theorem apart_of_cut (cut : Cut l.text l.raws) : l.Apart := isChain_of_cut cut

/-- The text of a layout that is apart is readable, as its lexemes are. -/
theorem readable_text (apart : l.Apart) : l.text.Readable := by
  refine (cut_text apart).readable fun raw hraw => ?_
  obtain ⟨p, -, rfl⟩ := List.mem_map.1 hraw
  exact p.readable

end Layout

/-- **Scanning undoes a layout exactly if it is apart**: the tokens have its
lexemes, stand where the lexemes do, and are of the kinds that the lexemes
fix under the policy. The lexemes alone come back from no other layout. -/
theorem tokenize_layout_iff (o : Options) (l : Layout) :
    (l.Apart ↔ ∃ ts : List Token, (o.tokenize l.text).result = .ok (ts ++ [.eof]) ∧
      (∀ t ∈ ts, t.kind ≠ .eof) ∧ ts.map Token.raw = l.raws ∧
      (ts.map Token.location = l.fronts.map fun front => some (front.size : Int)) ∧
      ts.map Token.kind = l.raws.map (Kind.ofRaw o.overflow)) ∧
    ∀ ts : List Token, (o.tokenize l.text).result = .ok (ts ++ [.eof]) →
      ts.map Token.raw = l.raws → l.Apart := by
  have back : ∀ ts : List Token, (o.tokenize l.text).result = .ok (ts ++ [.eof]) →
      ts.map Token.raw = l.raws → l.Apart := by
    intro ts hts hraws
    rw [result_tokenize] at hts
    cases clear : (Cursor.ofText l.text).refusal? with
    | some e =>
      rw [clear] at hts
      cases hts
    | none =>
      rw [clear, Except.ok.injEq] at hts
      rw [← List.append_cancel_right hts, Cursor.map_raw_tokens clear] at hraws
      exact Layout.apart_of_cut ((@Cursor.cut_iff (.ofText l.text) _).2 hraws.symm)
  refine ⟨⟨fun apart => ?_, fun ⟨ts, hts, _, hraws, _⟩ => back ts hts hraws⟩, back⟩
  have clear : (Cursor.ofText l.text).refusal? = none := readable_iff.1 (Layout.readable_text apart)
  have hraws : ((Cursor.ofText l.text).tokens o.overflow).map Token.raw = l.raws := by
    rw [Cursor.map_raw_tokens clear]
    exact ((@Cursor.cut_iff (.ofText l.text) _).1 (Layout.cut_text apart)).symm
  refine ⟨_, ?_, fun t => Cursor.kind_ne_eof_of_mem_tokens, hraws, ?_, ?_⟩
  · rw [result_tokenize, clear]
  · exact Layout.map_location_of_spread (Cursor.spread_tokens clear o.overflow) hraws rfl
  · rw [← hraws, List.map_map]
    exact List.map_congr_left fun t => Cursor.kind_of_mem_tokens

/-- `10abc= ===€`, with a blank where two lexemes fuse and nowhere else. -/
def Layout.sparing : Layout where
  pieces := [{ blanks := "", raw := "10" }, { blanks := "", raw := "abc" },
    { blanks := "", raw := "=" }, { blanks := " ", raw := "==" }, { blanks := "", raw := "=" },
    { blanks := "", raw := "€" }]
  trailing := "\n"

/-- The same lexemes with no blank at all. -/
def Layout.squeezed : Layout where
  pieces := Layout.sparing.pieces.map fun p => { p with blanks := [], blank := rfl }
  trailing := []

/-- One blank keeps the marks of equals signs apart. Without it the four
signs in a row are two marks of two. -/
theorem tokenize_layout_iff_sparing :
    Layout.sparing.Apart ∧ Layout.sparing.text = "10abc= ===€\n" ∧
      (∃ ts : List Token, (Options.standard.tokenize "10abc= ===€\n").result =
          .ok (ts ++ [.eof]) ∧
        ts.map Token.raw = [("10" : Text), "abc", "=", "==", "=", "€"] ∧
        ts.map Token.location = [some 0, some 2, some 5, some 7, some 9, some 10] ∧
        ts.map Token.kind = [.integer, .identifier, .mark .assign, .mark .equal, .mark .assign,
          .illegal]) ∧
      ¬ Layout.squeezed.Apart ∧ Layout.squeezed.raws = Layout.sparing.raws ∧
      ∀ ts : List Token, (Options.standard.tokenize "10abc====€").result = .ok (ts ++ [.eof]) →
        ts.map Token.raw ≠ Layout.squeezed.raws := by
  have apart : Layout.sparing.Apart := by decide
  have fused : ¬ Layout.squeezed.Apart := by decide
  have htext : Layout.sparing.text = "10abc= ===€\n" := by decide
  obtain ⟨ts, hts, -, hraws, hlocations, hkinds⟩ :=
    (tokenize_layout_iff .standard Layout.sparing).1.1 apart
  rw [htext] at hts
  refine ⟨apart, htext, ⟨ts, hts, hraws, hlocations, hkinds.trans ?_⟩, fused, rfl,
    fun ts hts hraws => fused ?_⟩
  · decide
  · exact (tokenize_layout_iff .standard Layout.squeezed).2 ts hts hraws

end ScriptReader
