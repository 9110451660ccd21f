import Mathlib.Data.List.Forall2
import ScriptReader.Proofs.Beginnings
import ScriptReader.Proofs.Spellings

/-!
# Sketches — statements written down and read again

A sketch says what a statement is to bind or to return, and
`Written sketches source` that a source is these, spelled by literals with
blanks between their lexemes. Such a source is cut into those lexemes
(`Written.cut`), and since a literal makes the token again that it is the
literal of, its tokens are the ones that the sketches name, at some places
(`Written.tokens`). The grammar reads these as they were meant, whatever
the values are: a value that is a semicolon ends its statement, and then
the semicolon behind it is passed over
(`Grammar.productions_tokens_append`, `Grammar.reading_flatMap_tokens`).

The statements of a source have sketches of this kind, unless they lack a
value (`Statement.sound_of_read`). `read_written` is the theorem for
sketches, and for programs that were read before.
-/

namespace ScriptReader

/-! ## Tokens, but for their place and the spelling of integers -/

/-- A token at no place, which is spelled by its literal if it is an
integer. -/
def Token.canonical (t : Token) : Token :=
  { t with location := none, raw := if t.kind = .integer then t.literal else t.raw }

/-- The token of a reserved word, at no place. -/
def Keyword.token (k : Keyword) : Token := { kind := .keyword k, raw := k.spelling }

/-- The token of a mark. -/
def Mark.token (m : Mark) : Token := { kind := .mark m, raw := m.spelling }

/-- The token of a word that is not reserved. -/
def Token.ofName (name : Text) : Token := { kind := .identifier, raw := name }

section Canonical

variable {policy : Text} {t : Token} {k : Keyword}

/-- The literal is the same. -/
theorem Token.literal_canonical (t : Token) : t.canonical.literal = t.literal := by
  unfold literal canonical
  cases h : t.kind <;> rfl

theorem Token.canonical_canonical (t : Token) : t.canonical.canonical = t.canonical := by
  have twice : t.canonical.canonical = { t.canonical with
      raw := if t.kind = .integer then t.canonical.literal else t.canonical.raw } := rfl
  rw [twice, literal_canonical]
  by_cases isInteger : t.kind = .integer
  · rw [if_pos isInteger, canonical, if_pos isInteger]
  · rw [if_neg isInteger]

/-- A token that is a canonical one, but for its place, is of its kind and
has its number and its literal. -/
theorem Token.same_of_relocate {u : Token} (h : u.relocate (fun _ => none) = t.canonical) :
    u.kind = t.kind ∧ u.value = t.value ∧ u.literal = t.literal := by
  have hkind : (u.relocate fun _ => none).kind = t.canonical.kind := congrArg Token.kind h
  have hvalue : (u.relocate fun _ => none).value = t.canonical.value := congrArg Token.value h
  have hliteral : (u.relocate fun _ => none).literal = t.canonical.literal :=
    congrArg Token.literal h
  exact ⟨hkind, hvalue, hliteral.trans t.literal_canonical⟩

namespace Token.Scanned

/-- **A token spelled by its literal is the canonical one**, but for its
place. -/
theorem raw_canonical (h : t.Scanned policy) : t.canonical.raw = t.literal := by
  by_cases isInteger : t.kind = .integer
  · rw [canonical, if_pos isInteger]
  · rw [canonical, if_neg isInteger, h.literal_eq_raw isInteger]

theorem canonical_of_keyword (h : t.Scanned policy) (isKeyword : t.kind = .keyword k) :
    t.canonical = k.token := by
  cases h <;> cases isKeyword
  rfl

theorem canonical_of_identifier (h : t.Scanned policy) (isName : t.kind = .identifier) :
    t.canonical = .ofName t.raw := by
  cases h <;> cases isName
  rfl

/-- A name is a word that is not reserved. -/
theorem isWord_of_identifier (h : t.Scanned policy) (isName : t.kind = .identifier) :
    t.raw.isWord = true ∧ Keyword.ofText? t.raw = none := by
  cases h with
  | name n isWord free => exact ⟨isWord, free⟩
  | _ => cases isName

end Token.Scanned

end Canonical

/-! ## Sketches -/

/-- **What a statement is to be**: a name and the token of its value, or
the token of a value to return. -/
inductive Sketch where
  | binding (name : Text) (value : Token)
  | returning (value : Token)
deriving DecidableEq

/-- The sketch of a statement. -/
def Statement.sketch : Statement → Sketch
  | binding _ target value => .binding target.token.raw value.token
  | returning _ value => .returning value.token

namespace Sketch

/-- The lexemes that a sketch is written with. -/
def raws : Sketch → List Text
  | binding name value => ["let", name, "=", value.literal, ";"]
  | returning value => ["return", value.literal, ";"]

/-- **A sketch that can be written**: its name is a word that is not
reserved, and its value is what a scanner answers with, somewhere, before
the end. -/
inductive Sound (policy : Text) : Sketch → Prop
  | binding {name : Text} {value : Token} (isWord : name.isWord = true)
      (free : Keyword.ofText? name = none) (visible : value.kind ≠ .eof) (s : Cursor)
      (answer : (s.next policy).result = .ok value) : Sound policy (.binding name value)
  | returning {value : Token} (visible : value.kind ≠ .eof) (s : Cursor)
      (answer : (s.next policy).result = .ok value) : Sound policy (.returning value)

/-- **A statement as it was sketched**: of its kind, with its name, and
with a value of the same kind, with the same number and the same
literal. -/
inductive Describes : Sketch → Statement → Prop
  | binding {name : Text} {value keyword target found : Token}
      (isLet : keyword.kind = .keyword .letWord) (isName : target.kind = .identifier)
      (named : target.raw = name) (kind : found.kind = value.kind)
      (number : found.value = value.value) (literal : found.literal = value.literal) :
      Describes (.binding name value) (.binding keyword ⟨target⟩ ⟨found⟩)
  | returning {value keyword found : Token} (isReturn : keyword.kind = .keyword .returnWord)
      (kind : found.kind = value.kind) (number : found.value = value.value)
      (literal : found.literal = value.literal) :
      Describes (.returning value) (.returning keyword ⟨found⟩)

/-- The tokens that a sketch names. -/
def tokens : Sketch → List Token
  | binding name value =>
    [Keyword.letWord.token, .ofName name, Mark.assign.token, value.canonical, Mark.semicolon.token]
  | returning value => [Keyword.returnWord.token, value.canonical, Mark.semicolon.token]

/-- The statement of these tokens. -/
def statement : Sketch → Statement
  | binding name value => .binding Keyword.letWord.token ⟨.ofName name⟩ ⟨value.canonical⟩
  | returning value => .returning Keyword.returnWord.token ⟨value.canonical⟩

end Sketch

/-! ## Sketches as source -/

/-- **Lexemes with blanks between neighbours.** -/
inductive Spaced : List Text → Text → Prop
  | one (raw : Text) : Spaced [raw] raw
  | more {raw w rest : Text} {raws : List Text} (blank : w.all CodePoint.isBlank = true)
      (apart : w ≠ []) (later : Spaced raws rest) : Spaced (raw :: raws) (raw ++ w ++ rest)

/-- **Sketches written down** one behind the other, with blanks around them
or with none. -/
inductive Written : List Sketch → Text → Prop
  | nil {w : Text} (blank : w.all CodePoint.isBlank = true) : Written [] w
  | cons {sketch : Sketch} {sketches : List Sketch} {w text rest : Text}
      (blank : w.all CodePoint.isBlank = true) (spaced : Spaced sketch.raws text)
      (later : Written sketches rest) : Written (sketch :: sketches) (w ++ text ++ rest)

section Writing

variable {policy source text rest w : Text} {raws more : List Text} {sketch : Sketch}
  {sketches : List Sketch} {ts ps : List Token} {p : Token}

/-- Lexemes with blanks between them are cut from each other, and the last
one from what is behind it. -/
theorem Spaced.cut (spaced : Spaced raws text) (lexemes : ∀ raw ∈ raws, IsLexeme raw)
    (last : ∀ raw ∈ raws.getLast?, LongestMatch raw rest) (behind : Cut rest more)
    (blank : w.all CodePoint.isBlank = true) : Cut (w ++ text ++ rest) (raws ++ more) := by
  induction spaced generalizing w with
  | one raw => exact .lexeme blank (last raw rfl) behind
  | @more raw v text raws blank' apart later ih =>
    obtain ⟨isLexeme, lexemes⟩ := List.forall_mem_cons.1 lexemes
    have hlast : (raw :: raws).getLast? = raws.getLast? := by
      cases later <;> rfl
    rw [hlast] at last
    obtain ⟨c, v, rfl⟩ := List.exists_cons_of_ne_nil apart
    have longest : LongestMatch raw (c :: v ++ text ++ rest) := by
      refine longestMatch_of_blank isLexeme fun d hd => ?_
      cases hd
      exact List.all_eq_true.1 blank' c (.head v)
    have h := Cut.lexeme blank longest (ih lexemes last blank')
    simpa only [List.append_assoc, List.cons_append] using h

/-- The source of a token fixes it, but for its place. -/
theorem map_relocate_eq (scanned : ∀ t ∈ ts, t.Scanned policy)
    (expected : ∀ p ∈ ps, ∃ t : Token, t.Scanned policy ∧ t.relocate (fun _ => none) = p)
    (same : ts.map Token.raw = ps.map Token.raw) : ts.map (Token.relocate fun _ => none) = ps := by
  induction ps generalizing ts with
  | nil =>
    obtain rfl := List.map_eq_nil_iff.1 same
    rfl
  | cons p ps ih =>
    obtain ⟨t, ts, rfl, hraw, hraws⟩ := List.map_eq_cons_iff.1 same
    obtain ⟨ht, scanned⟩ := List.forall_mem_cons.1 scanned
    obtain ⟨⟨u, hu, hup⟩, later⟩ := List.forall_mem_cons.1 expected
    rw [← hup] at hraw
    rw [List.map_cons, ih scanned later hraws, ← hup, ← hu.eq_of_raw_eq ht hraw.symm]
    rfl

namespace Sketch

/-- What a scanner answers with is canonical at no place, when it is
spelled by its literal. -/
theorem exists_scanned_canonical {t : Token} (h : t.Scanned policy) :
    ∃ u : Token, u.Scanned policy ∧ u.relocate (fun _ => none) = t.canonical :=
  ⟨_, h.respelled 0, congrArg (Token.mk t.kind none · t.value) h.raw_canonical.symm⟩

/-- The tokens of a sketch are what a scanner answers with, but for their
places, and their sources are its lexemes. -/
theorem Sound.tokens (sound : sketch.Sound policy) :
    sketch.tokens.map Token.raw = sketch.raws ∧
      ∀ p ∈ sketch.tokens, ∃ t : Token, t.Scanned policy ∧ t.relocate (fun _ => none) = p := by
  have fixed : ∀ p : Token, Token.Scanned policy { p with location := some (0 : Nat) } →
      p.location = none → ∃ t : Token, t.Scanned policy ∧ t.relocate (fun _ => none) = p := by
    rintro ⟨kind, location, raw, value⟩ h rfl
    exact ⟨_, h, rfl⟩
  cases sound with
  | @binding name value isWord free visible s answer =>
    have scanned : value.Scanned policy := Token.scanned_iff_next.2 ⟨visible, s, answer⟩
    refine ⟨by rw [raws, ← scanned.raw_canonical]; rfl, List.forall_mem_cons.2
      ⟨fixed _ (.keyword .letWord 0) rfl, List.forall_mem_cons.2
        ⟨fixed _ (.name 0 isWord free) rfl, List.forall_mem_cons.2
          ⟨fixed _ (.mark .assign 0) rfl, List.forall_mem_cons.2
            ⟨exists_scanned_canonical scanned, List.forall_mem_singleton.2
              (fixed _ (.mark .semicolon 0) rfl)⟩⟩⟩⟩⟩
  | @returning value visible s answer =>
    have scanned : value.Scanned policy := Token.scanned_iff_next.2 ⟨visible, s, answer⟩
    refine ⟨by rw [raws, ← scanned.raw_canonical]; rfl, List.forall_mem_cons.2
      ⟨fixed _ (.keyword .returnWord 0) rfl, List.forall_mem_cons.2
        ⟨exists_scanned_canonical scanned, List.forall_mem_singleton.2
          (fixed _ (.mark .semicolon 0) rfl)⟩⟩⟩

end Sketch

/-! ## What the grammar makes of sketches -/

namespace Grammar

theorem headD_through (t : Token) (ts : List Token) : (through (t :: ts)).headD .eof = t := by
  rw [through]
  split <;> rfl

/-- **The tokens of a sketch are a production**, whatever its value. If
that is a semicolon then the one behind it is a token that starts no
statement. -/
theorem productions_tokens_append (sketch : Sketch) (ts : List Token) :
    ∃ p : Production, p.statement? = some sketch.statement ∧
      (∀ reportStray, p.report? reportStray = none) ∧
      (productions (sketch.tokens ++ ts) = p :: productions ts ∨
        productions (sketch.tokens ++ ts) =
          p :: .single Mark.semicolon.token :: productions ts) := by
  -- What is behind the statement, by its value.
  have behind : ∀ value : Token,
      productions (after (value :: Mark.semicolon.token :: ts)) = productions ts ∨
        productions (after (value :: Mark.semicolon.token :: ts)) =
          .single Mark.semicolon.token :: productions ts := by
    intro value
    rw [after]
    split
    · exact .inr (productions_cons Mark.semicolon.token ts)
    · exact .inl rfl
  cases sketch with
  | binding name value =>
    have hfirst := productions_cons Keyword.letWord.token
      (.ofName name :: Mark.assign.token :: value.canonical :: Mark.semicolon.token :: ts)
    refine ⟨_, ?_, fun _ => rfl, (behind value.canonical).imp (fun h => hfirst.trans (congrArg _ h))
      fun h => hfirst.trans (congrArg _ h)⟩
    exact congrArg (fun t => some (Statement.binding _ _ ⟨t⟩)) (headD_through value.canonical _)
  | returning value =>
    have hfirst := productions_cons Keyword.returnWord.token
      (value.canonical :: Mark.semicolon.token :: ts)
    refine ⟨_, ?_, fun _ => rfl, (behind value.canonical).imp (fun h => hfirst.trans (congrArg _ h))
      fun h => hfirst.trans (congrArg _ h)⟩
    exact congrArg (fun t => some (Statement.returning _ ⟨t⟩)) (headD_through value.canonical _)

/-- **Sketched tokens are read as sketched**, and nothing is reported. -/
theorem reading_flatMap_tokens (reportStray : Bool) (sketches : List Sketch) :
    reading reportStray (sketches.flatMap Sketch.tokens) =
      ⟨⟨sketches.map Sketch.statement⟩, []⟩ := by
  have quiet : (Production.single Mark.semicolon.token).report? reportStray = none :=
    if_neg fun h => h.2 rfl
  induction sketches with
  | nil =>
    rw [List.flatMap_nil, reading, statements, reports, productions_nil]
    rfl
  | cons sketch sketches ih =>
    rw [reading, Reading.mk.injEq, Program.mk.injEq, statements, reports] at ih
    obtain ⟨hstatements, hreports⟩ := ih
    rw [List.flatMap_cons, reading, statements, reports]
    obtain ⟨p, hstatement, hreport, h | h⟩ :=
      productions_tokens_append sketch (sketches.flatMap Sketch.tokens)
    · rw [h, List.filterMap_cons_some hstatement, List.filterMap_cons_none (hreport reportStray),
        hstatements, hreports]
      rfl
    · rw [h, List.filterMap_cons_some hstatement, List.filterMap_cons_none (hreport reportStray),
        List.filterMap_cons_none rfl, List.filterMap_cons_none quiet, hstatements, hreports]
      rfl

end Grammar

/-! ## Programs as sketches -/

/-- **A statement is one of the language**: it starts with its reserved
word, and what it binds is a name. -/
inductive Statement.Formed : Statement → Prop
  | binding {keyword target : Token} {value : Expression}
      (isLet : keyword.kind = .keyword .letWord) (isName : target.kind = .identifier) :
      Formed (.binding keyword ⟨target⟩ value)
  | returning {keyword : Token} {value : Expression}
      (isReturn : keyword.kind = .keyword .returnWord) : Formed (.returning keyword value)

/-- The statements of tokens are. -/
theorem Grammar.formed_of_mem_statements {s : Statement} (h : s ∈ statements ts) : s.Formed := by
  obtain ⟨p, hp, hs⟩ := List.mem_filterMap.1 h
  obtain ⟨before, behind, -, fits⟩ := exists_fits_of_mem hp
  cases fits with
  | binding isLet isName =>
    cases hs
    exact .binding isLet isName
  | returning isReturn =>
    cases hs
    exact .returning isReturn
  | _ => cases hs

/-- **A statement that was read is its sketch**, but for places and the
spelling of integers, if it has a value. -/
theorem Statement.Formed.sound {s : Statement} (formed : s.Formed) (visible : s.value.kind ≠ .eof)
    (scanned : ∀ t ∈ s.tokens, t.Scanned policy ∨ t = .eof) :
    s.sketch.Sound policy ∧ s.sketch.statement = s.map Token.canonical := by
  have known : ∀ t ∈ s.tokens, t.kind ≠ .eof → t.Scanned policy := by
    intro t ht noEnd
    exact (scanned t ht).resolve_right fun h => noEnd (congrArg Token.kind h)
  obtain ⟨noEnd, cursor, answer⟩ := Token.scanned_iff_next.1
    (known s.value (by cases s <;> simp [tokens, Statement.value]) visible)
  cases formed with
  | @binding keyword target value isLet isName =>
    have hkeyword := known keyword (by simp [tokens]) (by rw [isLet]; decide)
    have htarget := known target (by simp [tokens]) (by rw [isName]; decide)
    obtain ⟨isWord, free⟩ := htarget.isWord_of_identifier isName
    refine ⟨.binding isWord free noEnd cursor answer, ?_⟩
    rw [Statement.map, Expression.map, Expression.map, hkeyword.canonical_of_keyword isLet,
      htarget.canonical_of_identifier isName]
    rfl
  | @returning keyword value isReturn =>
    have hkeyword := known keyword (by simp [tokens]) (by rw [isReturn]; decide)
    refine ⟨.returning noEnd cursor answer, ?_⟩
    rw [Statement.map, Expression.map, hkeyword.canonical_of_keyword isReturn]
    rfl

/-- So are the statements of a source that was read. -/
theorem Statement.sound_of_read {o : Options} {found : Reading} {s : Statement}
    (h : (o.read source).result = .ok found) (hs : s ∈ found.program.statements)
    (visible : s.value.kind ≠ .eof) :
    s.sketch.Sound o.overflow ∧ s.sketch.statement = s.map Token.canonical := by
  obtain ⟨-, rfl⟩ := result_read_eq_ok_iff.1 h
  refine (Grammar.formed_of_mem_statements hs).sound visible fun t ht => ?_
  exact (Grammar.mem_of_mem_statements hs ht).imp_left Cursor.scanned_of_mem_tokens

/-! ## Reading what was written -/

/-- **A source of sketches** is cut into their lexemes. -/
theorem Written.cut (written : Written sketches source)
    (lexemes : ∀ sketch ∈ sketches, ∀ raw ∈ sketch.raws, IsLexeme raw) :
    Cut source (sketches.flatMap Sketch.raws) := by
  induction written with
  | nil blank => exact .blank blank
  | @cons sketch sketches w text rest blank spaced later ih =>
    obtain ⟨hsketch, lexemes⟩ := List.forall_mem_cons.1 lexemes
    rw [List.flatMap_cons]
    refine spaced.cut hsketch (fun raw hraw => ?_) (ih lexemes) blank
    -- The last lexeme of a sketch is a semicolon, which nothing goes on with.
    have isSemicolon : raw = ";" := by
      cases sketch <;> cases hraw <;> rfl
    rw [isSemicolon]
    exact @LongestMatch.single ';' rest rfl rfl rfl (by decide) (by decide)

/-- The lexemes of a sketch can be read. -/
theorem Sketch.Sound.of_mem_raws (sound : sketch.Sound policy) {raw : Text}
    (h : raw ∈ sketch.raws) :
    IsLexeme raw ∧ (raw.isNumeral = true → raw.length ≤ Numeral.longest) := by
  obtain ⟨hraws, scanned⟩ := sound.tokens
  rw [← hraws] at h
  obtain ⟨p, hp, rfl⟩ := List.mem_map.1 h
  obtain ⟨t, ht, rfl⟩ := scanned p hp
  exact ⟨ht.isLexeme, ht.readable⟩

/-- **A source of sketches is scanned to their tokens**, at some places. -/
theorem Written.tokens (written : Written sketches source)
    (sound : ∀ sketch ∈ sketches, sketch.Sound policy) :
    (Cursor.ofText source).refusal? = none ∧
      ((Cursor.ofText source).tokens policy).map (Token.relocate fun _ => none) =
        sketches.flatMap Sketch.tokens := by
  have cut := written.cut fun sketch hsketch raw hraw => ((sound sketch hsketch).of_mem_raws hraw).1
  have readable := cut.readable fun raw hraw => by
    obtain ⟨sketch, hsketch, hraw⟩ := List.mem_flatMap.1 hraw
    exact ((sound sketch hsketch).of_mem_raws hraw).2
  have clear : (Cursor.ofText source).refusal? = none := readable_iff.1 readable
  refine ⟨clear, map_relocate_eq (fun t => Cursor.scanned_of_mem_tokens) (fun p hp => ?_) ?_⟩
  · obtain ⟨sketch, hsketch, hp⟩ := List.mem_flatMap.1 hp
    exact (sound sketch hsketch).tokens.2 p hp
  · have hraws : (sketches.flatMap Sketch.tokens).map Token.raw = sketches.flatMap Sketch.raws := by
      rw [List.map_flatMap]
      exact List.flatMap_congr fun sketch hsketch => (sound sketch hsketch).tokens.1
    rw [Cursor.map_raw_tokens clear, hraws]
    exact ((@Cursor.cut_iff (.ofText source) _).1 cut).symm

/-- **And it is read as it was sketched**, at some places, with nothing to
report. -/
theorem Written.read (o : Options) (written : Written sketches source)
    (sound : ∀ sketch ∈ sketches, sketch.Sound o.overflow) :
    ∃ found, (o.read source).result = .ok found ∧ found.success = true ∧
      found.program.statements.map (Statement.map (Token.relocate fun _ => none)) =
        sketches.map Sketch.statement := by
  obtain ⟨clear, htokens⟩ := written.tokens sound
  have hread := Grammar.reading_flatMap_tokens o.reportStray sketches
  rw [← htokens, Grammar.reading_relocate rfl] at hread
  obtain ⟨hprogram, hreports⟩ := Reading.mk.inj hread
  refine ⟨_, result_read_eq_ok_iff.2 ⟨clear, rfl⟩, ?_, Program.mk.inj hprogram⟩
  rw [Reading.success, List.map_eq_nil_iff.1 hreports]
  rfl

/-- A statement that is the sketched one at no place is as it was
sketched. -/
theorem Sketch.describes_of_map_relocate {s : Statement}
    (h : s.map (Token.relocate fun _ => none) = sketch.statement) : sketch.Describes s := by
  cases sketch with
  | binding name value =>
    cases s with
    | binding keyword target found =>
      obtain ⟨hkeyword, htarget, hfound⟩ := Statement.binding.inj h
      obtain ⟨hkind, hvalue, hliteral⟩ := Token.same_of_relocate (Expression.mk.inj hfound)
      exact .binding (congrArg (fun t => t.kind) hkeyword)
        (congrArg (fun e => e.token.kind) htarget) (congrArg (fun e => e.token.raw) htarget)
        hkind hvalue hliteral
    | returning => cases h
  | returning value =>
    cases s with
    | binding => cases h
    | returning keyword found =>
      obtain ⟨hkeyword, hfound⟩ := Statement.returning.inj h
      obtain ⟨hkind, hvalue, hliteral⟩ := Token.same_of_relocate (Expression.mk.inj hfound)
      exact .returning (congrArg (fun t => t.kind) hkeyword) hkind hvalue hliteral

/-- At other places a statement has the same canonical form. -/
theorem Statement.map_canonical_relocate (s : Statement) (f : Option Int → Option Int) :
    (s.map (Token.relocate f)).map Token.canonical = s.map Token.canonical := by
  cases s <;> rfl

theorem Statement.map_canonical_canonical (s : Statement) :
    (s.map Token.canonical).map Token.canonical = s.map Token.canonical := by
  cases s <;> simp only [map, Expression.map, Token.canonical_canonical]

end Writing

/-- **Statements survive being written down.** A source of sketches, with
any blanks between their lexemes, is read to statements as they were
sketched, one for each, and nothing is reported. So a program that was
read, from whatever source, comes back from the source of its sketches,
but for places and the spelling of integers, if all its statements have
values. -/
theorem read_written (o : Options) :
    (∀ sketches source, (∀ sketch ∈ sketches, Sketch.Sound o.overflow sketch) →
      Written sketches source →
      ∃ found, (o.read source).result = .ok found ∧ found.success = true ∧
        List.Forall₂ Sketch.Describes sketches found.program.statements) ∧
    ∀ p : Options, p.overflow = o.overflow → ∀ source first again,
      (p.read source).result = .ok first →
      (∀ s ∈ first.program.statements, s.value.kind ≠ .eof) →
      Written (first.program.statements.map Statement.sketch) again →
      ∃ second, (o.read again).result = .ok second ∧ second.success = true ∧
        second.program.statements.map (Statement.map Token.canonical) =
          first.program.statements.map (Statement.map Token.canonical) := by
  constructor
  · intro sketches source sound written
    obtain ⟨found, hfound, success, hstatements⟩ := written.read o sound
    have each : List.Forall₂ (· = ·) (sketches.map Sketch.statement)
        (found.program.statements.map (Statement.map (Token.relocate fun _ => none))) := by
      rw [List.forall₂_eq_eq_eq, hstatements]
    rw [List.forall₂_map_left_iff, List.forall₂_map_right_iff] at each
    exact ⟨found, hfound, success,
      each.imp fun sketch s h => Sketch.describes_of_map_relocate h.symm⟩
  · intro p same source first again hfirst visible written
    have known : ∀ s ∈ first.program.statements,
        s.sketch.Sound o.overflow ∧ s.sketch.statement = s.map Token.canonical :=
      fun s hs => same ▸ Statement.sound_of_read hfirst hs (visible s hs)
    obtain ⟨second, hsecond, success, hstatements⟩ := written.read o fun sketch hsketch => by
      obtain ⟨s, hs, rfl⟩ := List.mem_map.1 hsketch
      exact (known s hs).1
    have hknown : first.program.statements.map (Sketch.statement ∘ Statement.sketch) =
        first.program.statements.map (Statement.map Token.canonical) :=
      List.map_congr_left fun s hs => (known s hs).2
    refine ⟨second, hsecond, success, ?_⟩
    rw [List.map_map, hknown] at hstatements
    have canonical := congrArg (List.map (Statement.map Token.canonical)) hstatements
    rw [List.map_map, List.map_map] at canonical
    have hleft : Statement.map Token.canonical ∘ Statement.map (Token.relocate fun _ => none) =
        Statement.map Token.canonical := funext fun s => s.map_canonical_relocate _
    have hright : Statement.map Token.canonical ∘ Statement.map Token.canonical =
        Statement.map Token.canonical := funext Statement.map_canonical_canonical
    rwa [hleft, hright] at canonical

/-- A value that is a semicolon, and a number that is too great and has
zeros in front: written down again, the number is the greatest one. -/
theorem read_written_semicolon :
    ∃ first second, first.program.statements.map Statement.sketch =
        [.binding "x" ⟨.mark .semicolon, some 8, ";", none⟩,
          .returning ⟨.integer, some 16, "0099999999999999999999", some 9223372036854775807⟩] ∧
      Written (first.program.statements.map Statement.sketch)
        "let x = ; ;return\t9223372036854775807 ;" ∧
      (Options.read ⟨"saturate", none, false⟩ "let x = ;return 0099999999999999999999").result =
        .ok first ∧
      (Options.read ⟨"saturate", none, true⟩ "let x = ; ;return\t9223372036854775807 ;").result =
        .ok second ∧
      second.success = true ∧
      second.program.statements.map (Statement.map Token.canonical) =
        first.program.statements.map (Statement.map Token.canonical) ∧
      List.Forall₂ Sketch.Describes (first.program.statements.map Statement.sketch)
        second.program.statements := by
  let first := Grammar.reading false
    ((Cursor.ofText "let x = ;return 0099999999999999999999").tokens "saturate")
  have hfirst : (Options.read ⟨"saturate", none, false⟩
      "let x = ;return 0099999999999999999999").result = .ok first :=
    result_read_eq_ok_iff.2 ⟨readable_iff.1 (readable_of_length_le (by decide)), rfl⟩
  have sketches : first.program.statements.map Statement.sketch =
      [.binding "x" ⟨.mark .semicolon, some 8, ";", none⟩,
        .returning ⟨.integer, some 16, "0099999999999999999999", some 9223372036854775807⟩] := by
    decide +kernel
  have written : Written (first.program.statements.map Statement.sketch)
      "let x = ; ;return\t9223372036854775807 ;" := by
    rw [sketches]
    refine @Written.cons _ _ [] "let x = ; ;" "return\t9223372036854775807 ;" rfl
      (@Spaced.more "let" " " "x = ; ;" _ rfl (by decide)
        (@Spaced.more "x" " " "= ; ;" _ rfl (by decide)
          (@Spaced.more "=" " " "; ;" _ rfl (by decide)
            (@Spaced.more ";" " " ";" _ rfl (by decide) (.one ";")))))
      (@Written.cons _ _ [] "return\t9223372036854775807 ;" [] rfl
        (@Spaced.more "return" "\t" "9223372036854775807 ;" _ rfl (by decide)
          (@Spaced.more "9223372036854775807" " " ";" _ rfl (by decide) (.one ";")))
        (.nil rfl))
  have visible : ∀ s ∈ first.program.statements, s.value.kind ≠ .eof := by decide +kernel
  have sound : ∀ sketch ∈ first.program.statements.map Statement.sketch,
      Sketch.Sound "saturate" sketch := by
    intro sketch hsketch
    obtain ⟨s, hs, rfl⟩ := List.mem_map.1 hsketch
    exact (Statement.sound_of_read hfirst hs (visible s hs)).1
  obtain ⟨fromSketches, fromReading⟩ := read_written ⟨"saturate", none, true⟩
  obtain ⟨second, hsecond, success, canonical⟩ :=
    fromReading ⟨"saturate", none, false⟩ rfl _ first _ hfirst visible written
  obtain ⟨found, hfound, -, describes⟩ := fromSketches _ _ sound written
  rw [hsecond, Except.ok.injEq] at hfound
  subst hfound
  exact ⟨first, second, sketches, written, hfirst, hsecond, success, canonical, describes⟩

end ScriptReader
