import ScriptReader.Proofs.Refinement

/-!
# The language — the sources that are read without a report

A source has nothing to report exactly when the kinds of its tokens are a
sentence: phrases one after the other, and at the end perhaps a statement
that lacks its semicolon. `Derivation` is a sentence taken apart. No
sentence has two derivations (`Derivation.Yields.unique`), for a phrase
ends with its first semicolon and nothing else ends one.

The grammar of spans and the language meet in two lemmas. Productions
with nothing to report make a derivation
(`Grammar.exists_yields_of_quiet`), and a derivation leaves the
grammar no other productions than its own phrases
(`Derivation.Yields.exists_productions`). `read_success_iff_derivation` is
the theorem for a source.
-/

namespace ScriptReader

/-- A phrase: a semicolon, a statement with its semicolon at the end, or
one kind that is part of no statement. -/
inductive Phrase where
  | semicolon
  | binding (body : List Kind)
  | returning (body : List Kind)
  | stray (k : Kind)
deriving DecidableEq

/-- What a sentence ends with: nothing, or a statement without a
semicolon. -/
inductive Ending where
  | nothing
  | binding (body : List Kind)
  | returning (body : List Kind)
deriving DecidableEq

/-- A sentence taken apart. -/
structure Derivation where
  phrases : List Phrase
  ending : Ending
deriving DecidableEq

namespace Phrase

/-- The kinds of a phrase, in order. -/
def kinds : Phrase → List Kind
  | semicolon => [.mark .semicolon]
  | binding body =>
    .keyword .letWord :: .identifier :: .mark .assign :: (body ++ [.mark .semicolon])
  | returning body => .keyword .returnWord :: (body ++ [.mark .semicolon])
  | stray k => [k]

/-- Whether a phrase is one of the language. A body is without
semicolons. A kind may stand alone if strays are not reported, and then
it must start no other phrase. -/
def Allowed (reportStray : Bool) : Phrase → Prop
  | semicolon => True
  | binding body => .mark .semicolon ∉ body
  | returning body => .mark .semicolon ∉ body
  | stray k => reportStray = false ∧ k ≠ .keyword .letWord ∧ k ≠ .keyword .returnWord ∧
      k ≠ .mark .semicolon

/-- The reserved word that makes a phrase a statement. -/
def word? : Phrase → Option Keyword
  | binding _ => some .letWord
  | returning _ => some .returnWord
  | _ => none

end Phrase

namespace Ending

/-- The kinds of an ending, in order. -/
def kinds : Ending → List Kind
  | nothing => []
  | binding body => .keyword .letWord :: .identifier :: .mark .assign :: body
  | returning body => .keyword .returnWord :: body

/-- Whether an ending is one of the language: no semicolon is in it. -/
def Allowed : Ending → Prop
  | nothing => True
  | binding body => .mark .semicolon ∉ body
  | returning body => .mark .semicolon ∉ body

/-- The reserved word that makes an ending a statement. -/
def word? : Ending → Option Keyword
  | nothing => none
  | binding _ => some .letWord
  | returning _ => some .returnWord

end Ending

/-- The reserved word that starts a statement of this form. -/
def Statement.word : Statement → Keyword
  | binding .. => .letWord
  | returning .. => .returnWord

namespace Derivation

/-- The kinds of a sentence, in order. -/
def kinds (d : Derivation) : List Kind := d.phrases.flatMap Phrase.kinds ++ d.ending.kinds

/-- The statements of a sentence, by the reserved words that start them. -/
def words (d : Derivation) : List Keyword :=
  d.phrases.filterMap Phrase.word? ++ d.ending.word?.toList

/-- **A derivation of kinds**: they are those of its phrases and its
ending, and all of these are of the language. -/
structure Yields (reportStray : Bool) (d : Derivation) (ks : List Kind) : Prop where
  phrases : ∀ q ∈ d.phrases, q.Allowed reportStray
  ending : d.ending.Allowed
  kinds : d.kinds = ks

end Derivation

/-! ## One derivation -/

section Unique

variable {reportStray : Bool} {q r : Phrase} {e : Ending} {ks ls : List Kind}

/-- Bodies in front of a semicolon are the same if what starts with them is. -/
theorem body_eq_of_append_eq {body run : List Kind} (hbody : .mark .semicolon ∉ body)
    (hrun : .mark .semicolon ∉ run)
    (h : body ++ .mark .semicolon :: ks = run ++ .mark .semicolon :: ls) :
    body = run ∧ ks = ls := by
  induction body generalizing run with
  | nil =>
    cases run with
    | nil => exact ⟨rfl, (List.cons.inj h).2⟩
    | cons k run =>
      obtain ⟨rfl, -⟩ := List.cons.inj h
      exact absurd (.head run) hrun
  | cons k body ih =>
    cases run with
    | nil =>
      obtain ⟨rfl, -⟩ := List.cons.inj h
      exact absurd (.head body) hbody
    | cons l run =>
      obtain ⟨rfl, hrest⟩ := List.cons.inj h
      obtain ⟨rfl, hks⟩ := ih (fun mem => hbody (.tail k mem)) (fun mem => hrun (.tail k mem)) hrest
      exact ⟨rfl, hks⟩

/-- **A phrase is known by the kinds that start with it.** -/
theorem Phrase.eq_of_append_eq (hq : q.Allowed reportStray) (hr : r.Allowed reportStray)
    (h : q.kinds ++ ks = r.kinds ++ ls) : q = r ∧ ks = ls := by
  -- Each phrase starts with a kind of its own, and a body stops at its first semicolon.
  cases q with
  | semicolon =>
    cases r with
    | semicolon => exact ⟨rfl, (List.cons.inj h).2⟩
    | stray k => exact absurd (List.cons.inj h).1.symm hr.2.2.2
    | _ => cases h
  | binding body =>
    cases r with
    | binding run =>
      simp only [kinds, List.cons_append, List.append_assoc, List.nil_append, List.cons.injEq,
        true_and] at h
      obtain ⟨rfl, rfl⟩ := body_eq_of_append_eq hq hr h
      exact ⟨rfl, rfl⟩
    | stray k => exact absurd (List.cons.inj h).1.symm hr.2.1
    | _ => cases h
  | returning body =>
    cases r with
    | returning run =>
      simp only [kinds, List.cons_append, List.append_assoc, List.nil_append, List.cons.injEq,
        true_and] at h
      obtain ⟨rfl, rfl⟩ := body_eq_of_append_eq hq hr h
      exact ⟨rfl, rfl⟩
    | stray k => exact absurd (List.cons.inj h).1.symm hr.2.2.1
    | _ => cases h
  | stray k =>
    obtain ⟨-, noLet, noReturn, noSemicolon⟩ := hq
    cases r with
    | semicolon => exact absurd (List.cons.inj h).1 noSemicolon
    | binding body => exact absurd (List.cons.inj h).1 noLet
    | returning body => exact absurd (List.cons.inj h).1 noReturn
    | stray l =>
      obtain ⟨rfl, rfl⟩ := List.cons.inj h
      exact ⟨rfl, rfl⟩

/-- **No phrase starts an ending**: its semicolon would be in the body. -/
theorem Phrase.append_ne_ending (hq : q.Allowed reportStray) (he : e.Allowed) :
    q.kinds ++ ks ≠ e.kinds := by
  intro h
  cases q with
  | semicolon => cases e <;> cases h
  | binding body =>
    cases e with
    | binding run =>
      simp only [kinds, Ending.kinds, List.cons_append, List.cons.injEq, true_and] at h
      exact he (by simp [← h])
    | _ => cases h
  | returning body =>
    cases e with
    | returning run =>
      simp only [kinds, Ending.kinds, List.cons_append, List.cons.injEq, true_and] at h
      exact he (by simp [← h])
    | _ => cases h
  | stray k =>
    obtain ⟨-, noLet, noReturn, -⟩ := hq
    cases e with
    | nothing => cases h
    | binding body => exact noLet (List.cons.inj h).1
    | returning body => exact noReturn (List.cons.inj h).1

theorem Ending.eq_of_kinds_eq {f : Ending} (h : e.kinds = f.kinds) : e = f := by
  cases e <;> cases f <;> cases h <;> rfl

/-- **No sentence has two derivations.** -/
theorem Derivation.Yields.unique {d e : Derivation} (hd : d.Yields reportStray ks)
    (he : e.Yields reportStray ks) : d = e := by
  obtain ⟨ps, a⟩ := d
  obtain ⟨qs, b⟩ := e
  have h : ps.flatMap Phrase.kinds ++ a.kinds = qs.flatMap Phrase.kinds ++ b.kinds :=
    hd.kinds.trans he.kinds.symm
  obtain ⟨hps, ha, -⟩ := hd
  obtain ⟨hqs, hb, -⟩ := he
  dsimp only at hps ha hqs hb
  -- Phrase by phrase: the two derivations start alike, and go on alike.
  induction ps generalizing qs with
  | nil =>
    cases qs with
    | nil => rw [Ending.eq_of_kinds_eq h]
    | cons r qs =>
      rw [List.flatMap_cons, List.append_assoc] at h
      exact absurd h.symm (Phrase.append_ne_ending (hqs r (.head qs)) ha)
  | cons q ps ih =>
    rw [List.flatMap_cons, List.append_assoc] at h
    cases qs with
    | nil => exact absurd h (Phrase.append_ne_ending (hps q (.head ps)) hb)
    | cons r qs =>
      rw [List.flatMap_cons, List.append_assoc] at h
      obtain ⟨rfl, hrest⟩ := Phrase.eq_of_append_eq (hps q (.head ps)) (hqs r (.head qs)) h
      cases ih qs hrest (fun p hp => hps p (.tail q hp)) fun p hp => hqs p (.tail q hp)
      rfl

end Unique

/-! ## Derivations and productions -/

section Productions

variable {reportStray : Bool} {q : Phrase} {e : Ending} {d : Derivation} {ks : List Kind}
variable {ts body : List Token} {ps : List Production}

theorem semicolon_notMem_iff :
    Kind.mark .semicolon ∉ body.map Token.kind ↔ ∀ u ∈ body, u.kind ≠ .mark .semicolon := by
  simp only [List.mem_map, not_exists, not_and, ne_eq]

theorem Derivation.Yields.cons (hq : q.Allowed reportStray) (hd : d.Yields reportStray ks) :
    Yields reportStray ⟨q :: d.phrases, d.ending⟩ (q.kinds ++ ks) := by
  refine ⟨List.forall_mem_cons.2 ⟨hq, hd.phrases⟩, hd.ending, ?_⟩
  rw [← hd.kinds, Derivation.kinds, Derivation.kinds, List.flatMap_cons, List.append_assoc]

theorem Ending.yields (he : e.Allowed) : Derivation.Yields reportStray ⟨[], e⟩ e.kinds :=
  ⟨by simp, he, rfl⟩

/-- **A production with nothing to report** is a phrase, or it is the last
one and an ending. -/
theorem Grammar.Fits.phrase_or_ending {p : Production} {behind : List Token}
    (fits : Grammar.Fits p behind) (quiet : p.report? reportStray = none) :
    (∃ q : Phrase, q.Allowed reportStray ∧ q.kinds = p.span.map Token.kind) ∨
      (behind = [] ∧ ∃ e : Ending, e.Allowed ∧ e.kinds = p.span.map Token.kind) := by
  cases fits with
  | @binding keyword target sign body behind isLet isName isSign closes =>
    cases closes with
    | @semicolon body _ t inside stop =>
      refine .inl ⟨.binding (body.map Token.kind), semicolon_notMem_iff.2 inside, ?_⟩
      simp [Phrase.kinds, Production.span, isLet, isName, isSign, stop]
    | finish inside =>
      refine .inr ⟨rfl, .binding (body.map Token.kind), semicolon_notMem_iff.2 inside, ?_⟩
      simp [Ending.kinds, Production.span, isLet, isName, isSign]
  | @returning keyword body behind isReturn closes =>
    cases closes with
    | @semicolon body _ t inside stop =>
      refine .inl ⟨.returning (body.map Token.kind), semicolon_notMem_iff.2 inside, ?_⟩
      simp [Phrase.kinds, Production.span, isReturn, stop]
    | finish inside =>
      refine .inr ⟨rfl, .returning (body.map Token.kind), semicolon_notMem_iff.2 inside, ?_⟩
      simp [Ending.kinds, Production.span, isReturn]
  | unnamed => cases quiet
  | unassigned => cases quiet
  | @single t behind noLet noReturn =>
    left
    by_cases semicolon : t.kind = .mark .semicolon
    · exact ⟨.semicolon, trivial, by simp [Phrase.kinds, Production.span, semicolon]⟩
    · -- A stray that is not reported is one of the language.
      have silent : reportStray = false := by
        simpa [semicolon] using quiet
      exact ⟨.stray t.kind, ⟨silent, noLet, noReturn, semicolon⟩, rfl⟩

/-- **Productions with nothing to report make a derivation.** -/
theorem Grammar.exists_yields_of_quiet (derives : Grammar.Derives ts ps)
    (quiet : ∀ p ∈ ps, p.report? reportStray = none) :
    ∃ d : Derivation, d.Yields reportStray (ts.map Token.kind) := by
  induction derives with
  | nil => exact ⟨⟨[], .nothing⟩, Ending.yields trivial⟩
  | @cons p behind ps fits later ih =>
    obtain ⟨hp, hps⟩ := List.forall_mem_cons.1 quiet
    rw [List.map_append]
    obtain ⟨q, hq, hkinds⟩ | ⟨rfl, e, he, hkinds⟩ := fits.phrase_or_ending hp
    · obtain ⟨d, hd⟩ := ih hps
      exact ⟨_, hkinds ▸ hd.cons hq⟩
    · rw [List.map_nil, List.append_nil, ← hkinds]
      exact ⟨_, Ending.yields he⟩

/-- Tokens whose kinds start with a body and a semicolon start with a body
that is closed. -/
theorem exists_closes {ls : List Kind} (hbody : .mark .semicolon ∉ ls)
    (h : ts.map Token.kind = ls ++ .mark .semicolon :: ks) :
    ∃ run behind, run ++ behind = ts ∧ behind.map Token.kind = ks ∧
      Grammar.Closes run behind := by
  obtain ⟨run, rest, rfl, rfl, hrest⟩ := List.map_eq_append_iff.1 h
  obtain ⟨t, behind, rfl, stop, rfl⟩ := List.map_eq_cons_iff.1 hrest
  refine ⟨run ++ [t], behind, by simp, rfl, ?_⟩
  exact .semicolon (semicolon_notMem_iff.1 hbody) stop

/-- **A phrase leaves the tokens one production**, which has nothing to
report and is the same statement, if any. -/
theorem Phrase.exists_fits (hq : q.Allowed reportStray) (h : ts.map Token.kind = q.kinds ++ ks) :
    ∃ p behind, p.span ++ behind = ts ∧ behind.map Token.kind = ks ∧ Grammar.Fits p behind ∧
      p.report? reportStray = none ∧ p.statement?.map Statement.word = q.word? := by
  cases q with
  | semicolon =>
    obtain ⟨t, behind, rfl, ht, rfl⟩ := List.map_eq_cons_iff.1 h
    refine ⟨.single t, behind, rfl, rfl, .single ?_ ?_, ?_, rfl⟩
    · rw [ht]
      decide
    · rw [ht]
      decide
    · simp [ht]
  | binding body =>
    simp only [kinds, List.cons_append, List.append_assoc, List.nil_append] at h
    obtain ⟨keyword, us, rfl, isLet, h⟩ := List.map_eq_cons_iff.1 h
    obtain ⟨target, us, rfl, isName, h⟩ := List.map_eq_cons_iff.1 h
    obtain ⟨sign, us, rfl, isSign, h⟩ := List.map_eq_cons_iff.1 h
    obtain ⟨run, behind, rfl, hbehind, closes⟩ := exists_closes hq h
    exact ⟨.binding keyword target sign run, behind, rfl, hbehind,
      .binding isLet isName isSign closes, rfl, rfl⟩
  | returning body =>
    simp only [kinds, List.cons_append, List.append_assoc, List.nil_append] at h
    obtain ⟨keyword, us, rfl, isReturn, h⟩ := List.map_eq_cons_iff.1 h
    obtain ⟨run, behind, rfl, hbehind, closes⟩ := exists_closes hq h
    exact ⟨.returning keyword run, behind, rfl, hbehind, .returning isReturn closes, rfl, rfl⟩
  | stray k =>
    obtain ⟨silent, noLet, noReturn, -⟩ := hq
    obtain ⟨t, behind, rfl, rfl, rfl⟩ := List.map_eq_cons_iff.1 h
    exact ⟨.single t, behind, rfl, rfl, .single noLet noReturn,
      by simp [silent], rfl⟩

/-- **And so does an ending**, if it is one. -/
theorem Ending.exists_derives (he : e.Allowed) (h : ts.map Token.kind = e.kinds) :
    ∃ ps, Grammar.Derives ts ps ∧ (∀ p ∈ ps, p.report? reportStray = none) ∧
      (ps.filterMap Production.statement?).map Statement.word = e.word?.toList := by
  cases e with
  | nothing =>
    obtain rfl := List.map_eq_nil_iff.1 h
    exact ⟨[], .nil, by simp, rfl⟩
  | binding body =>
    obtain ⟨keyword, us, rfl, isLet, h⟩ := List.map_eq_cons_iff.1 h
    obtain ⟨target, us, rfl, isName, h⟩ := List.map_eq_cons_iff.1 h
    obtain ⟨sign, run, rfl, isSign, rfl⟩ := List.map_eq_cons_iff.1 h
    have fits : Grammar.Fits (.binding keyword target sign run) [] :=
      .binding isLet isName isSign (.finish (semicolon_notMem_iff.1 he))
    have derives := Grammar.Derives.cons fits .nil
    rw [List.append_nil] at derives
    exact ⟨_, derives, List.forall_mem_singleton.2 rfl, rfl⟩
  | returning body =>
    obtain ⟨keyword, run, rfl, isReturn, rfl⟩ := List.map_eq_cons_iff.1 h
    have fits : Grammar.Fits (.returning keyword run) [] :=
      .returning isReturn (.finish (semicolon_notMem_iff.1 he))
    have derives := Grammar.Derives.cons fits .nil
    rw [List.append_nil] at derives
    exact ⟨_, derives, List.forall_mem_singleton.2 rfl, rfl⟩

/-- **A derivation leaves the tokens no other productions than its own**:
none has anything to report, and its statements are theirs. -/
theorem Derivation.Yields.exists_productions (hd : d.Yields reportStray (ts.map Token.kind)) :
    ∃ ps, Grammar.Derives ts ps ∧ (∀ p ∈ ps, p.report? reportStray = none) ∧
      (ps.filterMap Production.statement?).map Statement.word = d.words := by
  obtain ⟨qs, e⟩ := d
  obtain ⟨hqs, he, h⟩ := hd
  rw [Derivation.kinds] at h
  unfold Derivation.words
  dsimp only at hqs he h ⊢
  induction qs generalizing ts with
  | nil => exact e.exists_derives he h.symm
  | cons q qs ih =>
    obtain ⟨hq, hqs⟩ := List.forall_mem_cons.1 hqs
    rw [List.flatMap_cons, List.append_assoc] at h
    obtain ⟨p, behind, rfl, hbehind, fits, hp, hword⟩ := Phrase.exists_fits hq h.symm
    obtain ⟨ps, derives, hps, hwords⟩ := ih hqs hbehind.symm
    refine ⟨p :: ps, .cons fits derives, List.forall_mem_cons.2 ⟨hp, hps⟩, ?_⟩
    rw [Reader.filterMap_cons_eq_append, Reader.filterMap_cons_eq_append, List.map_append, hwords,
      List.append_assoc, ← hword]
    cases p.statement? <;> rfl

/-- **Tokens have nothing to report exactly when their kinds are a
sentence.** -/
theorem Grammar.reports_eq_nil_iff :
    Grammar.reports reportStray ts = [] ↔
      ∃ d : Derivation, d.Yields reportStray (ts.map Token.kind) := by
  rw [Grammar.reports, List.filterMap_eq_nil_iff]
  constructor
  · exact Grammar.exists_yields_of_quiet (Grammar.derives_productions ts)
  · rintro ⟨d, hd⟩
    obtain ⟨ps, derives, quiet, -⟩ := hd.exists_productions
    rwa [Grammar.derives_iff.1 derives]

/-- The statements of a sentence are those of its derivation. -/
theorem Derivation.Yields.map_word_statements
    (hd : d.Yields reportStray (ts.map Token.kind)) :
    (Grammar.statements ts).map Statement.word = d.words := by
  obtain ⟨ps, derives, -, hwords⟩ := hd.exists_productions
  rw [Grammar.statements, Grammar.derives_iff.1 derives, hwords]

end Productions

/-! ## A source -/

theorem Reading.success_iff (r : Reading) : r.success = true ↔ r.reports = [] :=
  List.isEmpty_iff

/-- **A source is read without a report exactly when it is a sentence.**
The sentence has one derivation, and the statements read are the
statements of that derivation, in order. -/
theorem read_success_iff_derivation (o : Options) {source : Text} (readable : source.Readable) :
    ∃ (ts : List Token) (reading : Reading),
      (o.tokenize source).result = .ok (ts ++ [.eof]) ∧ (∀ t ∈ ts, t.kind ≠ .eof) ∧
      (o.read source).result = .ok reading ∧
      (reading.success = true ↔
        ∃ d : Derivation, d.Yields o.reportStray (ts.map Token.kind)) ∧
      ∀ d : Derivation, d.Yields o.reportStray (ts.map Token.kind) →
        (∀ e : Derivation, e.Yields o.reportStray (ts.map Token.kind) → e = d) ∧
          reading.program.statements.map Statement.word = d.words := by
  have clear : (Cursor.ofText source).refusal? = none := readable_iff.1 readable
  refine ⟨(Cursor.ofText source).tokens o.overflow,
    Grammar.reading o.reportStray ((Cursor.ofText source).tokens o.overflow), ?_, ?_, ?_, ?_, ?_⟩
  · rw [result_tokenize, clear]
  · exact fun t => Cursor.kind_ne_eof_of_mem_tokens
  · rw [result_read, clear]
  · rw [Reading.success_iff]
    exact Grammar.reports_eq_nil_iff
  · intro d hd
    exact ⟨fun e he => he.unique hd, hd.map_word_statements⟩

/-- A number on its own is passed over in silence, and a `return` at the
end needs neither a value nor a semicolon. -/
theorem read_success_iff_derivation_return : Text.Readable "7; return" ∧
    ∃ reading, (Options.standard.read "7; return").result = .ok reading ∧
      reading.success = true ∧ reading.program.statements.map Statement.word = [.returnWord] := by
  have readable : Text.Readable "7; return" := readable_of_length_le (by decide)
  obtain ⟨ts, reading, htokens, -, hread, hsuccess, hwords⟩ :=
    read_success_iff_derivation .standard readable
  have hkinds : ts.map Token.kind = [.integer, .mark .semicolon, .keyword .returnWord] := by
    rw [result_tokenize, readable_iff.1 readable, Except.ok.injEq] at htokens
    rw [← List.append_cancel_right htokens]
    decide +kernel
  have yields : Derivation.Yields Options.standard.reportStray
      ⟨[.stray .integer, .semicolon], .returning []⟩ (ts.map Token.kind) := by
    rw [hkinds]
    exact ⟨by simp [Phrase.Allowed, Options.standard], by simp [Ending.Allowed], rfl⟩
  exact ⟨readable, reading, hread, hsuccess.2 ⟨_, yields⟩, (hwords _ yields).2⟩

end ScriptReader
