import ScriptReader.Proofs.Replacement
import ScriptReader.Proofs.Runs
import Mathlib.Data.List.Forall2

/-!
# Policies — what the overflow policy changes

Two readings of one source under two policies differ in the tokens of the
numbers that are too great, and in what is said of these. One side's
tokens are the other's with those tokens replaced (`Token.under`,
`Cursor.tokens_under`). The grammar cannot tell the replacement
(`Grammar.keeps_under`), since it takes no number for one of the kinds that
it looks for, be it an integer or no token of the language. So the
statements are replaced with the tokens, and the reports are made at the
same places in the same words, but for the number that they quote.

`read_policy_independent` puts the parts together.
-/

namespace ScriptReader

namespace Token

/-- Whether a token is a run of digits that stands for too great a
number. -/
def TooGreat (t : Token) : Prop :=
  t.raw.isNumeral = true ∧ Numeral.greatest < Numeral.value t.raw

instance : DecidablePred TooGreat := fun _ => inferInstanceAs (Decidable (_ ∧ _))

/-- **What a policy makes of a number that is too great**: the greatest
integer, or no token of the language. -/
structure Spoiled (policy : Text) (t : Token) : Prop where
  saturated : policy = "saturate" → t.kind = .integer ∧ t.value = some (Numeral.greatest : Int)
  refused : policy ≠ "saturate" → t.kind = .illegal ∧ t.value = none

/-- The number that is quoted of a run that is too great. -/
def quoted (policy run : Text) : Text :=
  if policy = "saturate" then "9223372036854775807" else run

/-- **Tokens that are the same but for the policy.** -/
structure Alike (policy other : Text) (t u : Token) : Prop where
  raw_eq : t.raw = u.raw
  location_eq : t.location = u.location
  same : ¬ t.TooGreat → t.kind = u.kind ∧ t.value = u.value
  replaced : t.TooGreat → t.Spoiled policy ∧ u.Spoiled other

/-- The token that another policy makes of the source of a token. -/
def under (policy : Text) (t : Token) : Token :=
  if (t.kind = .integer ∨ t.kind = .illegal) ∧ t.TooGreat then
    { Lexeme.integer policy 0 t.raw with location := t.location }
  else t

variable {policy other : Text} {t u : Token} {n : Nat} {run : Text}

theorem Spoiled.literal (h : t.Spoiled policy) : t.literal = quoted policy t.raw := by
  rw [quoted]
  by_cases saturates : policy = "saturate"
  · obtain ⟨hkind, hvalue⟩ := h.saturated saturates
    have hgreatest : Numeral.signed Numeral.greatest = ("9223372036854775807" : Text) := by decide
    rw [if_pos saturates, Token.literal, hkind, hvalue]
    exact hgreatest
  · obtain ⟨hkind, -⟩ := h.refused saturates
    rw [if_neg saturates, Token.literal, hkind]

/-- The token of a number that is too great is what the policy makes of
it. -/
theorem spoiled_integer (policy : Text) (n : Nat) (great : Numeral.greatest < Numeral.value run) :
    (Lexeme.integer policy n run).Spoiled policy := by
  rw [Lexeme.integer, if_neg (Nat.not_le_of_gt great), saturates]
  by_cases hpolicy : policy = "saturate"
  · rw [if_pos (decide_eq_true hpolicy)]
    exact ⟨fun _ => ⟨rfl, rfl⟩, fun h => absurd hpolicy h⟩
  · rw [if_neg (by rw [decide_eq_true_iff]; exact hpolicy)]
    exact ⟨fun h => absurd h hpolicy, fun _ => ⟨rfl, rfl⟩⟩

theorem raw_under (policy : Text) (t : Token) : (t.under policy).raw = t.raw := by
  rw [under]
  split
  · exact Lexeme.raw_integer policy 0 t.raw
  · rfl

theorem location_under (policy : Text) (t : Token) : (t.under policy).location = t.location := by
  rw [under]
  split <;> rfl

theorem under_of_not_tooGreat (policy : Text) (h : ¬ t.TooGreat) : t.under policy = t :=
  if_neg fun h' => h h'.2

/-- Another policy makes its own token of a number. -/
theorem under_integer (policy other : Text) (n : Nat) (isNumeral : run.isNumeral = true) :
    (Lexeme.integer policy n run).under other = Lexeme.integer other n run := by
  by_cases great : Numeral.greatest < Numeral.value run
  · have hkind := Lexeme.kind_integer policy n run
    have hnumber : (Lexeme.integer policy n run).kind = .integer ∨
        (Lexeme.integer policy n run).kind = .illegal := by
      rw [hkind]
      split
      · exact .inl rfl
      · exact .inr rfl
    have htoo : (Lexeme.integer policy n run).TooGreat := by
      rw [TooGreat, Lexeme.raw_integer]
      exact ⟨isNumeral, great⟩
    rw [under, if_pos ⟨hnumber, htoo⟩, Lexeme.raw_integer, Lexeme.location_integer]
    rw [Lexeme.integer, Lexeme.integer, if_neg (Nat.not_le_of_gt great),
      if_neg (Nat.not_le_of_gt great)]
    split <;> rfl
  · have hfits := Nat.le_of_not_gt great
    rw [under_of_not_tooGreat]
    · rw [Lexeme.integer, Lexeme.integer, if_pos hfits, if_pos hfits]
    · rw [TooGreat, Lexeme.raw_integer]
      exact fun h => great h.2

end Token

namespace Lexeme

variable {policy other : Text} {n : Nat} {raw : Text} {t : Token}

/-- **One source, two policies**: a lexeme has a token under both or under
none, and one token is the other replaced. -/
theorem token_under (policy other : Text) (n : Nat) (lexeme : IsLexeme raw) :
    (ofRaw raw).token other n = ((ofRaw raw).token policy n).map (Token.under other) := by
  by_cases isNumeral : raw.isNumeral = true
  · have hraw := ofRaw_of_isNumeral isNumeral
    rw [hraw, token, token]
    split
    · rfl
    · exact congrArg Except.ok (Token.under_integer policy other n isNumeral).symm
  · have hblind : (ofRaw raw).token other n = (ofRaw raw).token policy n := by
      rw [ofRaw, if_neg isNumeral]
      split
      · rfl
      · cases Mark.ofText? raw <;> rfl
    rw [hblind]
    cases ht : (ofRaw raw).token policy n with
    | error e => rfl
    | ok t =>
      have hnot : ¬ t.TooGreat := fun h => by
        rw [Token.TooGreat, (raw_kind_of_token_ofRaw lexeme ht).1] at h
        exact isNumeral h.1
      exact congrArg Except.ok (Token.under_of_not_tooGreat other hnot).symm

end Lexeme

namespace Cursor

variable {s : Cursor} {policy other : Text} {t : Token}

/-- **The tokens under another policy are the tokens replaced.** -/
theorem tokens_under (policy other : Text) (s : Cursor) :
    s.tokens other = (s.tokens policy).map (Token.under other) := by
  rw [tokens, tokens, List.map_filterMap]
  refine List.filterMap_congr fun p hp => ?_
  obtain ⟨lexeme, hraw⟩ := lexeme_eq_ofRaw hp
  rw [Place.token, Place.token, hraw, Lexeme.token_under policy other p.offset lexeme]
  cases (Lexeme.ofRaw p.lexeme.raw).token policy p.offset <;> rfl

/-- A token of the scanner that is too great is what the policy makes of
it. -/
theorem spoiled_of_mem_tokens (h : t ∈ s.tokens policy) (great : t.TooGreat) :
    t.Spoiled policy := by
  obtain ⟨-, n, ht⟩ := token_of_mem_tokens h
  rw [Lexeme.ofRaw_of_isNumeral great.1, Lexeme.token] at ht
  split at ht
  · cases ht
  · have spoiled := Token.spoiled_integer policy n great.2
    rwa [Except.ok.inj ht] at spoiled

/-- **So the tokens of two policies are alike**, and the end is the same. -/
theorem alike_under (other : Text) (h : t ∈ s.tokens policy ∨ t = .eof) :
    t.Alike policy other (t.under other) := by
  refine ⟨(Token.raw_under other t).symm, (Token.location_under other t).symm, ?_, ?_⟩
  · intro fits
    rw [Token.under_of_not_tooGreat other fits]
    exact ⟨rfl, rfl⟩
  · intro great
    rcases h with h | rfl
    · have hunder : t.under other ∈ s.tokens other := by
        rw [tokens_under policy other]
        exact List.mem_map_of_mem h
      refine ⟨spoiled_of_mem_tokens h great, spoiled_of_mem_tokens hunder ?_⟩
      rw [Token.TooGreat, Token.raw_under]
      exact great
    · cases great.1

end Cursor

/-! ## Statements and reports -/

/-- **The grammar cannot tell one policy from another.** -/
theorem Grammar.keeps_under (policy : Text) : Keeps (Token.under policy) where
  eof := rfl
  kind_iff := by
    intro t k hk
    by_cases number : (t.kind = .integer ∨ t.kind = .illegal) ∧ t.TooGreat
    · -- A number is of none of the kinds that count, before and after.
      have hkind := Lexeme.kind_integer policy 0 t.raw
      have none_counts : ∀ k ∈ telling, k ≠ .integer ∧ k ≠ .illegal := by decide
      obtain ⟨noInteger, noIllegal⟩ := none_counts k hk
      refine iff_of_false ?_ ?_
      · rw [Token.under, if_pos number]
        show (Lexeme.integer policy 0 t.raw).kind ≠ k
        rw [hkind]
        split
        · exact noInteger.symm
        · exact noIllegal.symm
      · rintro rfl
        exact number.1.elim noInteger noIllegal
    · rw [Token.under, if_neg number]

/-- **Reports that are the same but for the policy**: they are equal, or
they are in the same place in the same words, but for the number quoted. -/
inductive Diagnostic.Alike (policy other : Text) : Diagnostic → Diagnostic → Prop
  | same (d : Diagnostic) : Alike policy other d d
  | quoting {run : Text} (needed : Expected) (location : Option Int)
      (isNumeral : run.isNumeral = true) (great : Numeral.greatest < Numeral.value run) :
      Alike policy other
        ⟨"Unexpected token '" ++ Token.quoted policy run ++ "'. Expected " ++ needed.text, location⟩
        ⟨"Unexpected token '" ++ Token.quoted other run ++ "'. Expected " ++ needed.text, location⟩

/-- Alike tokens are complained about alike. -/
theorem Token.Alike.unexpected {policy other : Text} {t u : Token}
    (h : t.Alike policy other u) (needed : Expected) :
    Diagnostic.Alike policy other (.unexpected t needed) (.unexpected u needed) := by
  by_cases great : t.TooGreat
  · obtain ⟨ht, hu⟩ := h.replaced great
    rw [Diagnostic.unexpected, Diagnostic.unexpected, ht.literal, hu.literal, ← h.raw_eq,
      ← h.location_eq]
    exact .quoting needed t.location great.1 great.2
  · have hsame : t = u := by
      obtain ⟨hkind, hvalue⟩ := h.same great
      obtain ⟨kind, location, raw, value⟩ := t
      obtain ⟨kind', location', raw', value'⟩ := u
      obtain rfl : raw = raw' := h.raw_eq
      obtain rfl : location = location' := h.location_eq
      obtain rfl : kind = kind' := hkind
      obtain rfl : value = value' := hvalue
      rfl
    rw [hsame]
    exact .same _

/-- **Statements that are the same but for the policy.** -/
inductive Statement.Alike (policy other : Text) : Statement → Statement → Prop
  | binding {keyword keyword' target target' value value' : Token}
      (keyword_alike : keyword.Alike policy other keyword')
      (target_alike : target.Alike policy other target')
      (value_alike : value.Alike policy other value') :
      Alike policy other (.binding keyword ⟨target⟩ ⟨value⟩) (.binding keyword' ⟨target'⟩ ⟨value'⟩)
  | returning {keyword keyword' value value' : Token}
      (keyword_alike : keyword.Alike policy other keyword')
      (value_alike : value.Alike policy other value') :
      Alike policy other (.returning keyword ⟨value⟩) (.returning keyword' ⟨value'⟩)

section Readings

variable {policy other : Text} {s : Cursor}

theorem forall_alike_tokens (policy other : Text) (s : Cursor) :
    List.Forall₂ (Token.Alike policy other) (s.tokens policy ++ [.eof])
      (s.tokens other ++ [.eof]) := by
  rw [Cursor.tokens_under policy other]
  refine List.rel_append ?_ (.cons (Cursor.alike_under (s := s) other (.inr rfl)) .nil)
  rw [List.forall₂_map_right_iff, List.forall₂_same]
  exact fun t ht => Cursor.alike_under other (.inl ht)

theorem forall_alike_statements (policy other : Text) (s : Cursor) :
    List.Forall₂ (Statement.Alike policy other) (Grammar.statements (s.tokens policy))
      (Grammar.statements (s.tokens other)) := by
  rw [Cursor.tokens_under policy other, Grammar.statements_map (Grammar.keeps_under other),
    List.forall₂_map_right_iff, List.forall₂_same]
  intro found hfound
  have alike : ∀ t ∈ found.tokens, t.Alike policy other (t.under other) := fun t ht =>
    Cursor.alike_under other (Grammar.mem_of_mem_statements hfound ht)
  cases found with
  | binding keyword target value =>
    exact .binding (alike _ (by simp [Statement.tokens])) (alike _ (by simp [Statement.tokens]))
      (alike _ (by simp [Statement.tokens]))
  | returning keyword value =>
    exact .returning (alike _ (by simp [Statement.tokens])) (alike _ (by simp [Statement.tokens]))

theorem forall_alike_reports (reportStray : Bool) (policy other : Text) (s : Cursor) :
    List.Forall₂ (Diagnostic.Alike policy other) (Grammar.reports reportStray (s.tokens policy))
      (Grammar.reports reportStray (s.tokens other)) := by
  rw [Cursor.tokens_under policy other, Grammar.reports_eq_map_complaints,
    Grammar.reports_eq_map_complaints, Grammar.complaints_map (Grammar.keeps_under other),
    List.map_map, List.forall₂_map_left_iff, List.forall₂_map_right_iff, List.forall₂_same]
  intro c hc
  exact (Cursor.alike_under other (Grammar.mem_of_mem_complaints hc)).unexpected c.2

end Readings

/-- **The policy changes no structure.** Two readings of a source that
report alike are refused together and with the same words. If they are
not, then their tokens, their statements and their reports are the same
but for the numbers that are too great, and they warn of the same runs, each
with its own policy. -/
theorem read_policy_independent {o p : Options} (same : o.reportStray = p.reportStray)
    (source : Text) :
    (∀ f, (o.tokenize source).value = .error f ↔ (p.tokenize source).value = .error f) ∧
    (∀ f, (o.read source).value = .error f ↔ (p.read source).value = .error f) ∧
    (∀ ts, (o.tokenize source).result = .ok ts →
      ∃ us, (p.tokenize source).result = .ok us ∧
        List.Forall₂ (Token.Alike o.overflow p.overflow) ts us) ∧
    (∀ found, (o.read source).result = .ok found →
      ∃ other, (p.read source).result = .ok other ∧
        List.Forall₂ (Statement.Alike o.overflow p.overflow) found.program.statements
          other.program.statements ∧
        List.Forall₂ (Diagnostic.Alike o.overflow p.overflow) found.reports other.reports) ∧
    ∃ ws : List (Text × Nat),
      ((o.tokenize source).warnings = ws.map fun w => .overflow w.1 w.2 o.overflow) ∧
      ((p.tokenize source).warnings = ws.map fun w => .overflow w.1 w.2 p.overflow) ∧
      ((o.read source).warnings = ws.map fun w => .overflow w.1 w.2 o.overflow) ∧
      ((p.read source).warnings = ws.map fun w => .overflow w.1 w.2 p.overflow) := by
  refine ⟨fun f => ?_, fun f => ?_, fun ts hts => ?_, fun found hfound => ?_, ?_⟩
  · rw [value_tokenize_eq_error_iff, value_tokenize_eq_error_iff]
  · rw [value_read_eq_error_iff, value_read_eq_error_iff]
  · rw [result_tokenize] at hts ⊢
    cases hrefusal : (Cursor.ofText source).refusal? with
    | some e =>
      rw [hrefusal] at hts
      cases hts
    | none =>
      rw [hrefusal] at hts
      cases hts
      exact ⟨_, rfl, forall_alike_tokens o.overflow p.overflow _⟩
  · rw [result_read] at hfound ⊢
    cases hrefusal : (Cursor.ofText source).refusal? with
    | some e =>
      rw [hrefusal] at hfound
      cases hfound
    | none =>
      rw [hrefusal] at hfound
      cases hfound
      refine ⟨_, rfl, forall_alike_statements o.overflow p.overflow _, ?_⟩
      rw [same]
      exact forall_alike_reports p.reportStray o.overflow p.overflow _
  · obtain ⟨rs, -, -, warned⟩ := exists_warned source
    refine ⟨rs.map fun r => (r.digits, r.before.size), ?_, ?_, ?_, ?_⟩ <;>
      rw [List.map_map]
    · rw [warnings_tokenize, warned]
      rfl
    · rw [warnings_tokenize, warned]
      rfl
    · rw [warnings_read, warned]
      rfl
    · rw [warnings_read, warned]
      rfl

/-- Where a name is needed, the number that is quoted is the source under
one policy and the greatest integer under the other. -/
theorem read_policy_independent_unnamed :
    Options.standard.reportStray = Options.reportStray { overflow := "saturate" } ∧
    ∃ found other,
      (Options.standard.read "let 9223372036854775808;").result = .ok found ∧
      (Options.read { overflow := "saturate" } "let 9223372036854775808;").result = .ok other ∧
      List.Forall₂ (Diagnostic.Alike "illegal" "saturate") found.reports other.reports ∧
      found.reports =
        [⟨"Unexpected token '9223372036854775808'. Expected identifier", some 4⟩] ∧
      other.reports =
        [⟨"Unexpected token '9223372036854775807'. Expected identifier", some 4⟩] := by
  have same : Options.standard.reportStray = Options.reportStray { overflow := "saturate" } := rfl
  have readable : Text.Readable "let 9223372036854775808;" := readable_of_length_le (by decide)
  have hread : ∀ o : Options, (o.read "let 9223372036854775808;").result =
      .ok (Grammar.reading o.reportStray
        ((Cursor.ofText "let 9223372036854775808;").tokens o.overflow)) := by
    intro o
    rw [result_read, readable_iff.1 readable]
  obtain ⟨-, -, -, alike, -⟩ := read_policy_independent same "let 9223372036854775808;"
  obtain ⟨other, hother, -, reports⟩ := alike _ (hread _)
  obtain rfl := Except.ok.inj ((hread _).symm.trans hother)
  exact ⟨same, _, _, hread _, hother, reports, by decide +kernel, by decide +kernel⟩

end ScriptReader
