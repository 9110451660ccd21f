import ScriptReader.Proofs.Refinement
import ScriptReader.Proofs.Replacement
import ScriptReader.Proofs.Seam

/-!
# Synchronisation — nothing is carried over a semicolon

Whatever stands before a semicolon, well-formed or not, reading goes on
behind it as if it started there. On tokens this is
`Grammar.productions_append`: no production of tokens that end with a
semicolon goes on into the tokens behind them. A semicolon is a seam for
the scanner as well, and what is behind it is only located elsewhere,
which the grammar cannot tell (`Grammar.reading_relocate`). The two
together are `read_append_semicolon`.
-/

namespace ScriptReader

namespace Grammar

variable {ts us body behind : List Token} {p : Production} {ps qs : List Production}

/-! ## Settled tokens -/

/-- Tokens are settled when there are none or the last is a semicolon. -/
def Settled (ts : List Token) : Prop := ∀ t ∈ ts.getLast?, t.kind = .mark .semicolon

theorem Settled.of_append (h : Settled (ts ++ us)) : Settled us := by
  intro t ht
  refine h t ?_
  rw [List.getLast?_append, Option.mem_def.1 ht]
  rfl

theorem settled_append_singleton {t : Token} (h : t.kind = .mark .semicolon) (ts : List Token) :
    Settled (ts ++ [t]) := by
  intro u hu
  rw [List.getLast?_append] at hu
  cases hu
  exact h

/-- Some token of settled tokens is a semicolon, if there is any token. -/
theorem Settled.exists_semicolon {t : Token} (h : Settled (t :: ts)) :
    ∃ u ∈ t :: ts, u.kind = .mark .semicolon := by
  obtain ⟨u, hu⟩ : ∃ u, (t :: ts).getLast? = some u := ⟨_, List.getLast?_cons ..⟩
  exact ⟨u, List.mem_of_getLast? hu, h u hu⟩

/-- **A body that starts behind something else** ends where it did, if
all of it is settled. -/
theorem Closes.append {t : Token} (h : Closes body behind) (ht : t.kind ≠ .mark .semicolon)
    (settled : Settled (t :: (body ++ behind))) (us : List Token) : Closes body (behind ++ us) := by
  cases h with
  | semicolon inside stop => exact .semicolon inside stop
  | finish inside =>
    -- A body with no semicolon is not settled, and nothing stands behind it.
    obtain ⟨u, hu, stop⟩ := settled.exists_semicolon
    rw [List.append_nil] at hu
    obtain rfl | hu := List.mem_cons.1 hu
    · exact absurd stop ht
    · exact absurd stop (inside u hu)

theorem headD_append_of_ne_nil (h : behind ≠ []) (us : List Token) :
    (behind ++ us).headD .eof = behind.headD .eof := by
  obtain ⟨t, rest, rfl⟩ := List.exists_cons_of_ne_nil h
  rfl

/-- **No production of settled tokens goes on** into what is put behind
them. -/
theorem Fits.append (h : Fits p behind) (settled : Settled (p.span ++ behind)) (us : List Token) :
    Fits p (behind ++ us) := by
  cases h with
  | @binding keyword target sign body behind isLet isName isSign closes =>
    have hbody : Settled (sign :: (body ++ behind)) :=
      @Settled.of_append [keyword, target] _ settled
    refine .binding isLet isName isSign (closes.append ?_ hbody us)
    rw [isSign]
    decide
  | @returning keyword body behind isReturn closes =>
    refine .returning isReturn (closes.append ?_ settled us)
    rw [isReturn]
    decide
  | @unnamed keyword behind isLet noName =>
    -- The last token is a semicolon, so the `let` is not the last one.
    have hne : behind ≠ [] := by
      rintro rfl
      rw [settled keyword rfl] at isLet
      cases isLet
    rw [← headD_append_of_ne_nil hne us] at noName ⊢
    exact .unnamed isLet noName
  | @unassigned keyword target behind isLet isName noSign =>
    have hne : behind ≠ [] := by
      rintro rfl
      rw [settled target rfl] at isName
      cases isName
    rw [← headD_append_of_ne_nil hne us] at noSign ⊢
    exact .unassigned isLet isName noSign
  | single noLet noReturn => exact .single noLet noReturn

/-- **The productions of settled tokens** come before those of whatever is
put behind them. -/
theorem productions_append (settled : Settled ts) (us : List Token) :
    productions (ts ++ us) = productions ts ++ productions us := by
  rw [← derives_iff]
  have derives := derives_productions ts
  generalize productions ts = ps at derives
  induction derives with
  | nil => exact derives_productions us
  | @cons p behind ps fits later ih =>
    rw [List.append_assoc]
    exact .cons (fits.append settled us) (ih settled.of_append)

end Grammar

/-! ## Readings put together -/

/-- A report on another place of the source. -/
def Diagnostic.shift (n : Nat) (d : Diagnostic) : Diagnostic :=
  { d with location := d.location.map (· + n) }

namespace Reading

/-- A reading and then another one. -/
def append (r s : Reading) : Reading where
  program := ⟨r.program.statements ++ s.program.statements⟩
  reports := r.reports ++ s.reports

/-- A reading of a source that starts at another byte. -/
def shift (n : Nat) (r : Reading) : Reading where
  program := ⟨r.program.statements.map (Statement.map (Token.shift n))⟩
  reports := r.reports.map (Diagnostic.shift n)

end Reading

namespace Grammar

/-- **Tokens farther on are read as they were**, farther on. -/
theorem reading_shift (reportStray : Bool) (n : Nat) (ts : List Token) :
    reading reportStray (ts.map (Token.shift n)) = (reading reportStray ts).shift n :=
  reading_relocate (f := Option.map (· + n)) rfl reportStray ts

/-- **Settled tokens are read first**, and then what is behind them. -/
theorem reading_append {ts : List Token} (settled : Settled ts) (reportStray : Bool)
    (us : List Token) : reading reportStray (ts ++ us) =
      (reading reportStray ts).append (reading reportStray us) := by
  simp only [reading, statements, reports, Reading.append, productions_append settled,
    List.filterMap_append]

end Grammar

/-! ## A semicolon in the source -/

namespace CodePoint

/-- The semicolon. -/
def semicolon : CodePoint := ';'

theorem not_fuse_semicolon_left (c : CodePoint) : ¬ semicolon.Fuse c := by
  rintro (⟨word, -⟩ | ⟨sign, -⟩)
  · cases word
  · exact absurd sign (by decide)

theorem not_fuse_semicolon_right (c : CodePoint) : ¬ c.Fuse semicolon := by
  rintro (⟨-, word⟩ | ⟨-, sign⟩)
  · cases word
  · exact absurd sign (by decide)

end CodePoint

theorem seam_semicolon_left (a b : Text) : Text.Seam (a ++ [.semicolon]) b :=
  Text.seam_append_singleton CodePoint.not_fuse_semicolon_left a b

theorem seam_semicolon_right (a : Text) : Text.Seam a [.semicolon] := by
  intro c _ d hd
  cases hd
  exact c.not_fuse_semicolon_right

theorem places_semicolon : (Cursor.ofText [.semicolon]).places = [⟨0, .mark .semicolon⟩] := by
  decide +kernel

theorem tokens_semicolon (policy : Text) : (Cursor.ofText [.semicolon]).tokens policy =
    [{ kind := .mark .semicolon, location := some 0, raw := Mark.spelling .semicolon }] := by
  rw [Cursor.tokens, places_semicolon]
  rfl

/-- **A source that ends with a semicolon has settled tokens.** -/
theorem settled_tokens_append_semicolon (policy : Text) {a : Text}
    (clear : (Cursor.ofText (a ++ [.semicolon])).refusal? = none) :
    Grammar.Settled ((Cursor.ofText (a ++ [.semicolon])).tokens policy) := by
  rw [Cursor.refusal_append (seam_semicolon_right a), Option.or_eq_none_iff] at clear
  rw [Cursor.tokens_append policy (seam_semicolon_right a) clear.1, tokens_semicolon]
  exact Grammar.settled_append_singleton rfl _

/-- **A semicolon is a point of synchronisation.** Whatever stands before
it and behind it, the source is read as the two parts are, the second so
much farther on, and it is refused as the first part that is refused. -/
theorem read_append_semicolon (o : Options) (a b : Text) :
    (o.read (a ++ [.semicolon] ++ b)).result =
      match (o.read (a ++ [.semicolon])).result, (o.read b).result with
      | .error e, _ => .error e
      | .ok _, .error e => .error e
      | .ok r, .ok s => .ok (r.append (s.shift (Text.size (a ++ [.semicolon])))) := by
  have seam := seam_semicolon_left a b
  rw [result_read, result_read, result_read, Cursor.refusal_append seam]
  cases hfirst : (Cursor.ofText (a ++ [.semicolon])).refusal? with
  | some e => rfl
  | none =>
    cases hsecond : (Cursor.ofText b).refusal? with
    | some e => rfl
    | none =>
      have settled := settled_tokens_append_semicolon o.overflow hfirst
      dsimp only [Option.or]
      rw [Cursor.tokens_append o.overflow seam hfirst, Grammar.reading_append settled,
        Grammar.reading_shift]

end ScriptReader
