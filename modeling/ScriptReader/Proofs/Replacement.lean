import ScriptReader.Proofs.Grammar

/-!
# Replacement — the grammar on other tokens

Reading statements looks at few things of a token: whether its kind is
one of five. Tokens that are replaced one by one by others that agree on
those five (`Grammar.Keeps`) are cut into the same productions, with the
tokens in them replaced (`Grammar.productions_map`), and so have the same
statements (`Grammar.statements_map`). They are complained about in the
same places (`Grammar.complaints_map`), so their reports are replaced as
the tokens are that these complain about (`Grammar.reports_map`). Where a
token is located is one of the things that reading does not look at
(`Grammar.reading_relocate`).
-/

namespace ScriptReader

/-- An expression on another token. -/
def Expression.map (g : Token → Token) (e : Expression) : Expression := ⟨g e.token⟩

/-- A statement on other tokens. -/
def Statement.map (g : Token → Token) : Statement → Statement
  | binding keyword target value => .binding (g keyword) (target.map g) (value.map g)
  | returning keyword value => .returning (g keyword) (value.map g)

/-- The tokens that a statement keeps. -/
def Statement.tokens : Statement → List Token
  | binding keyword target value => [keyword, target.token, value.token]
  | returning keyword value => [keyword, value.token]

/-- A production of other tokens. -/
def Production.map (g : Token → Token) : Production → Production
  | binding keyword target sign body => .binding (g keyword) (g target) (g sign) (body.map g)
  | returning keyword body => .returning (g keyword) (body.map g)
  | unnamed keyword found => .unnamed (g keyword) (g found)
  | unassigned keyword target found => .unassigned (g keyword) (g target) (g found)
  | single t => .single (g t)

/-- What a production complains about: a token, and what was needed in its
place. -/
def Production.complaint? (reportStray : Bool) : Production → Option (Token × Expected)
  | unnamed _ found => some (found, .identifier)
  | unassigned _ _ found => some (found, .assignment)
  | single t => if reportStray ∧ t.kind ≠ .mark .semicolon then some (t, .statement) else none
  | _ => none

/-- A report words a complaint. -/
theorem Production.report?_eq (reportStray : Bool) (p : Production) :
    p.report? reportStray =
      (p.complaint? reportStray).map fun c => .unexpected c.1 c.2 := by
  cases p with
  | single t =>
    rw [report?_single, complaint?]
    split <;> rfl
  | _ => rfl

namespace Grammar

/-- The complaints about some tokens, in their order. -/
def complaints (reportStray : Bool) (ts : List Token) : List (Token × Expected) :=
  (productions ts).filterMap (Production.complaint? reportStray)

theorem reports_eq_map_complaints (reportStray : Bool) (ts : List Token) :
    reports reportStray ts = (complaints reportStray ts).map fun c => .unexpected c.1 c.2 := by
  rw [reports, complaints, List.map_filterMap]
  exact congrArg (List.filterMap · _) (funext (Production.report?_eq reportStray))

theorem headD_mem (ts : List Token) : ts.headD .eof ∈ ts ∨ ts.headD .eof = .eof := by
  cases ts with
  | nil => exact .inr rfl
  | cons t ts => exact .inl List.mem_cons_self

/-- A statement keeps tokens of its production, or the end. -/
theorem mem_span_of_statement {p : Production} {s : Statement} {t : Token}
    (h : p.statement? = some s) (ht : t ∈ s.tokens) : t ∈ p.span ∨ t = .eof := by
  cases p with
  | binding keyword target sign body =>
    cases h
    have hbody := headD_mem body
    simp only [Statement.tokens, List.mem_cons, List.not_mem_nil, or_false] at ht
    simp only [Production.span, List.mem_cons]
    obtain rfl | rfl | rfl := ht
    · exact .inl (.inl rfl)
    · exact .inl (.inr (.inl rfl))
    · exact hbody.imp_left fun h => .inr (.inr (.inr h))
  | returning keyword body =>
    cases h
    have hbody := headD_mem body
    simp only [Statement.tokens, List.mem_cons, List.not_mem_nil, or_false] at ht
    simp only [Production.span, List.mem_cons]
    obtain rfl | rfl := ht
    · exact .inl (.inl rfl)
    · exact hbody.imp_left .inr
  | _ => cases h

/-- A production of some tokens stands among them. -/
theorem exists_fits_of_mem {ts : List Token} {p : Production} (h : p ∈ productions ts) :
    ∃ before behind, ts = before ++ (p.span ++ behind) ∧ Fits p behind := by
  have derives := derives_productions ts
  generalize productions ts = ps at derives h
  induction derives with
  | nil => cases h
  | @cons q rest ps fits later ih =>
    rcases List.mem_cons.1 h with rfl | h
    · exact ⟨[], rest, rfl, fits⟩
    · obtain ⟨before, behind, rfl, hfits⟩ := ih h
      exact ⟨q.span ++ before, behind, (List.append_assoc ..).symm, hfits⟩

/-- **Statements keep some of the tokens**, or the end. -/
theorem mem_of_mem_statements {ts : List Token} {s : Statement} {t : Token}
    (h : s ∈ statements ts) (ht : t ∈ s.tokens) : t ∈ ts ∨ t = .eof := by
  obtain ⟨p, hp, hs⟩ := List.mem_filterMap.1 h
  obtain ⟨before, behind, rfl, -⟩ := exists_fits_of_mem hp
  refine (mem_span_of_statement hs ht).imp_left fun hspan => ?_
  exact List.mem_append_right _ (List.mem_append_left _ hspan)

/-- **Complaints are about the tokens**, or about the end. -/
theorem mem_of_mem_complaints {reportStray : Bool} {ts : List Token} {c : Token × Expected}
    (h : c ∈ complaints reportStray ts) : c.1 ∈ ts ∨ c.1 = .eof := by
  obtain ⟨p, hp, hc⟩ := List.mem_filterMap.1 h
  obtain ⟨before, behind, rfl, fits⟩ := exists_fits_of_mem hp
  -- What is found in place of something else is behind the production.
  have found : behind.headD .eof ∈ before ++ (p.span ++ behind) ∨ behind.headD .eof = .eof :=
    (headD_mem behind).imp_left fun h => List.mem_append_right _ (List.mem_append_right _ h)
  cases fits with
  | binding | returning => cases hc
  | unnamed =>
    cases hc
    exact found
  | unassigned =>
    cases hc
    exact found
  | single =>
    rw [Production.complaint?] at hc
    split at hc
    · cases hc
      exact .inl (List.mem_append_right _ List.mem_cons_self)
    · cases hc

/-- The kinds that reading statements tells from all others. -/
def telling : List Kind :=
  [.keyword .letWord, .keyword .returnWord, .identifier, .mark .assign, .mark .semicolon]

/-- **A replacement that the grammar cannot tell**: it keeps the end, and
of every other token whether it is of one of the kinds that count. -/
structure Keeps (g : Token → Token) : Prop where
  eof : g .eof = .eof
  kind_iff : ∀ t, ∀ k ∈ telling, (g t).kind = k ↔ t.kind = k

variable {g : Token → Token} {ts body behind : List Token} {p : Production} {ps : List Production}

theorem span_map (p : Production) : (p.map g).span = p.span.map g := by
  cases p <;> rfl

namespace Keeps

theorem headD_map (keeps : Keeps g) (ts : List Token) :
    (ts.map g).headD .eof = g (ts.headD .eof) := by
  cases ts with
  | nil => exact keeps.eof.symm
  | cons t ts => rfl

theorem forall_ne_semicolon (keeps : Keeps g) (inside : ∀ u ∈ body, u.kind ≠ .mark .semicolon) :
    ∀ u ∈ body.map g, u.kind ≠ .mark .semicolon := by
  intro u hu
  obtain ⟨t, ht, rfl⟩ := List.mem_map.1 hu
  intro stop
  exact inside t ht ((keeps.kind_iff t _ (by decide)).1 stop)

end Keeps

/-- Replaced bodies end where the bodies did. -/
theorem Closes.map (keeps : Keeps g) (h : Closes body behind) :
    Closes (body.map g) (behind.map g) := by
  cases h with
  | semicolon inside stop =>
    rw [List.map_append]
    exact .semicolon (keeps.forall_ne_semicolon inside) ((keeps.kind_iff _ _ (by decide)).2 stop)
  | finish inside => exact .finish (keeps.forall_ne_semicolon inside)

/-- Replaced productions are productions. -/
theorem Fits.map (keeps : Keeps g) (h : Fits p behind) : Fits (p.map g) (behind.map g) := by
  have same : ∀ t, ∀ k ∈ telling, (g t).kind = k ↔ t.kind = k := keeps.kind_iff
  cases h with
  | binding isLet isName isSign closes =>
    exact .binding ((same _ _ (by decide)).2 isLet) ((same _ _ (by decide)).2 isName)
      ((same _ _ (by decide)).2 isSign) (closes.map keeps)
  | returning isReturn closes =>
    exact .returning ((same _ _ (by decide)).2 isReturn) (closes.map keeps)
  | @unnamed keyword behind isLet noName =>
    rw [Production.map, ← keeps.headD_map]
    refine .unnamed ((same _ _ (by decide)).2 isLet) ?_
    rw [keeps.headD_map]
    exact fun isName => noName ((same _ _ (by decide)).1 isName)
  | @unassigned keyword target behind isLet isName noSign =>
    rw [Production.map, ← keeps.headD_map]
    refine .unassigned ((same _ _ (by decide)).2 isLet) ((same _ _ (by decide)).2 isName) ?_
    rw [keeps.headD_map]
    exact fun isSign => noSign ((same _ _ (by decide)).1 isSign)
  | single noLet noReturn =>
    exact .single (fun isLet => noLet ((same _ _ (by decide)).1 isLet))
      fun isReturn => noReturn ((same _ _ (by decide)).1 isReturn)

/-- **Replaced tokens have the replaced productions.** -/
theorem productions_map (keeps : Keeps g) (ts : List Token) :
    productions (ts.map g) = (productions ts).map (Production.map g) := by
  rw [← derives_iff]
  have derives := derives_productions ts
  generalize productions ts = ps at derives
  induction derives with
  | nil => exact .nil
  | @cons p behind ps fits later ih =>
    rw [List.map_append, ← span_map]
    exact .cons (fits.map keeps) ih

theorem statement?_map (keeps : Keeps g) (p : Production) :
    (p.map g).statement? = p.statement?.map (Statement.map g) := by
  cases p with
  | binding keyword target sign body =>
    rw [Production.map, Production.statement?, keeps.headD_map body]
    rfl
  | returning keyword body =>
    rw [Production.map, Production.statement?, keeps.headD_map body]
    rfl
  | _ => rfl

/-- **Replaced tokens have the replaced statements.** -/
theorem statements_map (keeps : Keeps g) (ts : List Token) :
    statements (ts.map g) = (statements ts).map (Statement.map g) := by
  rw [statements, productions_map keeps, List.filterMap_map, statements, List.map_filterMap]
  exact congrArg (List.filterMap · _) (funext (statement?_map keeps))

theorem complaint?_map (keeps : Keeps g) (reportStray : Bool) (p : Production) :
    (p.map g).complaint? reportStray =
      (p.complaint? reportStray).map fun c => (g c.1, c.2) := by
  cases p with
  | single t =>
    have hkind : (g t).kind = .mark .semicolon ↔ t.kind = .mark .semicolon :=
      keeps.kind_iff t _ (by decide)
    simp only [Production.map, Production.complaint?, ne_eq, hkind]
    split <;> rfl
  | _ => rfl

/-- **And the complaints about the replaced tokens.** -/
theorem complaints_map (keeps : Keeps g) (reportStray : Bool) (ts : List Token) :
    complaints reportStray (ts.map g) =
      (complaints reportStray ts).map fun c => (g c.1, c.2) := by
  rw [complaints, productions_map keeps, List.filterMap_map, complaints, List.map_filterMap]
  exact congrArg (List.filterMap · _) (funext (complaint?_map keeps reportStray))

/-- **The reports are replaced**, if what is said of a token is replaced
with it. -/
theorem reports_map {f : Diagnostic → Diagnostic} (keeps : Keeps g)
    (unexpected : ∀ found needed, .unexpected (g found) needed = f (.unexpected found needed))
    (reportStray : Bool) (ts : List Token) :
    reports reportStray (ts.map g) = (reports reportStray ts).map f := by
  rw [reports_eq_map_complaints, complaints_map keeps, reports_eq_map_complaints, List.map_map,
    List.map_map]
  exact List.map_congr_left fun c _ => unexpected c.1 c.2

end Grammar

/-! ## Tokens at other locations -/

/-- A token at another location. -/
def Token.relocate (f : Option Int → Option Int) (t : Token) : Token :=
  { t with location := f t.location }

/-- A report on another location. -/
def Diagnostic.relocate (f : Option Int → Option Int) (d : Diagnostic) : Diagnostic :=
  { d with location := f d.location }

/-- A reading with all tokens and reports at other locations. -/
def Reading.relocate (f : Option Int → Option Int) (r : Reading) : Reading where
  program := ⟨r.program.statements.map (Statement.map (Token.relocate f))⟩
  reports := r.reports.map (Diagnostic.relocate f)

namespace Grammar

variable {f : Option Int → Option Int}

/-- **The grammar cannot tell where a token is located**, if only the end
stays without a location. -/
theorem keeps_relocate (none : f none = none) : Keeps (Token.relocate f) :=
  ⟨congrArg (Token.mk .eof · [] Option.none) none, fun _ _ _ => Iff.rfl⟩

/-- **Tokens at other locations are read as they were**, at these
locations. -/
theorem reading_relocate (none : f none = none) (reportStray : Bool) (ts : List Token) :
    reading reportStray (ts.map (Token.relocate f)) = (reading reportStray ts).relocate f := by
  have hreports := reports_map (f := Diagnostic.relocate f) (keeps_relocate none)
    (fun _ _ => rfl) reportStray ts
  rw [reading, statements_map (keeps_relocate none), hreports]
  rfl

end Grammar

end ScriptReader
