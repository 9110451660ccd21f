import ScriptReader.Proofs.Locations
import ScriptReader.Proofs.Refinement

/-!
# Beginnings — what is read of a source that goes on

A production with a token behind it stays what it is, whatever comes
behind that token (`Grammar.Fits.append_of_ne_nil`). So more tokens can
only change the last production. If that was a statement it is still one,
with a value where it had none (`Statement.BreaksOff`), and if it was
complained about then the complaint stays, unless it was about the end
(`Grammar.exists_goesOn`). What a reading of the first tokens keeps is
`Reading.Begins`, and `read_append_tokens` says so of a source.
-/

namespace ScriptReader

/-- The value of a statement. -/
def Statement.value : Statement → Token
  | binding _ _ value => value.token
  | returning _ value => value.token

/-- **A statement that breaks off before its value**, and the one that goes
on with a value. -/
inductive Statement.BreaksOff : Statement → Statement → Prop
  | binding (keyword : Token) (target : Expression) (value : Token) :
      BreaksOff (.binding keyword target ⟨.eof⟩) (.binding keyword target ⟨value⟩)
  | returning (keyword value : Token) :
      BreaksOff (.returning keyword ⟨.eof⟩) (.returning keyword ⟨value⟩)

/-- **What becomes of the last production** when more tokens come behind
it. -/
structure Production.GoesOn (reportStray : Bool) (p q : Production) : Prop where
  /-- A statement stays, but that a missing value may be there. -/
  statement : ∀ s, p.statement? = some s →
    ∃ t, q.statement? = some t ∧ (t = s ∨ s.BreaksOff t)
  /-- A report stays if it is not on the end. -/
  report : ∀ d, p.report? reportStray = some d → d.location ≠ none →
    q.report? reportStray = some d

theorem Production.GoesOn.refl (reportStray : Bool) (p : Production) : p.GoesOn reportStray p :=
  ⟨fun s hs => ⟨s, hs, .inl rfl⟩, fun _ hd _ => hd⟩

/-- **What a reading of the first tokens tells of a reading of them all.** -/
structure Reading.Begins (short long : Reading) : Prop where
  /-- Only the last report can be on the end. -/
  located : ∀ d ∈ short.reports.dropLast, d.location ≠ none
  /-- The reports that are not are the first ones. -/
  reports : (short.reports.filter fun d => d.location.isSome) <+: long.reports
  /-- The statements are the first ones, but that the last may break off. -/
  statements : short.program.statements <+: long.program.statements ∨
    ∃ done s t, short.program.statements = done ++ [s] ∧
      done ++ [t] <+: long.program.statements ∧ s.BreaksOff t

namespace Grammar

variable {reportStray : Bool} {p : Production} {ps : List Production} {d : Diagnostic}
  {ts us body behind : List Token}

/-! ## Productions with tokens behind them -/

/-- A body with a token behind it is closed for good. -/
theorem Closes.append_of_ne_nil (h : Closes body behind) (hne : behind ≠ []) (us : List Token) :
    Closes body (behind ++ us) := by
  cases h with
  | semicolon inside stop => exact .semicolon inside stop
  | finish inside => exact absurd rfl hne

/-- **A production with a token behind it** stays what it is. -/
theorem Fits.append_of_ne_nil (h : Fits p behind) (hne : behind ≠ []) (us : List Token) :
    Fits p (behind ++ us) := by
  have hhead : (behind ++ us).headD .eof = behind.headD .eof := by
    obtain ⟨t, rest, rfl⟩ := List.exists_cons_of_ne_nil hne
    rfl
  cases h with
  | binding isLet isName isSign closes =>
    exact .binding isLet isName isSign (closes.append_of_ne_nil hne us)
  | returning isReturn closes => exact .returning isReturn (closes.append_of_ne_nil hne us)
  | unnamed isLet noName =>
    rw [← hhead] at noName ⊢
    exact .unnamed isLet noName
  | unassigned isLet isName noSign =>
    rw [← hhead] at noSign ⊢
    exact .unassigned isLet isName noSign
  | single noLet noReturn => exact .single noLet noReturn

/-- A production comes first among those of the tokens. -/
theorem productions_of_fits (h : Fits p behind) :
    productions (p.span ++ behind) = p :: productions behind :=
  derives_iff.1 (.cons h (derives_productions behind))

/-- And what it complains about is a token. -/
theorem Fits.location_ne_none (h : Fits p behind) (hne : behind ≠ [])
    (located : ∀ t ∈ p.span ++ behind, t.location ≠ none)
    (report : p.report? reportStray = some d) : d.location ≠ none := by
  obtain ⟨t, rest, rfl⟩ := List.exists_cons_of_ne_nil hne
  cases h with
  | binding => cases report
  | returning => cases report
  | unnamed =>
    cases report
    exact located t (by simp)
  | unassigned =>
    cases report
    exact located t (by simp)
  | @single u =>
    rw [Production.report?_single, Option.ite_none_right_eq_some] at report
    cases report.2
    exact located u (by simp [Production.span])

/-! ## The last production -/

/-- A body that was not closed goes on up to the next semicolon. -/
theorem closes_append_through (inside : ∀ u ∈ body, u.kind ≠ .mark .semicolon) (us : List Token) :
    Closes (body ++ through us) (after us) := by
  have closes := closes_through us
  generalize through us = more at closes
  generalize after us = behind at closes
  have both : ∀ {rest : List Token}, (∀ u ∈ rest, u.kind ≠ .mark .semicolon) →
      ∀ u ∈ body ++ rest, u.kind ≠ .mark .semicolon := fun hrest =>
    List.forall_mem_append.2 ⟨inside, hrest⟩
  cases closes with
  | semicolon later stop =>
    rw [← List.append_assoc]
    exact .semicolon (both later) stop
  | finish later => exact .finish (both later)

/-- A statement keeps the value that its body starts with, or has one for
the first time. -/
theorem value_append_cases (statement : Token → Statement)
    (breaksOff : ∀ value, (statement .eof).BreaksOff (statement value)) (body more : List Token) :
    statement ((body ++ more).headD .eof) = statement (body.headD .eof) ∨
      (statement (body.headD .eof)).BreaksOff (statement ((body ++ more).headD .eof)) := by
  cases body with
  | nil => exact .inr (breaksOff _)
  | cons t body => exact .inl rfl

/-- **The last production goes on** into what comes behind it. -/
theorem exists_goesOn (h : Fits p []) (reportStray : Bool) (us : List Token) :
    ∃ q behind, Fits q behind ∧ q.span ++ behind = p.span ++ us ∧ p.GoesOn reportStray q := by
  have same := Production.GoesOn.refl reportStray p
  generalize hnil : ([] : List Token) = behind at h
  cases h with
  | @binding keyword target sign body behind isLet isName isSign closes =>
    cases closes with
    | semicolon inside stop =>
      exact ⟨_, us, .binding isLet isName isSign (.semicolon inside stop), rfl, same⟩
    | finish inside =>
      refine ⟨_, _, .binding isLet isName isSign (closes_append_through inside us), ?_, ?_, ?_⟩
      · simp [Production.span, through_append_after]
      · rintro s ⟨⟩
        exact ⟨_, rfl, value_append_cases (fun value => .binding keyword ⟨target⟩ ⟨value⟩)
          (.binding keyword ⟨target⟩) body (through us)⟩
      · rintro d ⟨⟩
  | @returning keyword body behind isReturn closes =>
    cases closes with
    | semicolon inside stop =>
      exact ⟨_, us, .returning isReturn (.semicolon inside stop), rfl, same⟩
    | finish inside =>
      refine ⟨_, _, .returning isReturn (closes_append_through inside us), ?_, ?_, ?_⟩
      · simp [Production.span, through_append_after]
      · rintro s ⟨⟩
        exact ⟨_, rfl, value_append_cases (fun value => .returning keyword ⟨value⟩)
          (.returning keyword) body (through us)⟩
      · rintro d ⟨⟩
  | @unnamed keyword behind isLet noName =>
    -- What stood in place of the name was the end, and anything may stand there now.
    subst hnil
    refine ⟨_, _, fits_first keyword us, span_append_first keyword us, ⟨?_, ?_⟩⟩
    · rintro s ⟨⟩
    · rintro d ⟨⟩ located
      exact absurd rfl located
  | @unassigned keyword target behind isLet isName noSign =>
    subst hnil
    refine ⟨_, _, fits_first keyword (target :: us), span_append_first keyword _, ⟨?_, ?_⟩⟩
    · rintro s ⟨⟩
    · rintro d ⟨⟩ located
      exact absurd rfl located
  | @single t behind noLet noReturn => exact ⟨_, us, .single noLet noReturn, rfl, same⟩

/-- **More tokens change the last production alone**, and the others
complain about tokens only. -/
theorem productions_append_goesOn (reportStray : Bool) (us : List Token) (derives : Derives ts ps)
    (located : ∀ t ∈ ts, t.location ≠ none) :
    ps = [] ∨ ∃ done p q more, ps = done ++ [p] ∧ productions (ts ++ us) = done ++ q :: more ∧
      p.GoesOn reportStray q ∧
      ∀ d ∈ done.filterMap (Production.report? reportStray), d.location ≠ none := by
  induction derives with
  | nil => exact .inl rfl
  | @cons p behind ps fits later ih =>
    right
    by_cases hnil : behind = []
    · subst hnil
      obtain rfl : ps = [] := (derives_iff.1 later).symm.trans productions_nil
      obtain ⟨q, more, fits', span, goesOn⟩ := exists_goesOn fits reportStray us
      refine ⟨[], p, q, productions more, rfl, ?_, goesOn, nofun⟩
      rw [List.append_nil, ← span]
      exact productions_of_fits fits'
    · have hne : ps ≠ [] := by
        rintro rfl
        cases later
        exact hnil rfl
      obtain hps | ⟨done, last, q, more, rfl, hmore, goesOn, hdone⟩ :=
        ih fun t ht => located t (List.mem_append_right _ ht)
      · exact absurd hps hne
      refine ⟨p :: done, last, q, more, rfl, ?_, goesOn, ?_⟩
      · rw [List.append_assoc, List.cons_append, ← hmore]
        exact productions_of_fits (fits.append_of_ne_nil hnil us)
      · rw [Reader.filterMap_cons_eq_append, List.forall_mem_append]
        refine ⟨fun d hd => ?_, hdone⟩
        exact fits.location_ne_none hnil located (Option.mem_toList.1 hd)

/-! ## Readings -/

/-- What is made of productions, with one of them picked out. -/
theorem filterMap_append_cons {α : Type} (f : Production → Option α) (done more : List Production)
    (p : Production) : (done ++ p :: more).filterMap f =
      done.filterMap f ++ ((f p).toList ++ more.filterMap f) := by
  rw [List.filterMap_append, Reader.filterMap_cons_eq_append]

/-- **The reading of the first tokens** begins the reading of them all. -/
theorem reading_begins (reportStray : Bool) (located : ∀ t ∈ ts, t.location ≠ none)
    (us : List Token) : (reading reportStray ts).Begins (reading reportStray (ts ++ us)) := by
  obtain hnil | ⟨done, p, q, more, hps, hqs, goesOn, hdone⟩ :=
    productions_append_goesOn reportStray us (derives_productions ts) located
  · have hempty : reading reportStray ts = ⟨⟨[]⟩, []⟩ := by
      rw [reading, statements, reports, hnil]
      rfl
    rw [hempty]
    exact ⟨nofun, List.nil_prefix, .inl List.nil_prefix⟩
  -- The last production is picked out in both, and the ones before it are the same.
  have hreports : (reading reportStray ts).reports =
      done.filterMap (Production.report? reportStray) ++ (p.report? reportStray).toList := by
    rw [reading, reports, hps, filterMap_append_cons, List.filterMap_nil, List.append_nil]
  have hstatements : (reading reportStray ts).program.statements =
      done.filterMap Production.statement? ++ p.statement?.toList := by
    rw [reading, statements, hps, filterMap_append_cons, List.filterMap_nil, List.append_nil]
  refine ⟨?_, ?_, ?_⟩
  · rw [hreports]
    cases p.report? reportStray with
    | none =>
      rw [Option.toList_none, List.append_nil]
      exact fun d hd => hdone d (List.dropLast_subset _ hd)
    | some d =>
      rw [Option.toList_some, List.dropLast_concat]
      exact hdone
  · have hkept : (done.filterMap (Production.report? reportStray)).filter
        (fun d => d.location.isSome) = done.filterMap (Production.report? reportStray) :=
      List.filter_eq_self.2 fun d hd => Option.isSome_iff_ne_none.2 (hdone d hd)
    rw [hreports, List.filter_append, hkept, reading, reports, hqs, filterMap_append_cons,
      List.prefix_append_right_inj]
    cases hp : p.report? reportStray with
    | none => exact List.nil_prefix
    | some d =>
      rw [Option.toList_some, List.filter_cons, List.filter_nil]
      split
      · next located =>
        rw [goesOn.report d hp (Option.isSome_iff_ne_none.1 located)]
        exact List.prefix_append _ _
      · exact List.nil_prefix
  · rw [hstatements, reading, statements, hqs, filterMap_append_cons]
    cases hp : p.statement? with
    | none =>
      left
      rw [List.prefix_append_right_inj]
      exact List.nil_prefix
    | some s =>
      obtain ⟨t, ht, hsame | breaksOff⟩ := goesOn.statement s hp
      · left
        rw [List.prefix_append_right_inj, ht, hsame]
        exact List.prefix_append _ _
      · right
        refine ⟨_, s, t, rfl, ?_, breaksOff⟩
        rw [List.prefix_append_right_inj, ht]
        exact List.prefix_append _ _

end Grammar

/-- **More text contradicts nothing that was read before it.** Where the
tokens of a text are the first tokens of the text with another one behind
it, and neither is refused, the reading of the first text begins the
reading of both. -/
theorem read_append_tokens (o : Options) {a b : Text} {ts us : List Token}
    (short : (o.tokenize a).result = .ok (ts ++ [.eof]))
    (long : (o.tokenize (a ++ b)).result = .ok (ts ++ us ++ [.eof])) :
    ∃ first all, (o.read a).result = .ok first ∧ (o.read (a ++ b)).result = .ok all ∧
      first.Begins all := by
  obtain ⟨clear, rfl⟩ := result_tokenize_eq_ok_iff.1 short
  obtain ⟨clear', htokens⟩ := result_tokenize_eq_ok_iff.1 long
  refine ⟨_, _, result_read_eq_ok_iff.2 ⟨clear, rfl⟩, result_read_eq_ok_iff.2 ⟨clear', rfl⟩, ?_⟩
  have located := Cursor.located_tokens o.overflow (.ofText a)
  rw [htokens]
  exact Grammar.reading_begins o.reportStray located.location_ne_none us

/-- A text that ends behind the sign of a binding, with a malformed one in
front: the complaint stays, and the binding gets its value. -/
theorem read_append_tokens_value :
    ∃ ts us first all,
      (Options.standard.tokenize "let 1; let x =").result = .ok (ts ++ [.eof]) ∧
      (Options.standard.tokenize ("let 1; let x =" ++ " 5; let")).result =
        .ok (ts ++ us ++ [.eof]) ∧
      (Options.standard.read "let 1; let x =").result = .ok first ∧
      (Options.standard.read ("let 1; let x =" ++ " 5; let")).result = .ok all ∧
      first.Begins all ∧ first.reports.length = 1 ∧ all.reports.length = 2 ∧
      first.program.statements.map Statement.value = [.eof] ∧
      all.program.statements.map Statement.value = [⟨.integer, some 15, "5", some 5⟩] := by
  let ts := (Cursor.ofText "let 1; let x =").tokens "illegal"
  let us := ((Cursor.ofText ("let 1; let x =" ++ " 5; let")).tokens "illegal").drop ts.length
  have readable : Text.Readable "let 1; let x =" := readable_of_length_le (by decide)
  have readable' : Text.Readable ("let 1; let x =" ++ " 5; let") :=
    readable_of_length_le (by decide)
  have short : (Options.standard.tokenize "let 1; let x =").result = .ok (ts ++ [.eof]) :=
    result_tokenize_eq_ok_iff.2 ⟨readable_iff.1 readable, rfl⟩
  have long : (Options.standard.tokenize ("let 1; let x =" ++ " 5; let")).result =
      .ok (ts ++ us ++ [.eof]) :=
    result_tokenize_eq_ok_iff.2 ⟨readable_iff.1 readable', by decide +kernel⟩
  obtain ⟨first, all, hfirst, hall, begins⟩ := read_append_tokens .standard short long
  obtain ⟨-, rfl⟩ := result_read_eq_ok_iff.1 hfirst
  obtain ⟨-, rfl⟩ := result_read_eq_ok_iff.1 hall
  refine ⟨ts, us, _, _, short, long, hfirst, hall, begins, ?_, ?_, ?_, ?_⟩ <;> decide +kernel

end ScriptReader
