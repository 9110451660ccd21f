import ScriptReader.Proofs.Replacement
import ScriptReader.Proofs.Spans
import Mathlib.Data.List.Basic

/-!
# Rounds — where a program looks for statements

A program is read in rounds: a statement is looked for at the current
token, and an advance follows. `Reader.rounds` lists the readers that a
round starts from, up to the end or to the first refusal. What is current
in them are the first tokens of the productions
(`Reader.map_current_rounds`), whether or not tokens that start no
statement are reported, so the flag that asks for these reports decides
on nothing else.

`read_reportStray` is the theorem for a source. `Starts` says which tokens
a statement is looked for at: all but those inside a statement, and the
name of a binding that was given up for its missing sign.
-/

namespace ScriptReader

/-! ## Reports on tokens that start no statement -/

namespace Diagnostic

/-- How the message of a report on a token that starts no statement ends. -/
def strayEnding : Text := "Expected statement"

/-- Whether a report is on a token that starts no statement, by its
message. -/
def isStray (d : Diagnostic) : Bool := strayEnding.isSuffixOf d.message

theorem message_unexpected (t : Token) (needed : Expected) :
    (unexpected t needed).message =
      "Unexpected token '" ++ t.literal ++ "'. " ++ ("Expected " ++ needed.text) := by
  have hsplit : ("'. Expected " : Text) = ("'. " : Text) ++ ("Expected " : Text) := by decide
  rw [unexpected, hsplit]
  simp only [List.append_assoc]

/-- A text ends as what it ends with. -/
theorem getLast?_eq_of_suffix {s t : Text} (h : s <:+ t) (hne : s ≠ []) :
    t.getLast? = s.getLast? := by
  obtain ⟨w, rfl⟩ := h
  rw [List.getLast?_append, Option.or_of_isSome (List.getLast?_isSome.2 hne)]

/-- **What is needed is told by how the message ends**, whatever the token
is that is quoted. -/
theorem isStray_unexpected (t : Token) (needed : Expected) :
    (unexpected t needed).isStray = decide (needed = .statement) := by
  have ends : ("Expected " ++ needed.text : Text) <:+ (unexpected t needed).message := by
    rw [message_unexpected]
    exact List.suffix_append ..
  cases needed with
  | statement =>
    exact List.isSuffixOf_iff_suffix.2 ends
  | identifier =>
    refine Bool.eq_false_iff.2 fun stray => ?_
    have hlast := getLast?_eq_of_suffix (List.isSuffixOf_iff_suffix.1 stray) (by decide)
    rw [getLast?_eq_of_suffix ends (by decide)] at hlast
    exact absurd hlast (by decide)
  | assignment =>
    refine Bool.eq_false_iff.2 fun stray => ?_
    have hlast := getLast?_eq_of_suffix (List.isSuffixOf_iff_suffix.1 stray) (by decide)
    rw [getLast?_eq_of_suffix ends (by decide)] at hlast
    exact absurd hlast (by decide)

end Diagnostic

/-- Whether a token starts no statement, and is no semicolon either. -/
def Token.StartsNone (t : Token) : Prop :=
  t.kind ≠ .keyword .letWord ∧ t.kind ≠ .keyword .returnWord ∧ t.kind ≠ .mark .semicolon

instance : DecidablePred Token.StartsNone := fun _ => inferInstanceAs (Decidable (_ ∧ _ ∧ _))

/-! ## Rounds -/

namespace Reader

variable {rules : Rules} {r : Reader} {found : Option Statement}

/-- A round: a statement, if one starts at the current token, and the
advance after it. -/
def round (rules : Rules) (r : Reader) : Outcome Reader (Option Statement) :=
  (r.statement rules).andThen fun found read => (read.advance rules.policy).map fun _ => found

theorem state_round_of_ok (h : (r.round rules).result = .ok found) :
    (r.round rules).state = ((r.statement rules).state.advance rules.policy).state := by
  obtain ⟨_, hr, -⟩ := Outcome.exists_of_andThen_ok h
  rw [round, Outcome.andThen_of_ok hr]
  rfl

/-- **The readers that statements are looked for by**, one round after the
other. A round that is refused is the last. -/
def rounds (rules : Rules) (r : Reader) : List Reader :=
  if r.current.kind = .eof then []
  else match _h : (r.round rules).result with
    | .error _ => [r]
    | .ok _ => r :: rounds rules (r.round rules).state
termination_by r.weight
decreasing_by
  rw [state_round_of_ok _h]
  exact weight_advance_statement_lt rules (by assumption)

/-- **Statements are read in rounds.** -/
theorem statements_of_ne_eof (rules : Rules) (h : r.current.kind ≠ .eof) :
    r.statements rules =
      (r.round rules).andThen fun found left =>
        (left.statements rules).map (found.toList ++ ·) := by
  rw [statements, if_neg h, round, Outcome.andThen_assoc]
  refine Outcome.andThen_congr fun found _ => ?_
  rw [Outcome.map_andThen]
  exact Outcome.andThen_congr fun _ _ => rfl

/-- Nothing happens but in the rounds. -/
theorem history_statements (rules : Rules) (r : Reader) :
    (r.statements rules).history = (r.rounds rules).flatMap fun s => (s.round rules).history := by
  fun_induction rounds rules r with
  | case1 r eof =>
    rw [statements, if_pos eof]
    rfl
  | case2 r hne e hround =>
    rw [statements_of_ne_eof rules hne, Outcome.andThen_of_error hround, List.flatMap_singleton]
  | case3 r hne found hround ih =>
    rw [statements_of_ne_eof rules hne, Outcome.andThen_of_ok hround, List.flatMap_cons, ← ih]
    rfl

end Reader

/-! ## What a round reports -/

namespace Outcome

variable {σ α β : Type} {o : Outcome σ α}

/-- What holds of the values that steps end with. -/
theorem result_andThen {Q : β → Prop} {next : α → σ → Outcome σ β}
    (later : ∀ a b, (next a o.state).result = .ok b → Q b) :
    ∀ b, (o.andThen next).result = .ok b → Q b := by
  intro b hb
  obtain ⟨a, -, hrest⟩ := exists_of_andThen_ok hb
  exact later a b hrest

end Outcome

namespace Reader

variable {r : Reader}

/-- Steps that report nothing, refused or not. -/
theorem reports_andThen {α β : Type} {o : Outcome Reader α} {next : α → Reader → Outcome Reader β}
    {ds : List Diagnostic} (here : o.state.reports = ds)
    (later : ∀ a, (next a o.state).state.reports = ds) :
    (o.andThen next).state.reports = ds := by
  cases h : o.result with
  | error e =>
    rw [Outcome.andThen_of_error h]
    exact here
  | ok a =>
    rw [Outcome.andThen_of_ok h]
    exact later a

theorem reports_advance (policy : Text) (r : Reader) :
    (r.advance policy).state.reports = r.reports := by
  cases hr : (r.cursor.next policy).result with
  | error e => rw [advance_of_error hr]
  | ok t => rw [advance_of_ok hr]

theorem reports_skipToSemicolon (policy : Text) (r : Reader) :
    (r.skipToSemicolon policy).state.reports = r.reports := by
  fun_induction skipToSemicolon policy r with
  | case1 r => rfl
  | case2 r => rfl
  | case3 r _ _ o ih =>
    have moved := reports_advance policy r
    exact reports_andThen moved fun _ => ih.trans moved

theorem reports_letStatement (policy : Text) (r : Reader) :
    (r.letStatement policy).state.reports = r.reports := by
  have named := reports_advance policy r
  unfold letStatement
  split
  · refine reports_andThen named fun _ => ?_
    split
    · have assigned := (reports_advance policy (r.advance policy).state).trans named
      refine reports_andThen assigned fun _ => ?_
      exact (reports_skipToSemicolon policy _).trans assigned
    · exact named
  · rfl

theorem reports_returnStatement (policy : Text) (r : Reader) :
    (r.returnStatement policy).state.reports = r.reports := by
  have started := reports_advance policy r
  exact reports_andThen started fun _ => (reports_skipToSemicolon policy _).trans started

/-- **A malformed binding lacks a name or a sign.** -/
theorem isStray_of_letStatement (policy : Text) (r : Reader) :
    ∀ found, (r.letStatement policy).result = .ok found →
      ∀ d, found = .error d → d.isStray = false := by
  unfold letStatement
  split
  · refine Outcome.result_andThen fun _ => ?_
    split
    · refine Outcome.result_andThen fun _ found hfound d hd => ?_
      obtain ⟨_, -, rfl⟩ := Outcome.result_map_eq_ok_iff.1 hfound
      cases hd
    · rintro found hfound d rfl
      cases hfound
      exact Diagnostic.isStray_unexpected ..
  · rintro found hfound d rfl
    cases hfound
    exact Diagnostic.isStray_unexpected ..

theorem statement_of_let (rules : Rules) (isLet : r.current.kind = .keyword .letWord) :
    r.statement rules = (r.letStatement rules.policy).andThen fun found read =>
      match found with
      | .ok s => .done (some s) read
      | .error d => (read.report d).map fun _ => none := by
  unfold statement
  split
  · rfl
  · next isReturn => cases isLet.symm.trans isReturn
  · next stop => cases isLet.symm.trans stop
  · next noLet _ _ => exact absurd isLet noLet

theorem statement_of_return (rules : Rules) (isReturn : r.current.kind = .keyword .returnWord) :
    r.statement rules = (r.returnStatement rules.policy).map some := by
  rw [statement, isReturn]

/-- The reports on those of some tokens that start no statement, if there
are to be any. -/
def strays (reportStray : Bool) (ts : List Token) : List Diagnostic :=
  if reportStray then (ts.filter fun t => t.StartsNone).map (.unexpected · .statement) else []

theorem strays_nil (reportStray : Bool) : strays reportStray [] = [] := ite_self _

theorem strays_append (reportStray : Bool) (ts us : List Token) :
    strays reportStray (ts ++ us) = strays reportStray ts ++ strays reportStray us := by
  unfold strays
  split
  · rw [List.filter_append, List.map_append]
  · rfl

theorem strays_of_not_startsNone (reportStray : Bool) {t : Token} (h : ¬ t.StartsNone) :
    strays reportStray [t] = [] := by
  rw [strays, List.filter_singleton, decide_eq_false h]
  exact ite_self _

/-- **The flag is looked at where a statement is looked for**, and there
alone: a token that starts no statement is reported if the flag is set, and
nothing else is reported in these words. -/
theorem filter_isStray_statement (rules : Rules) (r : Reader) :
    (r.statement rules).state.reports.filter Diagnostic.isStray =
      r.reports.filter Diagnostic.isStray ++ strays rules.reportStray [r.current] := by
  by_cases isLet : r.current.kind = .keyword .letWord
  · have nothing : strays rules.reportStray [r.current] = [] :=
      strays_of_not_startsNone rules.reportStray fun h => h.1 isLet
    have read := reports_letStatement rules.policy r
    rw [statement_of_let rules isLet, nothing, List.append_nil]
    cases hr : (r.letStatement rules.policy).result with
    | error e => rw [Outcome.andThen_of_error hr, read]
    | ok found =>
      rw [Outcome.andThen_of_ok hr]
      cases found with
      | ok s =>
        show (r.letStatement rules.policy).state.reports.filter _ = _
        rw [read]
      | error d =>
        show ((r.letStatement rules.policy).state.reports ++ [d]).filter _ = _
        rw [read, List.filter_append, List.filter_singleton,
          isStray_of_letStatement rules.policy r _ hr d rfl]
        exact List.append_nil _
  · by_cases isReturn : r.current.kind = .keyword .returnWord
    · have nothing : strays rules.reportStray [r.current] = [] :=
        strays_of_not_startsNone rules.reportStray fun h => h.2.1 isReturn
      rw [statement_of_return rules isReturn, nothing, List.append_nil, Outcome.state_map,
        reports_returnStatement]
    · rw [statement_of_single rules isLet isReturn, strays, List.filter_singleton]
      by_cases flag : rules.reportStray = true
      · by_cases stop : r.current.kind = .mark .semicolon
        · simp [Token.StartsNone, flag, stop, Outcome.done]
        · simp [Token.StartsNone, flag, stop, isLet, isReturn, report, Outcome.write,
            Diagnostic.isStray_unexpected]
      · simp [flag, Outcome.done]

/-- **So it is in every round of a program**, also in one that is
refused. -/
theorem filter_isStray_statements (rules : Rules) (r : Reader) :
    (r.statements rules).state.reports.filter Diagnostic.isStray =
      r.reports.filter Diagnostic.isStray ++
        strays rules.reportStray ((r.rounds rules).map Reader.current) := by
  have reports_round : ∀ s : Reader, (s.round rules).state.reports =
      (s.statement rules).state.reports :=
    fun s => reports_andThen rfl fun _ => reports_advance rules.policy _
  fun_induction rounds rules r with
  | case1 r eof =>
    rw [statements, if_pos eof, List.map_nil, strays_nil, List.append_nil]
    rfl
  | case2 r hne e hround =>
    rw [statements_of_ne_eof rules hne, Outcome.andThen_of_error hround, reports_round,
      filter_isStray_statement]
    rfl
  | case3 r hne found hround ih =>
    have hcurrents : (r :: rounds rules (r.round rules).state).map Reader.current =
        [r.current] ++ (rounds rules (r.round rules).state).map Reader.current := rfl
    rw [statements_of_ne_eof rules hne, Outcome.andThen_of_ok hround, Outcome.state_map, ih,
      reports_round, filter_isStray_statement, hcurrents, strays_append, List.append_assoc]

end Reader

/-- The first token of a production. -/
def Production.lead : Production → Token
  | binding keyword _ _ _ => keyword
  | returning keyword _ => keyword
  | unnamed keyword _ => keyword
  | unassigned keyword _ _ => keyword
  | single t => t

theorem Production.headD_span (p : Production) (behind : List Token) :
    (p.span ++ behind).headD .eof = p.lead := by
  cases p <;> rfl

/-- **A round reads one production.** -/
theorem Reader.reads_round (rules : Rules) {r : Reader} {p : Production} {behind : List Token}
    (fits : Grammar.Fits p behind) (h : r.Sees rules.policy (p.span ++ behind)) :
    Reads (Sees rules.policy) (r.round rules) p.statement? behind
      (r.reports ++ (p.report? rules.reportStray).toList) := by
  obtain ⟨us, hbehind, hread⟩ := reads_statement rules fits h
  have hadvance := reads_advance hread.sees
  rw [hbehind, hread.reports_eq] at hadvance
  exact hread.andThen (hadvance.map _)

/-- **A round is made at the first token of every production**, and at no
other. -/
theorem Reader.map_current_rounds {rules : Rules} {r : Reader} {ts : List Token}
    {ps : List Production} (derives : Grammar.Derives ts ps) (h : r.Sees rules.policy ts) :
    (r.rounds rules).map Reader.current = ps.map Production.lead := by
  induction derives generalizing r with
  | nil =>
    rw [rounds, if_pos (h.current_eof_iff.2 rfl)]
    rfl
  | @cons p behind ps fits later ih =>
    have hne : r.current.kind ≠ .eof := fun eof => by
      have hnil := h.current_eof_iff.1 eof
      cases p <;> cases hnil
    have hround := reads_round rules fits h
    rw [rounds, if_neg hne]
    split
    · next e he =>
      rw [hround.result] at he
      cases he
    · rw [List.map_cons, List.map_cons, ih hround.sees, h.current_eq, p.headD_span]

namespace Grammar

variable {ts : List Token} {ps : List Production} {q : Placed} {k : Nat}

/-! ## What the flag adds -/

/-- **Without the flag the reports on tokens that start no statement are
missing**, and no others. -/
theorem reports_quiet (ts : List Token) :
    reports false ts = (reports true ts).filter fun d => !d.isStray := by
  rw [reports, reports, List.filter_filterMap]
  refine congrArg (List.filterMap · _) (funext fun p => ?_)
  cases p with
  | binding => rfl
  | returning => rfl
  | unnamed keyword found =>
    simp [Option.filter, Diagnostic.isStray_unexpected]
  | unassigned keyword target found =>
    simp [Option.filter, Diagnostic.isStray_unexpected]
  | single t =>
    by_cases stop : t.kind = .mark .semicolon <;>
      simp [Option.filter, Diagnostic.isStray_unexpected, stop]

/-- **With it they are there**, one for each production that starts with
such a token. -/
theorem filter_reports_isStray (ts : List Token) :
    (reports true ts).filter Diagnostic.isStray =
      (((productions ts).map Production.lead).filter fun t => t.StartsNone).map
        (.unexpected · .statement) := by
  have derives := derives_productions ts
  rw [reports]
  generalize productions ts = ps at derives
  induction derives with
  | nil => rfl
  | @cons p behind ps fits later ih =>
    have hfirst : (p.report? true).toList.filter Diagnostic.isStray =
        ([p.lead].filter fun t => t.StartsNone).map (.unexpected · .statement) := by
      cases fits with
      | binding isLet => simp [Production.report?, Production.lead, Token.StartsNone, isLet]
      | returning isReturn => simp [Production.report?, Production.lead, Token.StartsNone, isReturn]
      | unnamed isLet =>
        simp [Production.lead, Token.StartsNone, isLet, Diagnostic.isStray_unexpected]
      | unassigned isLet =>
        simp [Production.lead, Token.StartsNone, isLet, Diagnostic.isStray_unexpected]
      | @single t _ noLet noReturn =>
        by_cases stop : t.kind = .mark .semicolon <;>
          simp [Production.lead, Token.StartsNone, noLet, noReturn, stop,
            Diagnostic.isStray_unexpected]
    have hleads : (p :: ps).map Production.lead = [p.lead] ++ ps.map Production.lead := rfl
    rw [Reader.filterMap_cons_eq_append, List.filter_append, ih, hfirst, hleads,
      List.filter_append, List.map_append]

/-- **So they are there by the flag.** -/
theorem filter_isStray_reports (reportStray : Bool) (ts : List Token) :
    (reports reportStray ts).filter Diagnostic.isStray =
      Reader.strays reportStray ((productions ts).map Production.lead) := by
  cases reportStray with
  | true => exact filter_reports_isStray ts
  | false =>
    have nothing : Reader.strays false ((productions ts).map Production.lead) = [] :=
      if_neg Bool.false_ne_true
    rw [reports_quiet, nothing, List.filter_filter]
    exact List.filter_eq_nil_iff.2 fun d _ => by simp

/-! ## The tokens that statements are looked for at -/

/-- The indices of the first tokens of productions. -/
def starts (ts : List Token) : List Nat := (arrangement ts).map Placed.start

theorem getD_start (h : q.Stands ts) : ts.getD q.start .eof = q.production.lead := by
  rw [← headD_drop, h.tokens, Production.headD_span]

theorem map_getD_starts (ts : List Token) :
    (starts ts).map (ts.getD · .eof) = (productions ts).map Production.lead := by
  rw [starts, List.map_map, ← map_production_arrangement, List.map_map]
  exact List.map_congr_left fun q hq => getD_start (stands_of_mem_arrangement hq)

theorem pairwise_starts (ts : List Token) : (starts ts).Pairwise (· < ·) := by
  rw [starts, List.pairwise_map]
  exact (pairwise_arrangement ts).imp fun {q _} hle => Nat.lt_of_lt_of_le q.start_lt_stop hle

theorem lt_length_of_mem_starts (h : k ∈ starts ts) : k < ts.length := by
  obtain ⟨q, hq, rfl⟩ := List.mem_map.1 h
  exact Nat.lt_of_lt_of_le q.start_lt_stop (stands_of_mem_arrangement hq).stop_le

/-- No production starts inside another one. -/
theorem notMem_starts (hq : q ∈ arrangement ts) (gt : q.start < k) (lt : k < q.stop) :
    k ∉ starts ts := by
  intro hk
  obtain ⟨r, hr, rfl⟩ := List.mem_map.1 hk
  have apart := List.pairwise_iff_getElem.1 (pairwise_arrangement ts)
  obtain ⟨i, hi, rfl⟩ := List.mem_iff_getElem.1 hq
  obtain ⟨j, hj, rfl⟩ := List.mem_iff_getElem.1 hr
  rcases Nat.lt_trichotomy i j with hij | rfl | hij
  · have := apart i j hi hj hij
    omega
  · omega
  · have := apart j i hj hi hij
    have := (arrangement ts)[j].start_lt_stop
    omega

/-- **The name of a binding that is given up** for its missing sign. The
`let` is one that a statement was looked for at. -/
def GivenUp (ts : List Token) (starts : List Nat) (k : Nat) : Prop :=
  ∃ i ∈ starts, k = i + 1 ∧ (ts.getD i .eof).kind = .keyword .letWord ∧
    (ts.getD k .eof).kind = .identifier ∧ (ts.getD (k + 1) .eof).kind ≠ .mark .assign

/-- A binding is given up behind its name where it has a name and no
sign, and nowhere else. -/
theorem stop_of_givenUp (h : q.Stands ts)
    (isLet : (ts.getD q.start .eof).kind = .keyword .letWord)
    (isName : (ts.getD (q.start + 1) .eof).kind = .identifier)
    (noSign : (ts.getD (q.start + 2) .eof).kind ≠ .mark .assign) : q.stop = q.start + 2 := by
  have fits := h.fits
  have hstop : q.stop = q.start + q.production.span.length := rfl
  have hlead := getD_start h
  have hfound := headD_drop ts q.stop
  have inner : ∀ i, ts.getD (q.start + i) .eof =
      (q.production.span ++ ts.drop q.stop).getD i .eof := by
    intro i
    rw [getD_add, h.tokens]
  generalize ts.drop q.stop = behind at fits hfound inner
  generalize q.production = p at fits hstop hlead inner
  cases fits with
  | binding _ _ isSign =>
    rw [inner 2] at noSign
    exact absurd isSign noSign
  | returning isReturn =>
    rw [hlead] at isLet
    cases isReturn.symm.trans isLet
  | unnamed _ noName =>
    have hstop : q.stop = q.start + 1 := hstop
    rw [hfound, hstop] at noName
    exact absurd isName noName
  | unassigned => exact hstop
  | single noLet =>
    rw [hlead] at isLet
    exact absurd isLet noLet

/-- What a production holds besides its first token is the inside of a
statement, or the name of a binding that is given up. -/
theorem statement_or_givenUp (h : q.Stands ts) (gt : q.start < k) (lt : k < q.stop) :
    (∃ s, q.production.statement? = some s) ∨
      k = q.start + 1 ∧ (ts.getD q.start .eof).kind = .keyword .letWord ∧
        (ts.getD k .eof).kind = .identifier ∧ (ts.getD (k + 1) .eof).kind ≠ .mark .assign := by
  have fits := h.fits
  have hstop : q.stop = q.start + q.production.span.length := rfl
  have hlead := getD_start h
  have hfound := headD_drop ts q.stop
  have hsecond : ts.getD (q.start + 1) .eof =
      (q.production.span ++ ts.drop q.stop).getD 1 .eof := by
    rw [getD_add, h.tokens]
  generalize ts.drop q.stop = behind at fits hfound hsecond
  generalize q.production = p at fits hstop hlead hsecond
  cases fits with
  | binding => exact .inl ⟨_, rfl⟩
  | returning => exact .inl ⟨_, rfl⟩
  | unnamed =>
    have hstop : q.stop = q.start + 1 := hstop
    omega
  | unassigned isLet isName noSign =>
    have hstop : q.stop = q.start + 2 := hstop
    obtain rfl : k = q.start + 1 := by omega
    rw [hfound, hstop] at noSign
    refine .inr ⟨rfl, ?_, ?_, noSign⟩
    · rw [hlead]
      exact isLet
    · rw [hsecond]
      exact isName
  | single =>
    have hstop : q.stop = q.start + 1 := hstop
    omega

end Grammar

/-- **The tokens that a statement is looked for at**, by their indices. -/
structure Starts (ts : List Token) (spans : List Span) (starts : List Nat) : Prop where
  /-- They come in order. -/
  ordered : starts.Pairwise (· < ·)
  /-- The end is none of them. -/
  tokens : ∀ k ∈ starts, k < ts.length
  /-- A token is left out if it is inside a statement, or the name of a
  binding that is given up, and else it is there. -/
  left_out : ∀ k < ts.length, k ∉ starts ↔
    (∃ s ∈ spans, s.start < k ∧ k ≤ s.stop) ∨ Grammar.GivenUp ts starts k

namespace Grammar

/-- **Statements are looked for at the first tokens of productions.** -/
theorem starts_starts (ts : List Token) : Starts ts (spans ts) (starts ts) where
  ordered := pairwise_starts ts
  tokens _ h := lt_length_of_mem_starts h
  left_out k hk := by
    constructor
    · intro hnot
      obtain ⟨q, hq, ge, lt⟩ := exists_mem_arrangement hk
      have hstart : q.start ∈ starts ts := List.mem_map_of_mem hq
      have gt : q.start < k := Nat.lt_of_le_of_ne ge fun h => hnot (h ▸ hstart)
      obtain ⟨s, hs⟩ | ⟨rfl, given⟩ := statement_or_givenUp (stands_of_mem_arrangement hq) gt lt
      · obtain ⟨span, hspan, hle, hstop⟩ := exists_holds_of_statement hq hs ge lt
        refine .inl ⟨span, hspan, Nat.lt_of_le_of_ne hle fun h => hnot ?_, hstop⟩
        obtain ⟨r, hr, -, -, hfirst, -⟩ := exists_of_mem_spans hspan
        rw [← h, hfirst]
        exact List.mem_map_of_mem hr
      · exact .inr ⟨q.start, hstart, rfl, given⟩
    · rintro (⟨s, hs, gt, le⟩ | ⟨i, hi, rfl, isLet, isName, noSign⟩)
      · obtain ⟨q, hq, stands, hstatement, hfirst, hlast⟩ := exists_of_mem_spans hs
        refine notMem_starts hq (by omega) ?_
        obtain hstop | hstop := stop_of_statement stands hstatement
        · omega
        · omega
      · obtain ⟨q, hq, rfl⟩ := List.mem_map.1 hi
        have hstop := stop_of_givenUp (stands_of_mem_arrangement hq) isLet isName noSign
        exact notMem_starts hq (by omega) (by omega)

end Grammar

/-! ## A whole source -/

/-- The readers that the statements of a source are looked for by. -/
def Reading.rounds (rules : Rules) (source : Text) : List Reader :=
  match (Reader.prime rules.policy (.ofText source)).result with
  | .error _ => []
  | .ok (current, peek) =>
    Reader.rounds rules ⟨(Reader.prime rules.policy (.ofText source)).state, current, peek, []⟩

/-- Where nothing is refused, they stand at the first tokens of the
productions. -/
theorem Reading.map_current_rounds (rules : Rules) {source : Text}
    (clear : (Cursor.ofText source).refusal? = none) :
    (Reading.rounds rules source).map Reader.current =
      (Grammar.productions ((Cursor.ofText source).tokens rules.policy)).map Production.lead := by
  unfold Reading.rounds
  cases hprime : (Reader.prime rules.policy (.ofText source)).result with
  | error e =>
    rw [Reader.refusal_of_prime_error hprime] at clear
    cases clear
  | ok sight =>
    exact Reader.map_current_rounds (Grammar.derives_productions _)
      (Reader.sees_of_prime clear hprime)

/-- A reading reports tokens that start no statement by its flag. -/
theorem Reading.filter_isStray_read {o : Options} {source : Text} {found : Reading}
    (h : (o.read source).result = .ok found) :
    found.reports.filter Diagnostic.isStray =
      Reader.strays o.reportStray ((Reading.rounds o.rules source).map Reader.current) := by
  rw [result_read] at h
  cases clear : (Cursor.ofText source).refusal? with
  | some e =>
    rw [clear] at h
    cases h
  | none =>
    rw [clear] at h
    obtain rfl := Except.ok.inj h
    rw [Reading.map_current_rounds o.rules clear]
    exact Grammar.filter_isStray_reports o.reportStray _

/-- **Reporting the tokens that start no statement only adds reports.**
With the flag and without it the same sources are refused, and the others
have the same program. Statements are looked for at the same tokens, and
the reports that come with the flag are one for each of these that is
neither `let` nor `return` nor a semicolon, in order. They are told from
the other reports by how their messages end, and without them the reports
are those of the other reading. -/
theorem read_reportStray (o : Options) (source : Text) :
    let off : Options := { o with reportStray := false }
    let on : Options := { o with reportStray := true }
    (∀ e, (off.read source).result = .error e ↔ (on.read source).result = .error e) ∧
      ∀ quiet, (off.read source).result = .ok quiet →
        ∃ (loud : Reading) (ts : List Token) (spans : List Span) (starts : List Nat),
          (on.read source).result = .ok loud ∧
          (o.tokenize source).result = .ok (ts ++ [.eof]) ∧ (∀ t ∈ ts, t.kind ≠ .eof) ∧
          Partition ts quiet spans ∧ Starts ts spans starts ∧
          (Reading.rounds off.rules source).map Reader.current = starts.map (ts.getD · .eof) ∧
          (Reading.rounds on.rules source).map Reader.current = starts.map (ts.getD · .eof) ∧
          loud.program = quiet.program ∧
          quiet.reports = loud.reports.filter (fun d => !d.isStray) ∧
          loud.reports.filter Diagnostic.isStray =
            ((starts.map (ts.getD · .eof)).filter fun t => t.StartsNone).map
              (.unexpected · .statement) := by
  intro off on
  have hoff := result_read off source
  have hon := result_read on source
  cases clear : (Cursor.ofText source).refusal? with
  | some e =>
    rw [clear] at hoff hon
    refine ⟨fun f => by rw [hoff, hon], fun quiet hquiet => ?_⟩
    rw [hoff] at hquiet
    cases hquiet
  | none =>
    rw [clear] at hoff hon
    refine ⟨fun f => by rw [hoff, hon]; exact ⟨nofun, nofun⟩, fun quiet hquiet => ?_⟩
    rw [hoff] at hquiet
    obtain rfl := Except.ok.inj hquiet
    let ts := (Cursor.ofText source).tokens o.overflow
    have hleads := Grammar.map_getD_starts ts
    refine ⟨_, ts, Grammar.spans ts, Grammar.starts ts, hon, ?_,
      fun t => Cursor.kind_ne_eof_of_mem_tokens, ?_, Grammar.starts_starts ts,
      ?_, ?_, rfl, Grammar.reports_quiet ts, ?_⟩
    · rw [result_tokenize, clear]
    · exact Grammar.partition_reading (Cursor.located_tokens o.overflow _)
        (fun t => Cursor.kind_of_mem_tokens) false
    · rw [Reading.map_current_rounds off.rules clear, hleads]
      rfl
    · rw [Reading.map_current_rounds on.rules clear, hleads]
      rfl
    · rw [hleads]
      exact Grammar.filter_reports_isStray ts

/-- The name of a binding that is given up is passed over. What it is
given up at is complained about twice. -/
theorem read_reportStray_given_up :
    let on : Options := { Options.standard with reportStray := true }
    ∃ quiet loud, (Options.standard.read "let x 5 y;").result = .ok quiet ∧
      (on.read "let x 5 y;").result = .ok loud ∧
      quiet.reports = [.unexpected ⟨.integer, some 6, "5", some 5⟩ .assignment] ∧
      quiet.reports = loud.reports.filter (fun d => !d.isStray) ∧
      loud.reports.filter Diagnostic.isStray =
        [.unexpected ⟨.integer, some 6, "5", some 5⟩ .statement,
          .unexpected ⟨.identifier, some 8, "y", none⟩ .statement] := by
  intro on
  have clear : (Cursor.ofText "let x 5 y;").refusal? = none :=
    readable_iff.1 (readable_of_length_le (by decide))
  have hoff := result_read .standard "let x 5 y;"
  have hon := result_read on "let x 5 y;"
  rw [clear] at hoff hon
  obtain ⟨loud, _, _, _, hloud, -, -, -, -, -, -, -, hquiet, -⟩ :=
    (read_reportStray .standard "let x 5 y;").2 _ hoff
  obtain rfl := Except.ok.inj (hloud.symm.trans hon)
  refine ⟨_, _, hoff, hloud, ?_, hquiet, ?_⟩
  · decide +kernel
  · decide +kernel

end ScriptReader
