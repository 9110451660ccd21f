import ScriptReader.Proofs.Visits

/-!
# Recovery — what a failed production leaves in sight

A binding is given up at the token that it complains about, and that token
is not passed: it is still the second one in sight (`Reader.GivesUp`). A
statement that fails is the binding that was given up, with its report, or
a token that starts none and is reported while it is current
(`Reader.Dispatches`). Where a statement is read instead, nothing is
reported, and it ends at a semicolon or at the end (`Reader.Finishes`).

So in a round that reads no statement the only token that is passed over,
and not looked at as the start of one, is the name of a binding
(`Reader.Recovers`). All this holds of every reader, whatever the two
tokens in sight are.
-/

namespace ScriptReader

namespace Reader

variable {policy : Text} {r : Reader} {α : Type} {o : Outcome Reader α} {d : Diagnostic}

/-! ## Productions -/

/-- **How a binding is given up**, with its complaint. The token that it is
about is the second one in sight. -/
inductive GivesUp (r : Reader) (o : Outcome Reader α) : Diagnostic → Prop
  /-- There is no name, and nothing has been drawn. -/
  | unnamed (noName : r.peek.kind ≠ .identifier) (draws : o.draws = [])
      (cursor : o.state.cursor = r.cursor) (current : o.state.current = r.current)
      (peek : o.state.peek = r.peek) : GivesUp r o (.unexpected o.state.peek .identifier)
  /-- There is no sign after the name. The name is current now, and the
  token behind it has been drawn. -/
  | unassigned (isName : r.peek.kind = .identifier) (draws : o.draws = [.token o.state.peek])
      (current : o.state.current = r.peek) (noSign : o.state.peek.kind ≠ .mark .assign) :
      GivesUp r o (.unexpected o.state.peek .assignment)

/-- **How a statement that was read ends**: with nothing reported, and at a
semicolon or at the end. -/
structure Finishes (r : Reader) (o : Outcome Reader α) : Prop where
  reports : o.state.reports = r.reports
  stop : o.state.current.kind = .mark .semicolon ∨ o.state.current.kind = .eof

/-- Skipping stops at a semicolon or at the end. -/
theorem stop_skipToSemicolon :
    ∀ u, (r.skipToSemicolon policy).result = .ok u →
      (r.skipToSemicolon policy).state.current.kind = .mark .semicolon ∨
        (r.skipToSemicolon policy).state.current.kind = .eof := by
  fun_induction skipToSemicolon policy r with
  | case1 r stop => exact fun _ _ => .inl stop
  | case2 r _ eof => exact fun _ _ => .inr eof
  | case3 r _ _ o ih =>
    intro u h
    obtain ⟨a, ho, hrest⟩ := Outcome.exists_of_andThen_ok h
    rw [Outcome.andThen_of_ok ho]
    exact ih u hrest

/-- An answered advance draws the token that is in sight behind the
current one afterwards. -/
theorem draws_advance_of_ok (h : (r.advance policy).result = .ok ()) :
    (r.advance policy).draws = [.token (r.advance policy).state.peek] := by
  cases hr : (r.cursor.next policy).result with
  | error e =>
    rw [advance_of_error hr] at h
    cases h
  | ok t =>
    rw [draws_advance, hr, advance_of_ok hr]
    rfl

/-- **A binding is given up at the token behind it.** -/
theorem givesUp_of_letStatement (h : (r.letStatement policy).result = .ok (.error d)) :
    r.GivesUp (r.letStatement policy) d := by
  unfold letStatement at h ⊢
  split
  · next isName =>
    rw [if_pos isName] at h
    obtain ⟨_, hnamed, hrest⟩ := Outcome.exists_of_andThen_ok h
    rw [Outcome.andThen_of_ok hnamed]
    split
    · next isSign =>
      -- With a name and a sign there is nothing to complain about.
      rw [if_pos isSign] at hrest
      obtain ⟨_, -, hskip⟩ := Outcome.exists_of_andThen_ok hrest
      obtain ⟨_, -, hread⟩ := Outcome.result_map_eq_ok_iff.1 hskip
      cases hread
    · next noSign =>
      rw [if_neg noSign] at hrest
      cases hrest
      refine .unassigned isName ?_ (current_advance policy r) noSign
      show Event.draws ((r.advance policy).history ++ []) = _
      rw [List.append_nil]
      exact draws_advance_of_ok hnamed
  · next noName =>
    rw [if_neg noName] at h
    cases h
    exact .unnamed noName rfl rfl rfl rfl

/-- **A binding that is read ends with its terminator.** -/
theorem finishes_letStatement {s : Statement}
    (h : (r.letStatement policy).result = .ok (.ok s)) : r.Finishes (r.letStatement policy) := by
  refine ⟨reports_letStatement policy r, ?_⟩
  unfold letStatement at h ⊢
  split
  · next isName =>
    rw [if_pos isName] at h
    obtain ⟨_, hnamed, hrest⟩ := Outcome.exists_of_andThen_ok h
    rw [Outcome.andThen_of_ok hnamed]
    split
    · next isSign =>
      rw [if_pos isSign] at hrest
      obtain ⟨_, hassigned, hskip⟩ := Outcome.exists_of_andThen_ok hrest
      obtain ⟨u, hskip, -⟩ := Outcome.result_map_eq_ok_iff.1 hskip
      rw [Outcome.andThen_of_ok hassigned]
      exact stop_skipToSemicolon u hskip
    · next noSign =>
      rw [if_neg noSign] at hrest
      cases hrest
  · next noName =>
    rw [if_neg noName] at h
    cases h

/-- **So does a returned value.** -/
theorem finishes_returnStatement {s : Statement}
    (h : (r.returnStatement policy).result = .ok s) : r.Finishes (r.returnStatement policy) := by
  refine ⟨reports_returnStatement policy r, ?_⟩
  unfold returnStatement at h ⊢
  obtain ⟨_, hstarted, hrest⟩ := Outcome.exists_of_andThen_ok h
  obtain ⟨u, hskip, -⟩ := Outcome.result_map_eq_ok_iff.1 hrest
  rw [Outcome.andThen_of_ok hstarted]
  exact stop_skipToSemicolon u hskip

/-! ## Statements -/

/-- What a statement does at a `let` whose binding is given up. -/
theorem statement_of_error (rules : Rules) (isLet : r.current.kind = .keyword .letWord)
    (failed : (r.letStatement rules.policy).result = .ok (.error d)) :
    (r.statement rules).result = .ok none ∧
      (r.statement rules).draws = (r.letStatement rules.policy).draws ∧
      (r.statement rules).state = { (r.letStatement rules.policy).state with
        reports := r.reports ++ [d] } := by
  have hreports := reports_letStatement rules.policy r
  rw [statement_of_let rules isLet, Outcome.draws_andThen_of_ok failed,
    Outcome.andThen_of_ok failed, ← hreports]
  exact ⟨rfl, List.append_nil _, rfl⟩

/-- **What looking for a statement comes to.** -/
structure Dispatches (rules : Rules) (r : Reader) (o : Outcome Reader (Option Statement)) :
    Prop where
  /-- A binding that is given up is reported, and no statement is read. -/
  failed : ∀ d, r.current.kind = .keyword .letWord →
    (r.letStatement rules.policy).result = .ok (.error d) →
    o.result = .ok none ∧ r.GivesUp o d ∧ o.state.reports = r.reports ++ [d]
  /-- A token that starts none is reported on demand, and stays where it
  is. -/
  stray : rules.reportStray = true → r.current.StartsNone →
    o.result = .ok none ∧ o.draws = [] ∧
      o.state = { r with reports := r.reports ++ [.unexpected r.current .statement] }
  /-- A statement that is read reports nothing. -/
  read : ∀ s, o.result = .ok (some s) → r.Finishes o
  /-- And nothing else is reported, also where reading is refused. -/
  quiet : o.state.reports = r.reports ∨
    (∃ d, r.current.kind = .keyword .letWord ∧
      (r.letStatement rules.policy).result = .ok (.error d)) ∨
    rules.reportStray = true ∧ r.current.StartsNone

theorem GivesUp.statement {rules : Rules} (isLet : r.current.kind = .keyword .letWord)
    (failed : (r.letStatement rules.policy).result = .ok (.error d)) :
    r.GivesUp (r.statement rules) d := by
  obtain ⟨-, hdraws, hstate⟩ := statement_of_error rules isLet failed
  have hpeek : (r.statement rules).state.peek = (r.letStatement rules.policy).state.peek := by
    rw [hstate]
  have hcurrent : (r.statement rules).state.current =
      (r.letStatement rules.policy).state.current := by
    rw [hstate]
  cases givesUp_of_letStatement failed with
  | unnamed noName draws cursor current peek =>
    rw [← hpeek]
    refine .unnamed noName (hdraws.trans draws) ?_ (hcurrent.trans current) (hpeek.trans peek)
    rw [hstate]
    exact cursor
  | unassigned isName draws current noSign =>
    rw [← hpeek]
    exact .unassigned isName (by rw [hdraws, draws, hpeek]) (hcurrent.trans current)
      (by rwa [hpeek])

/-- A statement that is read is a binding or a returned value. -/
theorem finishes_statement (rules : Rules) {s : Statement}
    (h : (r.statement rules).result = .ok (some s)) : r.Finishes (r.statement rules) := by
  by_cases isLet : r.current.kind = .keyword .letWord
  · rw [statement_of_let rules isLet] at h ⊢
    obtain ⟨found, hlet, hrest⟩ := Outcome.exists_of_andThen_ok h
    cases found with
    | error d => cases hrest
    | ok s =>
      have hfinishes := finishes_letStatement hlet
      rw [Outcome.andThen_of_ok hlet]
      exact ⟨hfinishes.reports, hfinishes.stop⟩
  by_cases isReturn : r.current.kind = .keyword .returnWord
  · rw [statement_of_return rules isReturn] at h ⊢
    obtain ⟨s, hreturn, -⟩ := Outcome.result_map_eq_ok_iff.1 h
    have hfinishes := finishes_returnStatement hreturn
    exact ⟨hfinishes.reports, hfinishes.stop⟩
  · rw [statement_of_single rules isLet isReturn] at h
    split at h <;> cases h

/-- A statement that is read or refused reports nothing, unless a binding
is given up. -/
theorem reports_statement_of_let (rules : Rules) (isLet : r.current.kind = .keyword .letWord) :
    (r.statement rules).state.reports = r.reports ∨
      ∃ d, (r.letStatement rules.policy).result = .ok (.error d) := by
  have hreports := reports_letStatement rules.policy r
  rw [statement_of_let rules isLet]
  cases hlet : (r.letStatement rules.policy).result with
  | error e =>
    rw [Outcome.andThen_of_error hlet]
    exact .inl hreports
  | ok found =>
    cases found with
    | error d => exact .inr ⟨d, rfl⟩
    | ok s =>
      rw [Outcome.andThen_of_ok hlet]
      exact .inl hreports

/-- **Looking for a statement**, whatever is current. -/
theorem dispatches_statement (rules : Rules) (r : Reader) :
    r.Dispatches rules (r.statement rules) where
  failed d isLet failed := by
    obtain ⟨hresult, -, hstate⟩ := statement_of_error rules isLet failed
    exact ⟨hresult, .statement isLet failed, congrArg Reader.reports hstate⟩
  stray flag := by
    rintro ⟨noLet, noReturn, noStop⟩
    rw [statement_of_single rules noLet noReturn, if_pos ⟨flag, noStop⟩]
    exact ⟨rfl, rfl, rfl⟩
  read s h := finishes_statement rules h
  quiet := by
    by_cases isLet : r.current.kind = .keyword .letWord
    · exact (reports_statement_of_let rules isLet).imp_right fun ⟨d, failed⟩ =>
        .inl ⟨d, isLet, failed⟩
    by_cases isReturn : r.current.kind = .keyword .returnWord
    · left
      rw [statement_of_return rules isReturn]
      exact reports_returnStatement rules.policy r
    · rw [statement_of_single rules isLet isReturn]
      split
      · next stray => exact .inr (.inr ⟨stray.1, isLet, isReturn, stray.2⟩)
      · exact .inl rfl

/-! ## Rounds -/

/-- **How a round that reads no statement goes on**, by what it draws: with
the next token, or with the one behind the name of a binding. -/
inductive Recovers (r : Reader) (o : Outcome Reader (Option Statement)) : Prop
  /-- The second token in sight is current next, and nothing was passed
  over. -/
  | next (draws : o.draws = [.token o.state.peek]) (current : o.state.current = r.peek)
  /-- The second token in sight was the name of a binding. The one behind it
  is current next. -/
  | name (isLet : r.current.kind = .keyword .letWord) (isName : r.peek.kind = .identifier)
      (draws : o.draws = [.token o.state.current, .token o.state.peek])

theorem made_round (rules : Rules) : Made rules.policy r (r.round rules) :=
  (made_statement rules).andThen fun _ _ => made_advance.map _

/-- **No token is passed over but a name.** In particular no `let` and no
`return` is. -/
theorem recovers_round (rules : Rules) (h : (r.round rules).result = .ok none) :
    r.Recovers (r.round rules) := by
  have hround := state_round_of_ok h
  obtain ⟨found, hstatement, hrest⟩ := Outcome.exists_of_andThen_ok h
  obtain ⟨u, hadvance, rfl⟩ := Outcome.result_map_eq_ok_iff.1 hrest
  have hnext := current_advance rules.policy (r.statement rules).state
  have hdraws : (r.round rules).draws =
      (r.statement rules).draws ++ [.token (r.round rules).state.peek] := by
    rw [hround, ← draws_advance_of_ok hadvance, round, Outcome.draws_andThen_of_ok hstatement,
      Outcome.draws_map]
  rw [← hround] at hnext
  by_cases isLet : r.current.kind = .keyword .letWord
  · -- The binding was given up, for otherwise there is a statement.
    have failed : ∃ d, (r.letStatement rules.policy).result = .ok (.error d) := by
      rw [statement_of_let rules isLet] at hstatement
      obtain ⟨found, hlet, hread⟩ := Outcome.exists_of_andThen_ok hstatement
      cases found with
      | error d => exact ⟨d, hlet⟩
      | ok s => cases hread
    obtain ⟨d, failed⟩ := failed
    cases GivesUp.statement isLet failed with
    | unnamed noName draws cursor current peek =>
      exact .next (by rw [hdraws, draws, List.nil_append]) (hnext.trans peek)
    | unassigned isName draws current noSign =>
      exact .name isLet isName (by rw [hdraws, draws, hnext]; rfl)
  by_cases isReturn : r.current.kind = .keyword .returnWord
  · rw [statement_of_return rules isReturn] at hstatement
    obtain ⟨s, -, hread⟩ := Outcome.result_map_eq_ok_iff.1 hstatement
    cases hread
  · have hstay : (r.statement rules).draws = [] ∧ (r.statement rules).state.peek = r.peek := by
      rw [statement_of_single rules isLet isReturn]
      split <;> exact ⟨rfl, rfl⟩
    exact .next (by rw [hdraws, hstay.1, List.nil_append]) (hnext.trans hstay.2)

/-! ### What is visited -/

/-- The current token is the first that is visited. -/
theorem head?_visits (r : Reader) (ms : List Move) :
    (r.visits policy ms).head? = some r.current := by
  induction ms generalizing r with
  | nil => rfl
  | cons m ms ih =>
    cases m with
    | advance => rfl
    | write record => exact ih r
    | report d => exact ih (r.report d).state

/-- There is one visit more than there are draws. -/
theorem length_visits {ms : List Move} (h : (r.moves policy ms).result = .ok ()) :
    (r.visits policy ms).length = (r.moves policy ms).draws.length + 1 := by
  induction ms generalizing r with
  | nil => rfl
  | cons m ms ih =>
    obtain ⟨_, hmove, hrest⟩ := Outcome.exists_of_andThen_ok h
    cases m with
    | advance =>
      have hone : (r.move policy .advance).draws.length = 1 := length_draws_advance policy r
      rw [visits_advance_of_ok hmove, List.length_cons, moves, Outcome.draws_andThen_of_ok hmove,
        List.length_append, hone, Nat.add_comm 1]
      exact congrArg (· + 1) (ih hrest)
    | write record => exact ih hrest
    | report d => exact @ih (r.report d).state hrest

/-- The first token that is visited behind the current one is the second
one in sight. -/
theorem getElem?_visits_one {ms : List Move} {t : Token} (h : (r.moves policy ms).result = .ok ())
    (second : (r.visits policy ms)[1]? = some t) : t = r.peek := by
  induction ms generalizing r with
  | nil => cases second
  | cons m ms ih =>
    obtain ⟨_, hmove, hrest⟩ := Outcome.exists_of_andThen_ok h
    cases m with
    | advance =>
      rw [visits_advance_of_ok hmove, List.getElem?_cons_succ, ← List.head?_eq_getElem?,
        head?_visits, current_advance] at second
      exact (Option.some.inj second).symm
    | write record => exact ih hrest second
    | report d => exact @ih (r.report d).state hrest second

/-- **What is visited inside of such a round is a name.** -/
theorem Recovers.identifier_of_mem {rules : Rules} (recovers : r.Recovers (r.round rules))
    (h : (r.round rules).result = .ok none) {ms : List Move}
    (hms : ((r.round rules).map fun _ => ()) = r.moves rules.policy ms) {t : Token}
    (inside : t ∈ (r.visits rules.policy ms).tail.dropLast) : t.kind = .identifier := by
  have hresult : (r.moves rules.policy ms).result = .ok () := by
    rw [← hms]
    exact Outcome.result_map_eq_ok_iff.2 ⟨none, h, rfl⟩
  have hdraws : (r.moves rules.policy ms).draws = (r.round rules).draws :=
    congrArg Outcome.draws hms.symm
  have hlength := length_visits hresult
  obtain ⟨i, hi, rfl⟩ := List.mem_iff_getElem.1 inside
  rw [List.length_dropLast, List.length_tail] at hi
  rw [List.getElem_dropLast, List.getElem_tail]
  cases recovers with
  | next draws current =>
    rw [hdraws, draws] at hlength
    simp only [List.length_singleton] at hlength
    omega
  | name isLet isName draws =>
    rw [hdraws, draws] at hlength
    simp only [List.length_cons, List.length_nil] at hlength
    obtain rfl : i = 0 := by omega
    rw [getElem?_visits_one hresult (List.getElem?_eq_getElem _)]
    exact isName

/-- A program draws in its rounds. -/
theorem draws_program_rounds (rules : Rules) (r : Reader) :
    (r.program rules).draws = (r.rounds rules).flatMap fun a => (a.round rules).draws := by
  rw [draws_program, Outcome.draws, history_statements, Event.draws, List.filterMap_flatMap]
  rfl

/-- **One round starts where the one before it has ended.** -/
theorem isChain_rounds (rules : Rules) (r : Reader) :
    (r.rounds rules).IsChain fun a b => b = (a.round rules).state := by
  fun_induction rounds rules r with
  | case1 r => exact .nil
  | case2 r => exact .singleton r
  | case3 r hne found hround ih =>
    generalize hnext : (r.round rules).state = next at ih
    rw [rounds] at ih ⊢
    split at ih
    · next eof => rw [if_pos eof]; exact .singleton r
    · next hne =>
      rw [if_neg hne]
      split at ih
      · exact .cons_cons hnext.symm ih
      · exact .cons_cons hnext.symm ih

end Reader

end ScriptReader
