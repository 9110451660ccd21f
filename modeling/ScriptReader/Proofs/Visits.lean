import ScriptReader.Proofs.Stream
import ScriptReader.Proofs.Timeline

/-!
# Visits — how often a reader draws, and what it looks at

A reader has `Reader.pending` tokens before it: those that its scanner has
still to find and those in sight. An advance at a token takes one of them
off, and no other step adds any, so a step pays for its draws with what was
pending (`Reader.Pays`), and it pays exactly if nothing is refused. Only
the advance behind a statement with no semicolon is made at the end, where
nothing is left to pay with, and then reading stops.

`Reader.visits` lists the tokens that are current while moves are made.
Over a source in which nothing is refused these are its tokens in order,
and then the end: once, and once more if the last statement is open.
`program_visits` is the theorem for readers and for sources.
-/

namespace ScriptReader

/-- There are no more lexemes than code points. -/
theorem Cursor.length_places_le (s : Cursor) : s.places.length ≤ s.rest.length := by
  fun_induction places s with
  | case1 => exact Nat.zero_le _
  | case2 s c rest offset hs l ih =>
    have hskip := s.length_skipBlanks_le
    have hmunch := Lexeme.length_munch_lt c rest
    rw [hs] at hskip
    dsimp only at ih hskip
    rw [List.length_cons]
    omega

/-- Where nothing is refused, each of them gives a token. -/
theorem Cursor.length_tokens {s : Cursor} (clear : s.refusal? = none) (policy : Text) :
    (s.tokens policy).length = s.places.length := by
  have h := congrArg List.length (map_raw_tokens clear policy)
  rwa [List.length_map, List.length_map] at h

/-- Tokens by their indices, with so many ends behind them. -/
theorem map_getD_range' (ts : List Token) (n : Nat) :
    (List.range' 0 (ts.length + n)).map (ts.getD · .eof) = ts ++ List.replicate n .eof := by
  rw [← List.range'_append_1, List.map_append, Nat.zero_add]
  refine congrArg₂ (· ++ ·) ?_ ?_
  · refine List.ext_getElem (by simp) fun i hi hi' => ?_
    rw [List.getElem_map, List.getElem_range', Nat.zero_add, Nat.one_mul,
      ← List.getElem_eq_getD (h := hi')]
  · refine List.eq_replicate_iff.2 ⟨by simp, fun t ht => ?_⟩
    obtain ⟨i, hi, rfl⟩ := List.mem_map.1 ht
    exact List.getD_eq_default _ _ (List.mem_range'_1.1 hi).1

namespace Reader

variable {policy : Text} {r : Reader} {α β : Type} {o : Outcome Reader α}

/-! ## What is pending -/

/-- **The tokens before a reader**: the lexemes that are not scanned yet,
and those of the two in sight that are not the end. -/
def pending (r : Reader) : Nat :=
  r.cursor.places.length + tokenWeight r.peek + tokenWeight r.current

theorem tokenWeight_of_eof {t : Token} (h : t.kind = .eof) : tokenWeight t = 0 := if_pos h

theorem tokenWeight_of_ne_eof {t : Token} (h : t.kind ≠ .eof) : tokenWeight t = 1 := if_neg h

theorem tokenWeight_le_one (t : Token) : tokenWeight t ≤ 1 := by
  unfold tokenWeight
  split <;> decide

theorem pending_le (r : Reader) : r.pending ≤ r.cursor.rest.length + 2 := by
  have hplaces := r.cursor.length_places_le
  have hpeek := tokenWeight_le_one r.peek
  have hcurrent := tokenWeight_le_one r.current
  unfold pending
  omega

theorem current_advance (policy : Text) (r : Reader) :
    (r.advance policy).state.current = r.peek := by
  cases hr : (r.cursor.next policy).result with
  | error e => rw [advance_of_error hr]
  | ok t => rw [advance_of_ok hr]

/-- An answered advance takes off the current token. -/
theorem pending_advance_of_ok (h : (r.advance policy).result = .ok ()) :
    (r.advance policy).state.pending + tokenWeight r.current = r.pending := by
  cases hr : (r.cursor.next policy).result with
  | error e =>
    rw [advance_of_error hr] at h
    cases h
  | ok t =>
    have htail : (r.cursor.next policy).state.places.length + tokenWeight t =
        r.cursor.places.length := by
      rw [Cursor.places_next]
      cases hs : r.cursor.places with
      | nil =>
        rw [Cursor.result_next_of_places_nil hs] at hr
        cases hr
        rfl
      | cons p ps =>
        rw [Cursor.result_next_of_places_cons hs] at hr
        rw [tokenWeight_of_ne_eof (Lexeme.kind_ne_eof_of_token hr)]
        rfl
    rw [advance_of_ok hr]
    dsimp only [pending]
    omega

/-- A refused one takes off no less. -/
theorem pending_advance_le (policy : Text) (r : Reader) :
    (r.advance policy).state.pending + tokenWeight r.current ≤ r.pending := by
  cases hr : (r.cursor.next policy).result with
  | ok t => exact Nat.le_of_eq (pending_advance_of_ok (by rw [advance_of_ok hr]))
  | error e =>
    -- The refused lexeme is gone, and the second token is there twice.
    have htail : (r.cursor.next policy).state.places.length + 1 = r.cursor.places.length := by
      rw [Cursor.places_next]
      cases hs : r.cursor.places with
      | nil =>
        rw [Cursor.result_next_of_places_nil hs] at hr
        cases hr
      | cons p ps => rfl
    have hpeek := tokenWeight_le_one r.peek
    rw [advance_of_error hr]
    dsimp only [pending]
    omega

/-- **A step pays for its draws** with what is pending: with no more than
that, and exactly if it is not refused. -/
structure Pays (r : Reader) (o : Outcome Reader α) : Prop where
  le : o.draws.length + o.state.pending ≤ r.pending
  eq_of_ok : ∀ a, o.result = .ok a → o.draws.length + o.state.pending = r.pending

theorem pays_done (a : α) (r : Reader) : Pays r (.done a r) :=
  ⟨Nat.le_of_eq (Nat.zero_add _), fun _ _ => Nat.zero_add _⟩

theorem pays_report (d : Diagnostic) (r : Reader) : Pays r (r.report d) :=
  ⟨Nat.le_of_eq (Nat.zero_add _), fun _ _ => Nat.zero_add _⟩

theorem pays_write (record : Record) (r : Reader) : Pays r (.write record r) :=
  ⟨Nat.le_of_eq (Nat.zero_add _), fun _ _ => Nat.zero_add _⟩

theorem Pays.map (h : Pays r o) (f : α → β) : Pays r (o.map f) := by
  refine ⟨h.le, fun b hb => ?_⟩
  obtain ⟨a, ha, -⟩ := Outcome.result_map_eq_ok_iff.1 hb
  exact h.eq_of_ok a ha

/-- **Steps in a row pay one after the other.** -/
theorem Pays.andThen {next : α → Reader → Outcome Reader β} (h : Pays r o)
    (later : ∀ a, o.result = .ok a → Pays o.state (next a o.state)) :
    Pays r (o.andThen next) := by
  cases hr : o.result with
  | error e =>
    rw [Outcome.andThen_of_error hr]
    exact ⟨h.le, nofun⟩
  | ok a =>
    have hnext := later a hr
    have hlength : (o.andThen next).draws.length =
        o.draws.length + (next a o.state).draws.length := by
      rw [Outcome.draws_andThen_of_ok hr, List.length_append]
    have hpaid := h.eq_of_ok a hr
    constructor
    · rw [hlength, Outcome.state_andThen_of_ok hr]
      have := hnext.le
      omega
    · intro b hb
      rw [Outcome.andThen_of_ok hr] at hb
      have := hnext.eq_of_ok b hb
      rw [hlength, Outcome.state_andThen_of_ok hr]
      omega

/-- An advance pays where a token is current. -/
theorem pays_advance (policy : Text) (h : r.current.kind ≠ .eof) :
    Pays r (r.advance policy) := by
  have hone := length_draws_advance policy r
  have hle := pending_advance_le policy r
  rw [tokenWeight_of_ne_eof h] at hle
  refine ⟨by omega, fun a ha => ?_⟩
  have heq := pending_advance_of_ok ha
  rw [tokenWeight_of_ne_eof h] at heq
  omega

theorem pays_skipToSemicolon (policy : Text) (r : Reader) :
    Pays r (r.skipToSemicolon policy) := by
  fun_induction skipToSemicolon policy r with
  | case1 r => exact pays_done () r
  | case2 r => exact pays_write .unterminated r
  | case3 r _ hne o ih => exact (pays_advance policy hne).andThen fun _ _ => ih

theorem pays_letStatement (policy : Text) (h : r.current.kind ≠ .eof) :
    Pays r (r.letStatement policy) := by
  unfold letStatement
  split
  · next isName =>
    refine (pays_advance policy h).andThen fun _ _ => ?_
    split
    · -- The name is current now, and it is not the end.
      have hname : (r.advance policy).state.current.kind ≠ .eof := by
        rw [current_advance, isName]
        decide
      exact (pays_advance policy hname).andThen fun _ _ => (pays_skipToSemicolon policy _).map _
    · exact pays_done _ _
  · exact pays_done _ _

theorem pays_returnStatement (policy : Text) (h : r.current.kind ≠ .eof) :
    Pays r (r.returnStatement policy) :=
  (pays_advance policy h).andThen fun _ _ => (pays_skipToSemicolon policy _).map _

/-- **A statement pays for its draws**, wherever it is looked for. -/
theorem pays_statement (rules : Rules) (r : Reader) : Pays r (r.statement rules) := by
  unfold statement
  split
  · next isLet =>
    refine (pays_letStatement rules.policy (by rw [isLet]; decide)).andThen fun found _ => ?_
    cases found with
    | ok s => exact pays_done _ _
    | error d => exact (pays_report d _).map _
  · next isReturn => exact (pays_returnStatement rules.policy (by rw [isReturn]; decide)).map _
  · exact pays_done _ _
  · split
    · exact (pays_report _ _).map _
    · exact pays_done _ _

/-! ## How often a program draws -/

/-- **Statements draw once more than is pending**, at the most: the advance
behind a statement is made at the end once, and then reading stops. -/
theorem length_draws_statements_le (rules : Rules) (orderly : r.Orderly) :
    (r.statements rules).draws.length ≤ r.pending + 1 := by
  fun_induction statements rules r with
  | case1 r => exact Nat.zero_le _
  | case2 r hne o ih =>
    have hstatement := pays_statement rules r
    have left : o.state.Orderly := (made_statement rules).moved.orderly orderly
    let p := o.state.advance rules.policy
    have hone : p.draws.length = 1 := length_draws_advance rules.policy o.state
    have hpaid : o.draws.length + o.state.pending ≤ r.pending := hstatement.le
    have hpending : p.state.pending + tokenWeight o.state.current ≤ o.state.pending :=
      pending_advance_le rules.policy o.state
    cases ho : o.result with
    | error e =>
      rw [Outcome.andThen_of_error ho]
      show o.draws.length ≤ _
      omega
    | ok found =>
      rw [Outcome.draws_andThen_of_ok ho, List.length_append]
      show _ + (p.andThen fun _ _ => (p.state.statements rules).map _).draws.length ≤ _
      cases hp : p.result with
      | error e =>
        rw [Outcome.andThen_of_error hp]
        show _ + p.draws.length ≤ _
        omega
      | ok _ =>
        rw [Outcome.draws_andThen_of_ok hp, List.length_append, Outcome.draws_map]
        by_cases eof : o.state.current.kind = .eof
        · -- The end is behind the end, so nothing more is read.
          have hend : p.state.current.kind = .eof := by
            rw [current_advance]
            exact (left.current_eof eof).2
          rw [statements, if_pos hend, Outcome.draws_done, List.length_nil]
          omega
        · have hrest := ih (left.advance rules.policy)
          rw [tokenWeight_of_ne_eof eof] at hpending
          have hrest : (p.state.statements rules).draws.length ≤ p.state.pending + 1 := hrest
          omega

theorem draws_program (rules : Rules) (r : Reader) :
    (r.program rules).draws = (r.statements rules).draws := by
  rw [program]
  cases hr : (r.statements rules).result with
  | error e =>
    rw [Outcome.andThen_of_error hr]
    rfl
  | ok found =>
    rw [Outcome.draws_andThen_of_ok hr, Outcome.draws_map, Outcome.draws_write, List.append_nil]

/-- **A step that ends in time**: it stops at the first refusal, and has
drawn at most three times more than there are code points left. -/
structure InTime (r : Reader) (o : Outcome Reader α) : Prop where
  prompt : o.Prompt
  draws_le : o.draws.length ≤ r.cursor.rest.length + 3

theorem Pays.inTime (h : Pays r o) (made : Made policy r o) : InTime r o := by
  have hle := h.le
  have hpending := r.pending_le
  exact ⟨made.prompt, by omega⟩

theorem inTime_program (rules : Rules) (orderly : r.Orderly) : InTime r (r.program rules) := by
  have hle := length_draws_statements_le rules orderly
  have hpending := r.pending_le
  refine ⟨(made_program rules).prompt, ?_⟩
  rw [draws_program]
  omega

/-! ## Exactly how often -/

section Exactly

variable {ts us behind : List Token} {p : Production} {ps : List Production} {k : Nat}

/-- What is pending are the tokens ahead, where nothing is refused. -/
theorem Sees.pending_eq (h : r.Sees policy ts) : r.pending = ts.length := by
  have hplaces := Cursor.length_tokens h.clear policy
  rw [← h.ahead_eq, ahead, pending, List.takeWhile_cons]
  by_cases current_eof : r.current.kind = .eof
  · have peek_eof := (h.orderly.current_eof current_eof).2
    have hnil := Cursor.places_eq_nil_iff.2 (h.orderly.atEnd current_eof)
    rw [if_neg (by simpa using current_eof), hnil, tokenWeight_of_eof current_eof,
      tokenWeight_of_eof peek_eof]
    rfl
  · rw [if_pos (by simpa using current_eof), List.takeWhile_cons, List.length_cons,
      tokenWeight_of_ne_eof current_eof]
    by_cases peek_eof : r.peek.kind = .eof
    · have hnil := Cursor.places_eq_nil_iff.2 (h.orderly.peek_eof peek_eof).2
      rw [if_neg (by simpa using peek_eof), hnil, tokenWeight_of_eof peek_eof]
      rfl
    · have hall : (r.cursor.tokens policy).takeWhile (fun t => decide (t.kind ≠ .eof)) =
          r.cursor.tokens policy :=
        List.takeWhile_eq_self_iff.2 fun t ht => by
          simpa using Cursor.kind_ne_eof_of_mem_tokens ht
      rw [if_pos (by simpa using peek_eof), hall, List.length_cons, hplaces,
        tokenWeight_of_ne_eof peek_eof]

/-- A body that is skipped to the end is one with no semicolon. -/
theorem dropWhile_closes_eq_nil_iff {body : List Token} (closes : Grammar.Closes body behind) :
    (body ++ behind).dropWhile (fun t => decide (t.kind ≠ .mark .semicolon)) = [] ↔
      ∀ t ∈ body, t.kind ≠ .mark .semicolon := by
  rw [List.dropWhile_eq_nil_iff]
  cases closes with
  | semicolon inside stop =>
    refine iff_of_false (fun none => ?_) fun none => none _ (by simp) stop
    exact absurd stop (by simpa using none _ (by simp))
  | finish inside => simp

/-- **A statement ends at the end of the tokens** if it is not
finished. -/
theorem current_statement_eof_iff (rules : Rules) (fits : Grammar.Fits p behind)
    (h : r.Sees rules.policy (p.span ++ behind)) :
    (r.statement rules).state.current.kind = .eof ↔ p.Unfinished := by
  have hcurrent := h.current_eq
  have laws := Prospect.clearLaws rules.policy
  cases fits with
  | @binding keyword target sign body behind isLet isName isSign closes =>
    obtain rfl : r.current = keyword := hcurrent
    have hlet := (laws.letStatement_binding h isName isSign).reads
    rw [statement_of_let rules isLet, Outcome.state_andThen_of_ok hlet.result]
    exact hlet.sees.current_eof_iff.trans (dropWhile_closes_eq_nil_iff closes)
  | @returning keyword body behind isReturn closes =>
    obtain rfl : r.current = keyword := hcurrent
    have hreturn := (laws.returnStatement h).reads
    rw [statement_of_return rules isReturn, Outcome.state_map]
    exact hreturn.sees.current_eof_iff.trans (dropWhile_closes_eq_nil_iff closes)
  | @unnamed keyword behind isLet noName =>
    obtain rfl : r.current = keyword := hcurrent
    have hlet := laws.letStatement_unnamed h noName
    rw [statement_of_let rules isLet, Outcome.state_andThen_of_ok hlet.result]
    exact iff_of_false (fun eof => nomatch hlet.sees.current_eof_iff.1 eof) id
  | @unassigned keyword target behind isLet isName noSign =>
    obtain rfl : r.current = keyword := hcurrent
    have hlet := (laws.letStatement_unassigned h isName noSign).reads
    rw [statement_of_let rules isLet, Outcome.state_andThen_of_ok hlet.result]
    exact iff_of_false (fun eof => nomatch hlet.sees.current_eof_iff.1 eof) id
  | @single t behind noLet noReturn =>
    obtain rfl : r.current = t := hcurrent
    have hstate : (r.statement rules).state.current = r.current := by
      rw [statement_of_single rules noLet noReturn]
      split <;> rfl
    rw [hstate]
    exact iff_of_false (fun eof => nomatch h.current_eof_iff.1 eof) id

/-- **A round draws as often as its production has tokens**, and once more
if that is a statement with no semicolon. -/
theorem length_draws_round (rules : Rules) (fits : Grammar.Fits p behind)
    (h : r.Sees rules.policy (p.span ++ behind)) :
    (r.round rules).draws.length = p.span.length + if p.Unfinished then 1 else 0 := by
  obtain ⟨us, htail, hread⟩ := reads_statement rules fits h
  have hpaid := (pays_statement rules r).eq_of_ok _ hread.result
  have hone := length_draws_advance rules.policy (r.statement rules).state
  have hend := current_statement_eof_iff rules fits h
  rw [hread.sees.pending_eq, h.pending_eq, List.length_append] at hpaid
  rw [hread.sees.current_eof_iff] at hend
  rw [round, Outcome.draws_andThen_of_ok hread.result, List.length_append, Outcome.draws_map, hone]
  cases us with
  | nil =>
    rw [List.tail_nil] at htail
    rw [← htail, List.length_nil] at hpaid
    rw [if_pos (hend.1 rfl)]
    omega
  | cons u us =>
    rw [List.tail_cons] at htail
    rw [← htail, List.length_cons] at hpaid
    rw [if_neg fun unfinished => List.cons_ne_nil u us (hend.2 unfinished)]
    omega

/-- **Statements draw as often as there are tokens**, and once more if one
of them has no semicolon. -/
theorem length_draws_statements (rules : Rules) (derives : Grammar.Derives ts ps)
    (h : r.Sees rules.policy ts) :
    (r.statements rules).draws.length =
      ts.length + if ∃ p ∈ ps, p.Unfinished then 1 else 0 := by
  induction derives generalizing r with
  | nil =>
    rw [statements, if_pos (h.current_eof_iff.2 rfl)]
    rfl
  | @cons p behind ps fits later ih =>
    have hne : r.current.kind ≠ .eof := fun eof => by
      have hnil := h.current_eof_iff.1 eof
      cases p <;> cases hnil
    have hround := reads_round rules fits h
    rw [statements_of_ne_eof rules hne, Outcome.draws_andThen_of_ok hround.result,
      List.length_append, Outcome.draws_map, length_draws_round rules fits h, ih hround.sees,
      List.length_append]
    by_cases unfinished : p.Unfinished
    · -- Then this production is the last.
      obtain rfl := eq_nil_of_unfinished fits unfinished
      obtain rfl : ps = [] := by
        rw [← Grammar.derives_iff.1 later, Grammar.productions_nil]
      simp [unfinished]
    · simp [unfinished, Nat.add_assoc]

/-- So does a program, for what is written behind them draws nothing. -/
theorem length_draws_program (rules : Rules) (h : r.Sees rules.policy ts) :
    (r.program rules).draws.length =
      ts.length + if Grammar.Open ts (Grammar.spans ts) then 1 else 0 := by
  rw [draws_program, length_draws_statements rules (Grammar.derives_productions ts) h]
  simp only [Grammar.open_iff]

/-! ## What is looked at -/

/-- **The tokens that are current**, one after the other, while moves are
made: the one at the start, and one more for each advance. A refused move
is the last. -/
def visits (policy : Text) : List Move → Reader → List Token
  | [], r => [r.current]
  | m :: ms, r =>
    (match m with
      | .advance => [r.current]
      | .write _ | .report _ => []) ++
    match (r.move policy m).result with
    | .error _ => [(r.move policy m).state.current]
    | .ok _ => visits policy ms (r.move policy m).state

theorem visits_advance_of_ok (h : (r.advance policy).result = .ok ()) (ms : List Move) :
    r.visits policy (.advance :: ms) = r.current :: (r.advance policy).state.visits policy ms := by
  have hmove : (r.move policy .advance).result = .ok () := h
  rw [visits, hmove]
  rfl

/-- **Moves visit the tokens ahead in order**, as many of them as they
draw, with the end behind them all. -/
theorem visits_eq (h : r.Sees policy (ts.drop k)) (ms : List Move) :
    r.visits policy ms =
      (List.range' k ((r.moves policy ms).draws.length + 1)).map (ts.getD · .eof) := by
  induction ms generalizing r k with
  | nil =>
    rw [visits, h.current_eq, headD_drop]
    rfl
  | cons m ms ih =>
    cases m with
    | advance =>
      have hadvance := (reads_advance h).result
      have hmove : (r.move policy .advance).result = .ok () := hadvance
      have hone : (r.move policy .advance).draws.length = 1 := length_draws_advance policy r
      rw [visits_advance_of_ok hadvance, ih h.advance, moves, Outcome.draws_andThen_of_ok hmove,
        List.length_append, hone, Nat.add_comm 1, List.range'_succ, List.map_cons, h.current_eq,
        headD_drop]
      rfl
    | write record => exact ih h
    | report d => exact ih (h.report d)

/-- **A program visits every token once**, and then the end: once, and
once more if the last statement is open. -/
theorem visits_program (rules : Rules) (h : r.Sees rules.policy ts) {ms : List Move}
    (hms : ((r.program rules).map fun _ => ()) = r.moves rules.policy ms) :
    r.visits rules.policy ms =
      ts ++ [.eof] ++ if Grammar.Open ts (Grammar.spans ts) then [.eof] else [] := by
  have hmoves : (r.moves rules.policy ms).draws.length = (r.program rules).draws.length :=
    congrArg (fun p => p.draws.length) hms.symm
  have hvisits := @visits_eq rules.policy r ts 0 h ms
  rw [hmoves, length_draws_program rules h, Nat.add_assoc, map_getD_range'] at hvisits
  rw [hvisits]
  split
  · exact (List.append_assoc ts [.eof] [.eof]).symm
  · exact (List.append_nil _).symm

end Exactly

end Reader

/-- **A program ends, and looks at every token once.** Whatever was asked
of a reader before, and under whatever rules, a program, a statement and
skipping end in time. A new reader over a source in which nothing is
refused looks at the tokens of the source in order and then at the end:
once, and once more if the last statement is open. It draws them all, and
the two tokens behind the current one. -/
theorem program_visits (source : Text) :
    (∀ (r : Reader) (rules : Rules), r.Reached source →
      r.InTime (r.program rules) ∧ r.InTime (r.statement rules) ∧
        r.InTime (r.skipToSemicolon rules.policy)) ∧
    ∀ o : Options, source.Readable →
      ∃ (ts : List Token) (spans : List Span) (current peek : Token) (program : Program),
        let first := Reader.prime o.overflow (.ofText source)
        let r : Reader := ⟨first.state, current, peek, []⟩
        let p := r.program o.rules
        (o.tokenize source).result = .ok (ts ++ [.eof]) ∧ (∀ t ∈ ts, t.kind ≠ .eof) ∧
        first.result = .ok (current, peek) ∧ p.result = .ok program ∧
        Partition ts ⟨program, p.state.reports⟩ spans ∧ r.Moved o.overflow p ∧
        (∀ ms, (p.map fun _ => ()) = r.moves o.overflow ms →
          r.visits o.overflow ms =
            ts ++ [.eof] ++ if Grammar.Open ts spans then [.eof] else []) ∧
        first.draws.length + p.draws.length =
          ts.length + if Grammar.Open ts spans then 3 else 2 := by
  constructor
  · intro r rules reached
    exact ⟨Reader.inTime_program rules reached.orderly,
      (Reader.pays_statement rules r).inTime (Reader.made_statement rules),
      (Reader.pays_skipToSemicolon rules.policy r).inTime Reader.made_skipToSemicolon⟩
  · intro o readable
    have clear : (Cursor.ofText source).refusal? = none := readable_iff.1 readable
    have htokens := result_tokenize o source
    rw [clear] at htokens
    cases hprime : (Reader.prime o.overflow (.ofText source)).result with
    | error e =>
      rw [Reader.refusal_of_prime_error hprime] at clear
      cases clear
    | ok sight =>
      obtain ⟨current, peek⟩ := sight
      let ts := (Cursor.ofText source).tokens o.overflow
      let r : Reader := ⟨(Reader.prime o.overflow (.ofText source)).state, current, peek, []⟩
      have hsees : r.Sees o.overflow ts := Reader.sees_of_prime clear hprime
      have hprogram := Reader.reads_program o.rules hsees
      have hpartition : Partition ts ⟨⟨Grammar.statements ts⟩, (r.program o.rules).state.reports⟩
          (Grammar.spans ts) := by
        have hreports : (r.program o.rules).state.reports = Grammar.reports o.reportStray ts :=
          hprogram.reports_eq
        rw [hreports]
        exact Grammar.partition_reading (Cursor.located_tokens o.overflow _)
          (fun t => Cursor.kind_of_mem_tokens) o.reportStray
      refine ⟨ts, Grammar.spans ts, current, peek, _, htokens,
        fun t => Cursor.kind_ne_eof_of_mem_tokens, hprime, hprogram.result, hpartition,
        (Reader.made_program o.rules).moved, fun ms => Reader.visits_program o.rules hsees, ?_⟩
      have htwo : (Reader.prime o.overflow (.ofText source)).draws.length = 2 :=
        congrArg List.length (Reader.draws_prime_of_ok hprime)
      rw [htwo, Reader.length_draws_program o.rules hsees]
      split
      · omega
      · omega

/-- A value with nothing behind it: the end is looked at twice. -/
theorem program_visits_open :
    let source : Text := "return 1"
    let rules : Rules := ⟨"illegal", false⟩
    ∃ (r : Reader) (ms : List Reader.Move), source.Readable ∧ r.Reached source ∧
      r.InTime (r.program rules) ∧ ((r.program rules).map fun _ => ()) = r.moves "illegal" ms ∧
      r.visits "illegal" ms = [⟨.keyword .returnWord, some 0, "return", none⟩,
        ⟨.integer, some 7, "1", some 1⟩, .eof, .eof] := by
  intro source rules
  have readable : source.Readable := readable_of_length_le (by decide)
  obtain ⟨inTime, visited⟩ := program_visits source
  obtain ⟨ts, spans, current, peek, program, htokens, -, hprime, -, -, ⟨ms, hms⟩, hvisits,
    hdraws⟩ := visited .standard readable
  have reached := @Reader.Reached.primed source _ _ _ "illegal" .start hprime
  refine ⟨_, ms, readable, reached, (inTime _ rules reached).1, hms, ?_⟩
  refine (hvisits ms hms).trans ?_
  have hsource : (Options.standard.tokenize source).result =
      .ok ([⟨.keyword .returnWord, some 0, "return", none⟩,
        ⟨.integer, some 7, "1", some 1⟩] ++ [.eof]) := by
    decide +kernel
  have hsight : (Reader.prime Options.standard.overflow (.ofText source)).result =
      .ok (⟨.keyword .returnWord, some 0, "return", none⟩, ⟨.integer, some 7, "1", some 1⟩) := by
    decide +kernel
  rw [hsource, Except.ok.injEq] at htokens
  rw [hsight, Except.ok.injEq] at hprime
  obtain rfl := List.append_cancel_right htokens
  obtain ⟨rfl, rfl⟩ := Prod.mk.inj hprime
  -- There are five draws, so the statement is open.
  by_cases isOpen : Grammar.Open [⟨.keyword .returnWord, some 0, "return", none⟩,
      ⟨.integer, some 7, "1", some 1⟩] spans
  · rw [if_pos isOpen]
    rfl
  · rw [if_neg isOpen] at hdraws
    exact absurd hdraws (by decide +kernel)

end ScriptReader
