import ScriptReader.Proofs.Policies
import ScriptReader.Proofs.Rounds
import Mathlib.Data.List.GetD
import Mathlib.Data.List.TakeWhile

/-!
# The timeline — in which order the log of a source is written

A source is read with two tokens in sight, so a token is scanned two
tokens before it becomes current, and what a statement is complained of
for is written in between. `Grammar.notes` says what happens in which
order, by the indices of the tokens: every token is scanned once, and
every report is made when the token before the one it is on is current,
or the token itself if it starts no statement. `Note.time` puts scans and
reports on one scale, and the notes of a source are in order of time
(`Grammar.pairwise_notes`).

So a program writes what these notes say, and two or three records that
close its log (`Reader.records_program`). The notes that write something
are a `Timeline` of the source.
-/

namespace ScriptReader

/-! ## Scans -/

/-- What scanning a token writes: a warning of a number that is too
great. -/
def Token.warnings (policy : Text) (t : Token) : List Record :=
  if t.TooGreat then [.overflow t.raw (t.location.getD 0).toNat policy] else []

theorem Event.records_map_wrote (rs : List Record) : records (rs.map .wrote) = rs := by
  rw [records, List.filterMap_map]
  exact List.filterMap_some

theorem Outcome.state_andThen_of_ok {σ α β : Type} {o : Outcome σ α} {a : α}
    (h : o.result = .ok a) (next : α → σ → Outcome σ β) :
    (o.andThen next).state = (next a o.state).state := by
  rw [andThen_of_ok h]

namespace Cursor

variable {policy : Text} {s : Cursor}

/-- **The warnings of a place are told by its token.** -/
theorem warnings_of_place {p : Place} (hp : p ∈ s.places) {t : Token}
    (ht : p.token policy = .ok t) : p.warnings policy = t.warnings policy := by
  have hclear : p.lexeme.refusal? = none := Lexeme.refusal_eq_none_of_token ht
  have hlocation : t.location = some (p.offset : Int) := Lexeme.location_of_token ht
  have hraw : t.raw = p.lexeme.raw := (raw_kind_of_token hp ht).1
  obtain ⟨-, hlexeme⟩ := lexeme_eq_ofRaw hp
  have hgreat : t.TooGreat ↔
      p.lexeme.raw.isNumeral = true ∧ Numeral.greatest < Numeral.value p.lexeme.raw := by
    rw [← hraw]
    exact Iff.rfl
  have hwritten : p.warnings policy = p.lexeme.warnings policy p.offset := by
    rw [Place.warnings, hclear]
    rfl
  rw [hwritten, Token.warnings, hlocation, hraw]
  generalize p.lexeme.raw = raw at hlexeme hgreat
  rw [hlexeme]
  by_cases isNumeral : raw.isNumeral = true
  · rw [Lexeme.ofRaw_of_isNumeral isNumeral, Lexeme.warnings]
    by_cases fits : Numeral.value raw ≤ Numeral.greatest
    · rw [if_pos fits, if_neg fun h => absurd (hgreat.1 h).2 (Nat.not_lt_of_le fits)]
    · rw [if_neg fits, if_pos (hgreat.2 ⟨isNumeral, Nat.lt_of_not_le fits⟩)]
      rfl
  · rw [if_neg fun h => isNumeral (hgreat.1 h).1, Lexeme.ofRaw, if_neg isNumeral]
    split
    · rfl
    · cases Mark.ofText? raw <;> rfl

/-- A call writes warnings alone. -/
theorem records_next (policy : Text) (s : Cursor) :
    (s.next policy).records = (s.next policy).warnings := by
  unfold next
  split
  · rfl
  · unfold scan
    dsimp only
    split
    · rfl
    · show Event.records (_ ++ _) = Event.warnings (_ ++ _)
      rw [Event.records_append, Event.warnings_append, Event.records_map_wrote,
        Lexeme.warnings_map_wrote]
      rfl

/-- Namely those of the place ahead. -/
theorem records_next_of_places_cons (policy : Text) {p : Place} {ps : List Place}
    (h : s.places = p :: ps) : (s.next policy).records = p.warnings policy := by
  rw [records_next, warnings_next, h, List.take_succ_cons, List.take_zero,
    List.flatMap_singleton]

/-- **A call writes the warnings of the first token ahead.** -/
theorem records_next_of_clear (policy : Text) (clear : s.refusal? = none) :
    (s.next policy).records = ((s.tokens policy).headD .eof).warnings policy := by
  cases hs : s.places with
  | nil =>
    rw [records_next, warnings_next, hs, tokens_of_places_nil policy hs]
    rfl
  | cons p ps =>
    have hmem : p ∈ s.places := by rw [hs]; exact .head _
    have hnext : (s.next policy).result = p.token policy := result_next_of_places_cons hs
    cases ht : p.token policy with
    | error e =>
      rw [ht] at hnext
      rw [refusal_of_next_error hnext] at clear
      cases clear
    | ok t =>
      rw [ht] at hnext
      rw [records_next_of_places_cons policy hs, warnings_of_place hmem ht]
      obtain ⟨-, htokens⟩ | ⟨rfl, hend, -⟩ := tokens_of_next_ok hnext
      · rw [htokens, List.headD_cons]
      · rw [← places_eq_nil_iff, hs] at hend
        cases hend

end Cursor

namespace Grammar

variable {policy : Text} {ts : List Token} {k : Nat}

/-- What is written when so many tokens are scanned, from an index on. -/
def scanned (policy : Text) (ts : List Token) (k n : Nat) : List Record :=
  (List.range' k n).flatMap fun i => (ts.getD i .eof).warnings policy

theorem scanned_one (policy : Text) (ts : List Token) (k : Nat) :
    scanned policy ts k 1 = (ts.getD k .eof).warnings policy :=
  List.flatMap_singleton ..

/-- Scans go on where others stop. -/
theorem scanned_add (policy : Text) (ts : List Token) (k m n : Nat) :
    scanned policy ts k (m + n) = scanned policy ts k m ++ scanned policy ts (k + m) n := by
  rw [scanned, ← List.range'_append_1, List.flatMap_append]
  rfl

theorem scanned_of_length_le (policy : Text) (h : ts.length ≤ k) :
    scanned policy ts k 1 = [] := by
  rw [scanned_one, List.getD_eq_default _ _ h]
  rfl

end Grammar

namespace Reader

variable {policy : Text} {r : Reader} {ts : List Token} {k : Nat}

/-- A scanner has left what is behind the two tokens in sight. -/
theorem Sees.tokens_eq (h : r.Sees policy ts) : r.cursor.tokens policy = ts.drop 2 := by
  have hahead := h.ahead_eq
  rw [ahead, List.takeWhile_cons] at hahead
  by_cases current_eof : r.current.kind = .eof
  · rw [Cursor.tokens_of_atEnd policy (h.orderly.atEnd current_eof),
      h.current_eof_iff.1 current_eof]
    rfl
  · rw [if_pos (by simpa using current_eof), List.takeWhile_cons] at hahead
    by_cases peek_eof : r.peek.kind = .eof
    · rw [if_neg (by simpa using peek_eof)] at hahead
      rw [Cursor.tokens_of_atEnd policy (h.orderly.peek_eof peek_eof).2, ← hahead]
      rfl
    · rw [if_pos (by simpa using peek_eof)] at hahead
      have hall : (r.cursor.tokens policy).takeWhile (fun t => decide (t.kind ≠ .eof)) =
          r.cursor.tokens policy :=
        List.takeWhile_eq_self_iff.2 fun t ht => by
          simpa using Cursor.kind_ne_eof_of_mem_tokens ht
      rw [← hahead, hall]
      rfl

/-- **An advance scans the second token behind the current one.** -/
theorem records_advance (h : r.Sees policy (ts.drop k)) :
    (r.advance policy).records = Grammar.scanned policy ts (k + 2) 1 := by
  rw [Outcome.records, history_advance]
  show (r.cursor.next policy).records = _
  rw [Cursor.records_next_of_clear policy h.clear, h.tokens_eq, List.drop_drop, headD_drop,
    Grammar.scanned_one]

/-- Where a reader stands after an advance. -/
theorem Sees.advance (h : r.Sees policy (ts.drop k)) :
    (r.advance policy).state.Sees policy (ts.drop (k + 1)) := by
  have hsees := (reads_advance h).sees
  rwa [List.tail_drop] at hsees

section Closing

variable {run rest : List Token}

/-- Where a reader stands after skipping. -/
theorem Sees.skipToSemicolon (h : r.Sees policy (ts.drop k)) (tokens : ts.drop k = run ++ rest)
    (inside : ∀ u ∈ run, u.kind ≠ .mark .semicolon)
    (stop : ∀ t ∈ rest.head?, t.kind = .mark .semicolon) :
    (r.skipToSemicolon policy).state.Sees policy (ts.drop (k + run.length)) := by
  have hskip := ((Prospect.clearLaws policy).skipToSemicolon h).reads.sees
  have hrest : rest.dropWhile (fun t => decide (t.kind ≠ .mark .semicolon)) = rest := by
    cases rest with
    | nil => rfl
    | cons t rest => rw [List.dropWhile_cons, if_neg (by simpa using stop t rfl)]
  rw [tokens, List.dropWhile_append_of_pos (by simpa using inside), hrest] at hskip
  rwa [← List.drop_drop, tokens, List.drop_left]

/-- **Skipping scans as many tokens as it passes**, and then writes that
the statement was not finished if it has come to the end. -/
theorem records_skipToSemicolon (h : r.Sees policy (ts.drop k)) (tokens : ts.drop k = run ++ rest)
    (inside : ∀ u ∈ run, u.kind ≠ .mark .semicolon)
    (stop : ∀ t ∈ rest.head?, t.kind = .mark .semicolon) :
    (r.skipToSemicolon policy).records =
      Grammar.scanned policy ts (k + 2) run.length ++
        if rest = [] then [.unterminated] else [] := by
  have hcurrent := h.current_eq
  have heof := h.current_eof_iff
  rw [tokens] at hcurrent heof
  induction run generalizing r k with
  | nil =>
    rw [skipToSemicolon]
    cases rest with
    | nil =>
      rw [if_neg (by rw [heof.2 rfl]; decide), if_pos (heof.2 rfl)]
      rfl
    | cons t rest =>
      have hstop : t.kind = .mark .semicolon := stop t rfl
      rw [if_pos (by rw [hcurrent]; exact hstop)]
      rfl
  | cons u run ih =>
    obtain ⟨hu, inside⟩ := List.forall_mem_cons.1 inside
    have hne : r.current.kind ≠ .eof := fun eof => by cases heof.1 eof
    have hnext : ts.drop (k + 1) = run ++ rest := by
      rw [← List.tail_drop, tokens]
      rfl
    have hlater := h.advance
    have hrest := ih hlater hnext inside (hnext ▸ hlater.current_eq)
      (hnext ▸ hlater.current_eof_iff)
    rw [skipToSemicolon, if_neg (by rw [hcurrent]; exact hu), if_neg hne,
      Outcome.records_andThen_of_ok (reads_advance h).result, records_advance h, hrest,
      List.length_cons, Nat.add_comm run.length 1, Grammar.scanned_add, List.append_assoc]

/-- **The end of a statement**: skipping, and the advance after it, scan
as many tokens as there are up to the semicolon and with it. -/
theorem records_close {inner body behind : List Token} (h : r.Sees policy (ts.drop k))
    (tokens : ts.drop k = inner ++ (body ++ behind))
    (before : ∀ u ∈ inner, u.kind ≠ .mark .semicolon) (closes : Grammar.Closes body behind) :
    (r.skipToSemicolon policy).records ++
        ((r.skipToSemicolon policy).state.advance policy).records =
      Grammar.scanned policy ts (k + 2) (inner.length + body.length) ++
        if ∀ u ∈ body, u.kind ≠ .mark .semicolon then [.unterminated] else [] := by
  cases closes with
  | @semicolon run behind t inside stop =>
    have hsplit : ts.drop k = (inner ++ run) ++ (t :: behind) := by
      rw [tokens]
      simp
    have hrun : ∀ u ∈ inner ++ run, u.kind ≠ .mark .semicolon := fun u hu =>
      (List.mem_append.1 hu).elim (before u) (inside u)
    have hstop : ∀ u ∈ (t :: behind).head?, u.kind = .mark .semicolon := by
      rintro u ⟨⟩
      exact stop
    have hclosed : ¬ ∀ u ∈ run ++ [t], u.kind ≠ .mark .semicolon := fun none =>
      none t (by simp) stop
    have hlength : inner.length + (run ++ [t]).length = (inner ++ run).length + 1 := by
      simp [Nat.add_assoc]
    rw [records_skipToSemicolon h hsplit hrun hstop, if_neg (List.cons_ne_nil _ _),
      records_advance (h.skipToSemicolon hsplit hrun hstop), if_neg hclosed, hlength,
      Grammar.scanned_add, List.append_nil, List.append_nil, Nat.add_right_comm]
  | finish inside =>
    have hsplit : ts.drop k = (inner ++ body) ++ [] := tokens.trans (List.append_assoc ..).symm
    have hrun : ∀ u ∈ inner ++ body, u.kind ≠ .mark .semicolon := fun u hu =>
      (List.mem_append.1 hu).elim (before u) (inside u)
    have hend : ts.length ≤ k + (inner ++ body).length + 2 := by
      have hlength := congrArg List.length hsplit
      rw [List.length_drop, List.append_nil] at hlength
      omega
    rw [records_skipToSemicolon h hsplit hrun nofun, if_pos rfl,
      records_advance (h.skipToSemicolon hsplit hrun nofun), if_pos inside,
      Grammar.scanned_of_length_le policy hend, List.append_nil, List.length_append]

end Closing

/-! ## One statement at a time -/

section Statements

variable {keyword target sign : Token} {body behind : List Token}

/-- **A binding scans as many tokens as it has**, with the advance after
it. -/
theorem records_letStatement_binding (h : r.Sees policy (ts.drop k))
    (tokens : ts.drop k = keyword :: target :: sign :: (body ++ behind))
    (isName : target.kind = .identifier) (isSign : sign.kind = .mark .assign)
    (closes : Grammar.Closes body behind) :
    (r.letStatement policy).records ++ ((r.letStatement policy).state.advance policy).records =
      Grammar.scanned policy ts (k + 2) (body.length + 3) ++
        if ∀ u ∈ body, u.kind ≠ .mark .semicolon then [.unterminated] else [] := by
  have hnamed := h.advance
  have hassigned := hnamed.advance
  have hname := tokens ▸ h
  have hsign : (r.advance policy).state.Sees policy (target :: sign :: (body ++ behind)) := by
    have hsees := (reads_advance h).sees
    rwa [tokens] at hsees
  have hbehind : ts.drop (k + 1 + 1) = [sign] ++ (body ++ behind) := by
    rw [← List.tail_drop, ← List.tail_drop, tokens]
    rfl
  have hclose := records_close hassigned hbehind (by simp [isSign]) closes
  have hlength : body.length + 3 = 1 + (1 + ([sign].length + body.length)) := by
    rw [List.length_singleton]
    omega
  rw [letStatement, hname.peek_eq, List.headD_cons, if_pos isName,
    Outcome.records_andThen_of_ok (reads_advance h).result,
    Outcome.state_andThen_of_ok (reads_advance h).result, hsign.peek_eq, List.headD_cons,
    if_pos isSign, Outcome.records_andThen_of_ok (reads_advance hnamed).result,
    Outcome.state_andThen_of_ok (reads_advance hnamed).result, Outcome.records_map,
    Outcome.state_map, records_advance h, records_advance hnamed, hlength, Grammar.scanned_add,
    Grammar.scanned_add, List.append_assoc, List.append_assoc, hclose]
  simp only [List.append_assoc]

/-- **So does a returned value.** -/
theorem records_returnStatement (h : r.Sees policy (ts.drop k))
    (tokens : ts.drop k = keyword :: (body ++ behind)) (closes : Grammar.Closes body behind) :
    (r.returnStatement policy).records ++
        ((r.returnStatement policy).state.advance policy).records =
      Grammar.scanned policy ts (k + 2) (body.length + 1) ++
        if ∀ u ∈ body, u.kind ≠ .mark .semicolon then [.unterminated] else [] := by
  have hstarted := h.advance
  have hbehind : ts.drop (k + 1) = [] ++ (body ++ behind) := by
    rw [← List.tail_drop, tokens]
    rfl
  have hclose := records_close hstarted hbehind nofun closes
  rw [List.length_nil, Nat.zero_add] at hclose
  rw [returnStatement, Outcome.records_andThen_of_ok (reads_advance h).result,
    Outcome.state_andThen_of_ok (reads_advance h).result, Outcome.records_map,
    Outcome.state_map, records_advance h, Nat.add_comm body.length 1, Grammar.scanned_add,
    List.append_assoc, List.append_assoc, hclose]

/-- A binding with no sign scans one token before it is given up. -/
theorem records_letStatement_unassigned (h : r.Sees policy (ts.drop k))
    (tokens : ts.drop k = keyword :: target :: behind) (isName : target.kind = .identifier)
    (noSign : (behind.headD .eof).kind ≠ .mark .assign) :
    (r.letStatement policy).records = Grammar.scanned policy ts (k + 2) 1 ∧
      (r.letStatement policy).state.Sees policy (ts.drop (k + 1)) := by
  have hname := tokens ▸ h
  have hsign : (r.advance policy).state.Sees policy (target :: behind) := by
    have hsees := (reads_advance h).sees
    rwa [tokens] at hsees
  rw [letStatement, hname.peek_eq, List.headD_cons, if_pos isName,
    Outcome.records_andThen_of_ok (reads_advance h).result,
    Outcome.state_andThen_of_ok (reads_advance h).result, hsign.peek_eq, if_neg noSign,
    records_advance h]
  exact ⟨List.append_nil _, h.advance⟩

end Statements

end Reader

/-! ## Notes -/

/-- What happens while a source is read, with the index of a token. -/
inductive Note where
  /-- The token is scanned. -/
  | scan (k : Nat)
  /-- It is reported, since something else is needed in its place. -/
  | report (k : Nat) (needed : Expected)
deriving DecidableEq

namespace Note

/-- **When something happens**, in half turns of the scanner. A token that
starts no statement is reported when it is current, and then the next one
has been scanned; any other is reported when it is the last that was
scanned. -/
def time : Note → Nat
  | scan k => 2 * k
  | report k .statement => 2 * k + 3
  | report k _ => 2 * k + 1

/-- The index of a token that is scanned. -/
def scan? : Note → Option Nat
  | scan k => some k
  | report .. => none

/-- The report that is made. -/
def report? (ts : List Token) : Note → Option Diagnostic
  | scan _ => none
  | report k needed => some (.unexpected (ts.getD k .eof) needed)

/-- What is written to the log. -/
def records (policy : Text) (ts : List Token) : Note → List Record
  | scan k => (ts.getD k .eof).warnings policy
  | report k needed => [.malformed (.unexpected (ts.getD k .eof) needed)]

theorem flatMap_records_scans (policy : Text) (ts : List Token) (k n : Nat) :
    ((List.range' k n).map scan).flatMap (records policy ts) = Grammar.scanned policy ts k n := by
  rw [List.flatMap_map]
  rfl

end Note

/-- **What happens while a production is read**, in order. -/
def Placed.notes (reportStray : Bool) (q : Placed) : List Note :=
  match q.production with
  | .binding .. | .returning .. =>
    (List.range' (q.start + 2) q.production.span.length).map .scan
  | .unnamed .. => [.report (q.start + 1) .identifier, .scan (q.start + 2)]
  | .unassigned .. =>
    [.scan (q.start + 2), .report (q.start + 2) .assignment, .scan (q.start + 3)]
  | .single t =>
    if reportStray ∧ t.kind ≠ .mark .semicolon then
      [.report q.start .statement, .scan (q.start + 2)]
    else [.scan (q.start + 2)]

/-- A statement with no semicolon. -/
def Production.Unfinished : Production → Prop
  | binding _ _ _ body | returning _ body => ∀ t ∈ body, t.kind ≠ .mark .semicolon
  | _ => False

instance : DecidablePred Production.Unfinished
  | .binding _ _ _ body | .returning _ body =>
    inferInstanceAs (Decidable (∀ t ∈ body, t.kind ≠ .mark .semicolon))
  | .unnamed .. | .unassigned .. | .single _ => inferInstanceAs (Decidable False)

namespace Reader

variable {r : Reader} {ts : List Token} {k : Nat} {p : Production} {behind : List Token}

theorem records_report (d : Diagnostic) (r : Reader) : (r.report d).records = [.malformed d] :=
  rfl

/-- **A round writes what the notes of its production say**, and then that
the statement was not finished, if it was not. -/
theorem records_round (rules : Rules) (fits : Grammar.Fits p behind)
    (tokens : ts.drop k = p.span ++ behind) (h : r.Sees rules.policy (ts.drop k)) :
    (r.round rules).records =
      ((Placed.mk k p).notes rules.reportStray).flatMap (Note.records rules.policy ts) ++
        if p.Unfinished then [.unterminated] else [] := by
  have hsees := tokens ▸ h
  have hcurrent := hsees.current_eq
  have found : ∀ n, p.span.length = n → behind.headD .eof = ts.getD (k + n) .eof := by
    rintro n rfl
    rw [← headD_drop, ← List.drop_drop, tokens, List.drop_left]
  have laws := Prospect.clearLaws rules.policy
  obtain ⟨us, -, hread⟩ := reads_statement rules fits hsees
  rw [round, Outcome.records_andThen_of_ok hread.result, Outcome.records_map]
  clear hread
  cases fits with
  | @binding keyword target sign body behind isLet isName isSign closes =>
    obtain rfl : r.current = keyword := hcurrent
    have hlet := (laws.letStatement_binding hsees isName isSign).reads
    rw [statement, isLet, Outcome.records_andThen_of_ok hlet.result,
      Outcome.state_andThen_of_ok hlet.result]
    dsimp only
    rw [Outcome.records_done, List.append_nil]
    refine (records_letStatement_binding h tokens isName isSign closes).trans ?_
    exact congrArg (· ++ _) (Note.flatMap_records_scans ..).symm
  | @returning keyword body behind isReturn closes =>
    obtain rfl : r.current = keyword := hcurrent
    rw [statement, isReturn]
    refine (records_returnStatement h tokens closes).trans ?_
    exact congrArg (· ++ _) (Note.flatMap_records_scans ..).symm
  | @unnamed keyword behind isLet noName =>
    obtain rfl : r.current = keyword := hcurrent
    have hfound : behind.headD .eof = ts.getD (k + 1) .eof := found 1 rfl
    have hpeek : r.peek = behind.headD .eof := hsees.peek_eq
    rw [statement, isLet, letStatement, hpeek, if_neg noName]
    dsimp only
    rw [Outcome.done_andThen, Outcome.records_map, Outcome.state_map, records_report, hfound,
      records_advance (h.report _), Grammar.scanned_one]
    simp [Placed.notes, Note.records, Production.Unfinished]
  | @unassigned keyword target behind isLet isName noSign =>
    obtain rfl : r.current = keyword := hcurrent
    have hfound : behind.headD .eof = ts.getD (k + 2) .eof := found 2 rfl
    have hlet := (laws.letStatement_unassigned hsees isName noSign).reads
    obtain ⟨hrecords, hgiven⟩ := records_letStatement_unassigned h tokens isName noSign
    rw [statement, isLet, Outcome.records_andThen_of_ok hlet.result,
      Outcome.state_andThen_of_ok hlet.result]
    dsimp only
    rw [Outcome.records_map, Outcome.state_map, records_report, hrecords,
      records_advance (hgiven.report _), Grammar.scanned_one, Grammar.scanned_one]
    have hunexpected : ([].append behind).headD .eof = ts.getD (k + 2) .eof := hfound
    rw [hunexpected, hfound]
    simp [Placed.notes, Note.records, Production.Unfinished]
  | @single t behind noLet noReturn =>
    obtain rfl : r.current = t := hcurrent
    have hlead : ts.getD k .eof = r.current := by
      rw [← headD_drop, tokens]
      rfl
    rw [statement_of_single rules noLet noReturn, Placed.notes]
    dsimp only
    split
    · rw [Outcome.records_map, Outcome.state_map, records_report, records_advance (h.report _),
        Grammar.scanned_one, ← hlead]
      simp [Note.records, Production.Unfinished]
    · show [] ++ (r.advance rules.policy).records = _
      rw [records_advance h, Grammar.scanned_one]
      simp [Note.records, Production.Unfinished]

/-- A statement that is not finished has nothing behind it. -/
theorem eq_nil_of_unfinished (fits : Grammar.Fits p behind) (h : p.Unfinished) : behind = [] := by
  have close_end : ∀ {body : List Token}, Grammar.Closes body behind →
      (∀ t ∈ body, t.kind ≠ .mark .semicolon) → behind = [] := by
    intro body closes none
    cases closes with
    | semicolon _ stop => exact absurd stop (none _ (by simp))
    | finish _ => rfl
  cases fits with
  | binding _ _ _ closes => exact close_end closes h
  | returning _ closes => exact close_end closes h
  | unnamed => exact h.elim
  | unassigned => exact h.elim
  | single => exact h.elim

/-- **Statements write what the notes of their productions say**, one
production after the other, and at last that a statement was not finished,
if one was not. -/
theorem records_statements (rules : Rules) {us : List Token} {ps : List Production}
    (derives : Grammar.Derives us ps) (tokens : ts.drop k = us)
    (h : r.Sees rules.policy (ts.drop k)) :
    (r.statements rules).records =
      (Grammar.placed k ps).flatMap
          (fun q => (q.notes rules.reportStray).flatMap (Note.records rules.policy ts)) ++
        if ∃ p ∈ ps, p.Unfinished then [.unterminated] else [] := by
  induction derives generalizing r k with
  | nil =>
    rw [statements, if_pos (h.current_eof_iff.2 tokens)]
    rfl
  | @cons p behind ps fits later ih =>
    have hne : r.current.kind ≠ .eof := fun eof => by
      have hnil := h.current_eof_iff.1 eof
      rw [tokens] at hnil
      cases p <;> cases hnil
    have hbehind : ts.drop (k + p.span.length) = behind := by
      rw [← List.drop_drop, tokens, List.drop_left]
    have hround := reads_round rules fits (tokens ▸ h)
    have hrest := ih hbehind (hbehind ▸ hround.sees)
    rw [statements_of_ne_eof rules hne, Outcome.records_andThen_of_ok hround.result,
      Outcome.records_map, records_round rules fits tokens h, hrest, Grammar.placed,
      List.flatMap_cons]
    by_cases unfinished : p.Unfinished
    · -- Then this production is the last.
      obtain rfl := eq_nil_of_unfinished fits unfinished
      obtain rfl : ps = [] := by
        rw [← Grammar.derives_iff.1 later, Grammar.productions_nil]
      simp [unfinished, Grammar.placed]
    · simp [unfinished]

end Reader

/-- **Building a reader scans the first two tokens.** -/
theorem Reader.records_prime {policy : Text} {s : Cursor} {sight : Token × Token}
    (clear : s.refusal? = none) (h : (prime policy s).result = .ok sight) :
    (prime policy s).records = Grammar.scanned policy (s.tokens policy) 0 2 := by
  obtain ⟨current, peek⟩ := sight
  obtain ⟨hcurrent, -, -⟩ := prime_of_ok h
  have hclear : (s.next policy).state.refusal? = none := by
    rw [Cursor.refusal_next_of_ok hcurrent, clear]
  have htail : (s.next policy).state.tokens policy = (s.tokens policy).drop 1 := by
    obtain ⟨-, htokens⟩ | ⟨-, hend, htokens⟩ := Cursor.tokens_of_next_ok hcurrent
    · rw [htokens]
      rfl
    · rw [htokens, Cursor.tokens_of_atEnd policy (Cursor.atEnd_next hend)]
      rfl
  rw [prime, Outcome.records_andThen_of_ok hcurrent, Outcome.records_map,
    Cursor.records_next_of_clear policy clear, Cursor.records_next_of_clear policy hclear, htail,
    headD_drop, Grammar.scanned_add policy _ 0 1 1, Grammar.scanned_one, Grammar.scanned_one,
    List.headD_eq_getD]

/-! ## The notes of a source -/

namespace Grammar

variable {ts : List Token} {q : Placed} {reportStray : Bool}

/-- **What happens while a source is read**: two tokens are scanned, and
then its productions are read. -/
def notes (reportStray : Bool) (ts : List Token) : List Note :=
  [.scan 0, .scan 1] ++ (arrangement ts).flatMap (Placed.notes reportStray)

/-- What happens while a production is read is over before the next one
is. -/
theorem time_of_mem_notes {n : Note} (h : n ∈ q.notes reportStray) :
    2 * q.start + 3 ≤ n.time ∧ n.time < 2 * q.stop + 3 := by
  obtain ⟨k, p⟩ := q
  have scan_of_mem : ∀ {l : Nat}, n ∈ (List.range' (k + 2) l).map Note.scan →
      2 * k + 3 ≤ n.time ∧ n.time < 2 * (k + l) + 3 := by
    intro l hn
    obtain ⟨i, hi, rfl⟩ := List.mem_map.1 hn
    obtain ⟨ge, lt⟩ := List.mem_range'_1.1 hi
    show 2 * k + 3 ≤ 2 * i ∧ 2 * i < _
    omega
  rw [Placed.stop]
  cases p with
  | binding => exact scan_of_mem h
  | returning => exact scan_of_mem h
  | unnamed =>
    simp only [Placed.notes, List.mem_cons, List.not_mem_nil, or_false] at h
    simp only [Production.span, List.length_singleton]
    obtain rfl | rfl := h <;> (simp only [Note.time]; omega)
  | unassigned =>
    simp only [Placed.notes, List.mem_cons, List.not_mem_nil, or_false] at h
    simp only [Production.span, List.length_cons, List.length_nil]
    obtain rfl | rfl | rfl := h <;> (simp only [Note.time]; omega)
  | single t =>
    simp only [Placed.notes] at h
    simp only [Production.span, List.length_singleton]
    split at h
    · simp only [List.mem_cons, List.not_mem_nil, or_false] at h
      obtain rfl | rfl := h <;> (simp only [Note.time]; omega)
    · obtain rfl := List.mem_singleton.1 h
      simp only [Note.time]
      omega

/-- It is in order of time. -/
theorem pairwise_placed_notes (reportStray : Bool) (q : Placed) :
    (q.notes reportStray).Pairwise fun m n => m.time < n.time := by
  obtain ⟨k, p⟩ := q
  have pairwise_scans : ∀ l, ((List.range' (k + 2) l).map Note.scan).Pairwise
      fun m n => m.time < n.time := by
    intro l
    rw [List.pairwise_map]
    exact (List.pairwise_lt_range').imp fun h => Nat.mul_lt_mul_of_pos_left h (by decide)
  cases p with
  | binding => exact pairwise_scans _
  | returning => exact pairwise_scans _
  | unnamed => simp [Placed.notes, Note.time]; omega
  | unassigned => simp [Placed.notes, Note.time]; omega
  | single t =>
    rw [Placed.notes]
    dsimp only
    split
    · simp [Note.time]; omega
    · exact List.pairwise_singleton ..

/-- **The notes of a source are in order of time.** -/
theorem pairwise_notes (reportStray : Bool) (ts : List Token) :
    (notes reportStray ts).Pairwise fun m n => m.time < n.time := by
  rw [notes, List.pairwise_append]
  refine ⟨by simp [Note.time], ?_, ?_⟩
  · rw [List.pairwise_flatMap]
    refine ⟨fun q _ => pairwise_placed_notes reportStray q, ?_⟩
    refine (pairwise_arrangement ts).imp fun hle m hm n hn => ?_
    have := (time_of_mem_notes hm).2
    have := (time_of_mem_notes hn).1
    omega
  · intro m hm n hn
    obtain ⟨q, -, hq⟩ := List.mem_flatMap.1 hn
    have := (time_of_mem_notes hq).1
    simp only [List.mem_cons, List.not_mem_nil, or_false] at hm
    obtain rfl | rfl := hm
    · show 2 * 0 < n.time
      omega
    · show 2 * 1 < n.time
      omega

/-- As many tokens are scanned as a production has, each two tokens
ahead. -/
theorem filterMap_scan_placed (reportStray : Bool) (q : Placed) :
    (q.notes reportStray).filterMap Note.scan? =
      List.range' (q.start + 2) q.production.span.length := by
  obtain ⟨k, p⟩ := q
  have scan_of_scans : ∀ l, ((List.range' (k + 2) l).map Note.scan).filterMap Note.scan? =
      List.range' (k + 2) l := by
    intro l
    rw [List.filterMap_map]
    exact List.filterMap_some
  cases p with
  | binding => exact scan_of_scans _
  | returning => exact scan_of_scans _
  | unnamed => rfl
  | unassigned => rfl
  | single t =>
    rw [Placed.notes]
    dsimp only
    split <;> rfl

theorem filterMap_scan_placed_notes (reportStray : Bool) {ps : List Production}
    (derives : Derives ts ps) (k : Nat) :
    ((placed k ps).flatMap (Placed.notes reportStray)).filterMap Note.scan? =
      List.range' (k + 2) ts.length := by
  induction derives generalizing k with
  | nil => rfl
  | @cons p behind ps fits later ih =>
    rw [placed, List.flatMap_cons, List.filterMap_append, filterMap_scan_placed, ih,
      List.length_append, ← List.range'_append_1, Nat.add_right_comm]

/-- **Every token of a source is scanned once**, in order, and then the end
twice. -/
theorem filterMap_scan_notes (reportStray : Bool) (ts : List Token) :
    (notes reportStray ts).filterMap Note.scan? = List.range (ts.length + 2) := by
  rw [notes, List.filterMap_append, arrangement,
    filterMap_scan_placed_notes reportStray (derives_productions ts), List.range_eq_range',
    Nat.add_comm ts.length 2, ← List.range'_append_1]
  rfl

/-- What is reported while a production is read is its report. -/
theorem filterMap_report_placed (h : q.Stands ts) :
    (q.notes reportStray).filterMap (Note.report? ts) =
      (q.production.report? reportStray).toList := by
  obtain ⟨k, p⟩ := q
  have lead : ts.getD k .eof = p.lead := getD_start h
  have found := headD_drop ts (Placed.mk k p).stop
  have fits : Fits p _ := h.fits
  have report_of_scans : ∀ l, ((List.range' (k + 2) l).map Note.scan).filterMap
      (Note.report? ts) = [] := by
    intro l
    rw [List.filterMap_map]
    exact List.filterMap_eq_nil_iff.2 fun _ _ => rfl
  rw [Placed.stop] at found fits
  generalize hbehind : ts.drop _ = behind at found fits
  clear hbehind h
  cases fits with
  | binding => exact report_of_scans _
  | returning => exact report_of_scans _
  | unnamed =>
    rw [found]
    rfl
  | unassigned =>
    rw [found]
    rfl
  | @single t =>
    obtain rfl : ts.getD k .eof = t := lead
    rw [Placed.notes, Production.report?_single]
    dsimp only
    split <;> rfl

/-- **The reports are made in the course of the notes**, and no others. -/
theorem filterMap_report_notes (reportStray : Bool) (ts : List Token) :
    (notes reportStray ts).filterMap (Note.report? ts) = reports reportStray ts := by
  have hreports : ∀ qs : List Placed, (∀ q ∈ qs, q.Stands ts) →
      (qs.flatMap (Placed.notes reportStray)).filterMap (Note.report? ts) =
        (qs.map Placed.production).filterMap (Production.report? reportStray) := by
    intro qs hqs
    induction qs with
    | nil => rfl
    | cons q qs ih =>
      obtain ⟨hq, hqs⟩ := List.forall_mem_cons.1 hqs
      rw [List.flatMap_cons, List.filterMap_append, filterMap_report_placed hq, ih hqs,
        List.map_cons, Reader.filterMap_cons_eq_append]
  have hall := hreports (arrangement ts) fun q => stands_of_mem_arrangement
  rw [map_production_arrangement] at hall
  rw [notes, List.filterMap_append, hall]
  rfl

/-- A report is on a token, or on the end behind the last. -/
theorem le_length_of_report_mem_notes {k : Nat} {needed : Expected}
    (h : .report k needed ∈ notes reportStray ts) : k ≤ ts.length := by
  rw [notes, List.mem_append] at h
  obtain h | h := h
  · simp at h
  · obtain ⟨q, hq, hmem⟩ := List.mem_flatMap.1 h
    have htime := (time_of_mem_notes hmem).2
    have hstop := (stands_of_mem_arrangement hq).stop_le
    have hle : 2 * k + 1 ≤ (Note.report k needed).time := by cases needed <;> simp [Note.time]
    omega

/-! ## Statements that are not finished -/

/-- **The last statement is open**: there is no semicolon behind its
reserved word. -/
def Open (ts : List Token) (spans : List Span) : Prop :=
  ∃ s ∈ spans.getLast?, ∀ t ∈ ts.drop (s.start + 1), t.kind ≠ .mark .semicolon

instance (ts : List Token) (spans : List Span) : Decidable (Open ts spans) :=
  inferInstanceAs (Decidable (∃ s ∈ spans.getLast?, _))

/-- A statement is unfinished if no semicolon is behind its reserved
word, near or far. -/
theorem unfinished_iff (h : q.Stands ts) {s : Statement}
    (hs : q.production.statement? = some s) :
    q.production.Unfinished ↔ ∀ t ∈ ts.drop (q.start + 1), t.kind ≠ .mark .semicolon := by
  have hdrop := h.drop_add (i := 1) q.production.length_span_pos
  have fits := h.fits
  have nothing : q.production.Unfinished → ts.drop q.stop = [] := Reader.eq_nil_of_unfinished fits
  rw [hdrop]
  generalize ts.drop q.stop = behind at fits nothing
  generalize q.production = p at fits hs nothing
  cases fits with
  | binding _ isName isSign =>
    refine ⟨fun none => ?_, fun none t ht => none t (by simp [Production.span, ht])⟩
    rw [nothing none, List.append_nil]
    exact List.forall_mem_cons.2 ⟨by simp [isName], List.forall_mem_cons.2 ⟨by simp [isSign], none⟩⟩
  | returning =>
    refine ⟨fun none => ?_, fun none t ht => none t (by simp [Production.span, ht])⟩
    rw [nothing none, List.append_nil]
    exact none
  | unnamed => cases hs
  | unassigned => cases hs
  | single => cases hs

/-- **Only the last statement can be unfinished**, and it is if it is
open. -/
theorem open_iff : Open ts (spans ts) ↔ ∃ p ∈ productions ts, p.Unfinished := by
  constructor
  · rintro ⟨s, hs, none⟩
    obtain ⟨q, hq, stands, hstatement, hstart, -⟩ := exists_of_mem_spans (List.mem_of_getLast? hs)
    rw [hstart] at none
    refine ⟨q.production, ?_, (unfinished_iff stands hstatement).2 none⟩
    rw [← map_production_arrangement]
    exact List.mem_map_of_mem hq
  · rintro ⟨p, hp, unfinished⟩
    rw [← map_production_arrangement] at hp
    obtain ⟨q, hq, rfl⟩ := List.mem_map.1 hp
    obtain ⟨s, hs⟩ : ∃ s, q.production.statement? = some s := by
      generalize q.production = p at unfinished
      cases p with
      | binding => exact ⟨_, rfl⟩
      | returning => exact ⟨_, rfl⟩
      | unnamed => exact unfinished.elim
      | unassigned => exact unfinished.elim
      | single => exact unfinished.elim
    have stands := stands_of_mem_arrangement hq
    have none := (unfinished_iff stands hs).1 unfinished
    have hspan : (⟨q.start, terminator ts q.start, s⟩ : Span) ∈ spans ts :=
      List.mem_filterMap.2 ⟨q, hq, by rw [span?, hs]; rfl⟩
    -- It goes on to the end of the tokens, and only the last span does.
    have hend : terminator ts q.start = ts.length := by
      have hnone : (ts.drop (q.start + 1)).findIdx ends = (ts.drop (q.start + 1)).length :=
        List.findIdx_eq_length_of_false fun t ht => by simpa [ends] using none t ht
      have hlt := Nat.lt_of_lt_of_le q.start_lt_stop stands.stop_le
      rw [terminator, hnone, List.length_drop]
      omega
    refine ⟨⟨q.start, terminator ts q.start, s⟩, ?_, none⟩
    rcases List.eq_nil_or_concat (spans ts) with hnil | ⟨front, last, hspans⟩
    · rw [hnil] at hspan
      cases hspan
    · rw [List.concat_eq_append] at hspans
      rw [hspans, List.mem_append, List.mem_singleton] at hspan
      rw [hspans, List.getLast?_concat]
      refine hspan.elim (fun hfront => ?_) fun hlast => congrArg some hlast.symm
      have hbefore := @stop_lt_of_mem_dropLast ts ⟨q.start, terminator ts q.start, s⟩
        (by rwa [hspans, List.dropLast_concat])
      exact absurd hend (Nat.ne_of_lt hbefore)

end Grammar

/-! ## The log of a source -/

/-- **The last token that is scanned when a token is reported**: the token
itself, or the one behind it if it starts no statement. -/
def Expected.reach (k : Nat) : Expected → Nat
  | statement => k + 1
  | identifier | assignment => k

namespace Note

/-- Whether something is written: of a report always, and of a scan if the
number is too great. -/
def Writes (ts : List Token) : Note → Prop
  | scan k => (ts.getD k .eof).TooGreat
  | report .. => True

instance (ts : List Token) : DecidablePred (Writes ts)
  | scan _ => inferInstanceAs (Decidable (Token.TooGreat _))
  | report .. => inferInstanceAs (Decidable True)

/-- What is written, where something is. -/
def record (policy : Text) (ts : List Token) : Note → Record
  | scan k =>
    .overflow (ts.getD k .eof).raw ((ts.getD k .eof).location.getD 0).toNat policy
  | report k needed => .malformed (.unexpected (ts.getD k .eof) needed)

theorem records_eq (policy : Text) (ts : List Token) (n : Note) :
    n.records policy ts = if n.Writes ts then [n.record policy ts] else [] := by
  cases n with
  | scan k => rfl
  | report k needed => rfl

theorem flatMap_records (policy : Text) (ts : List Token) (ns : List Note) :
    ns.flatMap (records policy ts) =
      (ns.filter fun n => n.Writes ts).map (record policy ts) := by
  induction ns with
  | nil => rfl
  | cons n ns ih =>
    rw [List.flatMap_cons, ih, records_eq, List.filter_cons]
    by_cases writes : n.Writes ts <;> simp [writes]

end Note

/-- **The notes that a log is written from**, among the tokens of the
source and with the reports on it. -/
structure Timeline (ts : List Token) (reports : List Diagnostic) (notes : List Note) : Prop where
  /-- There is one for each number that is too great, in the order of the
  source. -/
  scans : notes.filterMap Note.scan? =
    (List.range ts.length).filter fun k => (ts.getD k .eof).TooGreat
  /-- These numbers are located. -/
  located : ∀ k, .scan k ∈ notes → ∃ n : Nat, (ts.getD k .eof).location = some (n : Int)
  /-- There is one for each report, in order. -/
  reports_eq : notes.filterMap (Note.report? ts) = reports
  /-- A report is on a token or on the end. -/
  within : ∀ k needed, .report k needed ∈ notes → k ≤ ts.length
  /-- A number comes before a report if it is scanned by then. -/
  order : ∀ (i j k l : Nat) (needed : Expected), notes[i]? = some (Note.scan k) →
    notes[j]? = some (Note.report l needed) → (i < j ↔ k ≤ needed.reach l)

namespace Grammar

variable {ts : List Token}

/-- A report is behind the scans up to its reach, and before the others. -/
theorem time_scan_lt_iff (k l : Nat) (needed : Expected) :
    (Note.scan k).time < (Note.report l needed).time ↔ k ≤ needed.reach l := by
  cases needed <;> simp only [Note.time, Expected.reach] <;> omega

theorem filterMap_scan_writes (ns : List Note) :
    (ns.filter fun n => n.Writes ts).filterMap Note.scan? =
      (ns.filterMap Note.scan?).filter fun k => (ts.getD k .eof).TooGreat := by
  rw [List.filterMap_filter, List.filter_filterMap]
  refine congrArg (List.filterMap · ns) (funext fun n => ?_)
  cases n with
  | scan k => simp [Note.Writes, Note.scan?, Option.filter]
  | report k needed => rfl

theorem filterMap_report_writes (ns : List Note) :
    (ns.filter fun n => n.Writes ts).filterMap (Note.report? ts) =
      ns.filterMap (Note.report? ts) := by
  rw [List.filterMap_filter]
  refine congrArg (List.filterMap · ns) (funext fun n => ?_)
  cases n with
  | scan k => exact ite_self _
  | report k needed => rfl

/-- The end is no number. -/
theorem lt_length_of_tooGreat {k : Nat} (h : (ts.getD k .eof).TooGreat) : k < ts.length := by
  refine Nat.lt_of_not_le fun hle => ?_
  rw [List.getD_eq_default _ _ hle] at h
  cases h.1

/-- **The notes that write something are a timeline.** -/
theorem timeline_notes (reportStray : Bool) (policy : Text) (s : Cursor) :
    let ts := s.tokens policy
    Timeline ts (reports reportStray ts) ((notes reportStray ts).filter fun n => n.Writes ts) := by
  intro ts
  have ordered := (pairwise_notes reportStray ts).filter fun n => decide (n.Writes ts)
  refine ⟨?_, ?_, ?_, ?_, ?_⟩
  · have none_behind : ∀ k, ts.length ≤ k → decide (ts.getD k .eof).TooGreat = false := fun k hk =>
      decide_eq_false fun great => Nat.not_lt_of_le hk (lt_length_of_tooGreat great)
    rw [filterMap_scan_writes, filterMap_scan_notes, List.range_succ, List.range_succ]
    simp only [List.filter_append, List.filter_cons, List.filter_nil, List.append_nil,
      none_behind ts.length (Nat.le_refl _), none_behind (ts.length + 1) (Nat.le_succ _),
      Bool.false_eq_true, if_false]
  · intro k hk
    have great : (ts.getD k .eof).TooGreat := of_decide_eq_true (List.mem_filter.1 hk).2
    have hlt := lt_length_of_tooGreat great
    rw [← List.getElem_eq_getD (h := hlt)]
    obtain ⟨p, -, hp⟩ := Cursor.exists_place_of_mem_tokens (List.getElem_mem hlt)
    exact ⟨p.offset, Lexeme.location_of_token hp⟩
  · rw [filterMap_report_writes, filterMap_report_notes]
  · exact fun k needed h => le_length_of_report_mem_notes (List.mem_filter.1 h).1
  · intro i j k l needed hi hj
    obtain ⟨hi, hscan⟩ := List.getElem?_eq_some_iff.1 hi
    obtain ⟨hj, hreport⟩ := List.getElem?_eq_some_iff.1 hj
    have apart := List.pairwise_iff_getElem.1 ordered
    rw [← time_scan_lt_iff]
    rcases Nat.lt_trichotomy i j with hij | rfl | hij
    · have htime := apart i j hi hj hij
      rw [hscan, hreport] at htime
      exact iff_of_true hij htime
    · cases hscan.symm.trans hreport
    · have htime := apart j i hj hi hij
      rw [hscan, hreport] at htime
      exact iff_of_false (Nat.not_lt_of_lt hij) (Nat.not_lt_of_lt htime)

end Grammar

/-- **A program writes what the notes of its productions say**, whether its
last statement is open, and how much was read. -/
theorem Reader.records_program (rules : Rules) {r : Reader} {ts : List Token}
    (h : r.Sees rules.policy ts) :
    (r.program rules).records =
      ((Grammar.arrangement ts).flatMap (Placed.notes rules.reportStray)).flatMap
          (Note.records rules.policy ts) ++
        (if Grammar.Open ts (Grammar.spans ts) then [.unterminated] else []) ++
        [.parsed (Grammar.statements ts).length
          (r.reports ++ Grammar.reports rules.reportStray ts).length] := by
  have derives := Grammar.derives_productions ts
  have hread := reads_statements rules derives h
  have hrecords := records_statements (k := 0) rules derives rfl h
  rw [program, Outcome.records_andThen_of_ok hread.result, Outcome.records_map,
    Outcome.records_write, hrecords, hread.reports_eq, List.flatMap_assoc]
  simp only [Grammar.open_iff]
  rfl

/-- What is written before anything is said about a reading. -/
theorem Reading.records_ofText (rules : Rules) {source : Text}
    (clear : (Cursor.ofText source).refusal? = none) :
    let ts := (Cursor.ofText source).tokens rules.policy
    (ofText rules source).records =
      (Grammar.notes rules.reportStray ts).flatMap (Note.records rules.policy ts) ++
        (if Grammar.Open ts (Grammar.spans ts) then [.unterminated] else []) ++
        [.parsed (Grammar.statements ts).length
          (Grammar.reports rules.reportStray ts).length] := by
  intro ts
  rw [ofText]
  cases hprime : (Reader.prime rules.policy (.ofText source)).result with
  | error e =>
    rw [Reader.refusal_of_prime_error hprime] at clear
    cases clear
  | ok sight =>
    have hprogram := Reader.records_program rules (Reader.sees_of_prime clear hprime)
    rw [Outcome.records_andThen_of_ok hprime, Reader.records_prime clear hprime, Grammar.notes,
      List.flatMap_append, List.append_assoc, List.append_assoc]
    refine congrArg₂ (· ++ ·) ?_ (hprogram.trans (List.append_assoc ..))
    exact (Note.flatMap_records_scans rules.policy ts 0 2).symm

/-- What is said about a reading. -/
theorem Reading.records_announce (r : Reading) (s : Cursor) :
    (r.announce s).records =
      if r.reports = [] then []
      else [.faulty r.program.statements.length r.reports.length] := by
  rw [announce, success]
  cases r.reports <;> rfl

/-- **What reading a source writes**: what its notes do, and the records
that close its log. -/
theorem records_read (o : Options) {source : Text}
    (clear : (Cursor.ofText source).refusal? = none) :
    let ts := (Cursor.ofText source).tokens o.overflow
    let reading := Grammar.reading o.reportStray ts
    (o.read source).records =
      ((Grammar.notes o.reportStray ts).filter fun n => n.Writes ts).map
          (Note.record o.overflow ts) ++
        (if Grammar.Open ts (Grammar.spans ts) then [.unterminated] else []) ++
        [.parsed reading.program.statements.length reading.reports.length] ++
        if reading.reports = [] then []
        else [.faulty reading.program.statements.length reading.reports.length] := by
  intro ts reading
  have hofText := result_ofText o.rules source
  rw [clear] at hofText
  rw [Options.read, Outcome.records_andThen_of_ok hofText, Reading.records_ofText o.rules clear,
    ← Note.flatMap_records]
  exact congrArg (_ ++ ·) (Reading.records_announce _ _)

end ScriptReader
