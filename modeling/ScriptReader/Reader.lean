import ScriptReader.Cursor
import ScriptReader.Tree

/-!
# The reader — statements from two tokens at a time

A reader looks at two tokens, the current one and the one after it, and
draws one more whenever it advances. It reads `let` and `return`
statements. A malformed statement is dropped and reported, and reading
goes on at the next token.

The loops end because a reader gets lighter: `Reader.weight` counts the
source not yet scanned and the tokens in sight before the end, an advance
never adds to it (`Reader.weight_advance_le`) and takes something off
while a token is current (`Reader.weight_advance_lt`), and so does a
statement with the advance after it (`Reader.weight_advance_statement_lt`).
-/

namespace ScriptReader

/-- A reader of statements. -/
structure Reader where
  /-- Where the next token is drawn from. -/
  cursor : Cursor
  /-- The token being looked at. -/
  current : Token
  /-- The token after it. -/
  peek : Token
  /-- The reports so far, in the order in which they were made. -/
  reports : List Diagnostic := []
deriving DecidableEq

namespace Reader

/-- Draws the two tokens that a new reader looks at. -/
def prime (policy : Text) (s : Cursor) : Outcome Cursor (Token × Token) :=
  (s.next policy).andThen fun current s =>
    (s.next policy).map fun peek => (current, peek)

/-- Moves on by one token. The current token is given up first, so that
both are the old second one if the draw is refused. -/
def advance (policy : Text) (r : Reader) : Outcome Reader Unit :=
  let o := r.cursor.next policy
  match o.result with
  | .error e => ⟨.error e, { r with cursor := o.state, current := r.peek }, o.history⟩
  | .ok t => ⟨.ok (), { r with cursor := o.state, current := r.peek, peek := t }, o.history⟩

/-- One for a token, nothing for the end. -/
def tokenWeight (t : Token) : Nat := if t.kind = .eof then 0 else 1

/-- The source not yet scanned and the tokens in sight. -/
def weight (r : Reader) : Nat :=
  r.cursor.rest.length + tokenWeight r.peek + tokenWeight r.current

theorem length_next_add_tokenWeight_le {policy : Text} {s : Cursor} {t : Token}
    (h : (s.next policy).result = .ok t) :
    (s.next policy).state.rest.length + tokenWeight t ≤ s.rest.length := by
  cases hs : s.atEnd with
  | true =>
    rw [Cursor.result_next_of_atEnd hs] at h
    cases h
    exact s.length_next_le policy
  | false =>
    have := Cursor.length_next_lt policy hs
    unfold tokenWeight
    split <;> omega

theorem advance_of_error {policy : Text} {r : Reader} {e : Overlong}
    (h : (r.cursor.next policy).result = .error e) :
    r.advance policy =
      ⟨.error e, { r with cursor := (r.cursor.next policy).state, current := r.peek },
        (r.cursor.next policy).history⟩ := by
  simp [advance, h]

theorem advance_of_ok {policy : Text} {r : Reader} {t : Token}
    (h : (r.cursor.next policy).result = .ok t) :
    r.advance policy =
      ⟨.ok (), { r with cursor := (r.cursor.next policy).state, current := r.peek, peek := t },
        (r.cursor.next policy).history⟩ := by
  simp [advance, h]

/-- **An advance draws once**, refused or not. -/
theorem length_draws_advance (policy : Text) (r : Reader) :
    (r.advance policy).draws.length = 1 := by
  rw [← r.cursor.length_draws_next policy]
  cases h : (r.cursor.next policy).result with
  | error e => rw [advance_of_error h]; rfl
  | ok t => rw [advance_of_ok h]; rfl

/-- An advance takes the weight of the current token off, at the least. -/
theorem weight_advance_add_le (policy : Text) (r : Reader) :
    (r.advance policy).state.weight + tokenWeight r.current ≤ r.weight := by
  cases h : (r.cursor.next policy).result with
  | error e =>
    have hend : r.cursor.atEnd = false := by
      cases hs : r.cursor.atEnd with
      | false => rfl
      | true => rw [Cursor.result_next_of_atEnd hs] at h; cases h
    have := Cursor.length_next_lt policy hend
    have : tokenWeight r.peek ≤ 1 := by unfold tokenWeight; split <;> omega
    simp only [advance_of_error h, weight]
    omega
  | ok t =>
    have := length_next_add_tokenWeight_le h
    simp only [advance_of_ok h, weight]
    omega

theorem weight_advance_le (policy : Text) (r : Reader) :
    (r.advance policy).state.weight ≤ r.weight :=
  Nat.le_trans (Nat.le_add_right _ _) (weight_advance_add_le policy r)

theorem weight_advance_lt {r : Reader} (policy : Text) (h : r.current.kind ≠ .eof) :
    (r.advance policy).state.weight < r.weight := by
  have := weight_advance_add_le policy r
  rw [tokenWeight, if_neg h] at this
  omega

/-- Advances until the current token is a semicolon. At the end it stops
and writes that the statement was not finished. -/
def skipToSemicolon (policy : Text) (r : Reader) : Outcome Reader Unit :=
  if r.current.kind = .mark .semicolon then .done () r
  else if r.current.kind = .eof then .write .unterminated r
  else
    let o := r.advance policy
    o.andThen fun _ _ => skipToSemicolon policy o.state
termination_by r.weight
decreasing_by exact weight_advance_lt policy (by assumption)

theorem weight_skipToSemicolon_le (policy : Text) (r : Reader) :
    (r.skipToSemicolon policy).state.weight ≤ r.weight := by
  fun_induction skipToSemicolon policy r with
  | case1 => exact Nat.le_refl _
  | case2 => exact Nat.le_refl _
  | case3 r _ _ o ih =>
    have hle := weight_advance_le policy r
    cases h : o.result with
    | error e => rw [Outcome.andThen_of_error h]; exact hle
    | ok _ => rw [Outcome.andThen_of_ok h]; exact Nat.le_trans ih hle

/-- Reads a binding whose `let` is current. A malformed one comes back as
a report, and the token it reports is the next one. -/
def letStatement (policy : Text) (r : Reader) : Outcome Reader (Except Diagnostic Statement) :=
  if r.peek.kind = .identifier then
    (r.advance policy).andThen fun _ named =>
      if named.peek.kind = .mark .assign then
        (named.advance policy).andThen fun _ assigned =>
          (assigned.skipToSemicolon policy).map fun _ =>
            .ok (.binding r.current ⟨named.current⟩ ⟨assigned.peek⟩)
      else .done (.error (.unexpected named.peek .assignment)) named
  else .done (.error (.unexpected r.peek .identifier)) r

/-- Reads a returned value whose `return` is current. -/
def returnStatement (policy : Text) (r : Reader) : Outcome Reader Statement :=
  (r.advance policy).andThen fun _ started =>
    (started.skipToSemicolon policy).map fun _ => .returning r.current ⟨started.current⟩

/-- Adds a report and writes it to the log. -/
def report (d : Diagnostic) (r : Reader) : Outcome Reader Unit :=
  .write (.malformed d) { r with reports := r.reports ++ [d] }

/-- Reads a statement at the current token, if one starts there. A
malformed statement is reported, and so is a token that starts none, if
the rules ask for it and it is not a semicolon. -/
def statement (rules : Rules) (r : Reader) : Outcome Reader (Option Statement) :=
  match r.current.kind with
  | .keyword .letWord =>
    (r.letStatement rules.policy).andThen fun found read =>
      match found with
      | .ok s => .done (some s) read
      | .error d => (read.report d).map fun _ => none
  | .keyword .returnWord => (r.returnStatement rules.policy).map some
  | .mark .semicolon => .done none r
  | _ =>
    if rules.reportStray then (r.report (.unexpected r.current .statement)).map fun _ => none
    else .done none r

/-! ## Reading a whole program -/

/-- A binding that is malformed at its first step leaves the reader where
it was; any other takes weight off. -/
theorem state_letStatement {r : Reader} (policy : Text) (h : r.current.kind ≠ .eof) :
    (r.letStatement policy).state = r ∨ (r.letStatement policy).state.weight < r.weight := by
  unfold letStatement
  split
  · right
    have hr := weight_advance_lt policy h
    cases h₁ : (r.advance policy).result with
    | error e => rw [Outcome.andThen_of_error h₁]; exact hr
    | ok _ =>
      rw [Outcome.andThen_of_ok h₁]
      refine Nat.lt_of_le_of_lt ?_ hr
      split
      · have hn := weight_advance_le policy (r.advance policy).state
        cases h₂ : ((r.advance policy).state.advance policy).result with
        | error e => rw [Outcome.andThen_of_error h₂]; exact hn
        | ok _ =>
          rw [Outcome.andThen_of_ok h₂]
          exact Nat.le_trans (weight_skipToSemicolon_le _ _) hn
      · exact Nat.le_refl _
  · exact .inl rfl

theorem weight_returnStatement_lt {r : Reader} (policy : Text) (h : r.current.kind ≠ .eof) :
    (r.returnStatement policy).state.weight < r.weight := by
  have hr := weight_advance_lt policy h
  unfold returnStatement
  cases h₁ : (r.advance policy).result with
  | error e => rw [Outcome.andThen_of_error h₁]; exact hr
  | ok _ =>
    rw [Outcome.andThen_of_ok h₁]
    exact Nat.lt_of_le_of_lt (weight_skipToSemicolon_le _ _) hr

/-- A statement that takes no weight off moves nothing either: it only
adds to the reports. -/
theorem state_statement {r : Reader} (rules : Rules) (h : r.current.kind ≠ .eof) :
    (∃ reports, (r.statement rules).state = { r with reports := reports }) ∨
      (r.statement rules).state.weight < r.weight := by
  unfold statement
  split
  · have hlet := state_letStatement rules.policy h
    cases h₁ : (r.letStatement rules.policy).result with
    | error e =>
      rw [Outcome.andThen_of_error h₁]
      exact hlet.imp_left fun h => ⟨r.reports, h⟩
    | ok found =>
      rw [Outcome.andThen_of_ok h₁]
      cases found with
      | ok s => exact hlet.imp_left fun h => ⟨r.reports, h⟩
      | error d =>
        refine hlet.imp_left fun h => ⟨r.reports ++ [d], ?_⟩
        simp [report, h, Outcome.map, Outcome.write]
  · exact .inr (weight_returnStatement_lt _ h)
  · exact .inl ⟨r.reports, rfl⟩
  · split
    · exact .inl ⟨_, rfl⟩
    · exact .inl ⟨r.reports, rfl⟩

/-- **A statement and the advance after it make the reader lighter.** -/
theorem weight_advance_statement_lt {r : Reader} (rules : Rules) (h : r.current.kind ≠ .eof) :
    ((r.statement rules).state.advance rules.policy).state.weight < r.weight := by
  rcases state_statement rules h with ⟨reports, hs⟩ | hs
  · rw [hs]
    exact weight_advance_lt (r := { r with reports := reports }) rules.policy h
  · exact Nat.lt_of_le_of_lt (weight_advance_le _ _) hs

/-- Reads statements up to the end. -/
def statements (rules : Rules) (r : Reader) : Outcome Reader (List Statement) :=
  if r.current.kind = .eof then .done [] r
  else
    let o := r.statement rules
    o.andThen fun found _ =>
      let p := o.state.advance rules.policy
      p.andThen fun _ _ => (statements rules p.state).map (found.toList ++ ·)
termination_by r.weight
decreasing_by exact weight_advance_statement_lt rules (by assumption)

/-- Reads a program: its statements up to the end, and a record of how
many there were. -/
def program (rules : Rules) (r : Reader) : Outcome Reader Program :=
  (r.statements rules).andThen fun found read =>
    (Outcome.write (.parsed found.length read.reports.length) read).map fun _ => ⟨found⟩

end Reader

end ScriptReader
