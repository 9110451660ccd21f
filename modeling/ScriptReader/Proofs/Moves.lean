import ScriptReader.Proofs.Places
import ScriptReader.Session.Request

/-!
# Moves — what the operations of a reader are made of

An operation of a reader advances, writes to the log and adds reports,
and does nothing else. `Reader.Moved` says so of an outcome: it is that
of a list of moves, made in order up to the first refusal.
`Reader.Made` says besides that each move is a proper one where it is
made. It holds of every operation (`Reader.made_run`), so whatever each
single move keeps, every operation keeps, refused or not
(`Reader.Made.keeps`). Two things are kept in this file: the end of the
source reaches the two tokens in sight in order (`Reader.Orderly`), and
no refusal is skipped or made up (`Reader.Moved.refusal_of_error`,
`Reader.Moved.refusal_of_ok`).
-/

namespace ScriptReader

namespace Outcome

variable {σ α β γ : Type}

theorem andThen_assoc (o : Outcome σ α) (f : α → σ → Outcome σ β) (g : β → σ → Outcome σ γ) :
    (o.andThen f).andThen g = o.andThen fun a s => (f a s).andThen g := by
  cases h : o.result with
  | error e => simp [andThen, h]
  | ok a =>
    cases hf : (f a o.state).result with
    | error e => simp [andThen, h, hf]
    | ok b => simp [andThen, h, hf, List.append_assoc]

theorem map_andThen (o : Outcome σ α) (f : α → β) (g : β → σ → Outcome σ γ) :
    (o.map f).andThen g = o.andThen fun a s => g (f a) s := by
  cases h : o.result <;> simp [andThen, map, h]

theorem andThen_map (o : Outcome σ α) (f : α → σ → Outcome σ β) (g : β → γ) :
    (o.andThen f).map g = o.andThen fun a s => (f a s).map g := by
  cases h : o.result <;> simp [andThen, map, h]

theorem map_map (o : Outcome σ α) (f : α → β) (g : β → γ) :
    (o.map f).map g = o.map fun a => g (f a) := by
  cases h : o.result <;> simp [map, h]

theorem done_andThen (a : α) (s : σ) (f : α → σ → Outcome σ β) :
    (done a s).andThen f = f a s := by
  simp [andThen, done]

theorem andThen_done (o : Outcome σ Unit) : (o.andThen fun _ s => done () s) = o := by
  obtain ⟨_ | _, s, history⟩ := o <;> simp [andThen, done]

theorem map_unit (o : Outcome σ Unit) : (o.map fun _ => ()) = o := by
  obtain ⟨_ | _, s, history⟩ := o <;> rfl

/-- A step that is refused has no next one. -/
theorem andThen_congr {o : Outcome σ α} {f g : α → σ → Outcome σ β}
    (h : ∀ a, o.result = .ok a → f a o.state = g a o.state) : o.andThen f = o.andThen g := by
  cases hr : o.result with
  | error e => rw [andThen_of_error hr, andThen_of_error hr]
  | ok a => rw [andThen_of_ok hr, andThen_of_ok hr, h a hr]

theorem result_map_eq_ok_iff {o : Outcome σ α} {f : α → β} {b : β} :
    (o.map f).result = .ok b ↔ ∃ a, o.result = .ok a ∧ f a = b := by
  cases h : o.result <;> simp [map, h]

theorem result_map_eq_error_iff {o : Outcome σ α} {f : α → β} {e : Overlong} :
    (o.map f).result = .error e ↔ o.result = .error e := by
  cases h : o.result <;> simp [map, h]

/-- Two steps of which neither was refused. -/
theorem exists_of_andThen_ok {o : Outcome σ α} {next : α → σ → Outcome σ β} {b : β}
    (h : (o.andThen next).result = .ok b) :
    ∃ a, o.result = .ok a ∧ (next a o.state).result = .ok b := by
  cases hr : o.result with
  | error e =>
    rw [andThen_of_error hr] at h
    cases h
  | ok a =>
    rw [andThen_of_ok hr] at h
    exact ⟨a, rfl, h⟩

end Outcome

namespace Cursor

/-- **The cursors over a source**: its start, and what asking leaves,
answered or not. -/
inductive Reached (source : Text) : Cursor → Prop
  | start : Reached source (ofText source)
  | next {s : Cursor} (policy : Text) (before : Reached source s) :
      Reached source (s.next policy).state

end Cursor

namespace Reader

/-- One of the things that an operation of a reader may do. -/
inductive Move where
  | advance
  | write (record : Record)
  | report (d : Diagnostic)

/-- Makes a move. -/
def move (policy : Text) (r : Reader) : Move → Outcome Reader Unit
  | .advance => r.advance policy
  | .write record => .write record r
  | .report d => r.report d

/-- Makes moves in order, up to the first that is refused. -/
def moves (policy : Text) : List Move → Reader → Outcome Reader Unit
  | [], r => .done () r
  | m :: ms, r => (r.move policy m).andThen fun _ s => moves policy ms s

/-- **An outcome is that of some moves**, its value apart. -/
def Moved (policy : Text) (r : Reader) {α : Type} (o : Outcome Reader α) : Prop :=
  ∃ ms, (o.map fun _ => ()) = r.moves policy ms

/-- **A move that an operation may make** where a reader stands: it
complains about a token in sight, and all else that it writes is that a
statement was not finished, or how much was read. -/
def Move.Proper (r : Reader) : Move → Prop
  | .advance => True
  | .write record => record = .unterminated ∨ ∃ n, record = .parsed n r.reports.length
  | .report d => ∃ t needed, (t = r.current ∨ t = r.peek) ∧ d = .unexpected t needed

/-- Moves that are proper, each where it is made. -/
def Proper (policy : Text) : List Move → Reader → Prop
  | [], _ => True
  | m :: ms, r => m.Proper r ∧ Proper policy ms (r.move policy m).state

/-- **An outcome is made of proper moves.** -/
def Made (policy : Text) (r : Reader) {α : Type} (o : Outcome Reader α) : Prop :=
  ∃ ms, Proper policy ms r ∧ (o.map fun _ => ()) = r.moves policy ms

variable {policy : Text} {r : Reader} {α β : Type} {o : Outcome Reader α}

theorem moves_append (policy : Text) (ms ns : List Move) (r : Reader) :
    r.moves policy (ms ++ ns) = (r.moves policy ms).andThen fun _ s => s.moves policy ns := by
  induction ms generalizing r with
  | nil => rw [List.nil_append, moves, Outcome.done_andThen]
  | cons m ms ih =>
    rw [List.cons_append, moves, moves, Outcome.andThen_assoc]
    exact Outcome.andThen_congr fun _ _ => ih _

theorem moves_singleton (m : Move) : r.moves policy [m] = r.move policy m := by
  simp only [moves, Outcome.andThen_done]

/-- Moves behind others are proper where those have led. -/
theorem proper_append {ms ns : List Move} (hms : Proper policy ms r)
    (made : (r.moves policy ms).result = .ok ())
    (hns : Proper policy ns (r.moves policy ms).state) : Proper policy (ms ++ ns) r := by
  induction ms generalizing r with
  | nil => exact hns
  | cons m ms ih =>
    obtain ⟨hm, hms⟩ := hms
    refine ⟨hm, ?_⟩
    rw [moves] at made hns
    cases hr : (r.move policy m).result with
    | error e =>
      rw [Outcome.andThen_of_error hr] at made
      cases made
    | ok a =>
      rw [Outcome.andThen_of_ok hr] at made hns
      exact ih hms made hns

/-! ## Every operation is made of moves -/

theorem Made.moved (h : Made policy r o) : Moved policy r o := by
  obtain ⟨ms, -, hms⟩ := h
  exact ⟨ms, hms⟩

theorem made_done (a : α) : Made policy r (.done a r) := ⟨[], trivial, rfl⟩

theorem made_move {m : Move} (proper : m.Proper r) : Made policy r (r.move policy m) := by
  refine ⟨[m], ⟨proper, trivial⟩, ?_⟩
  rw [moves_singleton, Outcome.map_unit]

theorem Made.map (h : Made policy r o) (f : α → β) : Made policy r (o.map f) := by
  obtain ⟨ms, proper, hms⟩ := h
  exact ⟨ms, proper, by rw [Outcome.map_map, hms]⟩

/-- **Moves go on**: the moves of a step and those of the next one. -/
theorem Made.andThen {next : α → Reader → Outcome Reader β} (h : Made policy r o)
    (later : ∀ a, o.result = .ok a → Made policy o.state (next a o.state)) :
    Made policy r (o.andThen next) := by
  obtain ⟨ms, proper, hms⟩ := h
  cases hr : o.result with
  | error e =>
    -- A refused step has no next one, and its moves are all there are.
    refine ⟨ms, proper, ?_⟩
    rw [← hms, Outcome.andThen_of_error hr]
    simp [Outcome.map, hr]
  | ok a =>
    obtain ⟨ns, hproper, hns⟩ := later a hr
    have hresult : (r.moves policy ms).result = .ok () := by
      rw [← hms]
      exact Outcome.result_map_eq_ok_iff.2 ⟨a, hr, rfl⟩
    have hstate : o.state = (r.moves policy ms).state := congrArg Outcome.state hms
    refine ⟨ms ++ ns, proper_append proper hresult (hstate ▸ hproper), ?_⟩
    rw [moves_append, ← hms, Outcome.map_andThen, Outcome.andThen_map]
    refine Outcome.andThen_congr fun b hb => ?_
    rw [hr] at hb
    cases hb
    exact hns

theorem made_advance : Made policy r (r.advance policy) := @made_move policy r .advance trivial

theorem made_skipToSemicolon : Made policy r (r.skipToSemicolon policy) := by
  fun_induction skipToSemicolon policy r with
  | case1 r => exact made_done ()
  | case2 r => exact @made_move policy r (.write .unterminated) (.inl rfl)
  | case3 r _ _ o ih => exact made_advance.andThen fun _ _ => ih

theorem made_letStatement : Made policy r (r.letStatement policy) := by
  unfold letStatement
  split
  · refine made_advance.andThen fun _ _ => ?_
    split
    · exact made_advance.andThen fun _ _ => made_skipToSemicolon.map _
    · exact made_done _
  · exact made_done _

theorem made_returnStatement : Made policy r (r.returnStatement policy) :=
  made_advance.andThen fun _ _ => made_skipToSemicolon.map _

/-- **A malformed binding complains about the next token**, which is the
one that it was given up at. -/
theorem diagnostic_of_letStatement {d : Diagnostic}
    (h : (r.letStatement policy).result = .ok (.error d)) :
    ∃ needed, d = .unexpected (r.letStatement policy).state.peek needed := by
  unfold letStatement at h ⊢
  split
  · next isName =>
    rw [if_pos isName] at h
    obtain ⟨_, hnamed, hrest⟩ := Outcome.exists_of_andThen_ok h
    rw [Outcome.andThen_of_ok hnamed]
    split
    · next isSign =>
      -- With a name and a sign there is nothing to complain about.
      rw [if_pos isSign] at hrest
      obtain ⟨_, -, hskip⟩ := Outcome.exists_of_andThen_ok hrest
      obtain ⟨-, -, hread⟩ := Outcome.result_map_eq_ok_iff.1 hskip
      cases hread
    · next noSign =>
      rw [if_neg noSign] at hrest
      cases hrest
      exact ⟨.assignment, rfl⟩
  · next noName =>
    rw [if_neg noName] at h
    cases h
    exact ⟨.identifier, rfl⟩

theorem made_statement (rules : Rules) : Made rules.policy r (r.statement rules) := by
  unfold statement
  split
  · refine made_letStatement.andThen fun found hfound => ?_
    cases found with
    | ok s => exact made_done _
    | error d =>
      obtain ⟨needed, hd⟩ := diagnostic_of_letStatement hfound
      exact (made_move (m := .report d) ⟨_, needed, .inr rfl, hd⟩).map _
  · exact made_returnStatement.map _
  · exact made_done _
  · split
    · exact (made_move (m := .report _) ⟨_, .statement, .inl rfl, rfl⟩).map _
    · exact made_done _

theorem made_statements (rules : Rules) : Made rules.policy r (r.statements rules) := by
  fun_induction statements rules r with
  | case1 r => exact made_done _
  | case2 r _ o ih =>
    exact (made_statement rules).andThen fun _ _ => made_advance.andThen fun _ _ => ih.map _

theorem made_program (rules : Rules) : Made rules.policy r (r.program rules) :=
  (made_statements rules).andThen fun found _ =>
    (made_move (m := .write _) (.inr ⟨found.length, rfl⟩)).map _

/-- **Whatever is asked of a reader, it is made of moves.** -/
theorem made_run (rules : Rules) (q : Session.ReaderRequest) :
    Made rules.policy r (q.run rules r) := by
  cases q with
  | advance => exact made_advance.map _
  | skipToSemicolon => exact made_skipToSemicolon.map _
  | statement => exact (made_statement rules).map _
  | letStatement => exact made_letStatement.map _
  | returnStatement => exact made_returnStatement.map _
  | program => exact (made_program rules).map _
  | reports => exact made_done _
  | clearReports => exact made_done _

/-- Moves keep what each of them keeps. -/
theorem moves_keep {P : Reader → List Event → Prop}
    (step : ∀ {s : Reader} {h : List Event} {m : Move}, m.Proper s → P s h →
      P (s.move policy m).state (h ++ (s.move policy m).history))
    {ms : List Move} (proper : Proper policy ms r) {h : List Event} (start : P r h) :
    P (r.moves policy ms).state (h ++ (r.moves policy ms).history) := by
  induction ms generalizing r h with
  | nil =>
    rw [moves, Outcome.done, List.append_nil]
    exact start
  | cons m ms ih =>
    obtain ⟨hm, hms⟩ := proper
    rw [moves]
    cases hr : (r.move policy m).result with
    | error e =>
      rw [Outcome.andThen_of_error hr]
      exact step hm start
    | ok a =>
      rw [Outcome.andThen_of_ok hr]
      dsimp only
      rw [← List.append_assoc]
      exact ih hms (step hm start)

/-- **What every proper move keeps, every operation keeps**, refused or
not: a property of the reader and of what has happened so far. -/
theorem Made.keeps (made : Made policy r o) {P : Reader → List Event → Prop}
    (step : ∀ {s : Reader} {h : List Event} {m : Move}, m.Proper s → P s h →
      P (s.move policy m).state (h ++ (s.move policy m).history))
    {h : List Event} (start : P r h) : P o.state (h ++ o.history) := by
  obtain ⟨ms, proper, hms⟩ := made
  have hstate : o.state = (r.moves policy ms).state := congrArg Outcome.state hms
  have hhistory : o.history = (r.moves policy ms).history := congrArg Outcome.history hms
  rw [hstate, hhistory]
  exact moves_keep step proper start

/-! ## What every move keeps -/

/-- **The end comes last**: a reader whose second token is the end has no
source left, and one whose first token is the end has the end behind it. -/
structure Orderly (r : Reader) : Prop where
  peek_eof : r.peek.kind = .eof → r.peek = .eof ∧ r.cursor.atEnd = true
  current_eof : r.current.kind = .eof → r.current = .eof ∧ r.peek.kind = .eof

theorem Orderly.atEnd (h : r.Orderly) (eof : r.current.kind = .eof) : r.cursor.atEnd = true :=
  (h.peek_eof (h.current_eof eof).2).2

theorem Orderly.advance (h : r.Orderly) (policy : Text) : (r.advance policy).state.Orderly := by
  cases hr : (r.cursor.next policy).result with
  | error e =>
    -- Nothing is refused at the end of a source, so neither token is the end.
    have hpeek : r.peek.kind ≠ .eof := fun eof => by
      rw [Cursor.result_next_of_atEnd (h.peek_eof eof).2] at hr
      cases hr
    rw [advance_of_error hr]
    exact ⟨fun eof => absurd eof hpeek, fun eof => absurd eof hpeek⟩
  | ok t =>
    rw [advance_of_ok hr]
    refine ⟨fun eof => ?_, fun eof => ?_⟩
    · obtain ⟨hkind, -⟩ | ⟨ht, hend, -⟩ := Cursor.tokens_of_next_ok hr
      · exact absurd eof hkind
      · exact ⟨ht, Cursor.atEnd_next hend⟩
    · obtain ⟨hpeek, hend⟩ := h.peek_eof eof
      rw [Cursor.result_next_of_atEnd hend] at hr
      cases hr
      exact ⟨hpeek, rfl⟩

theorem Orderly.move (h : r.Orderly) (m : Move) : (r.move policy m).state.Orderly := by
  cases m with
  | advance => exact h.advance policy
  | write record => exact h
  | report d => exact ⟨h.peek_eof, h.current_eof⟩

theorem Orderly.moves (h : r.Orderly) (ms : List Move) : (r.moves policy ms).state.Orderly := by
  induction ms generalizing r with
  | nil => exact h
  | cons m ms ih =>
    rw [Reader.moves]
    cases hr : (r.move policy m).result with
    | error e => rw [Outcome.andThen_of_error hr]; exact h.move m
    | ok a => rw [Outcome.andThen_of_ok hr]; exact ih (h.move m)

/-- **Order is kept by every operation.** -/
theorem Moved.orderly {o : Outcome Reader α} (h : Moved policy r o) (orderly : r.Orderly) :
    o.state.Orderly := by
  obtain ⟨ms, hms⟩ := h
  have hstate : o.state = (r.moves policy ms).state := congrArg Outcome.state hms
  rw [hstate]
  exact orderly.moves ms

/-- What one move does to the first refusal ahead. -/
theorem refusal_move (m : Move) :
    match (r.move policy m).result with
    | .error e => r.cursor.refusal? = some e
    | .ok _ => (r.move policy m).state.cursor.refusal? = r.cursor.refusal? := by
  cases m with
  | advance =>
    cases hr : (r.cursor.next policy).result with
    | error e =>
      rw [move, advance_of_error hr]
      exact Cursor.refusal_of_next_error hr
    | ok t =>
      rw [move, advance_of_ok hr]
      exact Cursor.refusal_next_of_ok hr
  | write record => rfl
  | report d => rfl

/-- And what moves do. -/
theorem refusal_moves (ms : List Move) :
    match (r.moves policy ms).result with
    | .error e => r.cursor.refusal? = some e
    | .ok _ => (r.moves policy ms).state.cursor.refusal? = r.cursor.refusal? := by
  induction ms generalizing r with
  | nil => rfl
  | cons m ms ih =>
    have hm := @refusal_move policy r m
    rw [moves]
    cases hr : (r.move policy m).result with
    | error e =>
      rw [hr] at hm
      rwa [Outcome.andThen_of_error hr]
    | ok a =>
      -- The first move left the refusal ahead, so the others meet the same one.
      rw [hr] at hm
      have hms := ih (r := (r.move policy m).state)
      rw [Outcome.andThen_of_ok hr]
      dsimp only at hm ⊢
      rwa [hm] at hms

/-- **A refused operation was stopped by the first refusal ahead.** -/
theorem Moved.refusal_of_error {o : Outcome Reader α} (h : Moved policy r o) {e : Overlong}
    (hr : o.result = .error e) : r.cursor.refusal? = some e := by
  obtain ⟨ms, hms⟩ := h
  have hresult : (r.moves policy ms).result = .error e := by
    rw [← hms, Outcome.result_map_eq_error_iff, hr]
  have hmoves := @refusal_moves policy r ms
  rwa [hresult] at hmoves

/-- **And one that is not refused leaves it ahead.** -/
theorem Moved.refusal_of_ok {o : Outcome Reader α} (h : Moved policy r o) {a : α}
    (hr : o.result = .ok a) : o.state.cursor.refusal? = r.cursor.refusal? := by
  obtain ⟨ms, hms⟩ := h
  have hresult : (r.moves policy ms).result = .ok () := by
    rw [← hms]
    exact Outcome.result_map_eq_ok_iff.2 ⟨a, hr, rfl⟩
  have hstate : o.state = (r.moves policy ms).state := congrArg Outcome.state hms
  have hmoves := @refusal_moves policy r ms
  rw [hresult] at hmoves
  rw [hstate]
  exact hmoves

/-! ## The readers that come up -/

/-- **The readers over a source**: those that were primed wherever their
scanner had got to, what any request leaves of one, answered or not, and
what is left of one when another user of its scanner has drawn. The rules
may change at every step. -/
inductive Reached (source : Text) : Reader → Prop
  | primed {s : Cursor} {current peek : Token} (policy : Text) (scanned : s.Reached source)
      (ready : (prime policy s).result = .ok (current, peek)) :
      Reached source ⟨(prime policy s).state, current, peek, []⟩
  | asked {r : Reader} (rules : Rules) (q : Session.ReaderRequest) (before : Reached source r) :
      Reached source (q.run rules r).state
  | shared {r : Reader} (policy : Text) (before : Reached source r) :
      Reached source { r with cursor := (r.cursor.next policy).state }

theorem prime_of_ok {s : Cursor} {current peek : Token}
    (h : (prime policy s).result = .ok (current, peek)) :
    (s.next policy).result = .ok current ∧
      ((s.next policy).state.next policy).result = .ok peek ∧
      (prime policy s).state = ((s.next policy).state.next policy).state := by
  unfold prime at h ⊢
  obtain ⟨c, hc, hrest⟩ := Outcome.exists_of_andThen_ok h
  obtain ⟨p, hp, hsight⟩ := Outcome.result_map_eq_ok_iff.1 hrest
  obtain ⟨rfl, rfl⟩ := Prod.mk.inj hsight
  rw [Outcome.andThen_of_ok hc]
  exact ⟨hc, hp, rfl⟩

theorem refusal_of_prime_error {s : Cursor} {e : Overlong}
    (h : (prime policy s).result = .error e) : s.refusal? = some e := by
  unfold prime at h
  cases hc : (s.next policy).result with
  | error e =>
    rw [Outcome.andThen_of_error hc] at h
    cases h
    exact Cursor.refusal_of_next_error hc
  | ok c =>
    rw [Outcome.andThen_of_ok hc] at h
    rw [← Cursor.refusal_next_of_ok hc]
    exact Cursor.refusal_of_next_error (Outcome.result_map_eq_error_iff.1 h)

theorem orderly_of_prime {s : Cursor} {current peek : Token}
    (h : (prime policy s).result = .ok (current, peek)) :
    Orderly ⟨(prime policy s).state, current, peek, []⟩ := by
  obtain ⟨hc, hp, hstate⟩ := prime_of_ok h
  rw [hstate]
  refine ⟨fun eof => ?_, fun eof => ?_⟩
  · obtain ⟨hkind, -⟩ | ⟨hpeek, hend, -⟩ := Cursor.tokens_of_next_ok hp
    · exact absurd eof hkind
    · exact ⟨hpeek, Cursor.atEnd_next hend⟩
  · obtain ⟨hkind, -⟩ | ⟨hcurrent, hend, -⟩ := Cursor.tokens_of_next_ok hc
    · exact absurd eof hkind
    · rw [Cursor.result_next_of_atEnd (Cursor.atEnd_next hend)] at hp
      cases hp
      exact ⟨hcurrent, rfl⟩

/-- **Every reader that comes up is orderly.** -/
theorem Reached.orderly {source : Text} {r : Reader} (h : r.Reached source) : r.Orderly := by
  induction h with
  | primed policy _ ready => exact orderly_of_prime ready
  | asked rules q _ ih => exact (made_run rules q).moved.orderly ih
  | shared policy _ ih =>
    exact ⟨fun eof => ⟨(ih.peek_eof eof).1, Cursor.atEnd_next (ih.peek_eof eof).2⟩,
      ih.current_eof⟩

end Reader

end ScriptReader
