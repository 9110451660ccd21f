import ScriptReader.Proofs.Calls
import ScriptReader.Proofs.Moves

/-!
# The stream — what a scanner gives, whoever asks

Every draw of every operation is one call of a scanner, and the calls are
made in a row. So what is drawn is a stretch of one stream
(`Cursor.stream`), and the next draw is the one behind it: `Cursor.Serves`
says so of a history and of the cursor that it leaves, and that there are
no other warnings in it than those of the lexemes that were drawn. It
holds of iterators (`Cursor.serves_take`, `Cursor.serves_drain`), of
building a reader (`Reader.serves_prime`) and of all that can be asked of
one (`Reader.Made.serves`).

How far a step draws is told by `Cursor.Taken` for iterators, and by
`Outcome.Prompt` for all steps: up to the first refusal and no farther.
-/

namespace ScriptReader

/-- A call of a scanner as a draw, by its answer. -/
def Draw.ofAnswer : Except Overlong Token → Draw
  | .ok t => .token t
  | .error e => .refused e

namespace Event

theorem draws_append (h k : List Event) : draws (h ++ k) = draws h ++ draws k :=
  List.filterMap_append

theorem records_append (h k : List Event) : records (h ++ k) = records h ++ records k :=
  List.filterMap_append

/-- The warnings of a history, in order. -/
def warnings (history : List Event) : List Record :=
  (records history).filter fun r => decide (r.level = .warning)

theorem warnings_append (h k : List Event) : warnings (h ++ k) = warnings h ++ warnings k := by
  rw [warnings, records_append, List.filter_append]
  rfl

end Event

/-- The warnings of a step, in order. -/
def Outcome.warnings {σ α : Type} (o : Outcome σ α) : List Record := Event.warnings o.history

theorem Outcome.warnings_andThen_of_ok {σ α β : Type} {o : Outcome σ α} {a : α}
    (h : o.result = .ok a) (next : α → σ → Outcome σ β) :
    (o.andThen next).warnings = o.warnings ++ (next a o.state).warnings := by
  rw [andThen_of_ok h, warnings, Event.warnings_append]
  rfl

/-- What scanning at a place warns of. A run of digits that is refused is
warned of no more. -/
def Place.warnings (policy : Text) (p : Place) : List Record :=
  if p.lexeme.refusal?.isSome then [] else p.lexeme.warnings policy p.offset

namespace Outcome

variable {σ α β : Type} {o : Outcome σ α}

/-- **A step that stops at the first refusal**: it is refused by its last
draw, or it has drawn tokens alone. -/
inductive Prompt (o : Outcome σ α) : Prop
  | made {a : α} (ts : List Token) (result : o.result = .ok a) (draws : o.draws = ts.map .token)
  | refused {e : Overlong} (ts : List Token) (result : o.result = .error e)
      (draws : o.draws = ts.map .token ++ [.refused e])

theorem prompt_done (a : α) (s : σ) : (done a s).Prompt := .made [] rfl rfl

theorem prompt_write (r : Record) (s : σ) : (write r s).Prompt := .made [] rfl rfl

theorem Prompt.map (h : o.Prompt) (f : α → β) : (o.map f).Prompt := by
  cases h with
  | made ts result draws => exact .made ts (by simp only [Outcome.map, result]; rfl) draws
  | refused ts result draws => exact .refused ts (result_map_eq_error_iff.2 result) draws

theorem Prompt.andThen {next : α → σ → Outcome σ β} (h : o.Prompt)
    (later : ∀ a, o.result = .ok a → (next a o.state).Prompt) : (o.andThen next).Prompt := by
  cases h with
  | refused ts result draws =>
    rw [andThen_of_error result]
    exact .refused ts rfl draws
  | @made a ts result draws =>
    have hdraws := draws_andThen_of_ok result next
    rw [draws] at hdraws
    cases later a result with
    | made us result' draws' =>
      rw [draws', ← List.map_append] at hdraws
      exact .made (ts ++ us) (by rw [andThen_of_ok result]; exact result') hdraws
    | refused us result' draws' =>
      rw [draws', ← List.append_assoc, ← List.map_append] at hdraws
      exact .refused (ts ++ us) (by rw [andThen_of_ok result]; exact result') hdraws

end Outcome

namespace Lexeme

variable {policy : Text} {location : Nat} {l : Lexeme}

theorem refusal_eq_none_of_token {t : Token} (h : l.token policy location = .ok t) :
    l.refusal? = none := by
  cases hr : l.refusal? with
  | none => rfl
  | some e =>
    rw [token_of_refusal hr] at h
    cases h

/-- Whatever is written of a lexeme is a warning. -/
theorem warnings_map_wrote (policy : Text) (location : Nat) (l : Lexeme) :
    Event.warnings ((l.warnings policy location).map .wrote) = l.warnings policy location := by
  cases l with
  | digits run =>
    rw [Lexeme.warnings]
    split <;> rfl
  | _ => rfl

end Lexeme

namespace Cursor

variable {policy : Text} {s left end_ : Cursor} {h k : List Event} {n : Nat}

/-- **The first draws** of a scanner that is asked again and again. -/
def stream (policy : Text) (s : Cursor) (n : Nat) : List Draw :=
  (List.range n).map fun k => .ofAnswer (s.answer policy k)

theorem length_stream (policy : Text) (s : Cursor) (n : Nat) : (s.stream policy n).length = n := by
  rw [stream, List.length_map, List.length_range]

/-- The stream goes on where its first draws leave the cursor. -/
theorem stream_add (policy : Text) (s : Cursor) (m n : Nat) :
    s.stream policy (m + n) = s.stream policy m ++ (s.afterCalls policy m).stream policy n := by
  rw [stream, List.range_add, List.map_append, List.map_map]
  refine congrArg (s.stream policy m ++ ·) (List.map_congr_left fun k _ => ?_)
  show Draw.ofAnswer (s.answer policy (m + k)) = _
  rw [answer_add]

theorem stream_succ (policy : Text) (s : Cursor) (n : Nat) :
    s.stream policy (n + 1) =
      .ofAnswer (s.next policy).result :: (s.next policy).state.stream policy n := by
  rw [Nat.add_comm n 1, stream_add]
  rfl

/-- **Draws in a row**, and the cursor that they leave: what was drawn is
the first of the stream, what was warned of are the lexemes drawn, and the
next draw is the one behind. -/
structure Serves (policy : Text) (s : Cursor) (h : List Event) (left : Cursor) : Prop where
  draws_eq : Event.draws h = s.stream policy (Event.draws h).length
  warnings_eq : Event.warnings h =
    (s.places.take (Event.draws h).length).flatMap (Place.warnings policy)
  left_eq : left = s.afterCalls policy (Event.draws h).length

/-- A history with no draws and no warnings leaves the cursor where it
was. -/
theorem serves_idle (policy : Text) (s : Cursor) (nothing : Event.draws h = [])
    (quiet : Event.warnings h = []) : s.Serves policy h s := by
  constructor
  · rw [nothing]
    rfl
  · rw [quiet, nothing]
    rfl
  · rw [nothing]
    rfl

/-- **One stretch of the stream behind another.** -/
theorem Serves.trans (first : s.Serves policy h left) (second : left.Serves policy k end_) :
    s.Serves policy (h ++ k) end_ := by
  constructor
  · rw [Event.draws_append, List.length_append, stream_add, ← first.draws_eq, ← first.left_eq,
      ← second.draws_eq]
  · have hwarnings := second.warnings_eq
    rw [first.left_eq, places_afterCalls] at hwarnings
    rw [Event.warnings_append, Event.draws_append, List.length_append, List.take_add,
      List.flatMap_append, ← first.warnings_eq, ← hwarnings]
  · rw [Event.draws_append, List.length_append, afterCalls_add, ← first.left_eq, ← second.left_eq]

/-- One call is one draw, told by its answer. -/
theorem draws_next (policy : Text) (s : Cursor) :
    (s.next policy).draws = [.ofAnswer (s.next policy).result] := by
  unfold next
  split
  · rfl
  · unfold scan
    dsimp only
    split <;> simp [Outcome.draws, Event.draws, List.filterMap_append, Draw.ofAnswer]

/-- One call warns of the lexeme that it draws. -/
theorem warnings_next (policy : Text) (s : Cursor) :
    (s.next policy).warnings = (s.places.take 1).flatMap (Place.warnings policy) := by
  unfold next
  split
  · next hs =>
    rw [places_of_skipBlanks_nil hs]
    rfl
  · next c rest offset hs =>
    rw [places_of_skipBlanks_cons hs, List.take_succ_cons, List.take_zero, List.flatMap_singleton]
    unfold scan Place.warnings
    dsimp only
    split
    · next e he =>
      rw [Lexeme.token_eq_error_iff.1 he]
      rfl
    · next t ht =>
      rw [Lexeme.refusal_eq_none_of_token ht]
      show Event.warnings (_ ++ _) = _
      rw [Event.warnings_append, Lexeme.warnings_map_wrote]
      exact List.append_nil _

theorem serves_next (policy : Text) (s : Cursor) :
    s.Serves policy (s.next policy).history (s.next policy).state := by
  have hdraws : Event.draws (s.next policy).history = [.ofAnswer (s.next policy).result] :=
    draws_next policy s
  constructor
  · rw [hdraws]
    rfl
  · rw [hdraws]
    exact warnings_next policy s
  · rw [hdraws]
    rfl

theorem prompt_next (policy : Text) (s : Cursor) : (s.next policy).Prompt := by
  have hdraws := draws_next policy s
  cases hr : (s.next policy).result with
  | error e =>
    rw [hr] at hdraws
    exact .refused [] hr hdraws
  | ok t =>
    rw [hr] at hdraws
    exact .made [t] hr hdraws

/-- **Steps in a row draw in a row.** -/
theorem Serves.andThen {σ α β : Type} {o : Outcome σ α} {next : α → σ → Outcome σ β}
    (cursor : σ → Cursor) (first : s.Serves policy o.history (cursor o.state))
    (later : ∀ a, o.result = .ok a →
      (cursor o.state).Serves policy (next a o.state).history (cursor (next a o.state).state)) :
    s.Serves policy (o.andThen next).history (cursor (o.andThen next).state) := by
  cases hr : o.result with
  | error e =>
    rw [Outcome.andThen_of_error hr]
    exact first
  | ok a =>
    rw [Outcome.andThen_of_ok hr]
    exact first.trans (later a hr)

/-! ## What is ahead, as draws -/

/-- The draws ahead of a cursor, before the end. -/
def ahead (policy : Text) (s : Cursor) : List Draw :=
  s.places.map fun p => .ofAnswer (p.token policy)

theorem length_ahead (policy : Text) (s : Cursor) : (s.ahead policy).length = s.places.length :=
  List.length_map _

theorem ahead_of_atEnd (policy : Text) (h : s.atEnd = true) : s.ahead policy = [] := by
  rw [ahead, places_eq_nil_iff.2 h, List.map_nil]

/-- **A call takes the first draw off**, unless it is made at the end. -/
theorem ahead_eq_cons (policy : Text) (h : s.atEnd = false) :
    s.ahead policy = .ofAnswer (s.next policy).result :: (s.next policy).state.ahead policy := by
  rcases hs : s.places with _ | ⟨p, ps⟩
  · rw [places_eq_nil_iff, h] at hs
    cases hs
  · rw [ahead, ahead, places_next, hs, List.map_cons, result_next_of_places_cons hs, List.tail_cons]

/-- **The stream is what is ahead**, and then the end for ever. -/
theorem stream_eq (policy : Text) (s : Cursor) (n : Nat) :
    s.stream policy n =
      (s.ahead policy).take n ++ List.replicate (n - (s.ahead policy).length) (.token .eof) := by
  induction n generalizing s with
  | zero => rw [List.take_zero, Nat.zero_sub]; rfl
  | succ n ih =>
    rw [stream_succ, ih]
    cases h : s.atEnd with
    | true =>
      rw [ahead_of_atEnd policy h, ahead_of_atEnd policy (atEnd_next h), result_next_of_atEnd h,
        List.take_nil, List.take_nil, List.length_nil, Nat.sub_zero, Nat.sub_zero]
      rfl
    | false =>
      rw [ahead_eq_cons policy h, List.take_succ_cons, List.length_cons, Nat.add_sub_add_right]
      rfl

/-! ## Iterators -/

/-- **What asking for at most so many tokens comes to**, by what is
ahead. -/
inductive Taken (policy : Text) (s : Cursor) (n : Nat) (o : Outcome Cursor (List Token)) : Prop
  /-- All that were asked for, and nothing is drawn behind them. -/
  | full (ts : List Token) (result : o.result = .ok ts) (count : ts.length = n)
      (draws : o.draws = ts.map .token) (ahead : ts.map .token <+: s.ahead policy)
  /-- All that there are, and the end behind them. -/
  | ended (ts : List Token) (result : o.result = .ok ts) (count : ts.length < n)
      (draws : o.draws = ts.map .token ++ [.token .eof]) (ahead : s.ahead policy = ts.map .token)
  /-- None, for a refusal is among what was asked for. It is drawn last. -/
  | refused {e : Overlong} (ts : List Token) (result : o.result = .error e)
      (count : ts.length < n) (draws : o.draws = ts.map .token ++ [.refused e])
      (ahead : ts.map .token ++ [.refused e] <+: s.ahead policy)

theorem taken_take (policy : Text) (s : Cursor) (n : Nat) :
    Taken policy s n (s.take policy n) := by
  induction n generalizing s with
  | zero => exact .full [] rfl rfl rfl (List.nil_prefix)
  | succ n ih =>
    have hdraws := draws_next policy s
    rw [take]
    cases h : s.atEnd with
    | true =>
      have hr := @result_next_of_atEnd policy s h
      rw [hr] at hdraws
      rw [Outcome.andThen_of_ok hr]
      refine .ended [] rfl (Nat.succ_pos n) ?_ (ahead_of_atEnd policy h)
      exact (Event.draws_append _ _).trans (congrArg (· ++ []) hdraws)
    | false =>
      have hahead := ahead_eq_cons policy h
      cases hr : (s.next policy).result with
      | error e =>
        rw [hr] at hdraws hahead
        rw [Outcome.andThen_of_error hr]
        refine .refused [] rfl (Nat.succ_pos n) hdraws ?_
        rw [hahead]
        exact List.prefix_append [_] _
      | ok t =>
        have hkind : t.kind ≠ .eof := fun eof => by
          rw [atEnd_of_next_eof hr eof] at h
          cases h
        have hlater := Outcome.draws_andThen_of_ok hr fun t s =>
          if t.kind = .eof then Outcome.done [] s else (s.take policy n).map (t :: ·)
        rw [hr] at hdraws hahead
        rw [if_neg hkind, Outcome.draws_map, hdraws] at hlater
        -- The token is put in front of what the others come to.
        cases ih (s.next policy).state with
        | full ts result count draws ahead =>
          rw [draws] at hlater
          refine .full (t :: ts) ?_ (congrArg (· + 1) count) hlater ?_
          · rw [Outcome.andThen_of_ok hr, if_neg hkind, Outcome.map, result]
          · rw [hahead]
            exact (List.prefix_cons_inj _).2 ahead
        | ended ts result count draws ahead =>
          rw [draws] at hlater
          refine .ended (t :: ts) ?_ (Nat.succ_lt_succ count) hlater ?_
          · rw [Outcome.andThen_of_ok hr, if_neg hkind, Outcome.map, result]
          · rw [hahead, ahead]
            rfl
        | refused ts result count draws ahead =>
          rw [draws] at hlater
          refine .refused (t :: ts) ?_ (Nat.succ_lt_succ count) hlater ?_
          · rw [Outcome.andThen_of_ok hr, if_neg hkind, Outcome.map, result]
          · rw [hahead]
            exact (List.prefix_cons_inj _).2 ahead

theorem serves_take (policy : Text) (s : Cursor) (n : Nat) :
    s.Serves policy (s.take policy n).history (s.take policy n).state := by
  induction n generalizing s with
  | zero => exact serves_idle policy s rfl rfl
  | succ n ih =>
    rw [take]
    refine Serves.andThen id (serves_next policy s) fun t _ => ?_
    split
    · exact serves_idle policy _ rfl rfl
    · exact ih _

/-- **Draining is asking for more tokens than there are.** -/
theorem drain_eq_take (policy : Text) (h : s.places.length < n) :
    s.drain policy = s.take policy n := by
  induction n generalizing s with
  | zero => exact absurd h (Nat.not_lt_zero _)
  | succ n ih =>
    rw [drain, take]
    cases hend : s.atEnd with
    | true =>
      have hr := @result_next_of_atEnd policy s hend
      rw [if_pos rfl, Outcome.andThen_of_ok hr]
      simp [Outcome.map, hr, Outcome.done, Token.eof]
    | false =>
      have hlength : (s.next policy).state.places.length < n := by
        have hpos : s.places ≠ [] := fun hnil => by
          rw [places_eq_nil_iff, hend] at hnil
          cases hnil
        have := List.length_pos_iff.2 hpos
        rw [places_next, List.length_tail]
        omega
      rw [if_neg Bool.false_ne_true]
      refine Outcome.andThen_congr fun t ht => ?_
      have hkind : t.kind ≠ .eof := fun eof => by
        rw [atEnd_of_next_eof ht eof] at hend
        cases hend
      rw [if_neg hkind, ih hlength]

theorem serves_drain (policy : Text) (s : Cursor) :
    s.Serves policy (s.drain policy).history (s.drain policy).state := by
  rw [drain_eq_take policy (Nat.lt_succ_self _)]
  exact serves_take policy s _

theorem taken_drain (policy : Text) (s : Cursor) :
    Taken policy s (s.places.length + 1) (s.drain policy) := by
  rw [drain_eq_take policy (Nat.lt_succ_self _)]
  exact taken_take policy s _

/-- **What asking for all tokens comes to**, by what is ahead. -/
inductive Drained (policy : Text) (s : Cursor) (o : Outcome Cursor (List Token)) : Prop
  /-- All that there are, and the end behind them. -/
  | ended (ts : List Token) (result : o.result = .ok ts)
      (draws : o.draws = ts.map .token ++ [.token .eof]) (ahead : s.ahead policy = ts.map .token)
  /-- None, for there is a refusal ahead. It is drawn last. -/
  | refused {e : Overlong} (ts : List Token) (result : o.result = .error e)
      (draws : o.draws = ts.map .token ++ [.refused e])
      (ahead : ts.map .token ++ [.refused e] <+: s.ahead policy)

/-- **Draining stops behind the end**, or at the first refusal. -/
theorem drained_drain (policy : Text) (s : Cursor) : Drained policy s (s.drain policy) := by
  cases taken_drain policy s with
  | full ts result count draws ahead =>
    -- There are not so many tokens ahead.
    have hle := ahead.length_le
    rw [List.length_map, count, length_ahead] at hle
    omega
  | ended ts result count draws ahead => exact .ended ts result draws ahead
  | refused ts result count draws ahead => exact .refused ts result draws ahead

theorem Taken.prompt {o : Outcome Cursor (List Token)} (h : Taken policy s n o) : o.Prompt := by
  cases h with
  | full ts result _ draws _ => exact .made ts result draws
  | ended ts result _ draws _ =>
    exact .made (ts ++ [.eof]) result (by rw [draws, List.map_append]; rfl)
  | refused ts result _ draws _ => exact .refused ts result draws

end Cursor

namespace Reader

variable {policy : Text} {r : Reader} {α : Type} {o : Outcome Reader α}

/-! ## Readers -/

theorem serves_prime (policy : Text) (s : Cursor) :
    s.Serves policy (prime policy s).history (prime policy s).state :=
  Cursor.Serves.andThen id (Cursor.serves_next policy s) fun _ _ => Cursor.serves_next policy _

theorem prompt_prime (policy : Text) (s : Cursor) : (prime policy s).Prompt :=
  (Cursor.prompt_next policy s).andThen fun _ _ => (Cursor.prompt_next policy _).map _

theorem cursor_advance (policy : Text) (r : Reader) :
    (r.advance policy).state.cursor = (r.cursor.next policy).state := by
  cases hr : (r.cursor.next policy).result with
  | error e => rw [advance_of_error hr]
  | ok t => rw [advance_of_ok hr]

theorem history_advance (policy : Text) (r : Reader) :
    (r.advance policy).history = (r.cursor.next policy).history := by
  cases hr : (r.cursor.next policy).result with
  | error e => rw [advance_of_error hr]
  | ok t => rw [advance_of_ok hr]

/-- **Building a reader draws the two tokens that it looks at.** -/
theorem draws_prime_of_ok {s : Cursor} {current peek : Token}
    (h : (prime policy s).result = .ok (current, peek)) :
    (prime policy s).draws = [.token current, .token peek] := by
  obtain ⟨hcurrent, hpeek, -⟩ := prime_of_ok h
  rw [prime, Outcome.draws_andThen_of_ok hcurrent, Outcome.draws_map, Cursor.draws_next,
    Cursor.draws_next, hcurrent, hpeek]
  rfl

/-- If it is refused then the refusal is the first draw or the second. -/
theorem draws_prime_of_error {s : Cursor} {e : Overlong}
    (h : (prime policy s).result = .error e) :
    (prime policy s).draws = [.refused e] ∨
      ∃ t, (prime policy s).draws = [.token t, .refused e] := by
  have hfirst := Cursor.draws_next policy s
  unfold prime at h ⊢
  cases hc : (s.next policy).result with
  | error f =>
    rw [Outcome.andThen_of_error hc] at h ⊢
    rw [hc] at hfirst
    cases h
    exact .inl hfirst
  | ok t =>
    rw [Outcome.draws_andThen_of_ok hc, Outcome.draws_map, hfirst, hc]
    rw [Outcome.andThen_of_ok hc] at h
    rw [Cursor.draws_next, Outcome.result_map_eq_error_iff.1 h]
    exact .inr ⟨t, rfl⟩

/-- An advance is one call of the scanner. -/
theorem draws_advance (policy : Text) (r : Reader) :
    (r.advance policy).draws = [.ofAnswer (r.cursor.next policy).result] := by
  rw [← Cursor.draws_next, Outcome.draws, history_advance]
  rfl

theorem serves_move {m : Move} (proper : m.Proper r) :
    r.cursor.Serves policy (r.move policy m).history (r.move policy m).state.cursor := by
  cases m with
  | advance =>
    rw [move, history_advance, cursor_advance]
    exact Cursor.serves_next policy r.cursor
  | write record =>
    -- What an operation may write is no warning.
    refine Cursor.serves_idle policy r.cursor rfl ?_
    obtain rfl | ⟨n, rfl⟩ := proper <;> rfl
  | report d => exact Cursor.serves_idle policy r.cursor rfl rfl

/-- **Every operation draws in a row.** -/
theorem Made.serves (made : Made policy r o) :
    r.cursor.Serves policy o.history o.state.cursor := by
  have keeps := made.keeps (P := fun s h => r.cursor.Serves policy h s.cursor)
    (fun proper serves => serves.trans (serves_move proper))
    (h := []) (Cursor.serves_idle policy r.cursor rfl rfl)
  exact keeps

theorem prompt_move (m : Move) : (r.move policy m).Prompt := by
  cases m with
  | advance =>
    have hdraws := draws_advance policy r
    cases hr : (r.cursor.next policy).result with
    | error e =>
      rw [hr] at hdraws
      exact .refused [] (by rw [move, advance_of_error hr]) hdraws
    | ok t =>
      rw [hr] at hdraws
      exact .made [t] (by rw [move, advance_of_ok hr]) hdraws
  | write record => exact Outcome.prompt_write record r
  | report d => exact Outcome.prompt_write _ _

/-- **And stops at the first refusal.** -/
theorem Made.prompt (made : Made policy r o) : o.Prompt := by
  obtain ⟨ms, -, hms⟩ := made
  have hmoves : (r.moves policy ms).Prompt := by
    clear hms
    induction ms generalizing r with
    | nil => exact Outcome.prompt_done () r
    | cons m ms ih => exact (prompt_move m).andThen fun _ _ => ih
  rw [← hms] at hmoves
  cases hmoves with
  | made ts result draws =>
    obtain ⟨a, ha, -⟩ := Outcome.result_map_eq_ok_iff.1 result
    exact .made ts ha draws
  | refused ts result draws => exact .refused ts (Outcome.result_map_eq_error_iff.1 result) draws

end Reader

end ScriptReader
