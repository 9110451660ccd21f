import ScriptReader.Proofs.Policies
import ScriptReader.Proofs.Rounds

/-!
# Kinship — two runs that differ in their options alone

Two tokens are akin if they were made of the same source at the same
place, be it under one policy or under two: `Token.Akin`. Only a number
that is too great can be told from its kin, and no operation of a reader
tells the kinds that it can have from each other. So two readers at one
place in a source whose tokens are akin stay so, whatever rules each of
them goes by (`Reader.Akin.program`): they draw alike and are refused
alike, their statements are made of kindred tokens, and they complain of
the same bindings at the same places. What they do not share is what is
said of tokens that start no statement.
-/

namespace ScriptReader

/-! ## Tokens, draws and parts of the tree -/

/-- **Tokens of one source at one place**, under whatever policies. -/
def Token.Akin (t u : Token) : Prop := ∃ policy other, t.Alike policy other u

namespace Token.Akin

variable {t u : Token}

/-- A number that is too great is an integer or no token of the language. -/
theorem kind_of_spoiled {policy : Text} (h : t.Spoiled policy) :
    t.kind = .integer ∨ t.kind = .illegal := by
  by_cases saturates : policy = "saturate"
  · exact .inl (h.saturated saturates).1
  · exact .inr (h.refused saturates).1

/-- **Other kinds are shared.** -/
theorem kind_eq_iff (h : t.Akin u) {k : Kind} (noInteger : k ≠ .integer)
    (noIllegal : k ≠ .illegal) : t.kind = k ↔ u.kind = k := by
  obtain ⟨policy, other, alike⟩ := h
  by_cases great : t.TooGreat
  · obtain ⟨ht, hu⟩ := alike.replaced great
    have number : ∀ {v : Token}, v.kind = .integer ∨ v.kind = .illegal → v.kind ≠ k := by
      rintro v hv rfl
      exact hv.elim noInteger noIllegal
    exact iff_of_false (number (kind_of_spoiled ht)) (number (kind_of_spoiled hu))
  · rw [(alike.same great).1]

theorem eof_iff (h : t.Akin u) : t.kind = .eof ↔ u.kind = .eof :=
  h.kind_eq_iff (by decide) (by decide)

end Token.Akin

/-- Draws of kindred tokens, or of one refusal. -/
inductive Draw.Akin : Draw → Draw → Prop
  | token {t u : Token} (akin : t.Akin u) : Akin (.token t) (.token u)
  | refused (e : Overlong) : Akin (.refused e) (.refused e)

/-- Statements of one form with kindred tokens. -/
inductive Statement.Akin : Statement → Statement → Prop
  | binding {keyword keyword' target target' value value' : Token}
      (keyword_akin : keyword.Akin keyword') (target_akin : target.Akin target')
      (value_akin : value.Akin value') :
      Akin (.binding keyword ⟨target⟩ ⟨value⟩) (.binding keyword' ⟨target'⟩ ⟨value'⟩)
  | returning {keyword keyword' value value' : Token} (keyword_akin : keyword.Akin keyword')
      (value_akin : value.Akin value') :
      Akin (.returning keyword ⟨value⟩) (.returning keyword' ⟨value'⟩)

/-- **Complaints about malformed bindings**, for the same cause and about
kindred tokens. -/
def Diagnostic.Akin (d d' : Diagnostic) : Prop :=
  ∃ t u needed, t.Akin u ∧ needed ≠ Expected.statement ∧
    d = .unexpected t needed ∧ d' = .unexpected u needed

/-- **Reports that complain of the same bindings.** Those on tokens that
start no statement are passed over. -/
def Diagnostic.AllAkin (ds ds' : List Diagnostic) : Prop :=
  List.Forall₂ Diagnostic.Akin (ds.filter fun d => !d.isStray) (ds'.filter fun d => !d.isStray)

namespace Diagnostic

variable {d d' : Diagnostic} {ds ds' : List Diagnostic}

theorem Akin.isStray_eq_false (h : d.Akin d') : d.isStray = false ∧ d'.isStray = false := by
  obtain ⟨t, u, needed, -, ne, rfl, rfl⟩ := h
  rw [isStray_unexpected, isStray_unexpected]
  exact ⟨decide_eq_false ne, decide_eq_false ne⟩

/-- Kindred complaints may be added. -/
theorem AllAkin.append (h : AllAkin ds ds') (akin : d.Akin d') :
    AllAkin (ds ++ [d]) (ds' ++ [d']) := by
  obtain ⟨hd, hd'⟩ := akin.isStray_eq_false
  rw [AllAkin, List.filter_append, List.filter_append, List.filter_singleton,
    List.filter_singleton, hd, hd']
  exact List.rel_append h (.cons akin .nil)

/-- A report on a token that starts no statement is passed over. -/
theorem filter_append_stray (ds : List Diagnostic) (t : Token) :
    (ds ++ [unexpected t .statement]).filter (fun d => !d.isStray) =
      ds.filter fun d => !d.isStray := by
  rw [List.filter_append, List.filter_singleton, isStray_unexpected]
  exact List.append_nil _

end Diagnostic

/-! ## Two steps -/

/-- Two results of one kind: related values, or related causes. -/
inductive Matching {ε α β : Type} (E : ε → ε → Prop) (R : α → β → Prop) :
    Except ε α → Except ε β → Prop
  | ok {a : α} {b : β} (rel : R a b) : Matching E R (.ok a) (.ok b)
  | error {e e' : ε} (rel : E e e') : Matching E R (.error e) (.error e')

theorem Matching.ok_or_error {ε α β : Type} {E : ε → ε → Prop} {R : α → β → Prop}
    {x : Except ε α} {y : Except ε β} (h : Matching E R x y) :
    (∃ a b, x = .ok a ∧ y = .ok b ∧ R a b) ∨ ∃ e e', x = .error e ∧ y = .error e' ∧ E e e' := by
  cases h with
  | ok rel => exact .inl ⟨_, _, rfl, rfl, rel⟩
  | error rel => exact .inr ⟨_, _, rfl, rfl, rel⟩

/-- **Steps that go alike**: they are refused together, they draw alike,
and values and states are related. -/
structure Outcome.Akin {σ τ α β : Type} (S : σ → τ → Prop) (R : α → β → Prop)
    (o : Outcome σ α) (p : Outcome τ β) : Prop where
  result : Matching Eq R o.result p.result
  state : S o.state p.state
  draws : List.Forall₂ Draw.Akin o.draws p.draws

namespace Outcome

variable {σ τ α α' β β' : Type} {S : σ → τ → Prop} {R : α → α' → Prop} {Q : β → β' → Prop}
  {o : Outcome σ α} {p : Outcome τ α'}

theorem akin_done {a : α} {b : α'} {s : σ} {t : τ} (state : S s t) (rel : R a b) :
    Akin S R (done a s) (done b t) :=
  ⟨.ok rel, state, .nil⟩

theorem akin_write {r r' : Record} {s : σ} {t : τ} (state : S s t) :
    Akin S (fun _ _ => True) (write r s) (write r' t) :=
  ⟨.ok trivial, state, .nil⟩

theorem Akin.map (h : Akin S R o p) {f : α → β} {g : α' → β'}
    (rel : ∀ a b, R a b → Q (f a) (g b)) : Akin S Q (o.map f) (p.map g) := by
  refine ⟨?_, h.state, h.draws⟩
  rw [Outcome.map, Outcome.map]
  dsimp only
  obtain ⟨a, b, hx, hy, rel'⟩ | ⟨e, e', hx, hy, same⟩ := h.result.ok_or_error
  · rw [hx, hy]
    exact .ok (rel a b rel')
  · rw [hx, hy]
    exact .error same

/-- **What comes after steps that go alike** goes alike, if it does so for
related values. -/
theorem Akin.andThen (h : Akin S R o p) {f : α → σ → Outcome σ β} {g : α' → τ → Outcome τ β'}
    (later : ∀ a b, R a b → Akin S Q (f a o.state) (g b p.state)) :
    Akin S Q (o.andThen f) (p.andThen g) := by
  obtain ⟨a, b, hx, hy, rel⟩ | ⟨e, e', hx, hy, same⟩ := h.result.ok_or_error
  · have hlater := later a b rel
    refine ⟨?_, ?_, ?_⟩
    · rw [andThen_of_ok hx, andThen_of_ok hy]
      exact hlater.result
    · rw [andThen_of_ok hx, andThen_of_ok hy]
      exact hlater.state
    · rw [draws_andThen_of_ok hx, draws_andThen_of_ok hy]
      exact List.rel_append h.draws hlater.draws
  · rw [andThen_of_error hx, andThen_of_error hy]
    exact ⟨.error same, h.state, h.draws⟩

theorem Akin.mapState {σ' τ' : Type} {S' : σ' → τ' → Prop} (h : Akin S R o p) {f : σ → σ'}
    {g : τ → τ'} (rel : S o.state p.state → S' (f o.state) (g p.state)) :
    Akin S' R (o.mapState f) (p.mapState g) :=
  ⟨h.result, rel h.state, h.draws⟩

end Outcome

/-! ## Scanners -/

namespace Cursor

variable {s : Cursor}

/-- Where a call leaves a cursor is no matter of policy. -/
theorem state_next (policy other : Text) (s : Cursor) :
    (s.next policy).state = (s.next other).state := by
  rcases hs : s.skipBlanks with ⟨rest, offset⟩
  cases rest with
  | nil => rw [next, next, hs]
  | cons c rest =>
    rw [next_of_skipBlanks_cons hs, next_of_skipBlanks_cons hs, state_scan, state_scan]

/-- **What a call answers with, under another policy.** -/
theorem result_next_under (policy other : Text) (s : Cursor) :
    (s.next other).result = (s.next policy).result.map (Token.under other) := by
  cases hs : s.places with
  | nil =>
    rw [result_next_of_places_nil hs, result_next_of_places_nil hs]
    rfl
  | cons p ps =>
    have hmem : p ∈ s.places := by
      rw [hs]
      exact .head _
    obtain ⟨lexeme, hraw⟩ := lexeme_eq_ofRaw hmem
    rw [result_next_of_places_cons hs, result_next_of_places_cons hs, Place.token, Place.token,
      hraw, Lexeme.token_under policy other p.offset lexeme]

/-- **Two calls at one place go alike.** -/
theorem akin_next (policy other : Text) (s : Cursor) :
    Outcome.Akin Eq Token.Akin (s.next policy) (s.next other) := by
  have hunder := result_next_under policy other s
  have hdraws := draws_next policy s
  have hdraws' := draws_next other s
  cases hr : (s.next policy).result with
  | error e =>
    rw [hr] at hunder hdraws
    rw [hunder] at hdraws'
    refine ⟨?_, state_next policy other s, ?_⟩
    · rw [hr, hunder]
      exact .error rfl
    · rw [hdraws, hdraws']
      exact .cons (.refused e) .nil
  | ok t =>
    have known : t ∈ s.tokens policy ∨ t = .eof := by
      obtain ⟨-, htokens⟩ | ⟨rfl, -, -⟩ := tokens_of_next_ok hr
      · exact .inl (htokens ▸ .head _)
      · exact .inr rfl
    have akin : t.Akin (t.under other) := ⟨policy, other, alike_under other known⟩
    rw [hr] at hunder hdraws
    rw [hunder] at hdraws'
    refine ⟨?_, state_next policy other s, ?_⟩
    · rw [hr, hunder]
      exact .ok akin
    · rw [hdraws, hdraws']
      exact .cons (.token akin) .nil

/-- So do iterators. -/
theorem akin_take (policy other : Text) (n : Nat) (s : Cursor) :
    Outcome.Akin Eq (List.Forall₂ Token.Akin) (s.take policy n) (s.take other n) := by
  induction n generalizing s with
  | zero => exact Outcome.akin_done rfl .nil
  | succ n ih =>
    have first := akin_next policy other s
    refine first.andThen fun t u akin => ?_
    rw [← first.state]
    by_cases eof : t.kind = .eof
    · rw [if_pos eof, if_pos (akin.eof_iff.1 eof)]
      exact Outcome.akin_done rfl .nil
    · rw [if_neg eof, if_neg fun h => eof (akin.eof_iff.2 h)]
      exact (ih _).map fun ts us rel => .cons akin rel

theorem akin_drain (policy other : Text) (s : Cursor) :
    Outcome.Akin Eq (List.Forall₂ Token.Akin) (s.drain policy) (s.drain other) := by
  rw [drain_eq_take policy (Nat.lt_succ_self _), drain_eq_take other (Nat.lt_succ_self _)]
  exact akin_take policy other _ s

end Cursor

/-! ## Readers -/

namespace Reader

/-- **Readers at one place that differ in their options alone.** -/
structure Akin (r r' : Reader) : Prop where
  cursor_eq : r.cursor = r'.cursor
  current : r.current.Akin r'.current
  peek : r.peek.Akin r'.peek
  reports : Diagnostic.AllAkin r.reports r'.reports

variable {r r' : Reader} {policy other : Text}

theorem akin_prime (policy other : Text) (s : Cursor) :
    Outcome.Akin Eq (fun sight sight' => sight.1.Akin sight'.1 ∧ sight.2.Akin sight'.2)
      (prime policy s) (prime other s) := by
  have first := Cursor.akin_next policy other s
  refine first.andThen fun t u current => ?_
  rw [← first.state]
  exact (Cursor.akin_next policy other _).map fun _ _ peek => ⟨current, peek⟩

/-- **An advance.** -/
theorem Akin.advance (policy other : Text) (h : r.Akin r') :
    Outcome.Akin Akin (fun _ _ => True) (r.advance policy) (r'.advance other) := by
  obtain ⟨c, current, peek, reports⟩ := r
  obtain ⟨c', current', peek', reports'⟩ := r'
  obtain rfl : c = c' := h.cursor_eq
  have drawn := Cursor.akin_next policy other c
  obtain ⟨t, u, hx, hy, akin⟩ | ⟨e, e', hx, hy, same⟩ := drawn.result.ok_or_error
  · rw [advance_of_ok hx, advance_of_ok hy]
    exact ⟨.ok trivial, ⟨drawn.state, h.peek, akin, h.reports⟩, drawn.draws⟩
  · rw [advance_of_error hx, advance_of_error hy]
    exact ⟨.error same, ⟨drawn.state, h.peek, h.peek, h.reports⟩, drawn.draws⟩

theorem akin_skipToSemicolon (policy other : Text) :
    ∀ r', r.Akin r' → Outcome.Akin Akin (fun _ _ => True) (r.skipToSemicolon policy)
      (r'.skipToSemicolon other) := by
  fun_induction skipToSemicolon policy r with
  | case1 r stop =>
    intro r' h
    have stop' := (h.current.kind_eq_iff (by decide) (by decide)).1 stop
    rw [skipToSemicolon, if_pos stop']
    exact Outcome.akin_done h trivial
  | case2 r noStop eof =>
    intro r' h
    have noStop' := fun stop => noStop ((h.current.kind_eq_iff (by decide) (by decide)).2 stop)
    rw [skipToSemicolon, if_neg noStop', if_pos (h.current.eof_iff.1 eof)]
    exact Outcome.akin_write h
  | case3 r noStop hne o ih =>
    intro r' h
    have noStop' := fun stop => noStop ((h.current.kind_eq_iff (by decide) (by decide)).2 stop)
    rw [skipToSemicolon.eq_def other r', if_neg noStop',
      if_neg fun eof => hne (h.current.eof_iff.2 eof)]
    have moved := h.advance policy other
    exact moved.andThen fun _ _ _ => ih _ moved.state

/-- **Skipping.** -/
theorem Akin.skipToSemicolon (policy other : Text) (h : r.Akin r') :
    Outcome.Akin Akin (fun _ _ => True) (r.skipToSemicolon policy)
      (r'.skipToSemicolon other) :=
  akin_skipToSemicolon policy other r' h

/-- **A binding.** -/
theorem Akin.letStatement (policy other : Text) (h : r.Akin r') :
    Outcome.Akin Akin (Matching Diagnostic.Akin Statement.Akin) (r.letStatement policy)
      (r'.letStatement other) := by
  rw [Reader.letStatement, Reader.letStatement]
  by_cases isName : r.peek.kind = .identifier
  · have isName' := (h.peek.kind_eq_iff (by decide) (by decide)).1 isName
    rw [if_pos isName, if_pos isName']
    have moved := h.advance policy other
    have named := moved.state
    refine moved.andThen fun _ _ _ => ?_
    by_cases isSign : (r.advance policy).state.peek.kind = .mark .assign
    · have isSign' := (named.peek.kind_eq_iff (by decide) (by decide)).1 isSign
      rw [if_pos isSign, if_pos isSign']
      have moved := named.advance policy other
      have assigned := moved.state
      refine moved.andThen fun _ _ _ => ?_
      exact (assigned.skipToSemicolon policy other).map fun _ _ _ =>
        .ok (.binding h.current named.current assigned.peek)
    · have noSign' := fun sign =>
        isSign ((named.peek.kind_eq_iff (by decide) (by decide)).2 sign)
      rw [if_neg isSign, if_neg noSign']
      exact Outcome.akin_done named (.error ⟨_, _, .assignment, named.peek, by decide, rfl, rfl⟩)
  · have noName' := fun name => isName ((h.peek.kind_eq_iff (by decide) (by decide)).2 name)
    rw [if_neg isName, if_neg noName']
    exact Outcome.akin_done h (.error ⟨_, _, .identifier, h.peek, by decide, rfl, rfl⟩)

/-- **A returned value.** -/
theorem Akin.returnStatement (policy other : Text) (h : r.Akin r') :
    Outcome.Akin Akin Statement.Akin (r.returnStatement policy) (r'.returnStatement other) := by
  have moved := h.advance policy other
  have started := moved.state
  refine moved.andThen fun _ _ _ => ?_
  exact (started.skipToSemicolon policy other).map fun _ _ _ =>
    .returning h.current started.current

/-- Kindred complaints are reported alike. -/
theorem Akin.report (h : r.Akin r') {d d' : Diagnostic} (akin : d.Akin d') :
    Outcome.Akin Akin (fun _ _ => True) (r.report d) (r'.report d') :=
  Outcome.akin_write ⟨h.cursor_eq, h.current, h.peek, h.reports.append akin⟩

/-- **At a token that starts no statement** nothing happens but that a
reader may report it. -/
theorem statement_of_other (rules : Rules) (noLet : r.current.kind ≠ .keyword .letWord)
    (noReturn : r.current.kind ≠ .keyword .returnWord) :
    ∃ ds : List Diagnostic,
      (ds.filter fun d => !d.isStray) = (r.reports.filter fun d => !d.isStray) ∧
      (r.statement rules).result = .ok none ∧ (r.statement rules).draws = [] ∧
      (r.statement rules).state = { r with reports := ds } := by
  rw [statement_of_single rules noLet noReturn]
  split
  · exact ⟨_, Diagnostic.filter_append_stray _ _, rfl, rfl, rfl⟩
  · exact ⟨_, rfl, rfl, rfl, rfl⟩

/-- **A statement.** -/
theorem Akin.statement (rules rules' : Rules) (h : r.Akin r') :
    Outcome.Akin Akin (Option.Rel Statement.Akin) (r.statement rules) (r'.statement rules') := by
  by_cases isLet : r.current.kind = .keyword .letWord
  · have isLet' := (h.current.kind_eq_iff (by decide) (by decide)).1 isLet
    rw [statement_of_let rules isLet, statement_of_let rules' isLet']
    have read := h.letStatement rules.policy rules'.policy
    refine read.andThen fun found found' rel => ?_
    cases rel with
    | ok akin => exact Outcome.akin_done read.state (.some akin)
    | error akin => exact (read.state.report akin).map fun _ _ _ => .none
  · have noLet' := fun is => isLet ((h.current.kind_eq_iff (by decide) (by decide)).2 is)
    by_cases isReturn : r.current.kind = .keyword .returnWord
    · have isReturn' := (h.current.kind_eq_iff (by decide) (by decide)).1 isReturn
      rw [statement_of_return rules isReturn, statement_of_return rules' isReturn']
      exact (h.returnStatement rules.policy rules'.policy).map fun _ _ rel => .some rel
    · have noReturn' := fun is => isReturn ((h.current.kind_eq_iff (by decide) (by decide)).2 is)
      obtain ⟨ds, hds, result, draws, state⟩ := statement_of_other rules isLet isReturn
      obtain ⟨ds', hds', result', draws', state'⟩ := statement_of_other rules' noLet' noReturn'
      refine ⟨?_, ?_, ?_⟩
      · rw [result, result']
        exact .ok .none
      · rw [state, state']
        refine ⟨h.cursor_eq, h.current, h.peek, ?_⟩
        rw [Diagnostic.AllAkin, hds, hds']
        exact h.reports
      · rw [draws, draws']
        exact .nil

theorem akin_statements (rules rules' : Rules) :
    ∀ r', r.Akin r' → Outcome.Akin Akin (List.Forall₂ Statement.Akin) (r.statements rules)
      (r'.statements rules') := by
  fun_induction statements rules r with
  | case1 r eof =>
    intro r' h
    rw [statements, if_pos (h.current.eof_iff.1 eof)]
    exact Outcome.akin_done h .nil
  | case2 r hne o ih =>
    intro r' h
    rw [statements.eq_def rules' r', if_neg fun eof => hne (h.current.eof_iff.2 eof)]
    have read := h.statement rules rules'
    refine read.andThen fun found found' rel => ?_
    have moved := read.state.advance rules.policy rules'.policy
    refine moved.andThen fun _ _ _ => ?_
    refine (ih _ moved.state).map fun later later' rels => ?_
    cases rel with
    | none => exact rels
    | some akin => exact .cons akin rels

/-- **Programs whose statements are akin.** -/
def ProgramsAkin (p p' : Program) : Prop :=
  List.Forall₂ Statement.Akin p.statements p'.statements

/-- **A program.** -/
theorem Akin.program (rules rules' : Rules) (h : r.Akin r') :
    Outcome.Akin Akin ProgramsAkin (r.program rules) (r'.program rules') := by
  have read := akin_statements rules rules' r' h
  refine read.andThen fun found found' rels => ?_
  exact (Outcome.akin_write read.state).map fun _ _ _ => rels

end Reader

end ScriptReader
