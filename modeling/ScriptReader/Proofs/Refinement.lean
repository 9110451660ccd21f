import ScriptReader.Proofs.Cut
import ScriptReader.Proofs.Prospect

/-!
# The refinement — a reader reads what the grammar reads

A reader sees two tokens and draws the others one at a time. What it will
ever see is a list (`Reader.ahead`), and as long as no refusal is ahead
each of its operations does to that list what the grammar does to tokens:
an advance takes the first off (`Reader.reads_advance`), so that a
statement with the advance after it takes off one production
(`Reader.reads_statement`), and a program is the derivation of the list
(`Reader.reads_program`).

`result_read` is the theorem for a source: reading it is refused exactly
when a run of digits in it is, and else comes to what the grammar makes
of its tokens.
-/

namespace ScriptReader

namespace Reader

/-- **The tokens ahead of a reader**: the two in sight and those that its
scanner has left, up to the first end. -/
def ahead (policy : Text) (r : Reader) : List Token :=
  (r.current :: r.peek :: r.cursor.tokens policy).takeWhile fun t => decide (t.kind ≠ .eof)

/-- A reader sees tokens when they are ahead of it in order, and no
refusal is. -/
structure Sees (policy : Text) (r : Reader) (ts : List Token) : Prop where
  orderly : r.Orderly
  clear : r.cursor.refusal? = none
  ahead_eq : r.ahead policy = ts

variable {policy : Text} {r : Reader} {t : Token} {ts : List Token}

/-! ## What is in sight -/

namespace Sees

theorem current_eof_iff (h : r.Sees policy ts) : r.current.kind = .eof ↔ ts = [] := by
  rw [← h.ahead_eq, ahead, List.takeWhile_cons]
  by_cases eof : r.current.kind = .eof <;> simp [eof]

theorem current_eq (h : r.Sees policy ts) : r.current = ts.headD .eof := by
  by_cases eof : r.current.kind = .eof
  · rw [h.current_eof_iff.1 eof]
    exact (h.orderly.current_eof eof).1
  · rw [← h.ahead_eq, ahead, List.takeWhile_cons, if_pos (by simpa using eof), List.headD_cons]

theorem peek_eq (h : r.Sees policy (t :: ts)) : r.peek = ts.headD .eof := by
  have hne : r.current.kind ≠ .eof := fun eof => by cases h.current_eof_iff.1 eof
  have hahead := h.ahead_eq
  rw [ahead, List.takeWhile_cons, if_pos (by simpa using hne)] at hahead
  obtain ⟨-, htail⟩ := List.cons.inj hahead
  by_cases eof : r.peek.kind = .eof
  · rw [← htail, List.takeWhile_cons, if_neg (by simpa using eof), List.headD_nil]
    exact (h.orderly.peek_eof eof).1
  · rw [← htail, List.takeWhile_cons, if_pos (by simpa using eof), List.headD_cons]

end Sees

/-- **An advance takes the first token off.** At the end it does nothing. -/
theorem reads_advance (h : r.Sees policy ts) :
    Reads (Sees policy) (r.advance policy) () ts.tail r.reports := by
  cases hr : (r.cursor.next policy).result with
  | error e =>
    -- A draw that is refused meets a refusal ahead, and there is none.
    have hsome := Cursor.refusal_of_next_error hr
    rw [h.clear] at hsome
    cases hsome
  | ok t =>
    have hstate := advance_of_ok hr
    have orderly := h.orderly.advance policy
    rw [hstate] at orderly ⊢
    refine ⟨rfl, ⟨orderly, ?_, ?_⟩, rfl⟩
    · rw [← h.clear]
      exact Cursor.refusal_next_of_ok hr
    · rw [← h.ahead_eq, ahead, ahead]
      by_cases eof : r.current.kind = .eof
      -- Behind the end there is another end, and no token to take off.
      · have hpeek := (h.orderly.current_eof eof).2
        simp [eof, hpeek]
      · obtain ⟨-, htokens⟩ | ⟨rfl, -, htokens⟩ := Cursor.tokens_of_next_ok hr
        · simp [List.takeWhile_cons, eof, htokens]
        · simp [List.takeWhile_cons, eof, htokens, Token.eof]

/-- A report keeps what a reader sees. -/
theorem Sees.report (h : r.Sees policy ts) (d : Diagnostic) :
    (r.report d).state.Sees policy ts :=
  ⟨⟨h.orderly.peek_eof, h.orderly.current_eof⟩, h.clear, h.ahead_eq⟩

end Reader

/-! ## One production at a time -/

/-- The prospect of readers with no refusal ahead: no step halts. -/
def Prospect.clear (policy : Text) : Prospect := ⟨Reader.Sees policy, fun _ _ _ => False⟩

theorem Prospect.clearLaws (policy : Text) : (clear policy).Laws policy where
  current_eq := Reader.Sees.current_eq
  peek_eq := Reader.Sees.peek_eq
  eq_nil h := h.current_eof_iff.1
  report := Reader.Sees.report
  advance h := .made (Reader.reads_advance h)
  shorten _ := id

namespace Reader

variable {policy : Text} {r : Reader} {ts : List Token}

/-- So each step reads. -/
theorem Meets.reads {α : Type} {o : Outcome Reader α} {a : α} {ds es : List Diagnostic}
    (h : Meets (.clear policy) o a ts ds es) : Reads (Sees policy) o a ts ds := by
  cases h with
  | made reads => exact reads
  | halted _ halts => exact halts.elim

/-- **A statement reads one production**, but for the advance after it. -/
theorem reads_statement (rules : Rules) {p : Production} {behind : List Token}
    (fits : Grammar.Fits p behind) (h : r.Sees rules.policy (p.span ++ behind)) :
    ∃ us : List Token, us.tail = behind ∧
      Reads (Sees rules.policy) (r.statement rules) p.statement? us
        (r.reports ++ (p.report? rules.reportStray).toList) := by
  obtain ⟨us, hbehind, hmeets⟩ := (Prospect.clearLaws rules.policy).statement fits h
  exact ⟨us, hbehind, hmeets.reads⟩

/-! ## A whole program -/

theorem filterMap_cons_eq_append (f : α → Option β) (a : α) (as : List α) :
    (a :: as).filterMap f = (f a).toList ++ as.filterMap f := by
  rw [List.filterMap_cons]
  cases f a <;> rfl

/-- **Statements read to the end**, one production after the other. -/
theorem reads_statements (rules : Rules) {ps : List Production} (derives : Grammar.Derives ts ps)
    (h : r.Sees rules.policy ts) :
    Reads (Sees rules.policy) (r.statements rules) (ps.filterMap Production.statement?) []
      (r.reports ++ ps.filterMap (Production.report? rules.reportStray)) := by
  -- One production, the advance behind it, and then the rest of the derivation.
  induction derives generalizing r with
  | nil =>
    rw [statements, if_pos (h.current_eof_iff.2 rfl)]
    exact ⟨rfl, h, (List.append_nil _).symm⟩
  | @cons p behind ps fits later ih =>
    have hne : r.current.kind ≠ .eof := fun eof => by
      have hnil := h.current_eof_iff.1 eof
      cases p <;> cases hnil
    obtain ⟨us, hbehind, hread⟩ := reads_statement rules fits h
    have hadvance := reads_advance hread.sees
    rw [hbehind] at hadvance
    have hrest := ih hadvance.sees
    rw [hadvance.reports_eq, hread.reports_eq, List.append_assoc] at hrest
    rw [statements, if_neg hne, filterMap_cons_eq_append, filterMap_cons_eq_append]
    refine hread.andThen (hadvance.andThen ?_)
    exact hrest.map _

/-- **A program is the grammar's**, whatever reader it is asked of. -/
theorem reads_program (rules : Rules) (h : r.Sees rules.policy ts) :
    Reads (Sees rules.policy) (r.program rules) ⟨Grammar.statements ts⟩ []
      (r.reports ++ Grammar.reports rules.reportStray ts) := by
  have hread := reads_statements rules (Grammar.derives_productions ts) h
  exact hread.andThen ⟨rfl, hread.sees, hread.reports_eq⟩

/-- Statements that come to an end have used up the source. -/
theorem current_eof_of_statements_ok {rules : Rules} :
    ∀ found, (r.statements rules).result = .ok found →
      (r.statements rules).state.current.kind = .eof := by
  fun_induction statements rules r with
  | case1 r eof => exact fun _ _ => eof
  | case2 r hne o ih =>
    intro found h
    let p := o.state.advance rules.policy
    obtain ⟨s, ho, hrest⟩ := Outcome.exists_of_andThen_ok h
    obtain ⟨_, hp, hrest⟩ := Outcome.exists_of_andThen_ok hrest
    obtain ⟨later, hlater, -⟩ := Outcome.result_map_eq_ok_iff.1 hrest
    rw [Outcome.andThen_of_ok ho]
    change (p.andThen fun _ _ => _).state.current.kind = _
    rw [Outcome.andThen_of_ok hp]
    exact ih later hlater

/-- **A program is refused when there is a refusal ahead**, with the first
one. -/
theorem result_program_of_refusal (rules : Rules) (orderly : r.Orderly) {e : Overlong}
    (h : r.cursor.refusal? = some e) : (r.program rules).result = .error e := by
  have hmoved := (@made_statements r rules).moved
  cases hr : (r.statements rules).result with
  | error e' =>
    have he := hmoved.refusal_of_error hr
    rw [h] at he
    rw [program, Outcome.andThen_of_error hr, Option.some.inj he]
  | ok found =>
    -- The reader has come to the end, and no refusal is ahead of an end.
    have hend := (hmoved.orderly orderly).atEnd (current_eof_of_statements_ok found hr)
    have hnone := Cursor.refusal_of_places_nil (Cursor.places_eq_nil_iff.2 hend)
    rw [hmoved.refusal_of_ok hr, h] at hnone
    cases hnone

/-- **A reader refines the grammar.** Whatever was asked of it before, and
under whatever rules, a reader with no run of digits ahead that is too
long reads the statements of the tokens ahead of it, and adds the reports
on them to those that it has. -/
theorem program_eq_grammar {source : Text} (rules : Rules) (reached : r.Reached source)
    (readable : r.cursor.rest.Readable) :
    (r.program rules).result = .ok ⟨Grammar.statements (r.ahead rules.policy)⟩ ∧
      (r.program rules).state.reports =
        r.reports ++ Grammar.reports rules.reportStray (r.ahead rules.policy) := by
  have hread := reads_program rules ⟨reached.orderly, readable_iff.1 readable, rfl⟩
  exact ⟨hread.result, hread.reports_eq⟩

/-- A binding that was given up half way leaves its name in sight, and
reading goes on from there. -/
theorem program_eq_grammar_given_up :
    ∃ r : Reader, r.Reached "let y 2 return x;" ∧ r.cursor.rest.Readable ∧
      r.current.raw = "y" ∧ r.reports = [] ∧
      (r.program ⟨"illegal", true⟩).result =
        .ok ⟨[.returning ⟨.keyword .returnWord, some 8, "return", none⟩
          ⟨⟨.identifier, some 15, "x", none⟩⟩]⟩ ∧
      (r.program ⟨"illegal", true⟩).state.reports =
        [.unexpected ⟨.identifier, some 4, "y", none⟩ .statement,
          .unexpected ⟨.integer, some 6, "2", some 2⟩ .statement] := by
  have primed := @Reached.primed "let y 2 return x;" _ ⟨.keyword .letWord, some 0, "let", none⟩
    ⟨.identifier, some 4, "y", none⟩ "illegal" .start rfl
  have reached := primed.asked ⟨"illegal", true⟩ .letStatement
  have readable := @readable_of_length_le " return x;" (by decide)
  have h := program_eq_grammar ⟨"illegal", true⟩ reached readable
  refine ⟨_, reached, readable, rfl, rfl, h.1.trans ?_, h.2.trans ?_⟩
  · rw [Except.ok.injEq]
    decide +kernel
  · decide +kernel

/-! ## A whole source -/

/-- **A new reader has all tokens of its scanner ahead.** -/
theorem sees_of_prime {s : Cursor} {current peek : Token} (clear : s.refusal? = none)
    (h : (prime policy s).result = .ok (current, peek)) :
    Sees policy ⟨(prime policy s).state, current, peek, []⟩ (s.tokens policy) := by
  obtain ⟨hcurrent, hpeek, hstate⟩ := prime_of_ok h
  refine ⟨orderly_of_prime h, ?_, ?_⟩
  · rw [hstate]
    exact (Cursor.refusal_next_of_ok hpeek).trans ((Cursor.refusal_next_of_ok hcurrent).trans clear)
  · rw [ahead, hstate]
    dsimp only
    obtain ⟨hc, htokens⟩ | ⟨rfl, -, htokens⟩ := Cursor.tokens_of_next_ok hcurrent
    · obtain ⟨hp, hbehind⟩ | ⟨rfl, -, hbehind⟩ := Cursor.tokens_of_next_ok hpeek
      · rw [← hbehind, ← htokens]
        rw [← List.append_nil (s.tokens policy), List.takeWhile_append_of_pos, List.takeWhile_nil]
        intro t ht
        simpa using Cursor.kind_ne_eof_of_mem_tokens ht
      · rw [htokens, hbehind]
        simp [hc, Token.eof]
    · rw [htokens]
      simp [Token.eof]

end Reader

/-- What reading a source comes to, before anything is written about it. -/
theorem result_ofText (rules : Rules) (source : Text) :
    (Reading.ofText rules source).result =
      match (Cursor.ofText source).refusal? with
      | some e => .error e
      | none =>
        .ok (Grammar.reading rules.reportStray ((Cursor.ofText source).tokens rules.policy)) := by
  unfold Reading.ofText
  cases hprime : (Reader.prime rules.policy (.ofText source)).result with
  | error e => rw [Outcome.andThen_of_error hprime, Reader.refusal_of_prime_error hprime]
  | ok sight =>
    obtain ⟨current, peek⟩ := sight
    rw [Outcome.andThen_of_ok hprime]
    cases hrefusal : (Cursor.ofText source).refusal? with
    | some e =>
      obtain ⟨hcurrent, hpeek, hstate⟩ := Reader.prime_of_ok hprime
      have hahead := (Cursor.refusal_next_of_ok hpeek).trans
        ((Cursor.refusal_next_of_ok hcurrent).trans hrefusal)
      rw [← hstate] at hahead
      exact Outcome.result_map_eq_error_iff.2
        (Reader.result_program_of_refusal rules (Reader.orderly_of_prime hprime) hahead)
    | none =>
      have hread := Reader.reads_program rules (Reader.sees_of_prime hrefusal hprime)
      simp only [Outcome.mapState, Outcome.map, hread.result, hread.reports_eq, List.nil_append]
      rfl

theorem result_announce (r : Reading) (s : Cursor) : (r.announce s).result = .ok r := by
  unfold Reading.announce
  split <;> rfl

/-- **Reading a source is the grammar on its tokens**, or the first
refusal in it. -/
theorem result_read (o : Options) (source : Text) :
    (o.read source).result =
      match (Cursor.ofText source).refusal? with
      | some e => .error e
      | none => .ok (Grammar.reading o.reportStray ((Cursor.ofText source).tokens o.overflow)) := by
  have h := result_ofText o.rules source
  unfold Options.read
  cases hr : (Reading.ofText o.rules source).result with
  | error e => rw [Outcome.andThen_of_error hr, ← hr, h]; rfl
  | ok reading => rw [Outcome.andThen_of_ok hr, result_announce, ← hr, h]; rfl

/-- **A source is read** when nothing in it is refused, and then to what the
grammar makes of its tokens. -/
theorem result_read_eq_ok_iff {o : Options} {source : Text} {found : Reading} :
    (o.read source).result = .ok found ↔ (Cursor.ofText source).refusal? = none ∧
      Grammar.reading o.reportStray ((Cursor.ofText source).tokens o.overflow) = found := by
  rw [result_read]
  cases (Cursor.ofText source).refusal? with
  | some e => exact ⟨nofun, nofun⟩
  | none => rw [Except.ok.injEq, and_iff_right rfl]

end ScriptReader
