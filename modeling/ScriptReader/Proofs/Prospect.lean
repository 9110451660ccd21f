import ScriptReader.Proofs.Grammar
import ScriptReader.Proofs.Moves

/-!
# The prospect — one production at a time, whatever is ahead

A reader meets the same productions whether the source goes on to its end
or a run of digits that is too long cuts it short. What differs is which
tokens are ahead of a reader, and where a step halts. A `Prospect` says
these two things and `Prospect.Laws` what reading asks of it. From the
laws alone each operation comes to what the grammar makes of the tokens
ahead, or it halts (`Reader.Meets`), and a statement takes off one
production (`Prospect.Laws.statement`).

There are two prospects: a source with no refusal ahead
(`Prospect.clearLaws`), where every step reads, and one with a refusal
behind the tokens (`Halt.laws`).
-/

namespace ScriptReader

/-- **A step reads** a value: it is not refused, and it leaves a reader
with these tokens ahead and these reports. -/
structure Reader.Reads (Ahead : Reader → List Token → Prop) {α : Type} (o : Outcome Reader α)
    (a : α) (ts : List Token) (reports : List Diagnostic) : Prop where
  result : o.result = .ok a
  sees : Ahead o.state ts
  reports_eq : o.state.reports = reports

/-- **What readers have ahead**, and where their steps halt. -/
structure Prospect where
  /-- A reader has these tokens ahead. -/
  Ahead : Reader → List Token → Prop
  /-- A step that would leave these tokens ahead is refused, and leaves
  this reader. -/
  Halts : List Token → Overlong → Reader → Prop

/-- **A step meets tokens**: it reads a value, or it halts with the
earlier reports. -/
inductive Reader.Meets (v : Prospect) {α : Type} (o : Outcome Reader α) (a : α)
    (ts : List Token) (reports earlier : List Diagnostic) : Prop
  | made (reads : Reads v.Ahead o a ts reports)
  | halted {e : Overlong} (result : o.result = .error e) (halts : v.Halts ts e o.state)
      (reports_eq : o.state.reports = earlier)

/-- **What reading asks of a prospect.** -/
structure Prospect.Laws (policy : Text) (v : Prospect) : Prop where
  current_eq {r : Reader} {ts : List Token} (h : v.Ahead r ts) : r.current = ts.headD .eof
  peek_eq {r : Reader} {t : Token} {ts : List Token} (h : v.Ahead r (t :: ts)) :
    r.peek = ts.headD .eof
  /-- The end is current behind the last token alone. -/
  eq_nil {r : Reader} {ts : List Token} (h : v.Ahead r ts) (eof : r.current.kind = .eof) : ts = []
  /-- A report changes nothing ahead. -/
  report {r : Reader} {ts : List Token} (h : v.Ahead r ts) (d : Diagnostic) :
    v.Ahead (r.report d).state ts
  /-- An advance takes the first token off. -/
  advance {r : Reader} {ts : List Token} (h : v.Ahead r ts) :
    Reader.Meets v (r.advance policy) () ts.tail r.reports r.reports
  /-- A step that halts would halt with less ahead. -/
  shorten {ts us : List Token} {e : Overlong} {r : Reader} (suffix : us <:+ ts)
    (h : v.Halts ts e r) : v.Halts us e r

namespace Reader

variable {policy : Text} {Ahead : Reader → List Token → Prop} {v : Prospect} {r : Reader}
  {α β : Type} {o : Outcome Reader α} {a : α} {b : β} {next : α → Reader → Outcome Reader β}
  {ts us : List Token} {ds es fs : List Diagnostic}

namespace Reads

theorem andThen (h : Reads Ahead o a ts ds) (later : Reads Ahead (next a o.state) b us es) :
    Reads Ahead (o.andThen next) b us es := by
  rw [Outcome.andThen_of_ok h.result]
  exact ⟨later.result, later.sees, later.reports_eq⟩

theorem map (h : Reads Ahead o a ts ds) (f : α → β) : Reads Ahead (o.map f) (f a) ts ds := by
  refine ⟨?_, h.sees, h.reports_eq⟩
  simp [Outcome.map, h.result]

end Reads

namespace Meets

/-- Steps in a row halt where the first one does, or the second. -/
theorem andThen (laws : v.Laws policy) (h : Meets v o a ts ds es)
    (later : v.Ahead o.state ts → o.state.reports = ds → Meets v (next a o.state) b us fs es)
    (suffix : us <:+ ts) : Meets v (o.andThen next) b us fs es := by
  cases h with
  | made reads =>
    cases later reads.sees reads.reports_eq with
    | made reads' => exact .made (reads.andThen reads')
    | halted result halts reports_eq =>
      rw [Outcome.andThen_of_ok reads.result]
      exact .halted result halts reports_eq
  | halted result halts reports_eq =>
    rw [Outcome.andThen_of_error result]
    exact .halted rfl (laws.shorten suffix halts) reports_eq

theorem map (h : Meets v o a ts ds es) (f : α → β) : Meets v (o.map f) (f a) ts ds es := by
  cases h with
  | made reads => exact .made (reads.map f)
  | halted result halts reports_eq =>
    exact .halted (Outcome.result_map_eq_error_iff.2 result) halts reports_eq

end Meets

/-- A token that starts no statement is reported or passed over. -/
theorem statement_of_single (rules : Rules) (noLet : r.current.kind ≠ .keyword .letWord)
    (noReturn : r.current.kind ≠ .keyword .returnWord) :
    r.statement rules =
      if rules.reportStray ∧ r.current.kind ≠ .mark .semicolon then
        (r.report (.unexpected r.current .statement)).map fun _ => none
      else .done none r := by
  unfold statement
  split
  · contradiction
  · contradiction
  · next semicolon => rw [if_neg fun both => both.2 semicolon]
  · next hne =>
    by_cases stray : rules.reportStray = true
    · rw [if_pos stray, if_pos ⟨stray, hne⟩]
    · rw [if_neg stray, if_neg fun both => stray both.1]

end Reader

/-- What is left of a body after skipping, with the advance after it. -/
theorem Grammar.Closes.tail_dropWhile {body behind : List Token} (h : Closes body behind) :
    ((body ++ behind).dropWhile fun t => decide (t.kind ≠ .mark .semicolon)).tail = behind := by
  cases h with
  | @semicolon body behind t inside stop =>
    rw [List.append_assoc, List.dropWhile_append_of_pos (by simpa using inside)]
    simp [stop]
  | finish inside =>
    rw [List.dropWhile_append_of_pos (by simpa using inside), List.dropWhile_nil, List.tail_nil]

namespace Prospect.Laws

open Reader

variable {policy : Text} {v : Prospect} {r : Reader} {t u : Token} {ts : List Token}

/-- **Skipping takes off what is before the first semicolon.** -/
theorem skipToSemicolon (laws : v.Laws policy) (h : v.Ahead r ts) :
    Meets v (r.skipToSemicolon policy) ()
      (ts.dropWhile fun t => decide (t.kind ≠ .mark .semicolon)) r.reports r.reports := by
  rw [Reader.skipToSemicolon]
  induction ts generalizing r with
  | nil =>
    have eof : r.current.kind = .eof := congrArg Token.kind (laws.current_eq h)
    rw [if_neg (by rw [eof]; decide), if_pos eof]
    exact .made ⟨rfl, h, rfl⟩
  | cons t ts ih =>
    have hne : r.current.kind ≠ .eof := fun eof => by cases laws.eq_nil h eof
    obtain rfl : r.current = t := laws.current_eq h
    by_cases stop : r.current.kind = .mark .semicolon
    · rw [if_pos stop, List.dropWhile_cons, if_neg (by simpa using stop)]
      exact .made ⟨rfl, h, rfl⟩
    · rw [if_neg stop, if_neg hne, List.dropWhile_cons, if_pos (by simpa using stop)]
      refine (laws.advance h).andThen laws (fun advanced hreports => ?_) (List.dropWhile_suffix _)
      rw [← hreports, Reader.skipToSemicolon]
      exact ih advanced

/-- **A binding with no name** is given up before anything is drawn. -/
theorem letStatement_unnamed (laws : v.Laws policy) (h : v.Ahead r (t :: ts))
    (noName : (ts.headD .eof).kind ≠ .identifier) :
    Reads v.Ahead (r.letStatement policy) (.error (.unexpected (ts.headD .eof) .identifier))
      (t :: ts) r.reports := by
  rw [letStatement, laws.peek_eq h, if_neg noName]
  exact ⟨rfl, h, rfl⟩

/-- **A binding with no sign** is given up with its name in sight. -/
theorem letStatement_unassigned (laws : v.Laws policy) (h : v.Ahead r (t :: u :: ts))
    (isName : u.kind = .identifier) (noSign : (ts.headD .eof).kind ≠ .mark .assign) :
    Meets v (r.letStatement policy) (.error (.unexpected (ts.headD .eof) .assignment))
      (u :: ts) r.reports r.reports := by
  rw [letStatement, laws.peek_eq h, List.headD_cons, if_pos isName]
  refine (laws.advance h).andThen laws (fun named hreports => ?_) (List.suffix_refl _)
  rw [laws.peek_eq named, if_neg noSign]
  exact .made ⟨rfl, named, hreports⟩

/-- **A binding with a name and a sign** reads on to its semicolon. -/
theorem letStatement_binding {name sign : Token} (laws : v.Laws policy)
    (h : v.Ahead r (t :: name :: sign :: ts)) (isName : name.kind = .identifier)
    (isSign : sign.kind = .mark .assign) :
    Meets v (r.letStatement policy) (.ok (.binding t ⟨name⟩ ⟨ts.headD .eof⟩))
      (ts.dropWhile fun t => decide (t.kind ≠ .mark .semicolon)) r.reports r.reports := by
  have hskipped : ((sign :: ts).dropWhile fun t => decide (t.kind ≠ .mark .semicolon)) =
      ts.dropWhile fun t => decide (t.kind ≠ .mark .semicolon) := by
    rw [List.dropWhile_cons, if_pos (by simp [isSign])]
  have hcurrent : r.current = t := laws.current_eq h
  rw [letStatement, laws.peek_eq h, List.headD_cons, if_pos isName, hcurrent, ← hskipped]
  refine (laws.advance h).andThen laws (fun named hreports => ?_)
    ((List.dropWhile_suffix _).trans (List.suffix_cons _ _))
  have hname : (r.advance policy).state.current = name := laws.current_eq named
  rw [laws.peek_eq named, List.headD_cons, if_pos isSign, hname, ← hreports]
  refine (laws.advance named).andThen laws (fun assigned hreports => ?_) (List.dropWhile_suffix _)
  rw [laws.peek_eq assigned, ← hreports]
  exact (laws.skipToSemicolon assigned).map _

/-- **A returned value** reads on to its semicolon. -/
theorem returnStatement (laws : v.Laws policy) (h : v.Ahead r (t :: ts)) :
    Meets v (r.returnStatement policy) (.returning t ⟨ts.headD .eof⟩)
      (ts.dropWhile fun t => decide (t.kind ≠ .mark .semicolon)) r.reports r.reports := by
  have hcurrent : r.current = t := laws.current_eq h
  rw [Reader.returnStatement, hcurrent]
  refine (laws.advance h).andThen laws (fun started hreports => ?_) (List.dropWhile_suffix _)
  rw [laws.current_eq started, ← hreports]
  exact (laws.skipToSemicolon started).map _

/-- **A statement reads one production**, but for the advance after it. A
statement that halts reports nothing. -/
theorem statement {rules : Rules} (laws : v.Laws rules.policy) {p : Production}
    {behind : List Token} (fits : Grammar.Fits p behind) (h : v.Ahead r (p.span ++ behind)) :
    ∃ us : List Token, us.tail = behind ∧
      Meets v (r.statement rules) p.statement? us
        (r.reports ++ (p.report? rules.reportStray).toList) r.reports := by
  have hcurrent := laws.current_eq h
  have hquiet : r.reports ++ (none : Option Diagnostic).toList = r.reports := List.append_nil _
  cases fits with
  | @binding keyword target sign body behind isLet isName isSign closes =>
    have h : v.Ahead r (keyword :: target :: sign :: (body ++ behind)) := h
    obtain rfl : r.current = keyword := hcurrent
    have hlet := laws.letStatement_binding h isName isSign
    rw [closes.headD_append] at hlet
    -- Skipping stops at the semicolon, which is left to the advance.
    refine ⟨_, closes.tail_dropWhile, ?_⟩
    rw [Reader.statement, isLet]
    refine hlet.andThen laws (fun ahead hreports => ?_) (List.suffix_refl _)
    exact .made ⟨rfl, ahead, hreports.trans hquiet.symm⟩
  | @returning keyword body behind isReturn closes =>
    have h : v.Ahead r (keyword :: (body ++ behind)) := h
    obtain rfl : r.current = keyword := hcurrent
    have hreturn := laws.returnStatement h
    rw [closes.headD_append] at hreturn
    refine ⟨_, closes.tail_dropWhile, ?_⟩
    rw [Reader.statement, isReturn]
    exact hquiet.symm ▸ hreturn.map some
  | @unnamed keyword behind isLet noName =>
    obtain rfl : r.current = keyword := hcurrent
    have hlet := laws.letStatement_unnamed h noName
    -- The `let` is left to the advance, and what was found is behind it.
    refine ⟨r.current :: behind, rfl, .made ?_⟩
    rw [Reader.statement, isLet]
    refine hlet.andThen ⟨rfl, laws.report hlet.sees _, ?_⟩
    exact congrArg (· ++ [_]) hlet.reports_eq
  | @unassigned keyword target behind isLet isName noSign =>
    obtain rfl : r.current = keyword := hcurrent
    have hlet := laws.letStatement_unassigned h isName noSign
    -- The name is current by now, and it is left to the advance.
    refine ⟨target :: behind, rfl, ?_⟩
    rw [Reader.statement, isLet]
    refine hlet.andThen laws (fun ahead hreports => ?_) (List.suffix_refl _)
    exact .made ⟨rfl, laws.report ahead _, congrArg (· ++ [_]) hreports⟩
  | @single t behind noLet noReturn =>
    obtain rfl : r.current = t := hcurrent
    refine ⟨r.current :: behind, rfl, .made ?_⟩
    rw [statement_of_single rules noLet noReturn, Production.report?_single]
    split
    · exact ⟨rfl, laws.report h _, rfl⟩
    · exact ⟨rfl, h, hquiet.symm⟩

end Prospect.Laws

end ScriptReader
