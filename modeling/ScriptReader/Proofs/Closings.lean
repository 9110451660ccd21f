import ScriptReader.Proofs.Beginnings
import ScriptReader.Proofs.Synchronisation

/-!
# Closings — a semicolon at the end of a source

A source may end where a semicolon should stand. What the end broke off
is then the last thing that was read: a statement without a value, or a
report on the end (`Reading.ClosedBy`). With the semicolon in place the
statement has it for a value and the report is on it, and nothing else
changes. Each production but the last has a token behind it and stays
(`Grammar.closedBy_reading`), and the last is looked at case by case
(`Grammar.Fits.closedBy`). `read_closed` says so of a source.
-/

namespace ScriptReader

/-! ## What the end leaves open -/

namespace Reading

/-- **A reading that the end breaks nothing off.** -/
structure Complete (r : Reading) : Prop where
  /-- Every statement has a value. -/
  valued : ∀ s ∈ r.program.statements, s.value ≠ .eof
  /-- No report is on the end. -/
  located : ∀ d ∈ r.reports, d.location ≠ none

/-- **What becomes of a reading** when a token closes its source. -/
inductive ClosedBy (stop : Token) : Reading → Reading → Prop
  /-- Nothing was broken off, and nothing changes. -/
  | complete {r : Reading} (complete : r.Complete) : ClosedBy stop r r
  /-- The last statement had no value, and now the token is its value. -/
  | value {r : Reading} {s t : Statement} (before : r.Complete) (breaksOff : s.BreaksOff t)
      (value : t.value = stop) :
      ClosedBy stop (r.append ⟨⟨[s]⟩, []⟩) (r.append ⟨⟨[t]⟩, []⟩)
  /-- The last report was on the end, and now it is on the token. -/
  | report {r : Reading} (before : r.Complete) (needed : Expected) :
      ClosedBy stop (r.append ⟨⟨[]⟩, [.unexpected .eof needed]⟩)
        (r.append ⟨⟨[]⟩, [.unexpected stop needed]⟩)

variable {r s t : Reading} {stop : Token}

theorem append_empty (r : Reading) : r.append ⟨⟨[]⟩, []⟩ = r := by
  unfold append
  rw [List.append_nil, List.append_nil]

theorem append_assoc (r s t : Reading) : (r.append s).append t = r.append (s.append t) := by
  unfold append
  rw [List.append_assoc, List.append_assoc]

theorem complete_empty : Complete ⟨⟨[]⟩, []⟩ :=
  ⟨List.forall_mem_nil _, List.forall_mem_nil _⟩

theorem Complete.append (hr : r.Complete) (hs : s.Complete) : (r.append s).Complete := by
  refine ⟨?_, ?_⟩
  · intro x hx
    rcases List.mem_append.1 hx with hx | hx
    · exact hr.valued x hx
    · exact hs.valued x hx
  · intro d hd
    rcases List.mem_append.1 hd with hd | hd
    · exact hr.located d hd
    · exact hs.located d hd

/-- **What was read before** stays in front. -/
theorem ClosedBy.append (hr : r.Complete) (h : s.ClosedBy stop t) :
    (r.append s).ClosedBy stop (r.append t) := by
  cases h with
  | complete complete => exact .complete (hr.append complete)
  | value before breaksOff value =>
    rw [← append_assoc, ← append_assoc]
    exact .value (hr.append before) breaksOff value
  | report before needed =>
    rw [← append_assoc, ← append_assoc]
    exact .report (hr.append before) needed

/-- **Closing a source adds nothing** and takes nothing away. -/
theorem ClosedBy.length_eq (h : s.ClosedBy stop t) :
    s.program.statements.length = t.program.statements.length ∧
      s.reports.length = t.reports.length := by
  cases h with
  | complete => exact ⟨rfl, rfl⟩
  | value => simp [Reading.append]
  | report => simp [Reading.append]

end Reading

/-- What one production is read to. -/
def Production.reading (reportStray : Bool) (p : Production) : Reading :=
  ⟨⟨p.statement?.toList⟩, (p.report? reportStray).toList⟩

namespace Grammar

variable {p : Production} {ts body behind : List Token} {stop : Token} (reportStray : Bool)

/-! ## Productions one by one -/

/-- **A production is read**, and then what is behind it. -/
theorem reading_of_fits (fits : Fits p behind) : reading reportStray (p.span ++ behind) =
    (p.reading reportStray).append (reading reportStray behind) := by
  rw [reading, statements, reports, productions_of_fits fits, Reader.filterMap_cons_eq_append,
    Reader.filterMap_cons_eq_append]
  rfl

theorem reading_nil : reading reportStray [] = ⟨⟨[]⟩, []⟩ := by
  rw [reading, statements, reports, productions_nil, List.filterMap_nil, List.filterMap_nil]

/-- A production at the end is all that is read. -/
theorem reading_span (fits : Fits p []) : reading reportStray p.span = p.reading reportStray := by
  have hread := reading_of_fits reportStray fits
  rwa [List.append_nil, reading_nil, Reading.append_empty] at hread

/-- A semicolon alone is nothing, and it is never reported. -/
theorem reading_stop (isStop : stop.kind = .mark .semicolon) :
    reading reportStray [stop] = ⟨⟨[]⟩, []⟩ := by
  have fits : Fits (.single stop) [] := .single (by rw [isStop]; decide) (by rw [isStop]; decide)
  have silent : (Production.single stop).report? reportStray = none :=
    if_neg fun h => h.2 isStop
  have hread := reading_span reportStray fits
  rwa [Production.reading, silent] at hread

/-- So a production that a semicolon may stand behind is read as it was. -/
theorem reading_append_stop (isStop : stop.kind = .mark .semicolon) (fits : Fits p [stop]) :
    reading reportStray (p.span ++ [stop]) = p.reading reportStray := by
  rw [reading_of_fits reportStray fits, reading_stop reportStray isStop, Reading.append_empty]

/-! ## Productions that are complete -/

theorem Closes.ne_nil (h : Closes body behind) (hne : behind ≠ []) : body ≠ [] := by
  cases h with
  | semicolon inside stop => exact List.concat_ne_nil _ _
  | finish inside => exact absurd rfl hne

theorem headD_ne_eof (located : ∀ t ∈ body, t.location ≠ none) (hne : body ≠ []) :
    body.headD .eof ≠ .eof := by
  obtain ⟨t, rest, rfl⟩ := List.exists_cons_of_ne_nil hne
  intro h
  exact located t (.head rest) (congrArg Token.location h)

/-- **A production with a token behind it** is complete. -/
theorem Fits.complete (fits : Fits p behind) (hne : behind ≠ [])
    (located : ∀ t ∈ p.span ++ behind, t.location ≠ none) :
    (p.reading reportStray).Complete := by
  refine ⟨?_, fun d hd => fits.location_ne_none hne located (Option.mem_toList.1 hd)⟩
  intro s hs
  have hs := Option.mem_toList.1 hs
  cases fits with
  | @binding keyword target sign body behind _ _ _ closes =>
    cases hs
    refine headD_ne_eof (fun t ht => located t ?_) (closes.ne_nil hne)
    simp [Production.span, ht]
  | @returning keyword body behind _ closes =>
    cases hs
    refine headD_ne_eof (fun t ht => located t ?_) (closes.ne_nil hne)
    simp [Production.span, ht]
  | unnamed => cases hs
  | unassigned => cases hs
  | single => cases hs

/-! ## The production at the end -/

/-- A statement that is not closed has its value, or the token that closes
it becomes the value. -/
theorem closedBy_body (statement : Token → Statement)
    (breaksOff : ∀ value, (statement .eof).BreaksOff (statement value))
    (valued : ∀ value, (statement value).value = value)
    (located : ∀ t ∈ body, t.location ≠ none) :
    Reading.ClosedBy stop ⟨⟨[statement (body.headD .eof)]⟩, []⟩
      ⟨⟨[statement ((body ++ [stop]).headD .eof)]⟩, []⟩ := by
  cases body with
  | nil => exact .value Reading.complete_empty (breaksOff stop) (valued stop)
  | cons t body =>
    refine .complete ⟨List.forall_mem_singleton.2 ?_, List.forall_mem_nil _⟩
    rw [valued]
    exact headD_ne_eof located (List.cons_ne_nil t body)

/-- **The last production is closed** by a semicolon behind it. -/
theorem Fits.closedBy (fits : Fits p []) (isStop : stop.kind = .mark .semicolon)
    (located : ∀ t ∈ p.span ++ [stop], t.location ≠ none) :
    (p.reading reportStray).ClosedBy stop (reading reportStray (p.span ++ [stop])) := by
  -- What may have the semicolon behind it is complete as it is.
  have stays : Fits p [stop] →
      (p.reading reportStray).ClosedBy stop (reading reportStray (p.span ++ [stop])) := by
    intro settled
    rw [reading_append_stop reportStray isStop settled]
    exact .complete (settled.complete reportStray (List.cons_ne_nil _ _) located)
  cases fits with
  | @binding keyword target sign body _ isLet isName isSign closes =>
    cases closes with
    | semicolon inside stop => exact stays (.binding isLet isName isSign (.semicolon inside stop))
    | finish inside =>
      have closed : Fits (.binding keyword target sign (body ++ [stop])) [] :=
        .binding isLet isName isSign (.semicolon inside isStop)
      show Reading.ClosedBy stop _
        (reading reportStray (Production.binding keyword target sign (body ++ [stop])).span)
      rw [reading_span reportStray closed]
      exact closedBy_body (fun value => .binding keyword ⟨target⟩ ⟨value⟩)
        (.binding keyword ⟨target⟩) (fun _ => rfl)
        fun t ht => located t (by simp [Production.span, ht])
  | @returning keyword body _ isReturn closes =>
    cases closes with
    | semicolon inside stop => exact stays (.returning isReturn (.semicolon inside stop))
    | finish inside =>
      have closed : Fits (.returning keyword (body ++ [stop])) [] :=
        .returning isReturn (.semicolon inside isStop)
      show Reading.ClosedBy stop _
        (reading reportStray (Production.returning keyword (body ++ [stop])).span)
      rw [reading_span reportStray closed]
      exact closedBy_body (fun value => .returning keyword ⟨value⟩)
        (.returning keyword) (fun _ => rfl)
        fun t ht => located t (by simp [Production.span, ht])
  | @unnamed keyword _ isLet noName =>
    have fits : Fits (.unnamed keyword stop) [stop] :=
      @Fits.unnamed keyword [stop] isLet (by rw [List.headD_cons, isStop]; decide)
    show Reading.ClosedBy stop _
      (reading reportStray ((Production.unnamed keyword stop).span ++ [stop]))
    rw [reading_append_stop reportStray isStop fits]
    exact .report Reading.complete_empty .identifier
  | @unassigned keyword target _ isLet isName noSign =>
    have fits : Fits (.unassigned keyword target stop) [stop] :=
      @Fits.unassigned keyword target [stop] isLet isName
        (by rw [List.headD_cons, isStop]; decide)
    show Reading.ClosedBy stop _
      (reading reportStray ((Production.unassigned keyword target stop).span ++ [stop]))
    rw [reading_append_stop reportStray isStop fits]
    exact .report Reading.complete_empty .assignment
  | single noLet noReturn => exact stays (.single noLet noReturn)

/-- **A semicolon behind tokens** closes what they are read to. -/
theorem closedBy_reading (isStop : stop.kind = .mark .semicolon)
    (located : ∀ t ∈ ts ++ [stop], t.location ≠ none) :
    (reading reportStray ts).ClosedBy stop (reading reportStray (ts ++ [stop])) := by
  have derives := derives_productions ts
  generalize productions ts = ps at derives
  induction derives with
  | nil =>
    rw [List.nil_append, reading_nil, reading_stop reportStray isStop]
    exact .complete Reading.complete_empty
  | @cons p behind ps fits later ih =>
    -- Only a production with nothing behind it can be open.
    by_cases hnil : behind = []
    · subst hnil
      rw [List.append_nil] at located ⊢
      rw [reading_span reportStray fits]
      exact fits.closedBy reportStray isStop located
    · have complete := fits.complete reportStray hnil fun t ht =>
        located t (List.mem_append_left _ ht)
      rw [reading_of_fits reportStray fits, List.append_assoc,
        reading_of_fits reportStray (fits.append_of_ne_nil hnil [stop])]
      refine .append complete (ih fun t ht => located t ?_)
      rw [List.append_assoc]
      exact List.mem_append_right _ ht

end Grammar

/-! ## A semicolon at the end of a source -/

/-- The semicolon behind a source. -/
def Token.closing (source : Text) : Token where
  kind := .mark .semicolon
  location := some source.size
  raw := ";"

theorem tokens_append_semicolon (policy : Text) {a : Text}
    (clear : (Cursor.ofText a).refusal? = none) :
    (Cursor.ofText (a ++ [.semicolon])).tokens policy =
      (Cursor.ofText a).tokens policy ++ [.closing a] := by
  have moved : Token.shift a.size
      { kind := .mark .semicolon, location := some 0, raw := Mark.spelling .semicolon } =
        .closing a := by
    rw [Token.shift, Token.closing, Option.map_some, Int.zero_add]
    rfl
  rw [Cursor.tokens_append policy (seam_semicolon_right a) clear, tokens_semicolon,
    List.map_singleton, moved]

/-- **A missing semicolon at the end is harmless.** Where a source is
readable, it is read with a semicolon behind it to as many statements and
reports. They are the same, but that the last statement may have the
semicolon for a value where it had none, or the last report may be on the
semicolon where it was on the end. -/
theorem read_closed (o : Options) {a : Text} (readable : a.Readable) :
    ∃ first closed, (o.read a).result = .ok first ∧
      (o.read (a ++ [.semicolon])).result = .ok closed ∧
      first.program.statements.length = closed.program.statements.length ∧
      first.reports.length = closed.reports.length ∧ first.ClosedBy (.closing a) closed := by
  have clear : (Cursor.ofText a).refusal? = none := readable_iff.1 readable
  have clear' : (Cursor.ofText (a ++ [.semicolon])).refusal? = none := by
    rw [Cursor.refusal_append (seam_semicolon_right a), clear, Option.none_or, Cursor.refusal?,
      places_semicolon]
    rfl
  have located := Cursor.located_tokens o.overflow (.ofText (a ++ [.semicolon]))
  have tokens := tokens_append_semicolon o.overflow clear
  rw [tokens] at located
  have closedBy := @Grammar.closedBy_reading _ (.closing a) o.reportStray rfl
    located.location_ne_none
  obtain ⟨statements, reports⟩ := closedBy.length_eq
  exact ⟨_, _, result_read_eq_ok_iff.2 ⟨clear, rfl⟩,
    result_read_eq_ok_iff.2 ⟨clear', congrArg _ tokens⟩, statements, reports, closedBy⟩

/-- A malformed binding, and a return that ends before its value. -/
theorem read_closed_return :
    Text.Readable "let 1; return" ∧
      ∃ first closed, (Options.standard.read "let 1; return").result = .ok first ∧
        (Options.standard.read "let 1; return;").result = .ok closed ∧
        first.ClosedBy (.closing "let 1; return") closed ∧
        first.reports.length = 1 ∧ closed.reports.length = 1 ∧
        first.program.statements.map Statement.value = [.eof] ∧
        closed.program.statements.map Statement.value =
          [⟨.mark .semicolon, some 13, ";", none⟩] := by
  have readable : Text.Readable "let 1; return" := readable_of_length_le (by decide)
  obtain ⟨first, closed, hfirst, hclosed, -, -, closedBy⟩ := read_closed .standard readable
  obtain ⟨-, rfl⟩ := result_read_eq_ok_iff.1 hfirst
  obtain ⟨-, rfl⟩ := result_read_eq_ok_iff.1 hclosed
  refine ⟨readable, _, _, hfirst, hclosed, closedBy, ?_, ?_, ?_, ?_⟩ <;> decide +kernel

end ScriptReader
