import ScriptReader.Proofs.Locations
import ScriptReader.Proofs.Positions
import ScriptReader.Proofs.Refinement

/-!
# Spans — where the statements of a source stand

A statement stands at the index of its reserved word and goes up to the
first semicolon behind it (`Grammar.terminator`). `Partition` says what
there is to say of the statements of a reading among the tokens of its
source: each is found where it stands, they stand in order and apart,
every `return` is inside one of them, and every `let` is, or is
complained about, once and by itself. `read_partition` is the theorem for
a source.
-/

namespace ScriptReader

/-- A statement, with the indices of its first and its last token. -/
structure Span where
  start : Nat
  stop : Nat
  statement : Statement
deriving DecidableEq

namespace Span

/-- Whether an index is inside a span. -/
def Holds (s : Span) (k : Nat) : Prop := s.start ≤ k ∧ k ≤ s.stop

end Span

/-- **The tokens of a statement**, read from an index on. A value that is
not there is the end. -/
def Statement.StandsAt (ts : List Token) (k : Nat) : Statement → Prop
  | binding keyword target value =>
    ts[k]? = some keyword ∧ keyword.kind = .keyword .letWord ∧
      ts[k + 1]? = some target.token ∧ target.token.kind = .identifier ∧
      (ts.getD (k + 2) .eof).kind = .mark .assign ∧ value.token = ts.getD (k + 3) .eof
  | returning keyword value =>
    ts[k]? = some keyword ∧ keyword.kind = .keyword .returnWord ∧
      value.token = ts.getD (k + 1) .eof

namespace Grammar

/-- Whether a token ends a statement. -/
def ends (t : Token) : Bool := decide (t.kind = .mark .semicolon)

/-- The index of the first semicolon behind an index, or of the end if
there is none. -/
def terminator (ts : List Token) (k : Nat) : Nat := k + 1 + (ts.drop (k + 1)).findIdx ends

/-- What is wrong with the binding that a `let` starts, if something is. -/
def complaint (ts : List Token) (k : Nat) : Diagnostic :=
  let found := ts.getD (k + 1) .eof
  if found.kind = .identifier then .unexpected (ts.getD (k + 2) .eof) .assignment
  else .unexpected found .identifier

end Grammar

/-- **How the statements of a reading divide the tokens of its source.** -/
structure Partition (ts : List Token) (reading : Reading) (spans : List Span) : Prop where
  /-- The spans are those of the statements, in order. -/
  statements : spans.map Span.statement = reading.program.statements
  /-- Each is found where it stands. -/
  stands : ∀ s ∈ spans, s.statement.StandsAt ts s.start
  /-- It goes on behind its first token. -/
  start_lt_stop : ∀ s ∈ spans, s.start < s.stop
  /-- No semicolon is inside. -/
  inside : ∀ s ∈ spans, ∀ k, s.start < k → k < s.stop →
    (ts.getD k .eof).kind ≠ .mark .semicolon
  /-- It stops at a semicolon, or else at the end. -/
  stops : ∀ s ∈ spans, (ts.getD s.stop .eof).kind = .mark .semicolon ∨ s.stop = ts.length
  /-- Spans are in order and apart. -/
  ordered : spans.Pairwise fun s t => s.stop < t.start
  /-- Only the last stops at the end. -/
  last : ∀ s ∈ spans.dropLast, s.stop < ts.length
  /-- A name is a word, and none of the reserved ones. -/
  names : ∀ keyword target value, .binding keyword target value ∈ reading.program.statements →
    target.token.literal.isWord = true ∧ Keyword.ofText? target.token.literal = none
  /-- A `return` starts a statement or is inside one. -/
  returns : ∀ k, (ts.getD k .eof).kind = .keyword .returnWord → ∃ s ∈ spans, s.Holds k
  /-- A `let` that does neither lacks a name or the sign after it. -/
  lacks : ∀ k, (ts.getD k .eof).kind = .keyword .letWord → (∀ s ∈ spans, ¬ s.Holds k) →
    (ts.getD (k + 1) .eof).kind = .identifier → (ts.getD (k + 2) .eof).kind ≠ .mark .assign
  /-- It is complained about by one report. -/
  lets : ∀ k, (ts.getD k .eof).kind = .keyword .letWord → (∀ s ∈ spans, ¬ s.Holds k) →
    reading.reports.count (Grammar.complaint ts k) = 1
  /-- That report complains about no other `let`. -/
  distinct : ∀ k l, (ts.getD k .eof).kind = .keyword .letWord →
    (ts.getD l .eof).kind = .keyword .letWord →
    Grammar.complaint ts k = Grammar.complaint ts l → k = l

namespace Grammar

variable {ts : List Token} {k : Nat} {q : Placed}

/-! ## Terminators -/

theorem getD_add (ts : List Token) (k i : Nat) :
    ts.getD (k + i) .eof = (ts.drop k).getD i .eof := by
  rw [List.getD_eq_getElem?_getD, List.getD_eq_getElem?_getD, List.getElem?_drop]

theorem kind_ne_of_lt_terminator {i : Nat} (gt : k < i) (lt : i < terminator ts k) :
    (ts.getD i .eof).kind ≠ .mark .semicolon := by
  obtain ⟨j, rfl⟩ : ∃ j, i = k + 1 + j := ⟨i - (k + 1), by omega⟩
  have hj : j < (ts.drop (k + 1)).findIdx ends := by
    unfold terminator at lt
    omega
  have hlen : j < (ts.drop (k + 1)).length := Nat.lt_of_lt_of_le hj List.findIdx_le_length
  have hno := List.not_of_lt_findIdx hj
  rw [getD_add, ← @List.getElem_eq_getD _ _ _ hlen]
  simpa [ends] using hno

theorem kind_terminator (h : k < ts.length) :
    (ts.getD (terminator ts k) .eof).kind = .mark .semicolon ∨ terminator ts k = ts.length := by
  have hle : (ts.drop (k + 1)).findIdx ends ≤ (ts.drop (k + 1)).length := List.findIdx_le_length
  rcases Nat.lt_or_eq_of_le hle with hlt | heq
  · left
    have hyes := List.findIdx_getElem (w := hlt)
    rw [terminator, getD_add, ← @List.getElem_eq_getD _ _ _ hlt]
    simpa [ends] using hyes
  · right
    rw [List.length_drop] at heq
    rw [terminator, heq]
    omega

/-- A semicolon is found behind what holds none. -/
theorem findIdx_ends {run : List Token} (inside : ∀ u ∈ run, u.kind ≠ .mark .semicolon)
    (rest : List Token) : (run ++ rest).findIdx ends = run.length + rest.findIdx ends := by
  have hnone : run.findIdx ends = run.length :=
    List.findIdx_eq_length_of_false fun u hu => by simpa [ends] using inside u hu
  rw [List.findIdx_append, hnone, if_neg (Nat.lt_irrefl _), Nat.add_comm]

/-- **A body is closed by the terminator.** -/
theorem terminator_of_closes (h : q.Stands ts) {keyword : Token} {inner body : List Token}
    (span : q.production.span = keyword :: (inner ++ body))
    (before : ∀ u ∈ inner, u.kind ≠ .mark .semicolon) (closes : Closes body (ts.drop q.stop)) :
    q.stop = terminator ts q.start + 1 ∨ q.stop = terminator ts q.start ∧ q.stop = ts.length := by
  have hlen : q.production.span.length = 1 + inner.length + body.length := by
    rw [span, List.length_cons, List.length_append]
    omega
  have hdrop : ts.drop (q.start + 1) = inner ++ (body ++ ts.drop q.stop) := by
    rw [h.drop_add (by omega), span, List.drop_one, List.tail_cons, List.append_assoc]
  have hfind : terminator ts q.start =
      q.start + 1 + (inner.length + (body ++ ts.drop q.stop).findIdx ends) := by
    rw [← findIdx_ends before, ← hdrop]
    rfl
  have hstop : q.stop = q.start + (1 + inner.length + body.length) := by rw [Placed.stop, hlen]
  generalize hbehind : ts.drop q.stop = behind at closes hfind
  cases closes with
  | @semicolon run behind t inside stop =>
    left
    have hends : (t :: behind).findIdx ends = 0 := by simp [List.findIdx_cons, ends, stop]
    rw [List.append_assoc, List.singleton_append, findIdx_ends inside, hends] at hfind
    rw [List.length_append, List.length_singleton] at hstop
    omega
  | finish inside =>
    right
    have hends := findIdx_ends inside []
    rw [List.findIdx_nil] at hends
    have hall := List.drop_eq_nil_iff.1 hbehind
    have hle := h.stop_le
    rw [hends] at hfind
    omega

/-! ## Spans -/

/-- The span of a production, if it is a statement. -/
def span? (ts : List Token) (q : Placed) : Option Span :=
  q.production.statement?.map fun s => ⟨q.start, terminator ts q.start, s⟩

/-- The spans of the statements of tokens. -/
def spans (ts : List Token) : List Span := (arrangement ts).filterMap (span? ts)

theorem map_statement_spans (ts : List Token) : (spans ts).map Span.statement = statements ts := by
  rw [statements, ← map_production_arrangement, spans, List.map_filterMap, List.filterMap_map]
  refine congrArg (List.filterMap · _) (funext fun q => ?_)
  rw [span?, Option.map_map]
  exact Option.map_id'

theorem exists_of_mem_spans {s : Span} (h : s ∈ spans ts) :
    ∃ q ∈ arrangement ts, q.Stands ts ∧ q.production.statement? = some s.statement ∧
      s.start = q.start ∧ s.stop = terminator ts q.start := by
  obtain ⟨q, hq, hs⟩ := List.mem_filterMap.1 h
  obtain ⟨statement, hstatement, rfl⟩ := Option.map_eq_some_iff.1 hs
  exact ⟨q, hq, stands_of_mem_arrangement hq, hstatement, rfl, rfl⟩

/-- **A statement ends with its terminator**, or with all tokens. -/
theorem stop_of_statement (h : q.Stands ts) {s : Statement}
    (hs : q.production.statement? = some s) :
    q.stop = terminator ts q.start + 1 ∨ q.stop = terminator ts q.start ∧ q.stop = ts.length := by
  have fits := h.fits
  generalize hp : q.production = p at fits hs
  generalize hbehind : ts.drop q.stop = behind at fits
  cases fits with
  | @binding keyword target sign body behind isLet isName isSign closes =>
    refine @terminator_of_closes _ _ h keyword [target, sign] body (by rw [hp]; rfl) ?_
      (hbehind ▸ closes)
    simp [isName, isSign]
  | @returning keyword body behind isReturn closes =>
    exact @terminator_of_closes _ _ h keyword [] body (by rw [hp]; rfl) (by simp) (hbehind ▸ closes)
  | unnamed => cases hs
  | unassigned => cases hs
  | single => cases hs

/-- **A statement stands where its production does.** -/
theorem standsAt_of_statement (h : q.Stands ts) {s : Statement}
    (hs : q.production.statement? = some s) : s.StandsAt ts q.start := by
  have fits := h.fits
  have tokens := h.tokens
  generalize ts.drop q.stop = behind at fits tokens
  generalize q.production = p at fits hs tokens
  have at_add : ∀ i, ts[q.start + i]? = (p.span ++ behind)[i]? := by
    intro i
    rw [← List.getElem?_drop, tokens]
  have value_eq : ∀ {i : Nat} {front body : List Token}, p.span = front ++ body →
      front.length = i → Closes body behind → ts.getD (q.start + i) .eof = body.headD .eof := by
    rintro i front body hspan rfl closes
    rw [List.getD_eq_getElem?_getD, at_add, hspan, List.append_assoc, List.getElem?_append_right
      (Nat.le_refl _), Nat.sub_self, ← closes.headD_append, List.headD_eq_getD,
      List.getD_eq_getElem?_getD]
  cases fits with
  | @binding keyword target sign body behind isLet isName isSign closes =>
    cases hs
    refine ⟨at_add 0, isLet, at_add 1, isName, ?_, ?_⟩
    · rw [List.getD_eq_getElem?_getD, at_add 2]
      exact isSign
    · exact (@value_eq 3 [keyword, target, sign] body rfl rfl closes).symm
  | @returning keyword body behind isReturn closes =>
    cases hs
    exact ⟨at_add 0, isReturn, (@value_eq 1 [keyword] body rfl rfl closes).symm⟩
  | unnamed => cases hs
  | unassigned => cases hs
  | single => cases hs

/-- The tokens of a statement are inside its span. -/
theorem exists_holds_of_statement (hq : q ∈ arrangement ts) {s : Statement}
    (hs : q.production.statement? = some s) (ge : q.start ≤ k) (lt : k < q.stop) :
    ∃ s ∈ spans ts, s.Holds k := by
  refine ⟨⟨q.start, terminator ts q.start, s⟩, List.mem_filterMap.2 ⟨q, hq, ?_⟩, ge, ?_⟩
  · rw [span?, hs]
    rfl
  · obtain hstop | hstop := stop_of_statement (stands_of_mem_arrangement hq) hs
    · show k ≤ terminator ts q.start
      omega
    · show k ≤ terminator ts q.start
      omega

/-- **Spans are in order and apart.** -/
theorem pairwise_spans (ts : List Token) : (spans ts).Pairwise fun s t => s.stop < t.start := by
  rw [spans, List.pairwise_filterMap]
  refine (pairwise_arrangement ts).imp_of_mem ?_
  intro q r hq hr hle s hs t ht
  obtain ⟨statement, hstatement, rfl⟩ := Option.map_eq_some_iff.1 hs
  obtain ⟨_, -, rfl⟩ := Option.map_eq_some_iff.1 ht
  have hnext : r.start < ts.length :=
    Nat.lt_of_lt_of_le r.start_lt_stop (stands_of_mem_arrangement hr).stop_le
  show terminator ts q.start < r.start
  -- A statement that goes on to the end has nothing behind it.
  obtain hstop | hstop := stop_of_statement (stands_of_mem_arrangement hq) hstatement
  · omega
  · omega

/-! ## Reserved words -/

/-- **A `return` is part of a statement.** -/
theorem statement_of_return (h : q.Stands ts) (ge : q.start ≤ k) (lt : k < q.stop)
    (isReturn : (ts.getD k .eof).kind = .keyword .returnWord) :
    ∃ s, q.production.statement? = some s := by
  obtain ⟨t, hmem, ht⟩ := h.getElem?_mem_span ge lt
  rw [List.getD_eq_getElem?_getD, ht, Option.getD_some] at isReturn
  have fits := h.fits
  generalize q.production = p at fits hmem
  cases fits with
  | binding => exact ⟨_, rfl⟩
  | returning => exact ⟨_, rfl⟩
  | unnamed isLet noName =>
    obtain rfl := List.mem_singleton.1 hmem
    rw [isReturn] at isLet
    cases isLet
  | unassigned isLet isName noSign =>
    obtain rfl | hmem := List.mem_cons.1 hmem
    · rw [isReturn] at isLet
      cases isLet
    · obtain rfl := List.mem_singleton.1 hmem
      rw [isReturn] at isName
      cases isName
  | single noLet noReturn =>
    obtain rfl := List.mem_singleton.1 hmem
    exact absurd isReturn noReturn

theorem complaint_of_no_name (h : (ts.getD (k + 1) .eof).kind ≠ .identifier) :
    complaint ts k = .unexpected (ts.getD (k + 1) .eof) .identifier := by
  rw [complaint]
  exact if_neg h

theorem complaint_of_name (h : (ts.getD (k + 1) .eof).kind = .identifier) :
    complaint ts k = .unexpected (ts.getD (k + 2) .eof) .assignment := by
  rw [complaint]
  exact if_pos h

/-- **A `let` is part of a statement**, or it starts a production that
lacks something and whose report is its complaint. -/
theorem statement_or_report_of_let (h : q.Stands ts) (ge : q.start ≤ k) (lt : k < q.stop)
    (isLet : (ts.getD k .eof).kind = .keyword .letWord) (reportStray : Bool) :
    (∃ s, q.production.statement? = some s) ∨
      q.start = k ∧ q.production.report? reportStray = some (complaint ts k) ∧
        ((ts.getD (k + 1) .eof).kind = .identifier →
          (ts.getD (k + 2) .eof).kind ≠ .mark .assign) := by
  obtain ⟨t, mem, ht⟩ := h.getElem?_mem_span ge lt
  rw [List.getD_eq_getElem?_getD, ht, Option.getD_some] at isLet
  have fits := h.fits
  have tokens := h.tokens
  have hstop : q.stop = q.start + q.production.span.length := rfl
  have hfound := headD_drop ts q.stop
  generalize ts.drop q.stop = behind at fits tokens hfound
  generalize q.production = p at fits mem hstop tokens
  cases fits with
  | binding => exact .inl ⟨_, rfl⟩
  | returning => exact .inl ⟨_, rfl⟩
  | @unnamed keyword behind _ noName =>
    have hstop : q.stop = q.start + 1 := hstop
    obtain rfl : q.start = k := by omega
    rw [hfound, hstop] at noName
    refine .inr ⟨rfl, ?_, fun name => absurd name noName⟩
    rw [complaint_of_no_name noName, ← hstop, ← hfound]
    rfl
  | @unassigned keyword target behind _ isName noSign =>
    have hstop : q.stop = q.start + 2 := hstop
    have htarget : ts[q.start + 1]? = some target := by
      rw [← List.getElem?_drop, tokens]
      rfl
    -- The name is no `let`, so the `let` is the first of the two tokens.
    obtain rfl : q.start = k := by
      refine Nat.le_antisymm ge (Nat.le_of_not_lt fun hlt => ?_)
      obtain rfl : k = q.start + 1 := by omega
      rw [htarget, Option.some.injEq] at ht
      rw [← ht, isName] at isLet
      cases isLet
    have hname : (ts.getD (q.start + 1) .eof).kind = .identifier := by
      rw [List.getD_eq_getElem?_getD, htarget]
      exact isName
    rw [hfound, hstop] at noSign
    refine .inr ⟨rfl, ?_, fun _ => noSign⟩
    rw [complaint_of_name hname, ← hstop, ← hfound]
    rfl
  | single noLet noReturn =>
    obtain rfl := List.mem_singleton.1 mem
    exact absurd isLet noLet

end Grammar

/-! ## Complaints -/

theorem Expected.eq_of_text_eq {a b : Expected} (h : a.text = b.text) : a = b := by
  revert h
  cases a <;> cases b <;> decide

/-- What a report on a token says is needed is known by its wording. -/
theorem Diagnostic.needed_eq {t : Token} {a b : Expected} (h : unexpected t a = unexpected t b) :
    a = b := by
  have message : (unexpected t a).message = (unexpected t b).message := congrArg _ h
  exact Expected.eq_of_text_eq (List.append_cancel_left message)

/-- **A report tells the index that it is about**, among tokens in order,
and what is needed there. -/
theorem Located.unexpected_inj {ts : List Token} (located : Located ts) {i j : Nat}
    {a b : Expected}
    (h : Diagnostic.unexpected (ts.getD i .eof) a = .unexpected (ts.getD j .eof) b) :
    a = b ∧ (i = j ∨ ts.length ≤ i ∧ ts.length ≤ j) := by
  have hindex := located.eq_of_location_eq (congrArg Diagnostic.location h)
  refine ⟨?_, hindex⟩
  have htoken : ts.getD i .eof = ts.getD j .eof := by
    obtain rfl | ⟨hi, hj⟩ := hindex
    · rfl
    · rw [List.getD_eq_getElem?_getD, List.getD_eq_getElem?_getD, List.getElem?_eq_none hi,
        List.getElem?_eq_none hj]
  rw [htoken] at h
  exact Diagnostic.needed_eq h

namespace Grammar

variable {ts : List Token} {k l : Nat} {q : Placed} {d : Diagnostic} {reportStray : Bool}

/-- **A report on the binding at an index**: on the token after its `let`,
or on the one after the name. -/
def Blames (ts : List Token) (k : Nat) (d : Diagnostic) : Prop :=
  k < ts.length ∧ d = .unexpected (ts.getD (k + 1) .eof) .identifier ∨
    k + 1 < ts.length ∧ d = .unexpected (ts.getD (k + 2) .eof) .assignment

theorem lt_length_of_kind_ne_eof {i : Nat} (h : (ts.getD i .eof).kind ≠ .eof) : i < ts.length := by
  refine Nat.lt_of_not_le fun hle => h ?_
  rw [List.getD_eq_getElem?_getD, List.getElem?_eq_none hle]
  rfl

theorem blames_complaint (h : k < ts.length) : Blames ts k (complaint ts k) := by
  by_cases name : (ts.getD (k + 1) .eof).kind = .identifier
  · have hlt : k + 1 < ts.length := lt_length_of_kind_ne_eof (by rw [name]; decide)
    exact .inr ⟨hlt, complaint_of_name name⟩
  · exact .inl ⟨h, complaint_of_no_name name⟩

/-- **A report blames one binding**, also when it is on the end. -/
theorem Blames.index_eq (located : Located ts) (hk : Blames ts k d) (hl : Blames ts l d) :
    k = l := by
  obtain ⟨hk, rfl⟩ | ⟨hk, rfl⟩ := hk
  · obtain ⟨hl, heq⟩ | ⟨hl, heq⟩ := hl
    · have hindex := (located.unexpected_inj heq).2
      omega
    · cases (located.unexpected_inj heq).1
  · obtain ⟨hl, heq⟩ | ⟨hl, heq⟩ := hl
    · cases (located.unexpected_inj heq).1
    · have hindex := (located.unexpected_inj heq).2
      omega

/-- A report blames the binding that it is made at, if it blames any. -/
theorem start_eq_of_blames (located : Located ts) (h : q.Stands ts)
    (report : q.production.report? reportStray = some d) (blames : Blames ts k d) :
    q.start = k := by
  have fits := h.fits
  have hstop : q.stop = q.start + q.production.span.length := rfl
  have hle := h.stop_le
  have hfound := headD_drop ts q.stop
  have tokens := h.tokens
  generalize ts.drop q.stop = behind at fits hfound tokens
  generalize q.production = p at fits report hstop tokens
  cases fits with
  | binding => cases report
  | returning => cases report
  | unnamed =>
    cases report
    have hstop : q.stop = q.start + 1 := hstop
    rw [hfound, hstop] at blames
    exact Blames.index_eq located (.inl ⟨by omega, rfl⟩) blames
  | unassigned =>
    cases report
    have hstop : q.stop = q.start + 2 := hstop
    rw [hfound, hstop] at blames
    exact Blames.index_eq located (.inr ⟨by omega, rfl⟩) blames
  | @single t =>
    -- A report on a token that starts no statement blames no binding.
    have htoken : ts.getD q.start .eof = t := by
      rw [← headD_drop, tokens]
      rfl
    have hd : .unexpected t .statement = d := by
      rw [Production.report?_single] at report
      split at report
      · exact Option.some.inj report
      · cases report
    rw [← htoken] at hd
    obtain ⟨-, rfl⟩ | ⟨-, rfl⟩ := blames
    · cases (located.unexpected_inj hd).1
    · cases (located.unexpected_inj hd).1

/-- **Who is blamed is blamed once.** -/
theorem count_reports_of_blames (located : Located ts) (hq : q ∈ arrangement ts)
    (report : q.production.report? reportStray = some d) (blames : Blames ts q.start d) :
    (reports reportStray ts).count d = 1 := by
  have only : ∀ r ∈ arrangement ts,
      r.production.report? reportStray == some d ↔ r == q := by
    intro r hr
    rw [beq_iff_eq, beq_iff_eq]
    constructor
    · intro hreport
      exact eq_of_start_eq hr hq
        (start_eq_of_blames located (stands_of_mem_arrangement hr) hreport blames)
    · rintro rfl
      exact report
  calc (reports reportStray ts).count d
      = (arrangement ts).countP fun r => r.production.report? reportStray == some d := by
        rw [reports, ← map_production_arrangement, List.filterMap_map, List.count_filterMap]
        rfl
    _ = (arrangement ts).count q := List.countP_congr only
    _ = 1 := by rw [(nodup_arrangement ts).count, if_pos hq]

/-- **Every `return` is inside a span.** -/
theorem exists_holds_of_return (isReturn : (ts.getD k .eof).kind = .keyword .returnWord) :
    ∃ s ∈ spans ts, s.Holds k := by
  have hk : k < ts.length := lt_length_of_kind_ne_eof (by rw [isReturn]; decide)
  obtain ⟨q, hq, ge, lt⟩ := exists_mem_arrangement hk
  obtain ⟨s, hs⟩ := statement_of_return (stands_of_mem_arrangement hq) ge lt isReturn
  exact exists_holds_of_statement hq hs ge lt

/-- A `let` outside all spans starts a production that lacks something. -/
theorem exists_report_of_outside (isLet : (ts.getD k .eof).kind = .keyword .letWord)
    (outside : ∀ s ∈ spans ts, ¬ s.Holds k) (reportStray : Bool) :
    ∃ q ∈ arrangement ts, q.start = k ∧
      q.production.report? reportStray = some (complaint ts k) ∧
      ((ts.getD (k + 1) .eof).kind = .identifier →
        (ts.getD (k + 2) .eof).kind ≠ .mark .assign) := by
  have hk : k < ts.length := lt_length_of_kind_ne_eof (by rw [isLet]; decide)
  obtain ⟨q, hq, ge, lt⟩ := exists_mem_arrangement hk
  have stands := stands_of_mem_arrangement hq
  obtain ⟨s, hs⟩ | lacking := statement_or_report_of_let stands ge lt isLet reportStray
  · obtain ⟨span, hspan, holds⟩ := exists_holds_of_statement hq hs ge lt
    exact absurd holds (outside span hspan)
  · exact ⟨q, hq, lacking⟩

/-- **A `let` outside all spans is complained about once.** -/
theorem count_complaint (located : Located ts) (isLet : (ts.getD k .eof).kind = .keyword .letWord)
    (outside : ∀ s ∈ spans ts, ¬ s.Holds k) (reportStray : Bool) :
    (reports reportStray ts).count (complaint ts k) = 1 := by
  have hk : k < ts.length := lt_length_of_kind_ne_eof (by rw [isLet]; decide)
  obtain ⟨q, hq, rfl, report, -⟩ := exists_report_of_outside isLet outside reportStray
  exact count_reports_of_blames located hq report (blames_complaint hk)

/-! ## The partition -/

/-- Only the last span stops at the end. -/
theorem stop_lt_of_mem_dropLast {s : Span} (h : s ∈ (spans ts).dropLast) : s.stop < ts.length := by
  rcases List.eq_nil_or_concat (spans ts) with hnil | ⟨front, last, hspans⟩
  · rw [hnil] at h
    cases h
  · rw [List.concat_eq_append] at hspans
    have ordered := pairwise_spans ts
    have hmem : last ∈ spans ts := by simp [hspans]
    obtain ⟨q, -, hq, -, hstart, -⟩ := exists_of_mem_spans hmem
    rw [hspans, List.dropLast_concat] at h
    rw [hspans, List.pairwise_append] at ordered
    have hbefore := ordered.2.2 s h last (.head _)
    have hlast := Nat.lt_of_lt_of_le q.start_lt_stop hq.stop_le
    omega

/-- A name that is scanned is a word, and none of the reserved ones. -/
theorem name_of_kind_identifier {policy : Text} {t : Token}
    (scanned : t.kind = Kind.ofRaw policy t.raw) (isName : t.kind = .identifier) :
    t.literal.isWord = true ∧ Keyword.ofText? t.literal = none := by
  have hliteral : t.literal = t.raw := by rw [Token.literal, isName]
  rw [isName, Kind.ofRaw_eq] at scanned
  rw [hliteral]
  split at scanned
  · next word =>
    refine ⟨word, ?_⟩
    cases hk : Keyword.ofText? t.raw with
    | none => rfl
    | some k => rw [hk] at scanned; cases scanned
  · repeat' split at scanned
    all_goals cases scanned

/-- **What the grammar reads divides the tokens.** -/
theorem partition_reading {policy : Text} (located : Located ts)
    (scanned : ∀ t ∈ ts, t.kind = Kind.ofRaw policy t.raw) (reportStray : Bool) :
    Partition ts (reading reportStray ts) (spans ts) where
  statements := map_statement_spans ts
  stands s hs := by
    obtain ⟨q, -, hq, hstatement, hstart, -⟩ := exists_of_mem_spans hs
    rw [hstart]
    exact standsAt_of_statement hq hstatement
  start_lt_stop s hs := by
    obtain ⟨q, -, -, -, hstart, hstop⟩ := exists_of_mem_spans hs
    rw [hstart, hstop, terminator]
    omega
  inside s hs k gt lt := by
    obtain ⟨q, -, -, -, hstart, hstop⟩ := exists_of_mem_spans hs
    rw [hstart] at gt
    rw [hstop] at lt
    exact kind_ne_of_lt_terminator gt lt
  stops s hs := by
    obtain ⟨q, -, hq, -, hstart, hstop⟩ := exists_of_mem_spans hs
    rw [hstop]
    exact kind_terminator (Nat.lt_of_lt_of_le q.start_lt_stop hq.stop_le)
  ordered := pairwise_spans ts
  last s hs := stop_lt_of_mem_dropLast hs
  names keyword target value h := by
    have hmem : .binding keyword target value ∈ (spans ts).map Span.statement := by
      rw [map_statement_spans]
      exact h
    obtain ⟨s, hs, hstatement⟩ := List.mem_map.1 hmem
    obtain ⟨q, -, hq, hsome, -⟩ := exists_of_mem_spans hs
    rw [hstatement] at hsome
    obtain ⟨-, -, htarget, isName, -⟩ := standsAt_of_statement hq hsome
    exact name_of_kind_identifier (scanned _ (List.mem_of_getElem? htarget)) isName
  returns k isReturn := exists_holds_of_return isReturn
  lacks k isLet outside := by
    obtain ⟨q, -, -, -, lacking⟩ := exists_report_of_outside isLet outside reportStray
    exact lacking
  lets k isLet outside := count_complaint located isLet outside reportStray
  distinct k l hk hl same := by
    have hk := blames_complaint (lt_length_of_kind_ne_eof (by rw [hk]; decide))
    have hl := blames_complaint (lt_length_of_kind_ne_eof (by rw [hl]; decide))
    rw [same] at hk
    exact hk.index_eq located hl

end Grammar

/-- **The statements of a source divide its tokens**: whatever is read, the
statements are found where they stand, in order and apart, and no reserved
word that starts a statement is lost. -/
theorem read_partition {o : Options} {source : Text} {reading : Reading}
    (h : (o.read source).result = .ok reading) :
    ∃ (ts : List Token) (spans : List Span), (o.tokenize source).result = .ok (ts ++ [.eof]) ∧
      (∀ t ∈ ts, t.kind ≠ .eof) ∧ Partition ts reading spans := by
  rw [result_read] at h
  cases clear : (Cursor.ofText source).refusal? with
  | some e =>
    rw [clear] at h
    cases h
  | none =>
    rw [clear] at h
    cases h
    refine ⟨_, _, ?_, fun t => Cursor.kind_ne_eof_of_mem_tokens,
      Grammar.partition_reading (Cursor.located_tokens o.overflow _)
        (fun t => Cursor.kind_of_mem_tokens) o.reportStray⟩
    rw [result_tokenize, clear]

/-- A `let` in the place of a value is inside a statement. The other one is
complained about. -/
theorem read_partition_swallowed :
    ∃ reading, (Options.standard.read "return let; let 7").result = .ok reading ∧
      reading.program.statements =
        [.returning ⟨.keyword .returnWord, some 0, "return", none⟩
          ⟨⟨.keyword .letWord, some 7, "let", none⟩⟩] ∧
      reading.reports = [.unexpected ⟨.integer, some 16, "7", some 7⟩ .identifier] ∧
      ∃ (ts : List Token) (spans : List Span),
        (Options.standard.tokenize "return let; let 7").result = .ok (ts ++ [.eof]) ∧
          Partition ts reading spans := by
  have clear : (Cursor.ofText "return let; let 7").refusal? = none :=
    readable_iff.1 (readable_of_length_le (by decide))
  have hread := result_read .standard "return let; let 7"
  rw [clear] at hread
  obtain ⟨ts, spans, htokens, -, hpartition⟩ := read_partition hread
  refine ⟨_, hread, ?_, ?_, ts, spans, htokens, hpartition⟩
  · decide +kernel
  · decide +kernel

end ScriptReader
