import ScriptReader.Proofs.Calls
import ScriptReader.Proofs.Positions
import ScriptReader.Proofs.Refinement

/-!
# Halts — a reading up to a refused run

A run of digits that is too long ends a reading wherever it is met, and
it is met early: when the token before it comes into sight as the second
one, the run is the next to be drawn. So the advance to that token is the
one that is refused, and the reader is left with the token in both
places.

`Reader.Faces` says that a reader has tokens and behind them a refusal
ahead. A step comes there to what it comes to without the refusal, or it
halts where only one token would be left ahead: these are the laws of a
prospect (`Halt.laws`), so a statement reads its production or halts.
`Reader.halts_program` is the run: it reports on every production but the
last.
-/

namespace ScriptReader

/-! ## What is delivered before a refusal -/

namespace Cursor

/-- **What a cursor delivers before a refusal**, which leaves another
cursor: tokens, none of them the end. -/
inductive Delivers (policy : Text) (e : Overlong) : Cursor → List Token → Cursor → Prop
  | refusal {s left : Cursor} (refused : (s.next policy).result = .error e)
      (behind : (s.next policy).state = left) : Delivers policy e s [] left
  | token {s left : Cursor} {t : Token} {ts : List Token}
      (drawn : (s.next policy).result = .ok t) (visible : t.kind ≠ .eof)
      (later : Delivers policy e (s.next policy).state ts left) : Delivers policy e s (t :: ts) left

variable {policy : Text} {e : Overlong}

theorem Delivers.visible {s left : Cursor} {ts : List Token} (h : s.Delivers policy e ts left) :
    ∀ t ∈ ts, t.kind ≠ .eof := by
  induction h with
  | refusal => simp
  | token _ visible _ ih => exact List.forall_mem_cons.2 ⟨visible, ih⟩

end Cursor

/-- **A source is cut in two at a refused run**: the text before it gives
the tokens that are delivered, and the text behind it is what is left. -/
theorem Cut.delivers (policy : Text) {source run : Text} {raws more : List Text}
    (cut : Cut source (raws ++ run :: more))
    (clear : ∀ raw ∈ raws, raw.isNumeral = true → raw.length ≤ Numeral.longest)
    {e : Overlong} (refused : (Lexeme.ofRaw run).refusal? = some e) (n : Nat) :
    ∃ before after : Text, source = before ++ run ++ after ∧ Cut before raws ∧
      Cursor.Delivers policy e ⟨source, n⟩ (Cursor.tokens policy ⟨before, n⟩)
        ⟨after, n + before.size⟩ := by
  induction raws generalizing source n with
  | nil =>
    rw [List.nil_append] at cut
    cases cut with
    | @lexeme w _ after _ blank longest _ =>
      obtain ⟨hresult, hstate⟩ := Cursor.next_of_longestMatch policy n blank longest
      have hend : Cursor.places ⟨w, n⟩ = [] := Cursor.places_eq_nil_iff.2 blank
      rw [Lexeme.token_of_refusal refused] at hresult
      rw [Lexeme.counted_of_refusal refused, Nat.add_zero] at hstate
      refine ⟨w, after, rfl, .blank blank, ?_⟩
      rw [Cursor.tokens_of_places_nil policy hend]
      exact .refusal hresult hstate
  | cons raw raws ih =>
    rw [List.cons_append] at cut
    cases cut with
    | @lexeme w _ rest _ blank longest behind =>
      obtain ⟨hraw, hraws⟩ := List.forall_mem_cons.1 clear
      have hnone := Lexeme.refusal_ofRaw_eq_none_iff.2 hraw
      obtain ⟨t, ht⟩ := Lexeme.exists_token_of_refusal_eq_none policy (n + w.size) hnone
      have hcounted : (Lexeme.ofRaw raw).counted = raw.size := by
        rw [Lexeme.counted_of_refusal_eq_none hnone, Lexeme.raw_ofRaw longest.isLexeme]
      obtain ⟨before, after, rfl, hcut, hdelivers⟩ := ih behind hraws (n + w.size + raw.size)
      -- The lexeme is one for the text before the run too, which ends sooner.
      have shorter : LongestMatch raw before := by
        rw [List.append_assoc] at longest
        exact longest.of_append
      obtain ⟨hresult, hstate⟩ := Cursor.next_of_longestMatch policy n blank longest
      obtain ⟨hresult', hstate'⟩ := Cursor.next_of_longestMatch policy n blank shorter
      rw [ht] at hresult hresult'
      rw [hcounted] at hstate hstate'
      have visible := Lexeme.kind_ne_eof_of_token ht
      have htokens : Cursor.tokens policy ⟨w ++ raw ++ before, n⟩ =
          t :: Cursor.tokens policy ⟨before, n + w.size + raw.size⟩ := by
        obtain ⟨-, htokens⟩ | ⟨rfl, -, -⟩ := Cursor.tokens_of_next_ok hresult'
        · rw [htokens, hstate']
        · exact absurd rfl visible
      refine ⟨w ++ raw ++ before, after, by simp only [List.append_assoc],
        .lexeme blank shorter hcut, ?_⟩
      have hsize : n + (w ++ raw ++ before).size = n + w.size + raw.size + before.size := by
        rw [Text.size_append, Text.size_append]
        omega
      rw [htokens, hsize]
      refine .token hresult visible ?_
      rw [hstate]
      exact hdelivers

namespace Grammar

variable {ts : List Token} {ps : List Production}

/-- A production takes a token at the least. -/
theorem Derives.length_le (h : Derives ts ps) : ps.length ≤ ts.length := by
  induction h with
  | nil => exact Nat.le_refl _
  | @cons p behind ps _ _ ih =>
    have hpos := p.length_span_pos
    rw [List.length_append, List.length_cons]
    omega

theorem Derives.eq_nil (h : Derives ts []) : ts = [] := by
  cases h
  rfl

end Grammar

/-! ## Readers in front of a refusal -/

/-- **Where reading halts**: at a refusal that leaves a cursor, behind a
token. -/
structure Halt where
  refusal : Overlong
  cursor : Cursor
  /-- The token that was delivered last. -/
  last : Token

/-- The reader that is left, with its reports: the token is in both places. -/
def Halt.reader (halt : Halt) (reports : List Diagnostic) : Reader :=
  ⟨halt.cursor, halt.last, halt.last, reports⟩

namespace Reader

/-- **A reader faces tokens** when two of them are in sight and its
scanner delivers the others before it halts. -/
structure Faces (policy : Text) (halt : Halt) (r : Reader) (ts : List Token) : Prop where
  sight : ∃ us, ts = r.current :: r.peek :: us ∧
    r.cursor.Delivers policy halt.refusal us halt.cursor
  last : ts.getLast? = some halt.last
  visible : ∀ t ∈ ts, t.kind ≠ .eof

variable {policy : Text} {halt : Halt} {r : Reader} {t u : Token} {ts : List Token}

namespace Faces

theorem current_eq (h : r.Faces policy halt ts) : r.current = ts.headD .eof := by
  obtain ⟨us, rfl, -⟩ := h.sight
  rfl

theorem peek_eq (h : r.Faces policy halt (t :: ts)) : r.peek = ts.headD .eof := by
  obtain ⟨us, heq, -⟩ := h.sight
  rw [(List.cons.inj heq).2, List.headD_cons]

/-- A reader that has not halted faces two tokens at the least. -/
theorem tail_ne_nil (h : r.Faces policy halt ts) : ts.tail ≠ [] := by
  obtain ⟨us, rfl, -⟩ := h.sight
  exact List.cons_ne_nil _ _

theorem current_ne_eof (h : r.Faces policy halt ts) : r.current.kind ≠ .eof := by
  obtain ⟨us, rfl, -⟩ := h.sight
  exact h.visible _ (.head _)

/-- A report changes nothing ahead. -/
theorem report (h : r.Faces policy halt ts) (d : Diagnostic) :
    (r.report d).state.Faces policy halt ts :=
  ⟨h.sight, h.last, h.visible⟩

end Faces

end Reader

namespace Halt

/-- The prospect of readers in front of a refusal: a step that would leave
less than two tokens halts there. -/
def prospect (policy : Text) (halt : Halt) : Prospect where
  Ahead := Reader.Faces policy halt
  Halts ts e r := ts.length ≤ 1 ∧ e = halt.refusal ∧ r = halt.reader r.reports

variable {policy : Text} {halt : Halt} {r : Reader} {ts : List Token}

/-- **An advance takes the first token off**, if two are left then. -/
theorem meets_advance (h : r.Faces policy halt ts) :
    Reader.Meets (halt.prospect policy) (r.advance policy) () ts.tail r.reports r.reports := by
  obtain ⟨us, rfl, delivers⟩ := h.sight
  have visible := (List.forall_mem_cons.1 h.visible).2
  have last := h.last
  rw [List.getLast?_cons_cons] at last
  rw [List.tail_cons]
  cases delivers with
  | refusal refused behind =>
    rw [Reader.advance_of_error refused]
    refine .halted rfl ⟨Nat.le_refl 1, rfl, ?_⟩ rfl
    -- The token in sight is the last one, and it has just become current.
    have hpeek : r.peek = halt.last := Option.some.inj last
    rw [Halt.reader, ← behind, ← hpeek]
  | token drawn _ later =>
    rw [Reader.advance_of_ok drawn]
    exact .made ⟨rfl, ⟨⟨_, rfl, later⟩, last, visible⟩, rfl⟩

theorem laws (policy : Text) (halt : Halt) : (halt.prospect policy).Laws policy where
  current_eq := Reader.Faces.current_eq
  peek_eq := Reader.Faces.peek_eq
  eq_nil h eof := absurd eof h.current_ne_eof
  report := Reader.Faces.report
  advance := meets_advance
  shorten suffix h := ⟨Nat.le_trans suffix.length_le h.1, h.2⟩

end Halt

namespace Reader

variable {policy : Text} {halt : Halt} {r : Reader} {t u : Token} {ts : List Token}

/-! ## Programs in front of a refusal -/

/-- **Statements halt** with everything reported but the last production. -/
theorem halts_statements (rules : Rules) {ps : List Production} (derives : Grammar.Derives ts ps)
    (h : r.Faces rules.policy halt ts) :
    (r.statements rules).result = .error halt.refusal ∧
      (r.statements rules).state = halt.reader
        (r.reports ++ ps.dropLast.filterMap (Production.report? rules.reportStray)) := by
  induction derives generalizing r with
  | nil => exact absurd rfl h.tail_ne_nil
  | @cons p behind ps fits later ih =>
    obtain ⟨us, rfl, hstatement⟩ := (halt.laws rules.policy).statement fits h
    have hlength := later.length_le
    rw [List.length_tail] at hlength
    rw [statements, if_neg h.current_ne_eof]
    cases hstatement with
    | halted result halts reports_eq =>
      -- This production is the last one, and nothing is reported on it.
      obtain ⟨short, rfl, hstate⟩ := halts
      obtain rfl : ps = [] := List.eq_nil_of_length_eq_zero (by omega)
      rw [Outcome.andThen_of_error result, List.dropLast_singleton, List.filterMap_nil,
        List.append_nil, ← reports_eq]
      exact ⟨rfl, hstate⟩
    | made reads =>
      have faces : (r.statement rules).state.Faces rules.policy halt us := reads.sees
      have hps : ps ≠ [] := by
        rintro rfl
        exact faces.tail_ne_nil later.eq_nil
      rw [Outcome.andThen_of_ok reads.result, List.dropLast_cons_of_ne_nil hps,
        filterMap_cons_eq_append, ← List.append_assoc, ← reads.reports_eq]
      cases Halt.meets_advance faces with
      | halted result halts reports_eq =>
        -- Here the next one is the last, and the advance does not come to it.
        obtain ⟨short, rfl, hstate⟩ := halts
        rw [List.length_tail] at short
        have hnone : ps.dropLast = [] := by
          refine List.eq_nil_of_length_eq_zero ?_
          rw [List.length_dropLast]
          omega
        rw [Outcome.andThen_of_error result, hnone, List.filterMap_nil, List.append_nil,
          ← reports_eq]
        exact ⟨rfl, hstate⟩
      | made advanced =>
        rw [Outcome.andThen_of_ok advanced.result, ← advanced.reports_eq]
        obtain ⟨hresult, hstate⟩ := ih advanced.sees
        exact ⟨Outcome.result_map_eq_error_iff.2 hresult, hstate⟩

/-- **And so does a program.** -/
theorem halts_program (rules : Rules) (h : r.Faces rules.policy halt ts) :
    (r.program rules).result = .error halt.refusal ∧
      (r.program rules).state = halt.reader (r.reports ++
        (Grammar.productions ts).dropLast.filterMap (Production.report? rules.reportStray)) := by
  obtain ⟨hresult, hstate⟩ := halts_statements rules (Grammar.derives_productions ts) h
  rw [program, Outcome.andThen_of_error hresult]
  exact ⟨rfl, hstate⟩

/-- **A new reader is built** where two tokens are delivered, and faces
what is. -/
theorem faces_of_prime {s left : Cursor} {e : Overlong} {last : Token}
    (delivers : s.Delivers policy e (t :: u :: ts) left)
    (hlast : (t :: u :: ts).getLast? = some last) :
    (prime policy s).result = .ok (t, u) ∧
      Faces policy ⟨e, left, last⟩ ⟨(prime policy s).state, t, u, []⟩ (t :: u :: ts) := by
  cases delivers with
  | token drawn visible later =>
    cases later with
    | token drawn' visible' later =>
      have hprime : prime policy s = ⟨.ok (t, u), ((s.next policy).state.next policy).state,
          (s.next policy).history ++ ((s.next policy).state.next policy).history⟩ := by
        rw [prime, Outcome.andThen_of_ok drawn, Outcome.map, drawn']
      rw [hprime]
      refine ⟨rfl, ⟨_, rfl, later⟩, hlast, ?_⟩
      exact List.forall_mem_cons.2 ⟨visible, List.forall_mem_cons.2 ⟨visible', later.visible⟩⟩

end Reader

end ScriptReader
