import Mathlib.Data.Nat.Find
import ScriptReader.Proofs.Recovery
import ScriptReader.Proofs.Timeline

/-!
# Skips — to the first terminator ahead

What lies ahead of a reader is one row of draws (`Reader.outlook`): the two
tokens in sight, and behind them the answers that its scanner has still to
give, the end for ever at last. An answered advance moves a reader up the
row by one (`Reader.outlook_advance`), so a number of them moves it up by
that number (`Reader.Walks`), and a skip is a walk to the first draw that
ends a statement, unless a refusal stops it.

A reader looks one token ahead, so the last draw of a skip is not the
terminator but what stands behind it, which may be refused as well
(`Reader.skips_skipToSemicolon`).
-/

namespace ScriptReader

namespace Draw

/-- Whether a draw ends a statement: as a semicolon, or as the end. -/
def Ends : Draw → Prop
  | token t => t.kind = .mark .semicolon ∨ t.kind = .eof
  | refused _ => False

instance : DecidablePred Ends
  | token _ => inferInstanceAs (Decidable (_ ∨ _))
  | refused _ => inferInstanceAs (Decidable False)

/-- The refusal of a draw, if it is one. -/
def refusal? : Draw → Option Overlong
  | token _ => none
  | refused e => some e

theorem refusal_ofAnswer_eq_none_iff {a : Except Overlong Token} :
    (ofAnswer a).refusal? = none ↔ ∃ t, a = .ok t := by
  cases a <;> simp [ofAnswer, refusal?]

theorem refusal_ofAnswer_eq_some_iff {a : Except Overlong Token} {e : Overlong} :
    (ofAnswer a).refusal? = some e ↔ a = .error e := by
  cases a <;> simp [ofAnswer, refusal?]

end Draw

namespace Reader

variable {policy : Text} {r : Reader} {n j m : Nat} {o : Outcome Reader Unit} {e : Overlong}

/-! ## What lies ahead -/

/-- **What lies ahead of a reader**: the two tokens in sight, and behind
them the answers that are still to come. -/
def outlook (policy : Text) (r : Reader) : Nat → Draw
  | 0 => .token r.current
  | 1 => .token r.peek
  | k + 2 => .ofAnswer (r.cursor.answer policy k)

/-- **Some draw ahead is the first terminator**: the end, if no other is. -/
theorem exists_first_ends (policy : Text) (r : Reader) :
    ∃ j, (r.outlook policy j).Ends ∧ ∀ i < j, ¬ (r.outlook policy i).Ends := by
  have ahead : ∃ j, (r.outlook policy j).Ends := by
    refine ⟨r.cursor.places.length + 2, ?_⟩
    rw [outlook, Cursor.answer_eq, List.getElem?_eq_none (Nat.le_refl _)]
    exact .inr rfl
  refine ⟨Nat.find ahead, Nat.find_spec ahead, ?_⟩
  intro i hi
  exact Nat.find_min ahead hi

/-- **An answered advance** moves the reader up by one draw. -/
theorem outlook_advance (h : (r.advance policy).result = .ok ()) (k : Nat) :
    (r.advance policy).state.outlook policy k = r.outlook policy (k + 1) := by
  cases hr : (r.cursor.next policy).result with
  | error e =>
    rw [advance_of_error hr] at h
    cases h
  | ok t =>
    rw [advance_of_ok hr]
    match k with
    | 0 => rfl
    | 1 => exact congrArg Draw.ofAnswer hr.symm
    | k + 2 =>
      show Draw.ofAnswer _ = Draw.ofAnswer (r.cursor.answer policy (k + 1))
      rw [Nat.add_comm k 1, Cursor.answer_add]
      rfl

/-- The draws of a stream are those behind the two tokens in sight. -/
theorem stream_eq_map_outlook (policy : Text) (r : Reader) (n : Nat) :
    r.cursor.stream policy n = (List.range' 2 n).map (r.outlook policy) := by
  rw [Cursor.stream, List.range'_eq_map_range, List.map_map]
  refine List.map_congr_left fun k _ => ?_
  show _ = r.outlook policy (2 + k)
  rw [Nat.add_comm 2 k]
  rfl

/-! ## Skipping step by step -/

/-- **At a terminator there is nothing to skip.** -/
theorem skipToSemicolon_of_ends (policy : Text) (ends : (Draw.token r.current).Ends) :
    (r.skipToSemicolon policy).result = .ok () ∧ (r.skipToSemicolon policy).state = r ∧
      (r.skipToSemicolon policy).draws = [] := by
  rw [skipToSemicolon]
  rcases ends with stop | eof
  · rw [if_pos stop]
    exact ⟨rfl, rfl, rfl⟩
  · have noStop : r.current.kind ≠ .mark .semicolon := by
      rw [eof]
      decide
    rw [if_neg noStop, if_pos eof]
    exact ⟨rfl, rfl, rfl⟩

/-- And at any other token a skip starts with an advance. -/
theorem skipToSemicolon_of_not_ends (going : ¬ (Draw.token r.current).Ends) :
    r.skipToSemicolon policy =
      (r.advance policy).andThen fun _ s => s.skipToSemicolon policy := by
  have noStop : r.current.kind ≠ .mark .semicolon := fun stop => going (.inl stop)
  have noEnd : r.current.kind ≠ .eof := fun eof => going (.inr eof)
  rw [skipToSemicolon.eq_def, if_neg noStop, if_neg noEnd]
  exact Outcome.andThen_congr fun _ _ => rfl

/-- **What a skip draws** is told by how often it does. -/
theorem draws_skipToSemicolon (h : (r.skipToSemicolon policy).draws.length = n) :
    (r.skipToSemicolon policy).draws = (List.range' 2 n).map (r.outlook policy) ∧
      (r.skipToSemicolon policy).state.cursor = r.cursor.afterCalls policy n := by
  have serves := (@made_skipToSemicolon policy r).serves
  have draws := serves.draws_eq
  have left := serves.left_eq
  rw [Outcome.draws] at h
  rw [h] at draws left
  rw [stream_eq_map_outlook] at draws
  exact ⟨draws, left⟩

/-- **What a skip writes** besides warnings: that the statement was not
finished, where it comes to the end. -/
theorem records_skipToSemicolon_eq (policy : Text) (r : Reader) :
    (r.skipToSemicolon policy).records = (r.skipToSemicolon policy).warnings ++
      match (r.skipToSemicolon policy).result with
      | .ok _ =>
        if (r.skipToSemicolon policy).state.current.kind = .eof then [.unterminated] else []
      | .error _ => [] := by
  fun_induction skipToSemicolon policy r with
  | case1 r stop =>
    have noEnd : r.current.kind ≠ .eof := by
      rw [stop]
      decide
    exact (if_neg noEnd).symm
  | case2 r _ eof => exact (if_pos eof).symm
  | case3 r _ _ o ih =>
    have advanced : o.records = o.warnings := by
      show Event.records (r.advance policy).history = Event.warnings (r.advance policy).history
      rw [history_advance]
      exact Cursor.records_next policy r.cursor
    cases ho : o.result with
    | error e =>
      rw [Outcome.andThen_of_error ho]
      dsimp only
      rw [List.append_nil]
      exact advanced
    | ok u =>
      have state := Outcome.state_andThen_of_ok ho fun _ _ => skipToSemicolon policy o.state
      have result : (o.andThen fun _ _ => skipToSemicolon policy o.state).result =
          (skipToSemicolon policy o.state).result := by
        rw [Outcome.andThen_of_ok ho]
      rw [Outcome.records_andThen_of_ok ho, Outcome.warnings_andThen_of_ok ho, state, result, ih,
        advanced, List.append_assoc]

/-! ## Walks -/

/-- **So many advances in a row**, each of them answered. -/
structure Walks (policy : Text) (r : Reader) (n : Nat) (o : Outcome Reader Unit) : Prop where
  result : o.result = .ok ()
  length : o.draws.length = n
  /-- The reader has moved up by as many draws. -/
  outlook : ∀ k, o.state.outlook policy k = r.outlook policy (n + k)

theorem walks_done (policy : Text) (r : Reader) : r.Walks policy 0 (.done () r) where
  result := rfl
  length := rfl
  outlook k := by rw [Nat.zero_add]; rfl

/-- **A walk goes on** with an advance that is answered. -/
theorem Walks.advance (h : r.Walks policy n o)
    (answered : (r.outlook policy (n + 2)).refusal? = none) :
    r.Walks policy (n + 1) (o.andThen fun _ s => s.advance policy) := by
  have result : (o.state.advance policy).result = .ok () := by
    rw [← h.outlook 2] at answered
    obtain ⟨t, ht⟩ := Draw.refusal_ofAnswer_eq_none_iff.1 answered
    rw [advance_of_ok ht]
  refine ⟨?_, ?_, fun k => ?_⟩
  · rw [Outcome.andThen_of_ok h.result]
    exact result
  · rw [Outcome.draws_andThen_of_ok h.result, List.length_append, h.length, length_draws_advance]
  · rw [Outcome.state_andThen_of_ok h.result, outlook_advance result, h.outlook,
      Nat.add_right_comm, Nat.add_assoc]

/-- **A skip walks on** as long as nothing ends the statement and nothing
is refused, and then it is a skip from there. -/
theorem exists_walk (n : Nat) (going : ∀ i < n, ¬ (r.outlook policy i).Ends)
    (answered : ∀ i, 2 ≤ i → i < n + 2 → (r.outlook policy i).refusal? = none) :
    ∃ o, r.Walks policy n o ∧
      r.skipToSemicolon policy = o.andThen fun _ s => s.skipToSemicolon policy := by
  -- The walk grows at its far end, so the row is always that of the reader it starts from.
  induction n with
  | zero => exact ⟨_, walks_done policy r, (Outcome.done_andThen ..).symm⟩
  | succ n ih =>
    obtain ⟨o, walks, hskip⟩ := ih (fun i hi => going i (by omega))
      fun i hi hlt => answered i hi (by omega)
    refine ⟨_, walks.advance (answered (n + 2) (by omega) (by omega)), ?_⟩
    rw [hskip, Outcome.andThen_assoc]
    refine Outcome.andThen_congr fun _ _ => skipToSemicolon_of_not_ends ?_
    have here : Draw.token o.state.current = r.outlook policy n := walks.outlook 0
    rw [here]
    exact going n (by omega)

/-! ## Where a skip ends -/

/-- **A skip that lands** on a draw ahead, with all the draws behind the
two in sight and up to the one behind it. -/
structure Lands (policy : Text) (r : Reader) (j : Nat) (o : Outcome Reader Unit) : Prop where
  result : o.result = .ok ()
  draws : o.draws = (List.range' 2 j).map (r.outlook policy)
  cursor : o.state.cursor = r.cursor.afterCalls policy j
  current : .token o.state.current = r.outlook policy j
  peek : .token o.state.peek = r.outlook policy (j + 1)
  reports : o.state.reports = r.reports
  /-- Besides warnings, it is written that the statement was not finished,
  if that is so. -/
  records : o.records =
    o.warnings ++ if o.state.current.kind = .eof then [.unterminated] else []
  /-- Another skip goes nowhere. -/
  again : (o.state.skipToSemicolon policy).state = o.state ∧
    (o.state.skipToSemicolon policy).draws = []

/-- **A skip that is refused** by a draw ahead. Both tokens in sight are
the one before it. -/
structure Halts (policy : Text) (r : Reader) (m : Nat) (e : Overlong) (o : Outcome Reader Unit) :
    Prop where
  result : o.result = .error e
  draws : o.draws = (List.range' 2 (m - 1)).map (r.outlook policy)
  cursor : o.state.cursor = r.cursor.afterCalls policy (m - 1)
  current : .token o.state.current = r.outlook policy (m - 1)
  peek : .token o.state.peek = r.outlook policy (m - 1)
  reports : o.state.reports = r.reports
  records : o.records = o.warnings

/-- **How a skip ends** whose first terminator ahead is the draw `j`. -/
structure Skips (policy : Text) (r : Reader) (j : Nat) (o : Outcome Reader Unit) : Prop where
  terminator : (r.outlook policy j).Ends
  first : ∀ i < j, ¬ (r.outlook policy i).Ends
  /-- At the terminator nothing is drawn and nothing changes. -/
  stays : j = 0 → o.state = r ∧ o.draws = []
  /-- Where nothing is refused, up to the draw behind the terminator, the
  skip lands on the terminator. -/
  lands : (∀ i, 2 ≤ i → i ≤ j + 1 → (r.outlook policy i).refusal? = none) → Lands policy r j o
  /-- And else it is refused by the first refusal. -/
  halts : 1 ≤ j → ∀ m e, 2 ≤ m → m ≤ j + 1 → (r.outlook policy m).refusal? = some e →
    (∀ i, 2 ≤ i → i < m → (r.outlook policy i).refusal? = none) → Halts policy r m e o

/-- **A walk to the terminator** is all of a skip that is not refused. -/
theorem lands_skipToSemicolon (terminator : (r.outlook policy j).Ends)
    (first : ∀ i < j, ¬ (r.outlook policy i).Ends)
    (answered : ∀ i, 2 ≤ i → i ≤ j + 1 → (r.outlook policy i).refusal? = none) :
    r.Lands policy j (r.skipToSemicolon policy) := by
  obtain ⟨o, walks, hskip⟩ := exists_walk j first fun i hi hlt => answered i hi (by omega)
  have here : Draw.token o.state.current = r.outlook policy j := walks.outlook 0
  have next : Draw.token o.state.peek = r.outlook policy (j + 1) := walks.outlook 1
  obtain ⟨stop, rest, quiet⟩ := skipToSemicolon_of_ends policy (here ▸ terminator)
  have result : (r.skipToSemicolon policy).result = .ok () := by
    rw [hskip, Outcome.andThen_of_ok walks.result]
    exact stop
  have state : (r.skipToSemicolon policy).state = o.state := by
    rw [hskip, Outcome.state_andThen_of_ok walks.result, rest]
  have length : (r.skipToSemicolon policy).draws.length = j := by
    rw [hskip, Outcome.draws_andThen_of_ok walks.result, quiet, List.append_nil, walks.length]
  obtain ⟨draws, cursor⟩ := draws_skipToSemicolon length
  have records := records_skipToSemicolon_eq policy r
  rw [result] at records
  refine ⟨result, draws, cursor, ?_, ?_, reports_skipToSemicolon policy r, records, ?_⟩
  · rw [state]
    exact here
  · rw [state]
    exact next
  · rw [state]
    exact ⟨rest, quiet⟩

/-- **A walk up to the refusal** is all of a skip that is refused, with the
advance that draws it. -/
theorem halts_skipToSemicolon (first : ∀ i < j, ¬ (r.outlook policy i).Ends) (hm : 2 ≤ m)
    (le : m ≤ j + 1) (refusal : (r.outlook policy m).refusal? = some e)
    (answered : ∀ i, 2 ≤ i → i < m → (r.outlook policy i).refusal? = none) :
    r.Halts policy m e (r.skipToSemicolon policy) := by
  obtain ⟨n, rfl⟩ : ∃ n, m = n + 2 := ⟨m - 2, by omega⟩
  obtain ⟨o, walks, hskip⟩ := exists_walk n (fun i hi => first i (by omega)) answered
  have here : Draw.token o.state.current = r.outlook policy n := walks.outlook 0
  have next : Draw.token o.state.peek = r.outlook policy (n + 1) := walks.outlook 1
  have going : ¬ (Draw.token o.state.current).Ends := by
    rw [here]
    exact first n (by omega)
  have refused : (o.state.cursor.next policy).result = .error e := by
    rw [← walks.outlook 2] at refusal
    exact Draw.refusal_ofAnswer_eq_some_iff.1 refusal
  -- The skip from there is the advance, which gives up the current token and is refused.
  have halt : o.state.skipToSemicolon policy = ⟨.error e,
      { o.state with cursor := (o.state.cursor.next policy).state, current := o.state.peek },
      (o.state.cursor.next policy).history⟩ := by
    have advance := advance_of_error refused
    rw [skipToSemicolon_of_not_ends going, Outcome.andThen_of_error (by rw [advance]), advance]
  have result : (r.skipToSemicolon policy).result = .error e := by
    rw [hskip, Outcome.andThen_of_ok walks.result, halt]
  have state : (r.skipToSemicolon policy).state =
      { o.state with cursor := (o.state.cursor.next policy).state, current := o.state.peek } := by
    rw [hskip, Outcome.state_andThen_of_ok walks.result, halt]
  have length : (r.skipToSemicolon policy).draws.length = n + 1 := by
    have one := o.state.cursor.length_draws_next policy
    rw [hskip, Outcome.draws_andThen_of_ok walks.result, halt, List.length_append, walks.length]
    exact congrArg (n + ·) one
  obtain ⟨draws, cursor⟩ := draws_skipToSemicolon length
  have records := records_skipToSemicolon_eq policy r
  rw [result, List.append_nil] at records
  refine ⟨result, draws, cursor, ?_, ?_, reports_skipToSemicolon policy r, records⟩
  · rw [state]
    exact next
  · rw [state]
    exact next

/-- **Skipping goes to the first terminator ahead** and nowhere else,
whatever reader it is asked of. -/
theorem skips_skipToSemicolon (policy : Text) (r : Reader) :
    ∃ j, r.Skips policy j (r.skipToSemicolon policy) := by
  obtain ⟨j, terminator, first⟩ := exists_first_ends policy r
  refine ⟨j, terminator, first, ?_, lands_skipToSemicolon terminator first, ?_⟩
  · rintro rfl
    exact (skipToSemicolon_of_ends policy terminator).2
  · intro _ m e hm le refusal answered
    exact halts_skipToSemicolon first hm le refusal answered

end Reader

end ScriptReader
