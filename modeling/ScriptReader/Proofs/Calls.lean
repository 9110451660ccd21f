import ScriptReader.Proofs.Locations
import ScriptReader.Proofs.Seam

/-!
# Calls — asking a scanner again and again

One call passes blanks and then a lexeme (`Cursor.Passes`), and counts the
bytes of both, unless the lexeme is refused: then it counts the blanks
alone. So a cursor that has refused runs is behind the source, by as many
bytes as there were digits in them (`Cursor.offset_add_lost`).

`Account` says what there is to say of any number of calls on a source:
the bytes add up, tokens are located by them, the pieces of the source are
answered for one by one, and the end lasts. `account_calls` is the theorem
for every source and every policy.
-/

namespace ScriptReader

/-- How many digits an answer refuses. -/
def refusedDigits : Except Overlong Token → Nat
  | .error e => e.digits
  | .ok _ => 0

/-! ## Refused runs -/

/-- Digits take one byte each. -/
theorem Text.size_eq_length_of_isNumeral {t : Text} (h : t.isNumeral = true) :
    t.size = t.length := by
  refine size_eq_length_of_ascii fun c hc => ?_
  have hpart : ∀ d ∈ t, d.isDigit = true := by
    cases t with
    | nil => cases h
    | cons d t =>
      rw [isNumeral, Bool.and_eq_true, List.all_eq_true] at h
      exact List.forall_mem_cons.2 h
  have hdigit := hpart c hc
  simp only [CodePoint.isDigit, Bool.and_eq_true, decide_eq_true_eq] at hdigit
  omega

namespace Lexeme

variable {raw : Text} {e : Overlong}

/-- **Only a run of digits is refused**, as a whole and for its length. -/
theorem refusal_ofRaw_eq_some_iff :
    (ofRaw raw).refusal? = some e ↔
      raw.isNumeral = true ∧ Numeral.longest < raw.length ∧ e = ⟨raw.length⟩ := by
  by_cases hlong : raw.isNumeral = true ∧ Numeral.longest < raw.length
  · obtain ⟨hn, hlong⟩ := hlong
    have hw : ¬ raw.isWord = true := fun hw => by
      rw [Text.isNumeral_eq_false_of_isWord hw] at hn
      cases hn
    simp only [ofRaw, hw, hn, refusal?, hlong]
    simp [hlong, eq_comm]
  · have hnone : (ofRaw raw).refusal? = none := by
      rw [refusal_ofRaw_eq_none_iff]
      intro hn
      exact Nat.le_of_not_lt fun h => hlong ⟨hn, h⟩
    rw [hnone]
    constructor
    · intro h
      cases h
    · rintro ⟨hn, h, -⟩
      exact absurd ⟨hn, h⟩ hlong

/-- **What is not counted is refused**, digit by digit. -/
theorem counted_add_refusedDigits (policy : Text) (offset : Nat) (lexeme : IsLexeme raw) :
    (ofRaw raw).counted + refusedDigits ((ofRaw raw).token policy offset) = raw.size := by
  cases h : (ofRaw raw).refusal? with
  | none =>
    obtain ⟨t, ht⟩ := exists_token_of_refusal_eq_none policy offset h
    rw [ht, counted_of_refusal_eq_none h, raw_ofRaw lexeme]
    rfl
  | some e =>
    obtain ⟨hn, -, rfl⟩ := refusal_ofRaw_eq_some_iff.1 h
    rw [counted_of_refusal h, token_of_refusal h, Text.size_eq_length_of_isNumeral hn]
    exact Nat.zero_add _

end Lexeme

/-! ## One call -/

namespace Cursor

variable {policy : Text} {s : Cursor} {w raw after source : Text} {n k : Nat}

/-- **What one call passes**: blanks, and behind them a lexeme. -/
structure Passes (policy : Text) (s : Cursor) (w raw : Text) : Prop where
  blank : w.all CodePoint.isBlank = true
  longest : LongestMatch raw (s.next policy).state.rest
  rest_eq : s.rest = w ++ raw ++ (s.next policy).state.rest
  result_eq : (s.next policy).result = (Lexeme.ofRaw raw).token policy (s.offset + w.size)
  offset_eq : (s.next policy).state.offset = s.offset + w.size + (Lexeme.ofRaw raw).counted

/-- **What a call in front of a lexeme comes to**, and where it leaves the
cursor. -/
theorem next_of_longestMatch (policy : Text) (n : Nat) (blank : w.all CodePoint.isBlank = true)
    (longest : LongestMatch raw after) :
    (next policy ⟨w ++ raw ++ after, n⟩).result = (Lexeme.ofRaw raw).token policy (n + w.size) ∧
      (next policy ⟨w ++ raw ++ after, n⟩).state =
        ⟨after, n + w.size + (Lexeme.ofRaw raw).counted⟩ := by
  obtain ⟨c, run, rfl⟩ := List.exists_cons_of_ne_nil longest.isLexeme.ne_nil
  have hskip := skipBlanks_of_longestMatch blank longest n
  rw [← Text.size_eq_length_of_blank blank] at hskip
  have hmunch := Lexeme.munch_eq_of_longestMatch longest (List.cons_append ..).symm
  rw [next_of_skipBlanks_cons hskip, result_scan, state_scan, hmunch]
  exact ⟨rfl, rfl⟩

/-- **Every call passes a lexeme**, unless it is made at the end. -/
theorem exists_passes (policy : Text) (h : s.atEnd = false) : ∃ w raw, s.Passes policy w raw := by
  obtain ⟨source, n⟩ := s
  have cut := cut_places ⟨source, n⟩
  generalize (places ⟨source, n⟩).map (fun p => p.lexeme.raw) = raws at cut
  dsimp only at cut
  cases cut with
  | blank blank =>
    rw [atEnd, blank] at h
    cases h
  | @lexeme w raw _ _ blank longest _ =>
    obtain ⟨hresult, hstate⟩ := next_of_longestMatch policy n blank longest
    refine ⟨w, raw, blank, ?_, ?_, hresult, ?_⟩
    · rw [hstate]
      exact longest
    · rw [hstate]
    · rw [hstate]

/-- At the end, what is skipped is all there is. -/
theorem offset_skipBlanks_of_atEnd (h : s.atEnd = true) :
    s.skipBlanks.offset = s.offset + s.rest.size := by
  have hall : ∀ c ∈ s.rest, c.isBlank = true := List.all_eq_true.1 h
  have htake : s.rest.takeWhile CodePoint.isBlank = s.rest := by
    have happend : (s.rest ++ []).takeWhile CodePoint.isBlank = s.rest ++ [].takeWhile _ :=
      List.takeWhile_append_of_pos hall
    rwa [List.append_nil, List.takeWhile_nil, List.append_nil] at happend
  rw [skipBlanks, htake, Text.size_eq_length_of_blank h]

/-- **One call counts what it passes**, or refuses it. -/
theorem exists_passed (policy : Text) (s : Cursor) :
    ∃ passed : Text, s.rest = passed ++ (s.next policy).state.rest ∧
      (s.next policy).state.offset + refusedDigits (s.next policy).result =
        s.offset + passed.size := by
  cases h : s.atEnd with
  | true =>
    refine ⟨s.rest, ?_, ?_⟩
    · rw [next_of_atEnd h, List.append_nil]
    · rw [next_of_atEnd h]
      exact offset_skipBlanks_of_atEnd h
  | false =>
    obtain ⟨w, raw, passes⟩ := exists_passes policy h
    refine ⟨w ++ raw, passes.rest_eq, ?_⟩
    have hcounted := Lexeme.counted_add_refusedDigits policy (s.offset + w.size)
      passes.longest.isLexeme
    rw [passes.offset_eq, passes.result_eq, Text.size_append]
    omega

/-! ## Calls in a row -/

/-- The cursor that so many calls leave. -/
def afterCalls (policy : Text) (s : Cursor) : Nat → Cursor
  | 0 => s
  | n + 1 => ((s.afterCalls policy n).next policy).state

/-- The answer to a call. The first call has the number zero. -/
def answer (policy : Text) (s : Cursor) (n : Nat) : Except Overlong Token :=
  ((s.afterCalls policy n).next policy).result

/-- How many digits the first so many calls refuse. -/
def lost (policy : Text) (s : Cursor) : Nat → Nat
  | 0 => 0
  | n + 1 => s.lost policy n + refusedDigits (s.answer policy n)

theorem afterCalls_add (policy : Text) (s : Cursor) (n k : Nat) :
    s.afterCalls policy (n + k) = (s.afterCalls policy n).afterCalls policy k := by
  induction k with
  | zero => rfl
  | succ k ih => rw [← Nat.add_assoc, afterCalls, ih, afterCalls]

theorem answer_add (policy : Text) (s : Cursor) (n k : Nat) :
    s.answer policy (n + k) = (s.afterCalls policy n).answer policy k := by
  rw [answer, afterCalls_add, answer]

/-- **The bytes counted and the digits refused** make up the source before
the cursor. -/
theorem offset_add_lost (policy source : Text) (n : Nat) :
    ∃ before : Text, source = before ++ ((ofText source).afterCalls policy n).rest ∧
      ((ofText source).afterCalls policy n).offset + (ofText source).lost policy n =
        before.size := by
  induction n with
  | zero => exact ⟨[], rfl, rfl⟩
  | succ n ih =>
    obtain ⟨before, hsource, hsize⟩ := ih
    obtain ⟨passed, hpassed, hcounted⟩ :=
      exists_passed policy ((ofText source).afterCalls policy n)
    refine ⟨before ++ passed, ?_, ?_⟩
    · rw [List.append_assoc, afterCalls, ← hpassed]
      exact hsource
    · rw [Text.size_append, lost, afterCalls, answer]
      omega

/-! ## Answers and places -/

theorem places_afterCalls (policy : Text) (s : Cursor) (n : Nat) :
    (s.afterCalls policy n).places = s.places.drop n := by
  induction n with
  | zero => rfl
  | succ n ih => rw [afterCalls, places_next, ih, List.tail_drop]

/-- **The answers are those of the places ahead**, one after the other,
and then the end. -/
theorem answer_eq (policy : Text) (s : Cursor) (n : Nat) :
    s.answer policy n =
      match s.places[n]? with
      | some p => p.token policy
      | none => .ok .eof := by
  have hplaces := places_afterCalls policy s n
  cases h : s.places[n]? with
  | none =>
    rw [List.drop_eq_nil_of_le (List.getElem?_eq_none_iff.1 h)] at hplaces
    exact result_next_of_places_nil hplaces
  | some p =>
    obtain ⟨hlt, rfl⟩ := List.getElem?_eq_some_iff.1 h
    rw [List.drop_eq_getElem_cons hlt] at hplaces
    exact result_next_of_places_cons hplaces

/-- **A cursor that starts at another byte answers the same**, with its
tokens so much farther on. -/
theorem answer_shift (policy b : Text) (n k : Nat) :
    answer policy ⟨b, n⟩ k = ((ofText b).answer policy k).map (Token.shift n) := by
  rw [answer_eq, answer_eq, places_at, List.getElem?_map]
  cases (ofText b).places[k]? with
  | none => rfl
  | some p => exact token_shift policy n p

/-- **The end lasts.** A call at the end leaves a cursor that no call
changes. -/
theorem next_next_of_atEnd (h : s.atEnd = true) :
    ((s.next policy).state).next policy =
      ⟨.ok .eof, (s.next policy).state, [.drew (.token .eof)]⟩ := by
  rw [next_of_atEnd h]
  rfl

theorem afterCalls_of_atEnd (h : s.atEnd = true) (k : Nat) :
    ((s.next policy).state).afterCalls policy k = (s.next policy).state := by
  induction k with
  | zero => rfl
  | succ k ih => rw [afterCalls, ih, next_next_of_atEnd h]

end Cursor

/-! ## The account -/

/-- **What any number of calls of a scanner comes to**, where it starts on
a source, under a policy. -/
structure Account (policy source : Text) (s : Cursor) : Prop where
  /-- The bytes counted and the digits refused so far are those before the
  cursor. -/
  balance : ∀ n, ∃ before : Text, source = before ++ (s.afterCalls policy n).rest ∧
    (s.afterCalls policy n).offset + s.lost policy n = before.size
  /-- A token is located by the bytes before it, less the digits refused
  before. -/
  tokens : ∀ n t, s.answer policy n = .ok t → t.kind ≠ .eof →
    ∃ (before : Text) (location : Nat),
      source = before ++ t.raw ++ (s.afterCalls policy (n + 1)).rest ∧
        t.location = some (location : Int) ∧ location + s.lost policy n = before.size
  /-- A refusal is that of a whole run of digits. The cursor goes past the
  run, with the bytes counted that were counted before it. -/
  refusals : ∀ n e, s.answer policy n = .error e →
    ∃ before run : Text, source = before ++ run ++ (s.afterCalls policy (n + 1)).rest ∧
      run.isNumeral = true ∧ LongestMatch run (s.afterCalls policy (n + 1)).rest ∧
        e.digits = run.length ∧ Numeral.longest < run.length ∧
          (s.afterCalls policy (n + 1)).offset + s.lost policy n = before.size
  /-- After a refusal the source behind the run is scanned afresh, from
  those bytes on. -/
  afresh : ∀ n e, s.answer policy n = .error e → ∀ k,
    s.answer policy (n + 1 + k) =
      ((Cursor.ofText (s.afterCalls policy (n + 1)).rest).answer policy k).map
        (Token.shift (s.afterCalls policy (n + 1)).offset)
  /-- The pieces of the source are answered for in order, each by one call:
  by its token, or by its refusal. Behind them is the end. -/
  pieces : ∃ raws : List Text, Cut source raws ∧ ∀ n,
    match raws[n]? with
    | some raw =>
      (∃ t, s.answer policy n = .ok t ∧ t.kind ≠ .eof ∧ t.raw = raw) ∨
        s.answer policy n = .error ⟨raw.length⟩ ∧ raw.isNumeral = true ∧
          Numeral.longest < raw.length
    | none => s.answer policy n = .ok .eof
  /-- A call that is answered with the end leaves a cursor that answers
  with the end for ever, and does nothing else. -/
  ending : ∀ n t, s.answer policy n = .ok t → t.kind = .eof → t = .eof ∧ ∀ k,
    (s.afterCalls policy (n + 1 + k)).next policy =
      ⟨.ok .eof, s.afterCalls policy (n + 1), [.drew (.token .eof)]⟩

namespace Cursor

variable {policy source : Text} {s : Cursor} {n : Nat} {t : Token} {e : Overlong}

/-- A call that is not answered with the end is not made there. -/
theorem atEnd_eq_false_of_answer_ne (h : s.answer policy n ≠ .ok .eof) :
    (s.afterCalls policy n).atEnd = false := by
  refine Bool.eq_false_iff.2 fun hend => h ?_
  exact result_next_of_atEnd hend

/-- **A token that a call delivers** stands behind what was passed. -/
theorem exists_before_of_answer_ok (h : (ofText source).answer policy n = .ok t)
    (hkind : t.kind ≠ .eof) :
    ∃ (before : Text) (location : Nat),
      source = before ++ t.raw ++ ((ofText source).afterCalls policy (n + 1)).rest ∧
        t.location = some (location : Int) ∧
          location + (ofText source).lost policy n = before.size := by
  obtain ⟨before, hsource, hsize⟩ := offset_add_lost policy source n
  have hend : ((ofText source).afterCalls policy n).atEnd = false := by
    refine atEnd_eq_false_of_answer_ne fun heof => hkind ?_
    rw [h] at heof
    rw [Except.ok.inj heof]
    rfl
  obtain ⟨w, raw, passes⟩ := exists_passes policy hend
  have htoken := passes.result_eq.symm.trans h
  obtain ⟨hraw, -⟩ := Lexeme.raw_kind_of_token_ofRaw passes.longest.isLexeme htoken
  refine ⟨before ++ w, _, ?_, Lexeme.location_of_token htoken, ?_⟩
  · rw [hraw, List.append_assoc before, List.append_assoc before, afterCalls, ← passes.rest_eq]
    exact hsource
  · rw [Text.size_append]
    omega

/-- **And a run that a call refuses** stands there as a whole. -/
theorem exists_before_of_answer_error (h : (ofText source).answer policy n = .error e) :
    ∃ before run : Text,
      source = before ++ run ++ ((ofText source).afterCalls policy (n + 1)).rest ∧
        run.isNumeral = true ∧
          LongestMatch run ((ofText source).afterCalls policy (n + 1)).rest ∧
            e.digits = run.length ∧ Numeral.longest < run.length ∧
              ((ofText source).afterCalls policy (n + 1)).offset +
                (ofText source).lost policy n = before.size := by
  obtain ⟨before, hsource, hsize⟩ := offset_add_lost policy source n
  have hend : ((ofText source).afterCalls policy n).atEnd = false := by
    refine atEnd_eq_false_of_answer_ne fun heof => ?_
    rw [h] at heof
    cases heof
  obtain ⟨w, raw, passes⟩ := exists_passes policy hend
  have hrefusal := Lexeme.token_eq_error_iff.1 (passes.result_eq.symm.trans h)
  have hoffset := passes.offset_eq
  rw [Lexeme.counted_of_refusal hrefusal] at hoffset
  obtain ⟨isNumeral, hlong, rfl⟩ := Lexeme.refusal_ofRaw_eq_some_iff.1 hrefusal
  refine ⟨before ++ w, raw, ?_, isNumeral, passes.longest, rfl, hlong, ?_⟩
  · rw [List.append_assoc before, List.append_assoc before, afterCalls, ← passes.rest_eq]
    exact hsource
  · rw [Text.size_append, afterCalls]
    omega

/-- **Each piece of a source is answered for by one call.** -/
theorem answer_of_piece (policy : Text) (s : Cursor) (n : Nat) :
    match (s.places.map fun p => p.lexeme.raw)[n]? with
    | some raw =>
      (∃ t, s.answer policy n = .ok t ∧ t.kind ≠ .eof ∧ t.raw = raw) ∨
        s.answer policy n = .error ⟨raw.length⟩ ∧ raw.isNumeral = true ∧
          Numeral.longest < raw.length
    | none => s.answer policy n = .ok .eof := by
  have hanswer := answer_eq policy s n
  rw [List.getElem?_map]
  cases hp : s.places[n]? with
  | none =>
    rw [hp] at hanswer
    exact hanswer
  | some p =>
    rw [hp] at hanswer
    dsimp only [Option.map_some] at hanswer ⊢
    have hmem := List.mem_of_getElem? hp
    rw [hanswer]
    cases ht : p.token policy with
    | ok t =>
      exact .inl ⟨t, rfl, Lexeme.kind_ne_eof_of_token ht, (raw_kind_of_token hmem ht).1⟩
    | error e =>
      have hrefusal : p.lexeme.refusal? = some e := Lexeme.token_eq_error_iff.1 ht
      rw [(lexeme_eq_ofRaw hmem).2] at hrefusal
      obtain ⟨isNumeral, hlong, rfl⟩ := Lexeme.refusal_ofRaw_eq_some_iff.1 hrefusal
      exact .inr ⟨rfl, isNumeral, hlong⟩

end Cursor

/-- **Every source is accounted for**, under every policy and for any
number of calls, refused or not. -/
theorem account_calls (policy source : Text) :
    Account policy source (Cursor.ofText source) where
  balance := Cursor.offset_add_lost policy source
  tokens _ _ h hkind := Cursor.exists_before_of_answer_ok h hkind
  refusals _ _ h := Cursor.exists_before_of_answer_error h
  afresh n _ _ k := by
    rw [Cursor.answer_add]
    exact Cursor.answer_shift policy _ _ k
  pieces := ⟨_, (Cursor.ofText source).cut_places, Cursor.answer_of_piece policy _⟩
  ending n t h hkind := by
    have hend := Cursor.atEnd_of_next_eof h hkind
    refine ⟨?_, fun k => ?_⟩
    · rw [Cursor.answer, Cursor.result_next_of_atEnd hend] at h
      exact (Except.ok.inj h).symm
    · rw [Cursor.afterCalls_add, Cursor.afterCalls, Cursor.afterCalls_of_atEnd hend,
        Cursor.next_next_of_atEnd hend]

end ScriptReader
