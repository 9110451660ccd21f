import ScriptReader.Reading

/-!
# Places — what lies ahead of a cursor

The lexemes that a cursor has before it, and where their tokens are
located, depend on no policy: `Cursor.places` lists them. Asking the
cursor once answers with the first of them (`Cursor.result_next`) and
leaves the others (`Cursor.places_next`), so what a cursor delivers from
now on is read off the list: the tokens (`Cursor.tokens`), and the
refusal that stops whoever asks for all of them (`Cursor.refusal?`).
`Cursor.result_drain` says so of draining.
-/

namespace ScriptReader

namespace Lexeme

/-- The refusal of a run of digits that is too long. -/
def refusal? : Lexeme → Option Overlong
  | digits run => if Numeral.longest < run.length then some ⟨run.length⟩ else none
  | _ => none

/-- The bytes that are counted when a lexeme has been scanned. -/
def counted (l : Lexeme) : Nat := if l.refusal?.isSome then 0 else l.raw.size

variable {policy : Text} {offset : Nat} {l : Lexeme} {e : Overlong}

theorem token_of_refusal (h : l.refusal? = some e) : l.token policy offset = .error e := by
  cases l with
  | digits run =>
    simp only [refusal?, Option.ite_none_right_eq_some] at h
    obtain ⟨hlong, he⟩ := h
    cases he
    rw [token, if_pos hlong]
  | _ => cases h

theorem exists_token_of_refusal_eq_none (policy : Text) (offset : Nat) (h : l.refusal? = none) :
    ∃ t, l.token policy offset = .ok t := by
  cases l with
  | digits run =>
    have hlong : ¬ Numeral.longest < run.length := fun hlong => by
      rw [refusal?, if_pos hlong] at h
      cases h
    exact ⟨_, by rw [token, if_neg hlong]⟩
  | _ => exact ⟨_, rfl⟩

/-- **What is refused is refused under every policy**, wherever it stands. -/
theorem token_eq_error_iff : l.token policy offset = .error e ↔ l.refusal? = some e := by
  constructor
  · intro h
    cases hr : l.refusal? with
    | none =>
      obtain ⟨t, ht⟩ := exists_token_of_refusal_eq_none policy offset hr
      rw [ht] at h
      cases h
    | some e' =>
      rw [token_of_refusal hr] at h
      cases h
      rfl
  · exact token_of_refusal

theorem counted_of_refusal_eq_none (h : l.refusal? = none) : l.counted = l.raw.size := by
  simp [counted, h]

theorem counted_of_refusal (h : l.refusal? = some e) : l.counted = 0 := by
  simp [counted, h]

end Lexeme

/-- A lexeme, with the byte at which its token is located. -/
structure Place where
  offset : Nat
  lexeme : Lexeme
deriving DecidableEq

namespace Place

/-- What a place gives a scanner under a policy. -/
def token (policy : Text) (p : Place) : Except Overlong Token := p.lexeme.token policy p.offset

end Place

namespace Cursor

/-- The lexemes ahead of a cursor, with the places of their tokens. A
refused run of digits is passed without being counted. -/
def places (s : Cursor) : List Place :=
  match _h : s.skipBlanks with
  | ⟨[], _⟩ => []
  | ⟨c :: rest, offset⟩ =>
    let l := (Lexeme.munch c rest).1
    ⟨offset, l⟩ :: places ⟨(Lexeme.munch c rest).2, offset + l.counted⟩
termination_by s.rest.length
decreasing_by
  have hle := length_skipBlanks_le s
  rw [_h] at hle
  exact Nat.lt_of_lt_of_le (Lexeme.length_munch_lt c rest) hle

/-- The first refusal ahead. -/
def refusal? (s : Cursor) : Option Overlong := s.places.findSome? fun p => p.lexeme.refusal?

/-- The tokens ahead, up to the end. -/
def tokens (policy : Text) (s : Cursor) : List Token :=
  s.places.filterMap fun p => (p.token policy).toOption

variable {s : Cursor} {policy : Text}

theorem places_of_skipBlanks_nil {offset : Nat} (h : s.skipBlanks = ⟨[], offset⟩) :
    s.places = [] := by
  rw [places]
  split
  · rfl
  · next h' => rw [h] at h'; cases h'

theorem places_of_skipBlanks_cons {c : CodePoint} {rest : Text} {offset : Nat}
    (h : s.skipBlanks = ⟨c :: rest, offset⟩) :
    s.places = ⟨offset, (Lexeme.munch c rest).1⟩ ::
      places ⟨(Lexeme.munch c rest).2, offset + (Lexeme.munch c rest).1.counted⟩ := by
  rw [places]
  split
  · next h' => rw [h] at h'; cases h'
  · next h' => rw [h] at h'; cases h'; rfl

/-- There is nothing ahead exactly at the end. -/
theorem places_eq_nil_iff : s.places = [] ↔ s.atEnd = true := by
  rw [← skipBlanks_eq_nil_iff]
  rcases h : s.skipBlanks with ⟨_ | ⟨c, rest⟩, offset⟩
  · simp [places_of_skipBlanks_nil h]
  · simp [places_of_skipBlanks_cons h]

theorem result_scan (policy : Text) (c : CodePoint) (rest : Text) (offset : Nat) :
    (scan policy c rest offset).result = (Lexeme.munch c rest).1.token policy offset := by
  unfold scan
  dsimp only
  split
  · next h => exact h.symm
  · next h => exact h.symm

theorem state_scan (policy : Text) (c : CodePoint) (rest : Text) (offset : Nat) :
    (scan policy c rest offset).state =
      ⟨(Lexeme.munch c rest).2, offset + (Lexeme.munch c rest).1.counted⟩ := by
  unfold scan
  dsimp only
  split
  · next h => rw [Lexeme.counted_of_refusal (Lexeme.token_eq_error_iff.1 h)]; rfl
  · next h =>
    have hnone : (Lexeme.munch c rest).1.refusal? = none := by
      cases hr : (Lexeme.munch c rest).1.refusal? with
      | none => rfl
      | some e => rw [Lexeme.token_of_refusal hr] at h; cases h
    rw [Lexeme.counted_of_refusal_eq_none hnone]

theorem next_of_skipBlanks_cons {c : CodePoint} {rest : Text} {offset : Nat}
    (h : s.skipBlanks = ⟨c :: rest, offset⟩) : s.next policy = scan policy c rest offset := by
  rw [next, h]

/-- **Asking once leaves the places after the first.** -/
theorem places_next (policy : Text) (s : Cursor) :
    (s.next policy).state.places = s.places.tail := by
  rcases h : s.skipBlanks with ⟨_ | ⟨c, rest⟩, offset⟩
  · have hend : s.atEnd = true := (skipBlanks_eq_nil_iff s).1 (by rw [h])
    rw [places_eq_nil_iff.2 (atEnd_next hend), places_of_skipBlanks_nil h, List.tail_nil]
  · rw [next_of_skipBlanks_cons h, state_scan, places_of_skipBlanks_cons h, List.tail_cons]

theorem result_next_of_places_nil (h : s.places = []) : (s.next policy).result = .ok .eof :=
  result_next_of_atEnd (places_eq_nil_iff.1 h)

/-- **And it answers with the first of them.** -/
theorem result_next_of_places_cons {p : Place} {ps : List Place} (h : s.places = p :: ps) :
    (s.next policy).result = p.token policy := by
  rcases hs : s.skipBlanks with ⟨_ | ⟨c, rest⟩, offset⟩
  · rw [places_of_skipBlanks_nil hs] at h
    cases h
  · rw [places_of_skipBlanks_cons hs] at h
    cases h
    rw [next_of_skipBlanks_cons hs, result_scan]
    rfl

/-! ## Tokens and refusals -/

theorem tokens_of_places_nil (policy : Text) (h : s.places = []) : s.tokens policy = [] := by
  simp [tokens, h]

theorem tokens_of_atEnd (policy : Text) (h : s.atEnd = true) : s.tokens policy = [] :=
  tokens_of_places_nil policy (places_eq_nil_iff.2 h)

theorem refusal_of_places_nil (h : s.places = []) : s.refusal? = none := by
  simp [refusal?, h]

/-- A draw that is refused was the first refusal ahead. -/
theorem refusal_of_next_error {e : Overlong} (h : (s.next policy).result = .error e) :
    s.refusal? = some e := by
  rcases hs : s.places with _ | ⟨p, ps⟩
  · rw [result_next_of_places_nil hs] at h
    cases h
  · rw [result_next_of_places_cons hs, Place.token, Lexeme.token_eq_error_iff] at h
    rw [refusal?, hs, List.findSome?_cons, h]

/-- And a draw that is not leaves the first refusal where it is. -/
theorem refusal_next_of_ok {t : Token} (h : (s.next policy).result = .ok t) :
    (s.next policy).state.refusal? = s.refusal? := by
  rw [refusal?, refusal?, places_next]
  rcases hs : s.places with _ | ⟨p, ps⟩
  · rfl
  · rw [result_next_of_places_cons hs, Place.token] at h
    have hnone : p.lexeme.refusal? = none := by
      cases hr : p.lexeme.refusal? with
      | none => rfl
      | some e => rw [Lexeme.token_of_refusal hr] at h; cases h
    rw [List.tail_cons, List.findSome?_cons, hnone]

/-- **What a draw delivers is the first token ahead**, or the end when
there is none. -/
theorem tokens_of_next_ok {t : Token} (h : (s.next policy).result = .ok t) :
    (t.kind ≠ .eof ∧ s.tokens policy = t :: (s.next policy).state.tokens policy) ∨
      (t = .eof ∧ s.atEnd = true ∧ s.tokens policy = []) := by
  rcases hs : s.places with _ | ⟨p, ps⟩
  · rw [result_next_of_places_nil hs] at h
    cases h
    exact .inr ⟨rfl, places_eq_nil_iff.1 hs, tokens_of_places_nil policy hs⟩
  · rw [result_next_of_places_cons hs] at h
    refine .inl ⟨Lexeme.kind_ne_eof_of_token h, ?_⟩
    rw [tokens, tokens, places_next, hs, List.tail_cons, List.filterMap_cons, h]
    rfl

/-- **Draining delivers all tokens ahead**, unless a refusal is among
what is ahead: then it ends with the first one. -/
theorem result_drain (policy : Text) (s : Cursor) :
    (s.drain policy).result =
      match s.refusal? with
      | some e => .error e
      | none => .ok (s.tokens policy) := by
  fun_induction drain policy s with
  | case1 s o hend =>
    have hnil := places_eq_nil_iff.2 hend
    simp [refusal_of_places_nil hnil, tokens_of_places_nil policy hnil, o, Outcome.map,
      result_next_of_atEnd hend]
  | case2 s o hend ih =>
    cases h : o.result with
    | error e =>
      rw [Outcome.andThen_of_error h, refusal_of_next_error h]
    | ok t =>
      -- The cursor is not at the end, so the token drawn is none either.
      have hkind : t.kind ≠ .eof := fun heof => hend (atEnd_of_next_eof h heof)
      obtain ⟨-, htokens⟩ | ⟨rfl, -⟩ := tokens_of_next_ok h
      · rw [Outcome.andThen_of_ok h, ← refusal_next_of_ok h, htokens]
        simp only [Outcome.map]
        rw [ih]
        cases (s.next policy).state.refusal? <;> rfl
      · exact absurd rfl hkind

end Cursor

end ScriptReader
