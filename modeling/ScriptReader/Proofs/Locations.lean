import ScriptReader.Proofs.Cut

/-!
# Locations — tokens in the order of their source

Every token of a scanner is located, at the byte where its lexeme stands
(`Lexeme.location_of_token`). A lexeme that is not refused takes up bytes,
so the tokens ahead of a cursor are located one after the other
(`Cursor.located_tokens`), also across a refusal, and a token is known by
its location (`Located.eq_of_location_eq`).
-/

namespace ScriptReader

/-- A token located before another one. -/
def Token.Before (t u : Token) : Prop :=
  ∃ m n : Int, t.location = some m ∧ u.location = some n ∧ m < n

theorem Lexeme.location_integer (policy : Text) (offset : Nat) (run : Text) :
    (integer policy offset run).location = some (offset : Int) := by
  unfold integer
  repeat' split
  all_goals rfl

/-- **A token is located where its lexeme stands.** -/
theorem Lexeme.location_of_token {policy : Text} {offset : Nat} {l : Lexeme} {t : Token}
    (h : l.token policy offset = .ok t) : t.location = some (offset : Int) := by
  cases l with
  | word spelling =>
    rw [token_word] at h
    cases h
    rfl
  | digits run =>
    rw [token] at h
    split at h
    · cases h
    · cases h
      exact location_integer policy offset run
  | mark m => cases h; rfl
  | stray c => cases h; rfl

/-- A lexeme that is not refused takes up bytes. -/
theorem Lexeme.size_raw_pos (c : CodePoint) (rest : Text) : 0 < (munch c rest).1.raw.size := by
  obtain ⟨d, run, hraw⟩ := List.exists_cons_of_ne_nil (raw_ne_nil c rest)
  rw [hraw, Text.size_cons]
  have := d.width_pos
  omega

namespace Cursor

variable {s : Cursor} {policy : Text}

/-- Nothing ahead of a cursor is behind it. -/
theorem offset_le_of_mem_places {p : Place} (h : p ∈ s.places) : s.offset ≤ p.offset := by
  fun_induction places s with
  | case1 => cases h
  | case2 s c rest offset hs l ih =>
    have hskip : s.offset ≤ offset := by
      have hoffset : s.skipBlanks.offset = offset := by rw [hs]
      rw [← hoffset, skipBlanks]
      exact Nat.le_add_right ..
    obtain rfl | h := List.mem_cons.1 h
    · exact hskip
    · have hlater := ih h
      dsimp only at hlater
      omega

/-- **Places come one after the other**, those that are not refused. -/
theorem pairwise_places (s : Cursor) :
    s.places.Pairwise fun p q => p.lexeme.refusal? = none → p.offset < q.offset := by
  fun_induction places s with
  | case1 => exact .nil
  | case2 s c rest offset hs l ih =>
    refine .cons (fun p hp hl => ?_) ih
    have hcounted : l.counted = l.raw.size := Lexeme.counted_of_refusal_eq_none hl
    have hpos : 0 < l.raw.size := Lexeme.size_raw_pos c rest
    have hbehind := offset_le_of_mem_places hp
    dsimp only at hbehind ⊢
    omega

/-- What a place gives is located there, and is not refused. -/
theorem location_of_place {p : Place} {t : Token} (h : (p.token policy).toOption = some t) :
    p.lexeme.refusal? = none ∧ t.location = some (p.offset : Int) := by
  cases hr : p.token policy with
  | error e => rw [hr] at h; cases h
  | ok u =>
    rw [hr] at h
    cases h
    refine ⟨?_, Lexeme.location_of_token hr⟩
    cases hrefusal : p.lexeme.refusal? with
    | none => rfl
    | some e =>
      rw [Place.token, Lexeme.token_of_refusal hrefusal] at hr
      cases hr

end Cursor

/-- **Tokens in the order of a source**: all are located, each before the
next ones. -/
structure Located (ts : List Token) : Prop where
  location_ne_none : ∀ t ∈ ts, t.location ≠ none
  ordered : ts.Pairwise Token.Before

/-- **Scanned tokens are in the order of their source.** -/
theorem Cursor.located_tokens (policy : Text) (s : Cursor) : Located (s.tokens policy) := by
  refine ⟨fun t ht => ?_, ?_⟩
  · obtain ⟨p, -, hp⟩ := List.mem_filterMap.1 ht
    rw [(location_of_place hp).2]
    exact Option.some_ne_none _
  · rw [tokens, List.pairwise_filterMap]
    refine (pairwise_places s).imp ?_
    intro p q hpq t ht u hu
    obtain ⟨clear, hlocation⟩ := location_of_place ht
    have hlt := hpq clear
    exact ⟨p.offset, q.offset, hlocation, (location_of_place hu).2, by omega⟩

namespace Located

variable {ts : List Token}

theorem nodup_map_location (h : Located ts) : (ts.map Token.location).Nodup := by
  rw [List.nodup_iff_pairwise_ne, List.pairwise_map]
  refine h.ordered.imp ?_
  rintro t u ⟨m, n, ht, hu, hlt⟩ heq
  rw [ht, hu, Option.some.injEq] at heq
  omega

/-- A token that is there is not located like the end. -/
theorem location_getD_ne_none (h : Located ts) {i : Nat} (hi : i < ts.length) :
    (ts.getD i .eof).location ≠ none := by
  rw [← @List.getElem_eq_getD _ _ _ hi]
  exact h.location_ne_none _ (List.getElem_mem hi)

/-- **A token is known by its location**, among tokens in order that have
the end behind them all. -/
theorem eq_of_location_eq (h : Located ts) {i j : Nat}
    (same : (ts.getD i .eof).location = (ts.getD j .eof).location) :
    i = j ∨ ts.length ≤ i ∧ ts.length ≤ j := by
  have atEnd : ∀ k, ts.length ≤ k → (ts.getD k .eof).location = none := by
    intro k hk
    rw [List.getD_eq_getElem?_getD, List.getElem?_eq_none hk]
    rfl
  rcases Nat.lt_or_ge i ts.length with hi | hi <;> rcases Nat.lt_or_ge j ts.length with hj | hj
  · left
    have hi' : i < (ts.map Token.location).length := by rwa [List.length_map]
    have hj' : j < (ts.map Token.location).length := by rwa [List.length_map]
    rw [← @List.getElem_eq_getD _ _ _ hi, ← @List.getElem_eq_getD _ _ _ hj] at same
    refine (@List.getElem_inj _ i j _ hi' hj' h.nodup_map_location).1 ?_
    rw [List.getElem_map, List.getElem_map, same]
  · rw [atEnd j hj] at same
    exact absurd same (h.location_getD_ne_none hi)
  · rw [atEnd i hi] at same
    exact absurd same.symm (h.location_getD_ne_none hj)
  · exact .inr ⟨hi, hj⟩

end Located

end ScriptReader
