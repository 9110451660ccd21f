import Mathlib.Data.Nat.Digits.Defs
import ScriptReader.Proofs.Layout
import ScriptReader.Proofs.Relocation

/-!
# Spellings — a token again from its literal

`Token.Scanned` lists what a scanner makes of a lexeme, one case for each
sort of token, and `scanned_iff_next` says that this is all it can answer
with before the end. The literal of such a token is its source, but for
an integer (`Token.Scanned.literal_eq_raw`), whose literal may be another
run of digits: shorter by its zeros, or that of the greatest integer.

Either way the literal is a lexeme again, and what a scanner makes of it
is the same token, spelled in this way (`Token.Scanned.respelled`,
`Token.Scanned.eq_of_raw_eq`).
-/

namespace ScriptReader

/-! ## Decimal digits -/

theorem CodePoint.ofChar_inj {c d : Char} (h : ofChar c = ofChar d) : c = d :=
  Char.toNat_inj.1 (congrArg CodePoint.val h)

theorem CodePoint.isDigit_ofChar {c : Char} (h : c.isDigit = true) : (ofChar c).isDigit = true := by
  simp only [Char.isDigit, Bool.and_eq_true, decide_eq_true_eq, UInt32.le_iff_toNat_le] at h
  rw [isDigit, Bool.and_eq_true, decide_eq_true_iff, decide_eq_true_iff]
  exact h

namespace Numeral

theorem isDigit_of_mem_decimal {n : Nat} {c : CodePoint} (h : c ∈ decimal n) :
    c.isDigit = true := by
  obtain ⟨d, hd, rfl⟩ := List.mem_map.1 h
  exact CodePoint.isDigit_ofChar (Nat.isDigit_of_mem_toDigits (by decide) (by decide) hd)

/-- A number in decimal digits is a run of digits. -/
theorem isNumeral_decimal (n : Nat) : (decimal n).isNumeral = true := by
  have digits : ∀ c ∈ decimal n, c.isDigit = true := fun c => isDigit_of_mem_decimal
  cases hn : decimal n with
  | nil => exact absurd (List.map_eq_nil_iff.1 hn) Nat.toDigits_ne_nil
  | cons c run =>
    rw [hn] at digits
    rw [Text.isNumeral, digits c (.head run), List.all_eq_true.2 fun d hd => digits d (.tail c hd)]
    rfl

/-- And an integer that fits has few of them. -/
theorem length_decimal_le {n : Nat} (fits : n ≤ greatest) : (decimal n).length ≤ longest := by
  have short : (Nat.toDigits 10 n).length ≤ 19 :=
    Nat.toDigits_length 10 n 19 (by decide) (Nat.lt_of_le_of_lt fits (by decide))
  rw [decimal, List.length_map]
  exact Nat.le_trans short (by decide)

end Numeral

/-! ## What a scanner answers with -/

/-- **The tokens of a scanner** under a policy, the end apart. -/
inductive Token.Scanned (policy : Text) : Token → Prop
  /-- A word that is not reserved. -/
  | name {raw : Text} (n : Nat) (isWord : raw.isWord = true) (free : Keyword.ofText? raw = none) :
      Scanned policy { kind := .identifier, location := some n, raw }
  | keyword (k : Keyword) (n : Nat) :
      Scanned policy { kind := .keyword k, location := some n, raw := k.spelling }
  /-- A number that fits. -/
  | integer {raw : Text} (n : Nat) (isNumeral : raw.isNumeral = true)
      (readable : raw.length ≤ Numeral.longest) (fits : Numeral.value raw ≤ Numeral.greatest) :
      Scanned policy
        { kind := .integer, location := some n, raw, value := some (Numeral.value raw) }
  /-- A number that is too great, where the greatest one takes its place. -/
  | saturated {raw : Text} (n : Nat) (isNumeral : raw.isNumeral = true)
      (readable : raw.length ≤ Numeral.longest) (great : Numeral.greatest < Numeral.value raw)
      (saturates : policy = "saturate") :
      Scanned policy
        { kind := .integer, location := some n, raw, value := some Numeral.greatest }
  /-- And where none does. -/
  | excessive {raw : Text} (n : Nat) (isNumeral : raw.isNumeral = true)
      (readable : raw.length ≤ Numeral.longest) (great : Numeral.greatest < Numeral.value raw)
      (refuses : policy ≠ "saturate") :
      Scanned policy { kind := .illegal, location := some n, raw }
  | mark (m : Mark) (n : Nat) :
      Scanned policy { kind := .mark m, location := some n, raw := m.spelling }
  /-- A code point that starts none of the others. -/
  | stray {c : CodePoint} (n : Nat) (visible : c.isBlank = false)
      (noWord : Text.isWord [c] = false) (noNumeral : Text.isNumeral [c] = false)
      (noMark : Mark.ofText? [c] = none) :
      Scanned policy { kind := .illegal, location := some n, raw := [c] }

section Scanned

variable {policy raw : Text} {n : Nat} {t u : Token}

/-- The token of a run of digits is one of three. -/
theorem Token.scanned_integer (policy : Text) (n : Nat) (isNumeral : raw.isNumeral = true)
    (readable : raw.length ≤ Numeral.longest) : (Lexeme.integer policy n raw).Scanned policy := by
  rw [Lexeme.integer]
  split
  · next fits => exact .integer n isNumeral readable fits
  · next great =>
    have great := Nat.lt_of_not_ge great
    by_cases hpolicy : policy = "saturate"
    · rw [saturates, decide_eq_true hpolicy]
      exact .saturated n isNumeral readable great hpolicy
    · rw [saturates, decide_eq_false hpolicy]
      exact .excessive n isNumeral readable great hpolicy

/-- A lexeme makes no other token than these. -/
theorem Token.scanned_of_token (lexeme : IsLexeme raw)
    (h : (Lexeme.ofRaw raw).token policy n = .ok t) : t.Scanned policy := by
  by_cases isWord : raw.isWord = true
  · rw [Lexeme.ofRaw, if_pos isWord, Lexeme.token_word] at h
    cases h
    cases hk : Keyword.ofText? raw with
    | none => exact .name n isWord hk
    | some k =>
      obtain rfl := Keyword.ofText?_eq_some_iff.1 hk
      exact .keyword k n
  by_cases isNumeral : raw.isNumeral = true
  · rw [Lexeme.ofRaw_of_isNumeral isNumeral, Lexeme.token] at h
    split at h
    · cases h
    · next readable =>
      cases h
      exact scanned_integer policy n isNumeral (Nat.le_of_not_lt readable)
  rcases lexeme with h' | h' | ⟨m, rfl⟩ | ⟨c, visible, rfl⟩
  · exact absurd h' isWord
  · exact absurd h' isNumeral
  · rw [Lexeme.ofRaw_spelling] at h
    cases h
    exact .mark m n
  · rw [Lexeme.ofRaw, if_neg isWord, if_neg isNumeral] at h
    cases hm : Mark.ofText? [c] with
    | some m =>
      rw [hm] at h
      cases h
      exact .mark m n
    | none =>
      rw [hm] at h
      cases h
      exact .stray n visible (by simpa using isWord) (by simpa using isNumeral) hm

namespace Token.Scanned

theorem isLexeme (h : t.Scanned policy) : IsLexeme t.raw := by
  cases h with
  | name n isWord => exact .inl isWord
  | keyword k n => exact .inl (by cases k <;> rfl)
  | integer n isNumeral => exact .inr (.inl isNumeral)
  | saturated n isNumeral => exact .inr (.inl isNumeral)
  | excessive n isNumeral => exact .inr (.inl isNumeral)
  | mark m n => exact .inr (.inr (.inl ⟨m, rfl⟩))
  | stray n visible => exact .inr (.inr (.inr ⟨_, visible, rfl⟩))

theorem readable (h : t.Scanned policy) (isNumeral : t.raw.isNumeral = true) :
    t.raw.length ≤ Numeral.longest := by
  cases h with
  | name n isWord =>
    rw [Text.isNumeral_eq_false_of_isWord isWord] at isNumeral
    cases isNumeral
  | keyword k n => cases k <;> cases isNumeral
  | integer n _ readable => exact readable
  | saturated n _ readable => exact readable
  | excessive n _ readable => exact readable
  | mark m n => cases m <;> cases isNumeral
  | stray n visible noWord noNumeral =>
    rw [noNumeral] at isNumeral
    cases isNumeral

/-- Its source makes the token. -/
theorem exists_token (h : t.Scanned policy) : ∃ n, (Lexeme.ofRaw t.raw).token policy n = .ok t := by
  cases h with
  | name n isWord free =>
    refine ⟨n, ?_⟩
    rw [Lexeme.ofRaw, if_pos isWord, Lexeme.token_word, free]
  | keyword k n => exact ⟨n, by cases k <;> rfl⟩
  | integer n isNumeral readable fits =>
    refine ⟨n, ?_⟩
    rw [Lexeme.ofRaw_of_isNumeral isNumeral, Lexeme.token, if_neg (Nat.not_lt_of_le readable),
      Lexeme.integer, if_pos fits]
  | saturated n isNumeral readable great hpolicy =>
    refine ⟨n, ?_⟩
    rw [Lexeme.ofRaw_of_isNumeral isNumeral, Lexeme.token, if_neg (Nat.not_lt_of_le readable),
      Lexeme.integer, if_neg (Nat.not_le_of_gt great), saturates, decide_eq_true hpolicy,
      if_pos rfl]
  | excessive n isNumeral readable great hpolicy =>
    refine ⟨n, ?_⟩
    rw [Lexeme.ofRaw_of_isNumeral isNumeral, Lexeme.token, if_neg (Nat.not_lt_of_le readable),
      Lexeme.integer, if_neg (Nat.not_le_of_gt great), saturates, decide_eq_false hpolicy,
      if_neg Bool.false_ne_true]
  | mark m n => exact ⟨n, by rw [Lexeme.ofRaw_spelling]; rfl⟩
  | stray n visible noWord noNumeral noMark =>
    refine ⟨n, ?_⟩
    rw [Lexeme.ofRaw, noWord, noNumeral, noMark]
    rfl

/-- **A source makes one token** at a place. -/
theorem eq_of_raw_eq (ht : t.Scanned policy) (hu : u.Scanned policy) (same : t.raw = u.raw) :
    { t with location := u.location } = u := by
  obtain ⟨n, hn⟩ := ht.exists_token
  obtain ⟨m, hm⟩ := hu.exists_token
  rw [← same, Lexeme.token_elsewhere policy n m, hn] at hm
  obtain rfl := Except.ok.inj hm
  rfl

theorem literal_eq_raw (h : t.Scanned policy) (noInteger : t.kind ≠ .integer) :
    t.literal = t.raw := by
  cases h with
  | integer => exact absurd rfl noInteger
  | saturated => exact absurd rfl noInteger
  | _ => rfl

/-- **A token spelled by its literal** is a token again, wherever it
stands. -/
theorem respelled (h : t.Scanned policy) (n : Nat) :
    Scanned policy { t with raw := t.literal, location := some n } := by
  have decimal : ∀ v ≤ Numeral.greatest, Scanned policy
      { kind := .integer, location := some n, raw := Numeral.decimal v, value := some v } := by
    intro v fits
    have again : Numeral.value (Numeral.decimal v) ≤ Numeral.greatest := by
      rwa [Numeral.value_decimal]
    have h := @integer policy _ n (Numeral.isNumeral_decimal v)
      (Numeral.length_decimal_le fits) again
    rwa [Numeral.value_decimal] at h
  cases h with
  | name _ isWord free => exact .name n isWord free
  | keyword k => exact .keyword k n
  | integer _ isNumeral readable fits => exact decimal _ fits
  | saturated _ isNumeral readable great hpolicy => exact decimal _ (Nat.le_refl _)
  | excessive _ isNumeral readable great hpolicy =>
    exact .excessive n isNumeral readable great hpolicy
  | mark m => exact .mark m n
  | stray _ visible noWord noNumeral noMark => exact .stray n visible noWord noNumeral noMark

end Token.Scanned

/-- **The tokens of a scanner are what it answers with**, wherever it is,
before the end. -/
theorem Token.scanned_iff_next :
    t.Scanned policy ↔ t.kind ≠ .eof ∧ ∃ s : Cursor, (s.next policy).result = .ok t := by
  constructor
  · intro h
    obtain ⟨n, hn⟩ := h.exists_token
    obtain ⟨c, run, hraw⟩ := List.exists_cons_of_ne_nil h.isLexeme.ne_nil
    rw [hraw] at hn
    have longest : LongestMatch (c :: run) [] :=
      longestMatch_of_blank (hraw ▸ h.isLexeme) fun d hd => nomatch hd
    have hskip := Cursor.skipBlanks_of_longestMatch (w := []) rfl longest n
    -- A scanner that has nothing but the source of the token ahead answers with it.
    have hmunch := Lexeme.munch_eq_of_longestMatch longest (List.cons_append ..).symm
    refine ⟨Lexeme.kind_ne_eof_of_token hn, ⟨[] ++ (c :: run) ++ [], n⟩, ?_⟩
    rw [Cursor.next_of_skipBlanks_cons hskip, Cursor.result_scan, hmunch]
    exact hn
  · rintro ⟨noEnd, s, hs⟩
    obtain ⟨-, htokens⟩ | ⟨rfl, -⟩ := Cursor.tokens_of_next_ok hs
    · obtain ⟨lexeme, n, hn⟩ := Cursor.token_of_mem_tokens (htokens ▸ List.mem_cons_self)
      exact scanned_of_token lexeme hn
    · exact absurd rfl noEnd

theorem Cursor.scanned_of_mem_tokens {s : Cursor} (h : t ∈ s.tokens policy) : t.Scanned policy := by
  obtain ⟨lexeme, n, hn⟩ := token_of_mem_tokens h
  exact Token.scanned_of_token lexeme hn

end Scanned

end ScriptReader
