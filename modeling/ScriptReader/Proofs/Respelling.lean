import ScriptReader.Proofs.Sketches

/-!
# Respelling — a source again from its literals

`respelling` puts the literals of tokens one after the other, with a space
between neighbours. A space joins nothing and the literal of a token is a
lexeme, so such a source is cut into these literals (`cut_join`), and each
makes the token again that it is the literal of, spelled by it. So the
tokens of a source come back from their respelling, whatever their
neighbours were, and a second respelling changes nothing.

`Token.Plain` says what a literal is: the source of the token, or the
shortest run of digits for the number that it stands for.
`tokenize_respelled` is the theorem for a source.
-/

namespace ScriptReader

/-! ## Decimal digits without superfluous zeros -/

namespace Numeral

/-- Only the digits of zero start with a zero. -/
theorem eq_zero_of_head?_toDigits {n : Nat} (h : (Nat.toDigits 10 n).head? = some '0') :
    n = 0 := by
  induction n using Nat.strongRecOn with
  | ind n ih =>
    rcases Nat.lt_or_ge n 10 with small | large
    · rw [Nat.toDigits_of_lt_base small, List.head?_cons, Option.some.injEq] at h
      have hval := congrArg Char.toNat h
      rw [Nat.toNat_digitChar_of_lt_ten small] at hval
      have hzero : '0'.toNat = 48 := rfl
      omega
    · -- The front digits are those of the tenth part.
      rw [Nat.toDigits_of_base_le (by decide) large,
        List.head?_append_of_ne_nil _ Nat.toDigits_ne_nil] at h
      have := ih (n / 10) (by omega) h
      omega

/-- **A number in decimal digits has no superfluous zeros.** -/
theorem decimal_eq_of_head? {n : Nat} (h : (decimal n).head? = some ('0' : CodePoint)) :
    decimal n = "0" := by
  rw [decimal, List.head?_map, Option.map_eq_some_iff] at h
  obtain ⟨c, hc, hzero⟩ := h
  rw [CodePoint.ofChar_inj hzero] at hc
  rw [eq_zero_of_head?_toDigits hc]
  rfl

end Numeral

/-- **What the literal of a token is.** -/
structure Token.Plain (t : Token) : Prop where
  /-- It is the source, unless the token is an integer. -/
  source : t.kind ≠ .integer → t.literal = t.raw
  /-- For an integer it is a run of digits with no superfluous zeros, which
  stands for its number, and that fits. -/
  integer : t.kind = .integer → ∃ n : Nat, n ≤ Numeral.greatest ∧ t.value = some (n : Int) ∧
    t.literal.isNumeral = true ∧ Numeral.value t.literal = n ∧
    (t.literal.head? = some ('0' : CodePoint) → t.literal = "0")

/-- **A token again**: of the same kind, with the same number and the same
literal, and spelled by it. -/
structure Token.Respells (t u : Token) : Prop where
  kind : u.kind = t.kind
  value : u.value = t.value
  literal : u.literal = t.literal
  raw : u.raw = u.literal

/-- The literals of tokens, with a space between neighbours. -/
def respelling (ts : List Token) : Text := Text.join " " (ts.map Token.literal)

section Respelling

variable {policy source : Text} {t : Token} {ts us : List Token} {raws : List Text}

theorem Token.Scanned.plain (h : t.Scanned policy) : t.Plain := by
  refine ⟨h.literal_eq_raw, fun isInteger => ?_⟩
  have decimal : ∀ n ≤ Numeral.greatest, t.value = some (n : Int) → t.literal = Numeral.decimal n →
      ∃ n : Nat, n ≤ Numeral.greatest ∧ t.value = some (n : Int) ∧
        t.literal.isNumeral = true ∧ Numeral.value t.literal = n ∧
        (t.literal.head? = some ('0' : CodePoint) → t.literal = "0") := by
    intro n fits hvalue hliteral
    rw [hliteral]
    exact ⟨n, fits, hvalue, Numeral.isNumeral_decimal n, Numeral.value_decimal n,
      Numeral.decimal_eq_of_head?⟩
  cases h with
  | integer _ _ _ fits => exact decimal _ fits rfl rfl
  | saturated => exact decimal _ (Nat.le_refl _) rfl rfl
  | _ => cases isInteger

/-! ## Texts with spaces -/

/-- Texts joined by a space have blanks between them. -/
theorem spaced_join (raw : Text) (raws : List Text) :
    Spaced (raw :: raws) (Text.join " " (raw :: raws)) := by
  induction raws generalizing raw with
  | nil =>
    rw [Text.join, List.intercalate_singleton]
    exact .one raw
  | cons next raws ih =>
    rw [Text.join, List.intercalate_cons_cons]
    exact .more rfl (by decide) (ih next)

/-- **Lexemes joined by a space are cut from each other.** -/
theorem cut_join (lexemes : ∀ raw ∈ raws, IsLexeme raw) : Cut (Text.join " " raws) raws := by
  cases raws with
  | nil => exact .blank rfl
  | cons raw raws =>
    have ends : ∀ last ∈ (raw :: raws).getLast?, LongestMatch last [] := fun last hlast =>
      longestMatch_of_blank (lexemes last (List.mem_of_getLast? hlast)) fun d hd => nomatch hd
    have h := (spaced_join raw raws).cut (w := []) lexemes ends (.blank rfl) rfl
    rwa [List.nil_append, List.append_nil, List.append_nil] at h

/-! ## Tokens from their literals -/

/-- **A respelling is scanned to its tokens**, spelled by their literals, at
some places. -/
theorem tokens_respelling (scanned : ∀ t ∈ ts, t.Scanned policy) :
    (Cursor.ofText (respelling ts)).refusal? = none ∧
      ((Cursor.ofText (respelling ts)).tokens policy).map (Token.relocate fun _ => none) =
        ts.map Token.canonical := by
  have again : ∀ raw ∈ ts.map Token.literal, ∃ u : Token, u.Scanned policy ∧ u.raw = raw := by
    intro raw hraw
    obtain ⟨t, ht, rfl⟩ := List.mem_map.1 hraw
    exact ⟨_, (scanned t ht).respelled 0, rfl⟩
  have cut : Cut (respelling ts) (ts.map Token.literal) := cut_join fun raw hraw => by
    obtain ⟨u, hu, rfl⟩ := again raw hraw
    exact hu.isLexeme
  have clear : (Cursor.ofText (respelling ts)).refusal? = none :=
    readable_iff.1 <| cut.readable fun raw hraw => by
      obtain ⟨u, hu, rfl⟩ := again raw hraw
      exact hu.readable
  refine ⟨clear, map_relocate_eq (fun t => Cursor.scanned_of_mem_tokens) (fun p hp => ?_) ?_⟩
  · obtain ⟨t, ht, rfl⟩ := List.mem_map.1 hp
    exact Sketch.exists_scanned_canonical (scanned t ht)
  · have canonical : (ts.map Token.canonical).map Token.raw = ts.map Token.literal := by
      rw [List.map_map]
      exact List.map_congr_left fun t ht => (scanned t ht).raw_canonical
    rw [Cursor.map_raw_tokens clear, canonical]
    exact ((@Cursor.cut_iff (.ofText (respelling ts)) _).1 cut).symm

/-- A token that is the canonical one at no place is the token again. -/
theorem Token.Scanned.respells {u : Token} (h : t.Scanned policy)
    (same : u.relocate (fun _ => none) = t.canonical) : t.Respells u := by
  obtain ⟨kind, value, literal⟩ := Token.same_of_relocate same
  have raw : (u.relocate fun _ => none).raw = t.canonical.raw := congrArg Token.raw same
  exact ⟨kind, value, literal, (raw.trans h.raw_canonical).trans literal.symm⟩

theorem forall₂_respells (scanned : ∀ t ∈ ts, t.Scanned policy)
    (same : us.map (Token.relocate fun _ => none) = ts.map Token.canonical) :
    List.Forall₂ Token.Respells ts us := by
  induction ts generalizing us with
  | nil =>
    obtain rfl := List.map_eq_nil_iff.1 same
    exact .nil
  | cons t ts ih =>
    obtain ⟨u, us, rfl, hu, hus⟩ := List.map_eq_cons_iff.1 same
    obtain ⟨ht, scanned⟩ := List.forall_mem_cons.1 scanned
    exact .cons (ht.respells hu) (ih scanned hus)

/-- Tokens again have the same respelling. -/
theorem respelling_eq (h : List.Forall₂ Token.Respells ts us) : respelling us = respelling ts := by
  have literals : us.map Token.literal = ts.map Token.literal := by
    induction h with
    | nil => rfl
    | cons respells _ ih => rw [List.map_cons, List.map_cons, respells.literal, ih]
  rw [respelling, respelling, literals]

end Respelling

/-- **Literals are a normal form of a source.** The literals of its tokens,
with a space between neighbours, are scanned under the same options to as
many tokens of the same kinds, with the same numbers and literals, now
spelled by these, and to respell them changes nothing. The literals are
the sources of the tokens but for integers, where they are the shortest
digits of a number that fits. -/
theorem tokenize_respelled {o : Options} {source : Text} {found : List Token}
    (h : (o.tokenize source).result = .ok found) :
    ∃ ts us : List Token, found = ts ++ [.eof] ∧ (∀ t ∈ ts, t.kind ≠ .eof ∧ t.Plain) ∧
      (o.tokenize (respelling ts)).result = .ok (us ++ [.eof]) ∧
      List.Forall₂ Token.Respells ts us ∧ respelling us = respelling ts := by
  obtain rfl : (Cursor.ofText source).tokens o.overflow ++ [.eof] = found := by
    rw [result_tokenize] at h
    split at h
    · cases h
    · exact Except.ok.inj h
  have scanned : ∀ t ∈ (Cursor.ofText source).tokens o.overflow, t.Scanned o.overflow :=
    fun t => Cursor.scanned_of_mem_tokens
  obtain ⟨clear, htokens⟩ := tokens_respelling scanned
  have respells := forall₂_respells scanned htokens
  exact ⟨_, _, rfl, fun t ht => ⟨Cursor.kind_ne_eof_of_mem_tokens ht, (scanned t ht).plain⟩,
    result_tokenize_eq_ok_iff.2 ⟨clear, rfl⟩, respells, respelling_eq respells⟩

/-- Zeros in front of a number are left out, and one that is too great is
spelled as the greatest. -/
theorem tokenize_respelled_zeros :
    let o : Options := ⟨"saturate", none, false⟩
    ∃ ts us : List Token,
      (o.tokenize "x==007 99999999999999999999@").result = .ok (ts ++ [.eof]) ∧
      respelling ts = "x == 7 9223372036854775807 @" ∧
      (o.tokenize "x == 7 9223372036854775807 @").result = .ok (us ++ [.eof]) ∧
      List.Forall₂ Token.Respells ts us := by
  intro o
  have clear : (Cursor.ofText "x==007 99999999999999999999@").refusal? = none :=
    readable_iff.1 (readable_of_length_le (by decide))
  have hfound := result_tokenize o "x==007 99999999999999999999@"
  rw [clear] at hfound
  obtain ⟨ts, us, htokens, -, hus, hrespells, -⟩ := tokenize_respelled hfound
  rw [htokens] at hfound
  obtain rfl := List.append_cancel_right htokens
  have hrespelling : respelling ((Cursor.ofText "x==007 99999999999999999999@").tokens o.overflow) =
      "x == 7 9223372036854775807 @" := by
    decide +kernel
  rw [hrespelling] at hus
  exact ⟨_, us, hfound, hrespelling, hus, hrespells⟩

end ScriptReader
