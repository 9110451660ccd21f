import ScriptReader.Proofs.Cut

/-!
# Seams — scanning two texts put together

Two texts make a seam when their last and first code points cannot be
parts of one lexeme. Then no lexeme of the first goes on into the second
(`LongestMatch.append`), so the places of the two put together are those
of the first and then those of the second (`Cursor.places_append`). What
is behind a seam is only located elsewhere (`Cursor.tokens_shift`), and
what is before it is all that a refusal can come from first
(`Cursor.refusal_append`). So the two put together are scanned one after
the other (`tokenize_append`).
-/

namespace ScriptReader

namespace CodePoint

/-- Whether two neighbours may be parts of one lexeme. -/
def Fuse (c d : CodePoint) : Prop :=
  c.isWordPart = true ∧ d.isWordPart = true ∨ (c = .equals ∨ c = .exclamation) ∧ d = .equals

end CodePoint

namespace Text

/-- **A seam**: what the first text ends with and what the second starts
with do not fuse. Where one of them is empty there is nothing to fuse. -/
def Seam (a b : Text) : Prop := ∀ c ∈ a.getLast?, ∀ d ∈ b.head?, ¬ c.Fuse d

variable {a b : Text}

/-- A seam is a seam for whatever the first text ends with. -/
theorem Seam.of_append {w : Text} (h : Seam (w ++ a) b) : Seam a b := by
  intro c hc d hd
  refine h c ?_ d hd
  rw [List.getLast?_append, Option.mem_def.1 hc]
  rfl

/-- Where the first text is not empty, its end is all that counts. -/
theorem seam_append_singleton {c : CodePoint} (h : ∀ d, ¬ c.Fuse d) (a b : Text) :
    Seam (a ++ [c]) b := by
  intro e he d _
  rw [List.getLast?_append] at he
  cases he
  exact h d

theorem size_eq_length_of_ascii {t : Text} (ascii : ∀ c ∈ t, c.val < 0x80) :
    t.size = t.length := by
  induction t with
  | nil => rfl
  | cons c t ih =>
    obtain ⟨hc, ht⟩ := List.forall_mem_cons.1 ascii
    rw [size_cons, CodePoint.width_of_lt hc, ih ht, List.length_cons, Nat.add_comm]

/-- Blanks take one byte each. -/
theorem size_eq_length_of_blank {w : Text} (blank : w.all CodePoint.isBlank = true) :
    w.size = w.length := by
  refine size_eq_length_of_ascii fun c hc => ?_
  have hblank := List.all_eq_true.1 blank c hc
  simp only [CodePoint.isBlank, Bool.or_eq_true, beq_iff_eq] at hblank
  omega

end Text

/-! ## Lexemes at a seam -/

/-- What a text that goes on with `p` from its last code point does not
start with, past a seam. -/
theorem head_eq_false_of_seam {raw after b : Text} {p : CodePoint → Bool}
    (parts : ∀ c ∈ raw, c.isWordPart = true) (hraw : raw ≠ [])
    (hp : ∀ c, p c = true → c.isWordPart = true) (full : ∀ c ∈ after.head?, p c = false)
    (seam : Text.Seam (raw ++ after) b) : ∀ c ∈ (after ++ b).head?, p c = false := by
  intro d hd
  cases after with
  | cons e after => exact full d hd
  | nil =>
    rw [List.append_nil] at seam
    obtain ⟨c, hc⟩ : ∃ c, raw.getLast? = some c := by
      cases h : raw.getLast? with
      | none => exact absurd (List.getLast?_eq_none_iff.1 h) hraw
      | some c => exact ⟨c, rfl⟩
    cases hpd : p d with
    | false => rfl
    | true =>
      exact absurd (.inl ⟨parts c (List.mem_of_getLast? hc), hp d hpd⟩) (seam c hc d hd)

theorem Text.isWordPart_of_isWord {raw : Text} (h : raw.isWord = true) :
    ∀ c ∈ raw, c.isWordPart = true := by
  cases raw with
  | nil => cases h
  | cons c rest =>
    rw [isWord, Bool.and_eq_true, List.all_eq_true] at h
    exact List.forall_mem_cons.2 ⟨CodePoint.isWordPart_of_isWordStart h.1, h.2⟩

theorem Text.isWordPart_of_isNumeral {raw : Text} (h : raw.isNumeral = true) :
    ∀ c ∈ raw, c.isWordPart = true := by
  cases raw with
  | nil => cases h
  | cons c rest =>
    rw [isNumeral, Bool.and_eq_true, List.all_eq_true] at h
    exact List.forall_mem_cons.2 ⟨CodePoint.isWordPart_of_isDigit h.1,
      fun d hd => CodePoint.isWordPart_of_isDigit (h.2 d hd)⟩

/-- **No lexeme goes on over a seam.** -/
theorem LongestMatch.append {raw after b : Text} (h : LongestMatch raw after)
    (seam : Text.Seam (raw ++ after) b) : LongestMatch raw (after ++ b) := by
  have hraw := h.isLexeme.ne_nil
  cases h with
  | word isWord full =>
    exact .word isWord (head_eq_false_of_seam (Text.isWordPart_of_isWord isWord) hraw
      (fun _ => id) full seam)
  | digits isNumeral full =>
    exact .digits isNumeral (head_eq_false_of_seam (Text.isWordPart_of_isNumeral isNumeral) hraw
      (fun _ => CodePoint.isWordPart_of_isDigit) full seam)
  | long pair => exact .long pair
  | short single alone =>
    refine .short single fun hequals => ?_
    cases after with
    | cons e after => exact alone hequals
    | nil =>
      -- The mark is all there is before the seam, and an equals sign fuses with it.
      rw [List.append_nil] at seam
      rcases single with rfl | rfl
      · exact seam .equals rfl .equals hequals (.inr ⟨.inl rfl, rfl⟩)
      · exact seam .exclamation rfl .equals hequals (.inr ⟨.inr rfl, rfl⟩)
  | single visible noWord noDigit noEquals noExclamation =>
    exact .single visible noWord noDigit noEquals noExclamation

/-- And what is behind a lexeme may end anywhere. -/
theorem LongestMatch.of_append {raw after b : Text} (h : LongestMatch raw (after ++ b)) :
    LongestMatch raw after := by
  have first : ∀ {p : CodePoint → Bool}, (∀ c ∈ (after ++ b).head?, p c = false) →
      ∀ c ∈ after.head?, p c = false := by
    intro p full c hc
    refine full c ?_
    rw [List.head?_append, Option.mem_def.1 hc]
    rfl
  cases h with
  | word isWord full => exact .word isWord (first full)
  | digits isNumeral full => exact .digits isNumeral (first full)
  | long pair => exact .long pair
  | short single alone =>
    refine .short single fun hequals => alone ?_
    rw [List.head?_append, hequals]
    rfl
  | single visible noWord noDigit noEquals noExclamation =>
    exact .single visible noWord noDigit noEquals noExclamation

/-- Taking a lexeme off before a seam leaves the second text as it is. -/
theorem Lexeme.munch_append {c : CodePoint} {rest b : Text} (visible : c.isBlank = false)
    (seam : Text.Seam (c :: rest) b) :
    munch c (rest ++ b) = ((munch c rest).1, (munch c rest).2 ++ b) := by
  have hmatch := longestMatch_munch visible rest
  have hsource := raw_append_munch c rest
  rw [← hsource] at seam
  have hlexeme : (munch c rest).1 = ofRaw (munch c rest).1.raw :=
    congrArg Prod.fst (munch_eq_of_longestMatch hmatch hsource.symm)
  have hboth : c :: (rest ++ b) = (munch c rest).1.raw ++ ((munch c rest).2 ++ b) := by
    rw [← List.append_assoc, hsource, List.cons_append]
  rw [munch_eq_of_longestMatch (hmatch.append seam) hboth, ← hlexeme]

/-! ## Places at a seam -/

/-- A token at another place of its source. -/
def Token.shift (n : Nat) (t : Token) : Token := { t with location := t.location.map (· + n) }

/-- A lexeme at another place of its source. -/
def Place.shift (n : Nat) (p : Place) : Place := { p with offset := p.offset + n }

namespace Cursor

variable {a b policy : Text} {offset : Nat}

/-- What is ahead depends on what is behind the blanks. -/
theorem places_eq_of_skipBlanks_eq {s t : Cursor} (h : s.skipBlanks = t.skipBlanks) :
    s.places = t.places := by
  rcases hs : s.skipBlanks with ⟨_ | ⟨c, rest⟩, offset⟩
  · rw [places_of_skipBlanks_nil hs, places_of_skipBlanks_nil (h.symm.trans hs)]
  · rw [places_of_skipBlanks_cons hs, places_of_skipBlanks_cons (h.symm.trans hs)]

/-- **A cursor that starts at another byte** has the same ahead, so much
farther on. -/
theorem places_shift (n : Nat) (s : Cursor) :
    places ⟨s.rest, s.offset + n⟩ = s.places.map (Place.shift n) := by
  have skip : ∀ t : Cursor, skipBlanks ⟨t.rest, t.offset + n⟩ =
      ⟨t.skipBlanks.rest, t.skipBlanks.offset + n⟩ := by
    intro t
    simp only [skipBlanks, mk.injEq, true_and]
    omega
  fun_induction places s with
  | case1 s offset h =>
    have hskip := skip s
    rw [h] at hskip
    rw [places_of_skipBlanks_nil hskip, List.map_nil]
  | case2 s c rest offset h l ih =>
    have hskip := skip s
    rw [h] at hskip
    rw [places_of_skipBlanks_cons hskip, List.map_cons, ← ih]
    have hoffset : offset + n + l.counted = offset + l.counted + n := by omega
    rw [← hoffset]
    rfl

/-- **The places of two texts put together at a seam**: those of the first
and, from the byte where it ends, those of the second. The byte is not
told where the first holds a refusal. -/
theorem places_append (s : Cursor) (seam : Text.Seam s.rest b) :
    ∃ n, places ⟨s.rest ++ b, s.offset⟩ = s.places ++ places ⟨b, n⟩ ∧
      (s.refusal? = none → n = s.offset + s.rest.size) := by
  fun_induction places s with
  | case1 s offset h =>
    have blank : s.rest.all CodePoint.isBlank = true := by
      have hend : s.atEnd = true := (skipBlanks_eq_nil_iff s).1 (by rw [h])
      exact hend
    -- The blanks go on into those of the second text.
    refine ⟨s.offset + s.rest.length, ?_, fun _ => ?_⟩
    · refine places_eq_of_skipBlanks_eq ?_
      have all : ∀ c ∈ s.rest, c.isBlank = true := List.all_eq_true.1 blank
      rw [skipBlanks, skipBlanks]
      dsimp only
      rw [List.takeWhile_append_of_pos all, List.dropWhile_append_of_pos all,
        List.length_append, Nat.add_assoc]
    · rw [Text.size_eq_length_of_blank blank]
  | case2 s c rest offset h l ih =>
    have visible := isBlank_of_skipBlanks h
    obtain ⟨w, blank, hrest, hoffset⟩ := exists_blanks h
    have hsource := Lexeme.raw_append_munch c rest
    rw [hrest] at seam
    -- What is behind the lexeme ends where the whole text does, at the same seam.
    obtain ⟨n, hplaces, hn⟩ := ih (Text.Seam.of_append (w := w ++ l.raw) (by
      rwa [List.append_assoc, hsource]))
    refine ⟨n, ?_, fun clear => ?_⟩
    · have hskip : skipBlanks ⟨s.rest ++ b, s.offset⟩ = ⟨c :: (rest ++ b), offset⟩ := by
        rw [hrest, hoffset, List.append_assoc]
        refine skipBlanks_append blank ?_ s.offset
        rintro d hd
        cases hd
        exact visible
      rw [places_of_skipBlanks_cons hskip, Lexeme.munch_append visible seam.of_append, hplaces]
      rfl
    · rw [refusal?, places_of_skipBlanks_cons h, List.findSome?_eq_none_iff,
        List.forall_mem_cons] at clear
      obtain ⟨hl, hlater⟩ := clear
      have hcounted : l.counted = l.raw.size := Lexeme.counted_of_refusal_eq_none hl
      have hend : n = offset + l.counted + (Lexeme.munch c rest).2.size :=
        hn (List.findSome?_eq_none_iff.2 hlater)
      have hsize : l.raw.size + (Lexeme.munch c rest).2.size = Text.size (c :: rest) := by
        rw [← Text.size_append, hsource]
      rw [hend, hrest, hoffset, Text.size_append, Text.size_eq_length_of_blank blank, hcounted]
      omega

/-! ## Tokens at a seam -/

theorem places_at (b : Text) (n : Nat) : places ⟨b, n⟩ = (ofText b).places.map (Place.shift n) := by
  rw [← places_shift, ofText, Nat.zero_add]

/-- **The first refusal of two texts put together at a seam** is that of
the first text, if it has one, and else that of the second. -/
theorem refusal_append (seam : Text.Seam a b) :
    (ofText (a ++ b)).refusal? = (ofText a).refusal?.or (ofText b).refusal? := by
  obtain ⟨n, hplaces, -⟩ := places_append (ofText a) seam
  have hboth : (ofText (a ++ b)).places = (ofText a).places ++ places ⟨b, n⟩ := hplaces
  rw [refusal?, refusal?, refusal?, hboth, List.findSome?_append, places_at b n,
    List.findSome?_map]
  rfl

/-- What a place gives does not depend on where it is, but for the
location of its token. -/
theorem token_shift (policy : Text) (n : Nat) (p : Place) :
    (p.shift n).token policy = (p.token policy).map (Token.shift n) := by
  obtain ⟨offset, l⟩ := p
  have hcast : ((offset + n : Nat) : Int) = (offset : Int) + n := Int.natCast_add offset n
  rw [Place.token, Place.token, Place.shift]
  dsimp only
  cases l with
  | word spelling =>
    rw [Lexeme.token_word, Lexeme.token_word]
    simp [Except.map, Token.shift, hcast]
  | digits run =>
    rw [Lexeme.token, Lexeme.token]
    split
    · rfl
    · unfold Lexeme.integer
      repeat' split
      all_goals simp [Except.map, Token.shift, hcast]
  | mark m => simp [Lexeme.token, Except.map, Token.shift, hcast]
  | stray c => simp [Lexeme.token, Except.map, Token.shift, hcast]

/-- **The tokens ahead of a cursor at another byte** are the same, farther
on. -/
theorem tokens_at (policy b : Text) (n : Nat) :
    tokens policy ⟨b, n⟩ = ((ofText b).tokens policy).map (Token.shift n) := by
  have hshift : ∀ p : Place, ((p.shift n).token policy).toOption =
      ((p.token policy).toOption).map (Token.shift n) := by
    intro p
    rw [token_shift]
    cases p.token policy <;> rfl
  rw [tokens, tokens, places_at, List.filterMap_map, List.map_filterMap]
  simp only [Function.comp_def, hshift]

/-- **The tokens of two texts put together at a seam**, the first of which
is not refused: those of the first, and those of the second, farther on. -/
theorem tokens_append (policy : Text) (seam : Text.Seam a b) (clear : (ofText a).refusal? = none) :
    (ofText (a ++ b)).tokens policy =
      (ofText a).tokens policy ++ ((ofText b).tokens policy).map (Token.shift a.size) := by
  obtain ⟨n, hplaces, hn⟩ := places_append (ofText a) seam
  have hsize : n = a.size := by
    have hend := hn clear
    rwa [ofText, Nat.zero_add] at hend
  have hboth : (ofText (a ++ b)).places = (ofText a).places ++ places ⟨b, n⟩ := hplaces
  rw [← tokens_at, tokens, tokens, tokens, hboth, List.filterMap_append, hsize]

/-- Without the end token, what is scanned is what is ahead. -/
theorem filter_tokens_append_eof (policy : Text) (s : Cursor) :
    (s.tokens policy ++ [Token.eof]).filter (fun t => t.kind ≠ .eof) = s.tokens policy := by
  have kept : ∀ t ∈ s.tokens policy, decide (t.kind ≠ .eof) = true := by
    intro t ht
    exact decide_eq_true (kind_ne_eof_of_mem_tokens ht)
  rw [List.filter_append, List.filter_eq_self.2 kept, List.filter_cons_of_neg (by decide),
    List.filter_nil, List.append_nil]

end Cursor

/-! ## Scanning at a seam -/

/-- **Scanning two texts put together at a seam** is scanning one and then
the other. The first that is refused is the refusal of the whole. Where
neither is, the end token of the first goes, and the tokens of the second
stand farther on by the bytes of the first. -/
theorem tokenize_append (o : Options) {a b : Text} (seam : Text.Seam a b) :
    (o.tokenize (a ++ b)).result =
      match (o.tokenize a).result, (o.tokenize b).result with
      | .error e, _ => .error e
      | .ok _, .error e => .error e
      | .ok ts, .ok us =>
        .ok (ts.filter (fun t => t.kind ≠ .eof) ++ us.map (Token.shift a.size)) := by
  have hrefusal := Cursor.refusal_append seam
  rw [result_tokenize o a, result_tokenize o b, result_tokenize o (a ++ b)]
  cases ha : (Cursor.ofText a).refusal? with
  | some e =>
    rw [ha, Option.some_or] at hrefusal
    rw [hrefusal]
  | none =>
    rw [ha, Option.none_or] at hrefusal
    rw [hrefusal]
    cases hb : (Cursor.ofText b).refusal? with
    | some e => rfl
    | none =>
      have htokens := Cursor.tokens_append o.overflow seam ha
      dsimp only
      rw [htokens, Cursor.filter_tokens_append_eof, List.map_append, List.append_assoc]
      -- The end token has no location, so it is not moved.
      rfl

/-- A stray letter of two bytes, and a mark of two behind it. -/
theorem tokenize_append_stray :
    Text.Seam "12 é" "==x" ∧
      ∃ ts us, (Options.standard.tokenize "12 é").result = .ok ts ∧
        (Options.standard.tokenize "==x").result = .ok us ∧
        (Options.standard.tokenize "12 é==x").result =
          .ok (ts.filter (fun t => t.kind ≠ .eof) ++ us.map (Token.shift 5)) ∧
        ts.map Token.raw = [("12" : Text), "é", ""] ∧
        us.map Token.raw = [("==" : Text), "x", ""] ∧
        (us.map (Token.shift 5)).map Token.location = [some 5, some 7, none] := by
  have seam : Text.Seam "12 é" "==x" := by
    intro c hc d hd
    cases hc
    cases hd
    unfold CodePoint.Fuse
    decide
  have readable : Text.Readable "12 é" := readable_of_length_le (by decide)
  have readable' : Text.Readable "==x" := readable_of_length_le (by decide)
  let ts := (Cursor.ofText "12 é").tokens "illegal"
  let us := (Cursor.ofText "==x").tokens "illegal"
  have first : (Options.standard.tokenize "12 é").result = .ok (ts ++ [.eof]) :=
    result_tokenize_eq_ok_iff.2 ⟨readable_iff.1 readable, rfl⟩
  have second : (Options.standard.tokenize "==x").result = .ok (us ++ [.eof]) :=
    result_tokenize_eq_ok_iff.2 ⟨readable_iff.1 readable', rfl⟩
  have whole := tokenize_append .standard seam
  rw [first, second] at whole
  refine ⟨seam, _, _, first, second, whole, ?_, ?_, ?_⟩ <;> decide +kernel

end ScriptReader
