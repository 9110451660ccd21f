import ScriptReader.Proofs.Calls

/-!
# Slices — tokens as pieces of the encoded source

A token is located at a byte, and its source takes up bytes from there on.
`Slices` says that these are the bytes that the encoded source has there,
that no two tokens share one, and that what is left between them encodes
blanks. `tokenize_slices` is the theorem for a source, of which nothing but
the blanks is lost.

What carries it over the two ways of counting, by code points and by
bytes, is `Spread`: tokens over a text that starts at some byte, each
behind its blanks.
-/

namespace ScriptReader

/-! ## Bytes -/

namespace CodePoint

/-- The bytes of the four blanks: a space, a tab, a line feed and a
carriage return. -/
def blankBytes : List UInt8 := [0x20, 0x09, 0x0A, 0x0D]

/-- A blank is encoded by one of them. -/
theorem mem_blankBytes_of_isBlank {c : CodePoint} (h : c.isBlank = true) :
    ∀ x ∈ c.encode, x ∈ blankBytes := by
  simp only [isBlank, Bool.or_eq_true, beq_iff_eq] at h
  have hsmall : c.val < 0x80 := by omega
  intro x hx
  rw [encode, if_pos hsmall, List.mem_singleton] at hx
  subst hx
  rcases h with ((h | h) | h) | h <;> rw [h] <;> decide

end CodePoint

namespace Text

theorem mem_blankBytes_of_blank {w : Text} (blank : w.all CodePoint.isBlank = true) :
    ∀ x ∈ encode w, x ∈ CodePoint.blankBytes := by
  intro x hx
  obtain ⟨c, hc, hx⟩ := List.mem_flatMap.1 hx
  exact CodePoint.mem_blankBytes_of_isBlank (List.all_eq_true.1 blank c hc) x hx

end Text

/-- No blank is in a lexeme. -/
theorem IsLexeme.visible {raw : Text} (h : IsLexeme raw) : ∀ c ∈ raw, c.isBlank = false := by
  rcases h with h | h | ⟨m, rfl⟩ | ⟨c, hc, rfl⟩
  · exact fun c hc => CodePoint.isBlank_eq_false_of_isWordPart (Text.isWordPart_of_isWord h c hc)
  · exact fun c hc => CodePoint.isBlank_eq_false_of_isWordPart (Text.isWordPart_of_isNumeral h c hc)
  · cases m <;> decide
  · simpa using hc

theorem IsLexeme.size_pos {raw : Text} (h : IsLexeme raw) : 0 < raw.size := by
  obtain ⟨c, run, rfl⟩ := List.exists_cons_of_ne_nil h.ne_nil
  have := c.width_pos
  rw [Text.size_cons]
  omega

namespace Token

/-- The byte at which a token starts. -/
def start (t : Token) : Nat := (t.location.getD 0).toNat

/-- The byte behind a token. -/
def stop (t : Token) : Nat := t.start + (Text.encode t.raw).length

theorem start_of_location {t : Token} {n : Nat} (h : t.location = some (n : Int)) :
    t.start = n := by
  rw [start, h]
  rfl

theorem stop_eq (t : Token) : t.stop = t.start + t.raw.size := by rw [stop, Text.length_encode]

end Token

/-! ## Tokens over a text -/

/-- **Tokens spread over a text** that starts at a byte: each is a lexeme
behind blanks, located at the byte where it stands. -/
inductive Spread : Nat → Text → List Token → Prop
  | blank {n : Nat} {w : Text} (blank : w.all CodePoint.isBlank = true) : Spread n w []
  | token {n : Nat} {w after : Text} {t : Token} {ts : List Token}
      (blank : w.all CodePoint.isBlank = true) (lexeme : IsLexeme t.raw)
      (located : t.location = some ((n + w.size : Nat) : Int))
      (behind : Spread (n + w.size + t.raw.size) after ts) :
      Spread n (w ++ t.raw ++ after) (t :: ts)

/-- **The tokens ahead of a cursor are spread over its source**, from the
bytes that it has counted on, if nothing is refused. -/
theorem Cursor.spread_tokens {s : Cursor} (clear : s.refusal? = none) (policy : Text) :
    Spread s.offset s.rest (s.tokens policy) := by
  -- Draining makes one call after the other, and each one passes blanks and a token.
  fun_induction Cursor.drain policy s with
  | case1 s o hend =>
    rw [tokens_of_places_nil policy (places_eq_nil_iff.2 hend)]
    exact .blank hend
  | case2 s o hend ih =>
    obtain ⟨w, raw, passes⟩ := exists_passes policy (Bool.eq_false_iff.2 hend)
    cases h : (s.next policy).result with
    | error e =>
      rw [refusal_of_next_error h] at clear
      cases clear
    | ok t =>
      have htoken := passes.result_eq.symm.trans h
      have lexeme := passes.longest.isLexeme
      obtain ⟨hraw, -⟩ := Lexeme.raw_kind_of_token_ofRaw lexeme htoken
      -- What is not refused is counted.
      have hcounted := Lexeme.counted_add_refusedDigits policy (s.offset + w.size) lexeme
      rw [htoken, refusedDigits, Nat.add_zero] at hcounted
      have behind := ih ((refusal_next_of_ok h).trans clear)
      rw [passes.offset_eq, hcounted, ← hraw] at behind
      obtain ⟨-, htokens⟩ | ⟨rfl, hend', -⟩ := tokens_of_next_ok h
      · rw [htokens, passes.rest_eq, ← hraw]
        exact .token passes.blank (hraw ▸ lexeme) (Lexeme.location_of_token htoken) behind
      · exact absurd hend' hend

namespace Spread

variable {n : Nat} {text : Text} {ts : List Token}

/-- Every token starts at its location, and is inside the text. -/
theorem bounds (h : Spread n text ts) :
    ∀ t ∈ ts, t.location = some (t.start : Int) ∧ n ≤ t.start ∧ t.start < t.stop ∧
      t.stop ≤ n + text.size := by
  induction h with
  | blank => simp
  | @token n w after t ts _ lexeme located _ ih =>
    have hstart := Token.start_of_location located
    have hpos := lexeme.size_pos
    have hstop := t.stop_eq
    rw [Text.size_append, Text.size_append]
    refine List.forall_mem_cons.2 ⟨⟨?_, ?_, ?_, ?_⟩, fun u hu => ?_⟩
    · rw [hstart]
      exact located
    · omega
    · omega
    · omega
    · obtain ⟨hu, hle, hlt, hge⟩ := ih u hu
      exact ⟨hu, by omega, hlt, by omega⟩

/-- **No two tokens overlap**, and they stand in order. -/
theorem pairwise (h : Spread n text ts) : ts.Pairwise fun t u => t.stop ≤ u.start := by
  induction h with
  | blank => exact .nil
  | @token n w after t ts _ _ located behind ih =>
    refine .cons (fun u hu => ?_) ih
    have hstart := Token.start_of_location located
    have hstop := t.stop_eq
    have hu := (behind.bounds u hu).2.1
    omega

/-- **A token's bytes are those of the text** from its start on. The text
has `pre` before it. -/
theorem slice (h : Spread n text ts) (pre : List UInt8) (hpre : pre.length = n) :
    ∀ t ∈ ts, ((pre ++ text.encode).drop t.start).take (Text.encode t.raw).length =
      Text.encode t.raw := by
  induction h generalizing pre with
  | blank => simp
  | @token n w after t ts _ _ located _ ih =>
    have hbytes : pre ++ Text.encode (w ++ t.raw ++ after) =
        (pre ++ Text.encode w) ++ Text.encode t.raw ++ Text.encode after := by
      simp only [Text.encode_append, List.append_assoc]
    have hfront : (pre ++ Text.encode w).length = n + w.size := by
      rw [List.length_append, hpre, Text.length_encode]
    rw [hbytes]
    refine List.forall_mem_cons.2 ⟨?_, fun u hu => ih _ ?_ u hu⟩
    · rw [Token.start_of_location located, ← hfront, List.append_assoc, List.drop_left,
        List.take_left]
    · rw [List.length_append, hfront, Text.length_encode]

/-- **Bytes of no token are those of blanks.** -/
theorem mem_blankBytes (h : Spread n text ts) (pre : List UInt8) (hpre : pre.length = n)
    {i : Nat} {b : UInt8} (hle : n ≤ i) (hb : (pre ++ text.encode)[i]? = some b)
    (outside : ∀ t ∈ ts, ¬ (t.start ≤ i ∧ i < t.stop)) : b ∈ CodePoint.blankBytes := by
  induction h generalizing pre with
  | @blank n w blank =>
    rw [List.getElem?_append_right (by omega)] at hb
    exact Text.mem_blankBytes_of_blank blank b (List.mem_of_getElem? hb)
  | @token n w after t ts blank _ located _ ih =>
    have hbytes : pre ++ Text.encode (w ++ t.raw ++ after) =
        pre ++ (Text.encode w ++ (Text.encode t.raw ++ Text.encode after)) := by
      simp only [Text.encode_append, List.append_assoc]
    have hw := Text.length_encode w
    have hraw := Text.length_encode t.raw
    obtain ⟨ht, hlater⟩ := List.forall_mem_cons.1 outside
    rw [t.stop_eq, Token.start_of_location located] at ht
    rcases Nat.lt_or_ge i (n + w.size) with hlt | hge
    · -- among the blanks before the token
      rw [hbytes, List.getElem?_append_right (by omega), List.getElem?_append_left (by omega)] at hb
      exact Text.mem_blankBytes_of_blank blank b (List.mem_of_getElem? hb)
    · -- behind the token, for it is none of the token's bytes
      have hbehind : n + w.size + t.raw.size ≤ i := by omega
      refine ih (pre ++ Text.encode w ++ Text.encode t.raw) ?_ hbehind ?_ hlater
      · rw [List.length_append, List.length_append, hpre, hw, hraw]
      · rw [hbytes] at hb
        simpa only [List.append_assoc] using hb

/-- **Nothing but blanks is lost.** -/
theorem flatten_map_raw (h : Spread n text ts) :
    (ts.map Token.raw).flatten = text.filter fun c => !c.isBlank := by
  have none_of_blank : ∀ {w : Text}, w.all CodePoint.isBlank = true →
      (w.filter fun c => !c.isBlank) = [] := by
    intro w blank
    rw [List.filter_eq_nil_iff]
    intro c hc
    simp [List.all_eq_true.1 blank c hc]
  induction h with
  | blank blank => exact (none_of_blank blank).symm
  | @token n w after t ts blank lexeme _ _ ih =>
    have hraw : (t.raw.filter fun c => !c.isBlank) = t.raw := by
      rw [List.filter_eq_self]
      intro c hc
      simp [lexeme.visible c hc]
    rw [List.map_cons, List.flatten_cons, ih, List.filter_append, List.filter_append,
      none_of_blank blank, hraw, List.nil_append]

/-- A token takes up a code point at the least. -/
theorem length_le (h : Spread n text ts) : ts.length ≤ text.length := by
  induction h with
  | blank => exact Nat.zero_le _
  | token _ lexeme _ _ ih =>
    have hpos := List.length_pos_iff.2 lexeme.ne_nil
    rw [List.length_append, List.length_append, List.length_cons]
    omega

end Spread

/-! ## The slices of a source -/

/-- **Tokens cut bytes into slices**, with blanks between them. -/
structure Slices (bytes : List UInt8) (ts : List Token) : Prop where
  /-- A token is located at the byte where it starts. -/
  located : ∀ t ∈ ts, t.location = some (t.start : Int)
  /-- The bytes from there on are those of its source. -/
  slice : ∀ t ∈ ts,
    (bytes.drop t.start).take (Text.encode t.raw).length = Text.encode t.raw
  /-- There is one at the least. -/
  start_lt_stop : ∀ t ∈ ts, t.start < t.stop
  /-- All of them are there. -/
  stop_le : ∀ t ∈ ts, t.stop ≤ bytes.length
  /-- Slices are in order and apart. -/
  ordered : ts.Pairwise fun t u => t.stop ≤ u.start
  /-- A byte of no slice is that of a blank. -/
  between : ∀ i b, bytes[i]? = some b → (∀ t ∈ ts, ¬ (t.start ≤ i ∧ i < t.stop)) →
    b ∈ CodePoint.blankBytes

/-- **Tokens reconstruct their source**: in bytes slice by slice, and in
code points but for the blanks. -/
theorem tokenize_slices (o : Options) {source : Text} (readable : source.Readable) :
    ∃ ts : List Token, (o.tokenize source).result = .ok (ts ++ [.eof]) ∧
      (∀ t ∈ ts, t.kind ≠ .eof) ∧ Slices source.encode ts ∧
      (ts.map Token.raw).flatten = (source.filter fun c => !c.isBlank) ∧
      ts.length ≤ source.length := by
  have clear : (Cursor.ofText source).refusal? = none := readable_iff.1 readable
  have spread : Spread 0 source _ := Cursor.spread_tokens clear o.overflow
  have hsize : 0 + source.size = source.encode.length := by
    rw [Text.length_encode, Nat.zero_add]
  refine ⟨_, ?_, fun t => Cursor.kind_ne_eof_of_mem_tokens, ?_, spread.flatten_map_raw,
    spread.length_le⟩
  · rw [result_tokenize, clear]
  · exact {
      located := fun t ht => (spread.bounds t ht).1
      slice := spread.slice [] rfl
      start_lt_stop := fun t ht => (spread.bounds t ht).2.2.1
      stop_le := fun t ht => hsize ▸ (spread.bounds t ht).2.2.2
      ordered := spread.pairwise
      between := fun i b hb outside =>
        spread.mem_blankBytes [] rfl (Nat.zero_le i) hb outside }

/-- A lone surrogate takes three bytes, and an accented letter two. -/
theorem tokenize_slices_surrogate :
    Text.Readable ['é', '\t', ⟨0xD800, by decide⟩, '\n', '='] ∧
      ∃ ts : List Token,
        (Options.standard.tokenize ['é', '\t', ⟨0xD800, by decide⟩, '\n', '=']).result =
          .ok (ts ++ [.eof]) ∧
        Slices [0xC3, 0xA9, 0x09, 0xED, 0xA0, 0x80, 0x0A, 0x3D] ts ∧
        (ts.map Token.raw).flatten = (['é', ⟨0xD800, by decide⟩, '='] : Text) := by
  have readable : Text.Readable ['é', '\t', ⟨0xD800, by decide⟩, '\n', '='] :=
    readable_of_length_le (by decide)
  obtain ⟨ts, hts, -, slices, hflatten, -⟩ := tokenize_slices .standard readable
  exact ⟨readable, ts, hts, slices, hflatten⟩

end ScriptReader
