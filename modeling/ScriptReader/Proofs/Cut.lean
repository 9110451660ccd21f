import ScriptReader.Proofs.LongestMatch
import ScriptReader.Proofs.Places

/-!
# Cuts — a source as lexemes with blanks between them

`Cut source raws` cuts a source into its longest lexemes, from the left,
with nothing but blanks before, between and after them. Every source has
one cut and no other: that of the places ahead of a cursor
(`cut_iff`). A source is readable when its cut holds no run of digits
that is too long (`Text.Readable`), and then scanning it gives one token
for each piece, whose kind the piece fixes (`tokenize_eq_cut`).
-/

namespace ScriptReader

/-- **A source cut into its longest lexemes**, given by their source. -/
inductive Cut : Text → List Text → Prop
  /-- Blanks hold no lexeme. -/
  | blank {w : Text} (blank : w.all CodePoint.isBlank = true) : Cut w []
  /-- A lexeme, after blanks, and the cut of what is behind it. -/
  | lexeme {w raw after : Text} {raws : List Text} (blank : w.all CodePoint.isBlank = true)
      (longest : LongestMatch raw after) (behind : Cut after raws) :
      Cut (w ++ raw ++ after) (raw :: raws)

/-- **No run of digits that is too long stands where a token starts.** -/
def Text.Readable (source : Text) : Prop :=
  ∀ raws, Cut source raws → ∀ raw ∈ raws, raw.isNumeral = true → raw.length ≤ Numeral.longest

namespace Cursor

theorem skipBlanks_append {w rest : Text} (blank : w.all CodePoint.isBlank = true)
    (visible : ∀ c ∈ rest.head?, c.isBlank = false) (offset : Nat) :
    skipBlanks ⟨w ++ rest, offset⟩ = ⟨rest, offset + w.length⟩ := by
  rw [skipBlanks, Lexeme.takeWhile_run blank visible, Lexeme.dropWhile_run blank visible]

/-- What stands after the blanks is no blank. -/
theorem isBlank_of_skipBlanks {s : Cursor} {c : CodePoint} {rest : Text} {offset : Nat}
    (h : s.skipBlanks = ⟨c :: rest, offset⟩) : c.isBlank = false := by
  have hrest : s.rest.dropWhile CodePoint.isBlank = c :: rest := congrArg Cursor.rest h
  exact Lexeme.head?_dropWhile_eq_false CodePoint.isBlank s.rest c (by rw [hrest]; rfl)

/-- The blanks before what a cursor scans next. -/
theorem exists_blanks {s : Cursor} {c : CodePoint} {rest : Text} {offset : Nat}
    (h : s.skipBlanks = ⟨c :: rest, offset⟩) :
    ∃ w : Text, w.all CodePoint.isBlank = true ∧ s.rest = w ++ c :: rest ∧
      offset = s.offset + w.length := by
  have hrest : s.rest.dropWhile CodePoint.isBlank = c :: rest := congrArg Cursor.rest h
  refine ⟨s.rest.takeWhile CodePoint.isBlank, by simp, ?_, (congrArg Cursor.offset h).symm⟩
  rw [← hrest, List.takeWhile_append_dropWhile]

/-- A lexeme starts with no blank, so exactly the blanks before it are
skipped. -/
theorem skipBlanks_of_longestMatch {w run after : Text} {c : CodePoint}
    (blank : w.all CodePoint.isBlank = true) (longest : LongestMatch (c :: run) after)
    (offset : Nat) :
    skipBlanks ⟨w ++ (c :: run) ++ after, offset⟩ = ⟨c :: (run ++ after), offset + w.length⟩ := by
  rw [List.append_assoc]
  refine skipBlanks_append blank ?_ offset
  rintro d hd
  cases hd
  exact longest.isLexeme.isBlank_eq_false

/-- What a cut says of a source, the places ahead of a cursor say. -/
theorem map_raw_places_of_cut {source : Text} {raws : List Text} (h : Cut source raws)
    (offset : Nat) : (places ⟨source, offset⟩).map (fun p => p.lexeme.raw) = raws := by
  induction h generalizing offset with
  | @blank w blank =>
    have hend : places ⟨w, offset⟩ = [] := places_eq_nil_iff.2 (by simpa [atEnd] using blank)
    rw [hend, List.map_nil]
  | @lexeme w raw after raws blank longest behind ih =>
    obtain ⟨c, run, rfl⟩ := List.exists_cons_of_ne_nil longest.isLexeme.ne_nil
    have hskip := skipBlanks_of_longestMatch blank longest offset
    have hmunch := Lexeme.munch_eq_of_longestMatch longest (List.cons_append ..).symm
    rw [places_of_skipBlanks_cons hskip, hmunch, List.map_cons, ih,
      Lexeme.raw_ofRaw longest.isLexeme]

/-- And the places ahead of a cursor are a cut. -/
theorem cut_places (s : Cursor) : Cut s.rest (s.places.map fun p => p.lexeme.raw) := by
  fun_induction places s with
  | case1 s offset h =>
    have hend : s.atEnd = true := (skipBlanks_eq_nil_iff s).1 (by rw [h])
    exact .blank (by simpa [atEnd] using hend)
  | case2 s c rest offset h l ih =>
    obtain ⟨w, blank, hrest, -⟩ := exists_blanks h
    have hsource : w ++ l.raw ++ (Lexeme.munch c rest).2 = s.rest := by
      rw [List.append_assoc, Lexeme.raw_append_munch, hrest]
    rw [← hsource]
    exact .lexeme blank (Lexeme.longestMatch_munch (isBlank_of_skipBlanks h) rest) ih

/-- **Every source has one cut**: the places ahead of a cursor on it. -/
theorem cut_iff {s : Cursor} {raws : List Text} :
    Cut s.rest raws ↔ raws = s.places.map fun p => p.lexeme.raw := by
  constructor
  · exact fun h => (map_raw_places_of_cut h s.offset).symm
  · rintro rfl
    exact s.cut_places

/-- The lexemes ahead are those that their source makes. -/
theorem lexeme_eq_ofRaw {s : Cursor} {p : Place} (h : p ∈ s.places) :
    IsLexeme p.lexeme.raw ∧ p.lexeme = .ofRaw p.lexeme.raw := by
  fun_induction places s with
  | case1 => cases h
  | case2 s c rest offset hs l ih =>
    obtain rfl | h := List.mem_cons.1 h
    · have hmatch := Lexeme.longestMatch_munch (isBlank_of_skipBlanks hs) rest
      have hmunch := Lexeme.munch_eq_of_longestMatch hmatch (Lexeme.raw_append_munch c rest).symm
      exact ⟨hmatch.isLexeme, congrArg Prod.fst hmunch⟩
    · exact ih h

end Cursor

/-! ## Readable sources -/

namespace Lexeme

/-- A run of digits is refused for its length alone. -/
theorem refusal_ofRaw_eq_none_iff {raw : Text} :
    (ofRaw raw).refusal? = none ↔ (raw.isNumeral = true → raw.length ≤ Numeral.longest) := by
  unfold ofRaw
  split
  · next hw => simp [refusal?, Text.isNumeral_eq_false_of_isWord hw]
  · split
    · next hn => simp [refusal?, hn]
    · next hn =>
      split <;> simp [refusal?, hn]

end Lexeme

/-- **A source is readable exactly when nothing ahead is refused.** -/
theorem readable_iff {s : Cursor} : s.rest.Readable ↔ s.refusal? = none := by
  rw [Cursor.refusal?, List.findSome?_eq_none_iff]
  constructor
  · intro readable p hp
    rw [(Cursor.lexeme_eq_ofRaw hp).2, Lexeme.refusal_ofRaw_eq_none_iff]
    exact readable _ s.cut_places _ (List.mem_map.2 ⟨p, hp, rfl⟩)
  · rintro clear raws hcut raw hraw
    obtain rfl := Cursor.cut_iff.1 hcut
    obtain ⟨p, hp, rfl⟩ := List.mem_map.1 hraw
    have hnone := clear p hp
    rwa [(Cursor.lexeme_eq_ofRaw hp).2, Lexeme.refusal_ofRaw_eq_none_iff] at hnone

/-- A cut loses none of its pieces. -/
theorem Cut.length_le {source : Text} {raws : List Text} (h : Cut source raws) :
    ∀ raw ∈ raws, raw.length ≤ source.length := by
  induction h with
  | blank => simp
  | @lexeme w raw after raws blank longest behind ih =>
    intro piece hp
    simp only [List.length_append]
    obtain rfl | hp := List.mem_cons.1 hp
    · omega
    · have := ih piece hp
      omega

/-- A short source has no room for a run that is too long. -/
theorem readable_of_length_le {source : Text} (short : source.length ≤ Numeral.longest) :
    source.Readable :=
  fun _ hcut raw hraw _ => Nat.le_trans (hcut.length_le raw hraw) short

/-- **A source has one cut**, so it is readable if the runs of digits in
that are short. -/
theorem Cut.readable {source : Text} {raws : List Text} (cut : Cut source raws)
    (short : ∀ raw ∈ raws, raw.isNumeral = true → raw.length ≤ Numeral.longest) :
    source.Readable := by
  intro others hothers
  have hraws := (@Cursor.cut_iff (.ofText source) _).1 cut
  rw [← (@Cursor.cut_iff (.ofText source) _).1 hothers] at hraws
  rwa [← hraws]

/-! ## Kinds -/

theorem Keyword.isWord_of_ofText?_eq_some {t : Text} {k : Keyword} (h : ofText? t = some k) :
    t.isWord = true := by
  obtain rfl := ofText?_eq_some_iff.1 h
  cases k <;> decide

/-- No mark is a word or a run of digits. -/
theorem Mark.ofText?_eq_none {t : Text} (h : t.isWord = true ∨ t.isNumeral = true) :
    ofText? t = none := by
  refine Option.eq_none_iff_forall_ne_some.2 fun m hm => ?_
  obtain rfl := ofText?_eq_some_iff.1 hm
  cases m <;> revert h <;> decide

namespace Kind

/-- **What has one spelling**: the reserved words, and the operators and
delimiters. -/
def spelled : List (Text × Kind) :=
  [("fn", .keyword .fnWord), ("let", .keyword .letWord), ("true", .keyword .trueWord),
    ("false", .keyword .falseWord), ("if", .keyword .ifWord), ("else", .keyword .elseWord),
    ("return", .keyword .returnWord), ("=", .mark .assign), ("+", .mark .plus),
    ("-", .mark .minus), ("*", .mark .star), ("/", .mark .slash), ("!", .mark .bang),
    ("==", .mark .equal), ("!=", .mark .notEqual), ("<", .mark .less), (">", .mark .greater),
    (",", .mark .comma), (";", .mark .semicolon), ("(", .mark .openParen),
    (")", .mark .closeParen), ("\x7b", .mark .openBrace), ("\x7d", .mark .closeBrace)]

/-- **The kind that a piece of source gives its token** under a policy: the
one that it spells. Any other word is an identifier, and a run of digits is
an integer if it fits, or if integers saturate. -/
def ofRaw (policy raw : Text) : Kind :=
  match spelled.lookup raw with
  | some k => k
  | none =>
    if raw.isWord then .identifier
    else if raw.isNumeral then
      if Numeral.value raw ≤ Numeral.greatest ∨ policy = "saturate" then .integer else .illegal
    else .illegal

theorem lookup_map_spelling {α : Type} (spelling : α → Text) (kind : α → Kind) (as : List α)
    (t : Text) :
    (as.map fun a => (spelling a, kind a)).lookup t =
      (as.find? fun a => spelling a = t).map kind := by
  induction as with
  | nil => rfl
  | cons a as ih =>
    rw [List.map_cons, List.lookup_cons, List.find?_cons, ih]
    by_cases h : spelling a = t
    · simp [h]
    · simp [h, beq_false_of_ne (Ne.symm h)]

/-- **What a text spells is looked up** among the reserved words and among
the marks. -/
theorem lookup_spelled (t : Text) :
    spelled.lookup t = ((Keyword.ofText? t).map keyword).or ((Mark.ofText? t).map mark) := by
  have hspelled : spelled = (Keyword.all.map fun k => (k.spelling, keyword k)) ++
      Mark.all.map fun m => (m.spelling, mark m) := rfl
  rw [hspelled, List.lookup_append, lookup_map_spelling, lookup_map_spelling]
  rfl

/-- Class by class: a word, a run of digits, or neither. -/
theorem ofRaw_eq (policy raw : Text) :
    ofRaw policy raw =
      if raw.isWord then
        match Keyword.ofText? raw with
        | some k => .keyword k
        | none => .identifier
      else if raw.isNumeral then
        if Numeral.value raw ≤ Numeral.greatest ∨ policy = "saturate" then .integer else .illegal
      else match Mark.ofText? raw with
        | some m => .mark m
        | none => .illegal := by
  rw [ofRaw, lookup_spelled]
  by_cases word : raw.isWord = true
  · rw [Mark.ofText?_eq_none (.inl word)]
    cases Keyword.ofText? raw <;> simp [word]
  · have free : Keyword.ofText? raw = none :=
      Option.eq_none_iff_forall_ne_some.2 fun k hk => word (Keyword.isWord_of_ofText?_eq_some hk)
    rw [free]
    by_cases numeral : raw.isNumeral = true
    · rw [Mark.ofText?_eq_none (.inr numeral)]
      simp [word, numeral]
    · cases Mark.ofText? raw <;> simp [word, numeral]

end Kind

theorem Lexeme.kind_integer (policy : Text) (offset : Nat) (run : Text) :
    (integer policy offset run).kind =
      if Numeral.value run ≤ Numeral.greatest ∨ policy = "saturate" then .integer
      else .illegal := by
  unfold integer saturates
  by_cases hfit : Numeral.value run ≤ Numeral.greatest
  · simp [hfit]
  · by_cases hpolicy : policy = ("saturate" : Text) <;> simp [hfit, hpolicy]

theorem Lexeme.raw_integer (policy : Text) (offset : Nat) (run : Text) :
    (integer policy offset run).raw = run := by
  unfold integer
  repeat' split
  all_goals rfl

theorem Lexeme.token_word (policy : Text) (offset : Nat) (spelling : Text) :
    (word spelling).token policy offset = .ok
      { kind := match Keyword.ofText? spelling with
          | some k => .keyword k
          | none => .identifier,
        location := some offset, raw := spelling } := by
  simp only [token, Token.promote?, if_true]
  cases Keyword.ofText? spelling <;> rfl

/-- **The source of a lexeme fixes what its token is**, under a policy. -/
theorem Lexeme.raw_kind_of_token_ofRaw {raw policy : Text} {offset : Nat} {t : Token}
    (lexeme : IsLexeme raw) (h : (ofRaw raw).token policy offset = .ok t) :
    t.raw = raw ∧ t.kind = Kind.ofRaw policy raw := by
  rw [Kind.ofRaw_eq]
  by_cases hw : raw.isWord = true
  · rw [ofRaw, if_pos hw, token_word] at h
    cases h
    rw [if_pos hw]
    exact ⟨rfl, rfl⟩
  by_cases hn : raw.isNumeral = true
  · rw [ofRaw, if_neg hw, if_pos hn, token] at h
    split at h
    · cases h
    · cases h
      rw [if_neg hw, if_pos hn]
      exact ⟨raw_integer .., kind_integer ..⟩
  have hraw := raw_ofRaw lexeme
  rw [if_neg hw, if_neg hn]
  rw [ofRaw, if_neg hw, if_neg hn] at h hraw
  cases hm : Mark.ofText? raw with
  | some m =>
    rw [hm] at h
    cases h
    exact ⟨Mark.ofText?_eq_some_iff.1 hm, rfl⟩
  | none =>
    rw [hm] at h hraw
    cases h
    exact ⟨hraw, rfl⟩

namespace Cursor

variable {s : Cursor} {policy : Text}

/-- What a place gives has the place's source and the kind that fixes. -/
theorem raw_kind_of_token {p : Place} (hp : p ∈ s.places) {t : Token}
    (h : p.token policy = .ok t) : t.raw = p.lexeme.raw ∧ t.kind = Kind.ofRaw policy t.raw := by
  obtain ⟨lexeme, heq⟩ := lexeme_eq_ofRaw hp
  rw [Place.token, heq] at h
  obtain ⟨hraw, hkind⟩ := Lexeme.raw_kind_of_token_ofRaw lexeme h
  exact ⟨hraw, hraw ▸ hkind⟩

theorem exists_place_of_mem_tokens {t : Token} (h : t ∈ s.tokens policy) :
    ∃ p ∈ s.places, p.token policy = .ok t := by
  obtain ⟨p, hp, ht⟩ := List.mem_filterMap.1 h
  refine ⟨p, hp, ?_⟩
  cases hr : p.token policy with
  | error e => rw [hr] at ht; cases ht
  | ok u => rw [hr] at ht; cases ht; rfl

theorem kind_ne_eof_of_mem_tokens {t : Token} (h : t ∈ s.tokens policy) : t.kind ≠ .eof := by
  obtain ⟨p, -, hp⟩ := exists_place_of_mem_tokens h
  exact Lexeme.kind_ne_eof_of_token hp

theorem kind_of_mem_tokens {t : Token} (h : t ∈ s.tokens policy) :
    t.kind = Kind.ofRaw policy t.raw := by
  obtain ⟨p, hp, ht⟩ := exists_place_of_mem_tokens h
  exact (raw_kind_of_token hp ht).2

/-- A token ahead is the one that its own source makes, wherever it stands. -/
theorem token_of_mem_tokens {t : Token} (h : t ∈ s.tokens policy) :
    IsLexeme t.raw ∧ ∃ n, (Lexeme.ofRaw t.raw).token policy n = .ok t := by
  obtain ⟨p, hp, ht⟩ := exists_place_of_mem_tokens h
  obtain ⟨lexeme, heq⟩ := lexeme_eq_ofRaw hp
  rw [(raw_kind_of_token hp ht).1]
  rw [Place.token, heq] at ht
  exact ⟨lexeme, p.offset, ht⟩

/-- **Where nothing is refused, each place gives a token**, with the
place's source. -/
theorem map_raw_tokens (clear : s.refusal? = none) (policy : Text) :
    (s.tokens policy).map Token.raw = s.places.map fun p => p.lexeme.raw := by
  -- No place is dropped on the way to the tokens, for each one gives a token.
  have given : ∀ p ∈ s.places, ∃ t, p.token policy = .ok t ∧ t.raw = p.lexeme.raw := by
    intro p hp
    have hnone := List.findSome?_eq_none_iff.1 clear p hp
    obtain ⟨t, ht⟩ := Lexeme.exists_token_of_refusal_eq_none policy p.offset hnone
    exact ⟨t, ht, (raw_kind_of_token hp ht).1⟩
  unfold tokens
  generalize s.places = ps at given
  induction ps with
  | nil => rfl
  | cons p ps ih =>
    obtain ⟨t, ht, hraw⟩ := given p (.head ps)
    rw [List.filterMap_cons, ht, List.map_cons, ← hraw,
      ← ih fun q hq => given q (.tail p hq)]
    rfl

end Cursor

/-- What scanning a whole source comes to. -/
theorem result_tokenize (o : Options) (source : Text) :
    (o.tokenize source).result =
      match (Cursor.ofText source).refusal? with
      | some e => .error e
      | none => .ok ((Cursor.ofText source).tokens o.overflow ++ [.eof]) := by
  simp only [Options.tokenize, Outcome.map, Cursor.result_drain]
  cases (Cursor.ofText source).refusal? <;> rfl

/-- **A source is scanned** when nothing in it is refused, and then to the
tokens ahead of its start. -/
theorem result_tokenize_eq_ok_iff {o : Options} {source : Text} {ts : List Token} :
    (o.tokenize source).result = .ok (ts ++ [.eof]) ↔
      (Cursor.ofText source).refusal? = none ∧ (Cursor.ofText source).tokens o.overflow = ts := by
  rw [result_tokenize]
  cases (Cursor.ofText source).refusal? with
  | some e => exact ⟨nofun, nofun⟩
  | none => rw [Except.ok.injEq, List.append_cancel_right_eq, and_iff_right rfl]

/-- **Scanning computes the cut of a source**: one token for each piece
and then the end token, where no source has another cut, no lexeme is
longer than the piece at its place, and the piece alone fixes the kind
under the policy. -/
theorem tokenize_eq_cut (o : Options) {source : Text} (readable : source.Readable) :
    ∃ ts : List Token, (o.tokenize source).result = .ok (ts ++ [.eof]) ∧
      (∀ t ∈ ts, t.kind ≠ .eof) ∧
      (∀ raws, Cut source raws ↔ raws = ts.map Token.raw) ∧
      (∀ raw after, LongestMatch raw after ↔
        IsLexeme raw ∧ ∀ t, IsLexeme t → t <+: raw ++ after → t.length ≤ raw.length) ∧
      ∀ t ∈ ts, t.kind = Kind.ofRaw o.overflow t.raw := by
  have clear : (Cursor.ofText source).refusal? = none := readable_iff.1 readable
  refine ⟨(Cursor.ofText source).tokens o.overflow, ?_, fun t => Cursor.kind_ne_eof_of_mem_tokens,
    fun raws => ?_, fun _ _ => longestMatch_iff, fun t => Cursor.kind_of_mem_tokens⟩
  · rw [result_tokenize, clear]
  · rw [Cursor.map_raw_tokens clear]
    exact Cursor.cut_iff (s := .ofText source)

/-- Three equals signs are a mark of two and a mark of one. -/
theorem tokenize_eq_cut_equals : Text.Readable "===" ∧
    ∃ ts : List Token, (Options.standard.tokenize "===").result = .ok (ts ++ [.eof]) ∧
      ts.map Token.raw = [("==" : Text), "="] ∧
      ts.map Token.kind = [.mark .equal, .mark .assign] := by
  have readable : Text.Readable "===" := readable_of_length_le (by decide)
  obtain ⟨ts, hts, -, hcut, -, hkind⟩ := tokenize_eq_cut .standard readable
  have cut : Cut "===" ["==", "="] :=
    @Cut.lexeme [] "==" "=" ["="] rfl (.long (.inl rfl))
      (@Cut.lexeme [] "=" [] [] rfl (.short (.inl rfl) (by decide)) (.blank rfl))
  have hraws := (hcut _).1 cut
  refine ⟨readable, ts, hts, hraws.symm, ?_⟩
  rw [List.map_congr_left hkind, ← Function.comp_def, ← List.map_map, ← hraws]
  rfl

end ScriptReader
