import ScriptReader.Proofs.Locations
import ScriptReader.Proofs.Refinement
import ScriptReader.Proofs.Replacement
import ScriptReader.Proofs.Seam

/-!
# Relocation — one list of lexemes in two layouts

Two sources with the same lexemes differ only in the blanks between them.
What a scanner makes of a lexeme depends on its source alone, but for the
location (`Cursor.relocate_eq_of_raw_eq`). So the tokens of the second
source are those of the first with other locations, and since tokens of
one source have different locations, a function on locations says which
(`relocation`, `map_relocate_relocation`). The grammar cannot tell where
tokens are located, so the readings differ by the same function
(`read_relocate`).
-/

namespace ScriptReader

/-- What a lexeme makes at another place is located there, and else the
same. -/
theorem Lexeme.token_elsewhere (policy : Text) (n m : Nat) (l : Lexeme) :
    l.token policy m = (l.token policy n).map (Token.relocate fun _ => some (m : Int)) := by
  have shifted : ∀ k, l.token policy k = (l.token policy 0).map (Token.shift k) := fun k => by
    simpa [Place.token, Place.shift] using Cursor.token_shift policy k ⟨0, l⟩
  rw [shifted m, shifted n]
  cases h : l.token policy 0 with
  | error e => rfl
  | ok t =>
    have located := Lexeme.location_of_token h
    simp [Except.map, Token.shift, Token.relocate, located]

/-- **Tokens with one source** differ in their locations only. -/
theorem Cursor.relocate_eq_of_raw_eq {policy : Text} {s r : Cursor} {t u : Token}
    (ht : t ∈ s.tokens policy) (hu : u ∈ r.tokens policy) (same : t.raw = u.raw) :
    (t.relocate fun _ => u.location) = u := by
  obtain ⟨-, n, hn⟩ := token_of_mem_tokens ht
  obtain ⟨-, m, hm⟩ := token_of_mem_tokens hu
  rw [← same, Lexeme.token_elsewhere policy n m, hn] at hm
  obtain rfl := Except.ok.inj hm
  rfl

/-- **The locations of tokens, as a function of the locations of others**:
where the first tokens have one, the others have theirs at the same
index. -/
def relocation (ts us : List Token) (location : Option Int) : Option Int :=
  ((ts.zip us).find? fun pair => pair.1.location = location).bind fun pair => pair.2.location

section Relocation

variable {ts us : List Token}

/-- What has no location stays without one. -/
theorem relocation_none (located : Located ts) (us : List Token) :
    relocation ts us none = none := by
  have nowhere : (ts.zip us).find? (fun pair => pair.1.location = none) = none := by
    rw [List.find?_eq_none]
    rintro ⟨t, u⟩ hpair
    simpa using located.location_ne_none t (List.of_mem_zip hpair).1
  rw [relocation, nowhere]
  rfl

/-- **What has one gets the other's.** -/
theorem relocation_getElem (located : Located ts) {i : Nat} (hts : i < ts.length)
    (hus : i < us.length) : relocation ts us ts[i].location = us[i].location := by
  have hzip : i < (ts.zip us).length := by
    rw [List.length_zip]
    omega
  have found : (ts.zip us).find? (fun pair => pair.1.location = ts[i].location) =
      some (ts[i], us[i]) := by
    refine List.find?_eq_some_iff_getElem.2 ⟨by simp, i, hzip, by simp, fun j hj => ?_⟩
    -- An earlier token is located before this one.
    obtain ⟨m, n, hm, hn, hlt⟩ :=
      List.pairwise_iff_getElem.1 located.ordered j i (by omega) hts hj
    simp [hm, hn]
    omega
  rw [relocation, found]
  rfl

/-- At every index, where behind the last token is the end. -/
theorem relocation_getD (located : Located ts) (length : ts.length = us.length) (i : Nat) :
    relocation ts us (ts.getD i .eof).location = (us.getD i .eof).location := by
  rw [List.getD_eq_getElem?_getD, List.getD_eq_getElem?_getD]
  rcases Nat.lt_or_ge i ts.length with hts | hts
  · have hus : i < us.length := length ▸ hts
    rw [List.getElem?_eq_getElem hts, List.getElem?_eq_getElem hus]
    exact relocation_getElem located hts hus
  · rw [List.getElem?_eq_none hts, List.getElem?_eq_none (length ▸ hts)]
    exact relocation_none located us

/-- Tokens that differ in their locations only are one another's, elsewhere. -/
theorem map_relocate_relocation (located : Located ts) (length : ts.length = us.length)
    (same : ∀ i (hts : i < ts.length) (hus : i < us.length),
      (ts[i].relocate fun _ => us[i].location) = us[i]) :
    ts.map (Token.relocate (relocation ts us)) = us := by
  refine List.ext_getElem (by rw [List.length_map, length]) fun i hmap hus => ?_
  have hts : i < ts.length := by rwa [List.length_map] at hmap
  rw [List.getElem_map, ← same i hts hus, Token.relocate, relocation_getElem located hts hus]
  rfl

end Relocation

/-- **Layout changes no meaning.** Two sources that are scanned to tokens
with the same sources in the same order are read to the same statements
and the same reports, but for the locations: those of the first are
replaced by those that the tokens of the second have at the same index. -/
theorem read_relocate (o : Options) {a b : Text} {ts us : List Token}
    (first : (o.tokenize a).result = .ok (ts ++ [.eof]))
    (second : (o.tokenize b).result = .ok (us ++ [.eof]))
    (same : ts.map Token.raw = us.map Token.raw) :
    (∀ i, relocation ts us (ts.getD i .eof).location = (us.getD i .eof).location) ∧
      us = ts.map (Token.relocate (relocation ts us)) ∧
      ∃ found, (o.read a).result = .ok found ∧
        (o.read b).result = .ok (found.relocate (relocation ts us)) := by
  obtain ⟨clear, rfl⟩ := result_tokenize_eq_ok_iff.1 first
  obtain ⟨clear', rfl⟩ := result_tokenize_eq_ok_iff.1 second
  have located := Cursor.located_tokens o.overflow (.ofText a)
  have length := congrArg List.length same
  rw [List.length_map, List.length_map] at length
  have moved := map_relocate_relocation located length fun i hts hus => by
    have raw := congrArg (·[i]?) same
    rw [List.getElem?_map, List.getElem?_map, List.getElem?_eq_getElem hts,
      List.getElem?_eq_getElem hus] at raw
    exact Cursor.relocate_eq_of_raw_eq (List.getElem_mem hts) (List.getElem_mem hus)
      (Option.some.inj raw)
  refine ⟨relocation_getD located length, moved.symm, _,
    result_read_eq_ok_iff.2 ⟨clear, rfl⟩, result_read_eq_ok_iff.2 ⟨clear', ?_⟩⟩
  rw [← Grammar.reading_relocate (relocation_none located _), moved]

/-- A malformed binding and a stray number, with one token a line and with
hardly a blank. -/
theorem read_relocate_lines :
    ∃ ts us, (Options.standard.tokenize "let\n1;\nlet\nx\n=\n5").result = .ok (ts ++ [.eof]) ∧
      (Options.standard.tokenize "let 1;let x=5").result = .ok (us ++ [.eof]) ∧
      ts.map Token.raw = us.map Token.raw ∧
      ∃ found, (Options.standard.read "let\n1;\nlet\nx\n=\n5").result = .ok found ∧
        (Options.standard.read "let 1;let x=5").result = .ok (found.relocate (relocation ts us)) ∧
        found.reports = [⟨"Unexpected token '1'. Expected identifier", some 4⟩] ∧
        found.program.statements.length = 1 ∧
        [4, 7, 11, 13, 15].map (fun n => relocation ts us (some n)) =
          [some 4, some 6, some 10, some 11, some 12] := by
  let ts := (Cursor.ofText "let\n1;\nlet\nx\n=\n5").tokens "illegal"
  let us := (Cursor.ofText "let 1;let x=5").tokens "illegal"
  have readable : Text.Readable "let\n1;\nlet\nx\n=\n5" := readable_of_length_le (by decide)
  have readable' : Text.Readable "let 1;let x=5" := readable_of_length_le (by decide)
  have first : (Options.standard.tokenize "let\n1;\nlet\nx\n=\n5").result = .ok (ts ++ [.eof]) :=
    result_tokenize_eq_ok_iff.2 ⟨readable_iff.1 readable, rfl⟩
  have second : (Options.standard.tokenize "let 1;let x=5").result = .ok (us ++ [.eof]) :=
    result_tokenize_eq_ok_iff.2 ⟨readable_iff.1 readable', rfl⟩
  have same : ts.map Token.raw = us.map Token.raw := by decide +kernel
  obtain ⟨-, -, found, hfound, hmoved⟩ := read_relocate .standard first second same
  obtain ⟨-, rfl⟩ := result_read_eq_ok_iff.1 hfound
  refine ⟨ts, us, first, second, same, _, hfound, hmoved, ?_, ?_, ?_⟩ <;> decide +kernel

end ScriptReader
