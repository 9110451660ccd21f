import ScriptReader.Proofs.Legible
import ScriptReader.Proofs.Refinement
import ScriptReader.Proofs.Replacement

/-!
# Faithful displays — a reading is told by what it is shown as

The display of a token leaves its number out, and that of the end leaves
out everything. What a scanner answers with is told all the same
(`Token.Scanned.shown`): its kind and its source say which number it
stands for, whatever the policy was. The display of a report gives no
location of its own, but only the wording, with the location in front if
there is one; the reports of a reader all start with the same words, so
that it is told whether there is one (`Diagnostic.text_inj`).

So the displays of tokens, statements and reports are legible, with
whatever code points printable, and `read_display_inj` says that of
readings.
-/

namespace ScriptReader

open Display

/-! ## Tokens -/

/-- **A token that is told by its display**: an end is the end token, and
the kind and the source of another token say which number it stands
for. -/
structure Token.Shown (t : Token) : Prop where
  eof : t.kind = .eof → t = .eof
  value : t.kind ≠ .eof → t.value =
    if t.kind = .integer then some ((min (Numeral.value t.raw) Numeral.greatest : Nat) : Int)
    else none

theorem Token.shown_eof : Token.eof.Shown := ⟨fun _ => rfl, fun h => absurd rfl h⟩

/-- What a scanner answers with is told, under every policy. -/
theorem Token.Scanned.shown {policy : Text} {t : Token} (h : t.Scanned policy) : t.Shown := by
  cases h with
  | integer n _ _ fits => exact ⟨nofun, fun _ => by rw [if_pos rfl, Nat.min_eq_left fits]⟩
  | saturated n _ _ great =>
    exact ⟨nofun, fun _ => by rw [if_pos rfl, Nat.min_eq_right (Nat.le_of_lt great)]⟩
  | _ => exact ⟨nofun, fun _ => rfl⟩

section Displays

variable (printable : CodePoint → Bool)

/-- What the display of a token gives behind its kind. -/
def Token.fieldsWith (t : Token) : Text :=
  if t.kind = .eof then ")"
  else Text.ofString ", " ++ (Quoted.showWith printable t.raw ++
    (Text.ofString ", location=" ++ (number? t.location ++ [.ofChar ')'])))

theorem Token.displayWith_eq (t : Token) :
    t.displayWith printable =
      Text.ofString "Token(" ++ (Text.ofString t.kind.name ++ t.fieldsWith printable) := by
  rw [displayWith, fieldsWith]
  split
  · rw [call, Text.join_singleton, List.append_assoc]
    rfl
  · simp only [call, named, Text.join_cons_cons, Text.join_singleton, List.append_assoc]
    rfl

/-- **Tokens are legible**, if they are told at all. -/
theorem Token.legible : Legible Token.Shown (Token.displayWith printable) := by
  intro t u ht hu rest rest' h
  rw [displayWith_eq, displayWith_eq] at h
  simp only [List.append_assoc, List.append_cancel_left_eq] at h
  -- The name of a kind ends where the comma or the parenthesis stands.
  have stop : ∀ (t : Token) (rest : Text), ∀ c ∈ (t.fieldsWith printable ++ rest).head?,
      c.isWordPart = false := by
    intro t rest c hc
    rw [fieldsWith] at hc
    split at hc <;> cases hc <;> rfl
  obtain ⟨hname, hfields⟩ := Text.run_inj t.kind.isWordPart_name u.kind.isWordPart_name
    (stop t rest) (stop u rest') h
  have hkind := Kind.name_inj (Text.ofString_inj hname)
  rw [fieldsWith, fieldsWith, ← hkind] at hfields
  by_cases isEnd : t.kind = .eof
  · rw [if_pos isEnd, if_pos isEnd] at hfields
    exact ⟨(ht.eof isEnd).trans (hu.eof (hkind ▸ isEnd)).symm, List.append_cancel_left hfields⟩
  · rw [if_neg isEnd, if_neg isEnd] at hfields
    simp only [List.append_assoc, List.append_cancel_left_eq] at hfields
    obtain ⟨hraw, behind⟩ := Quoted.legible printable trivial trivial hfields
    obtain ⟨hlocation, hrest⟩ := number?_inj (List.append_cancel_left behind)
    have hvalue : t.value = u.value := by
      rw [ht.value isEnd, hu.value (hkind ▸ isEnd), hkind, hraw]
    cases t
    cases u
    exact ⟨Token.mk.injEq .. ▸ ⟨hkind, hlocation, hraw, hvalue⟩, hrest⟩

/-! ## Statements -/

/-- Expressions are legible with their tokens. -/
theorem Expression.legible :
    Legible (fun e : Expression => e.token.Shown) fun e => e.toNode.displayWith printable := by
  rintro ⟨t⟩ ⟨u⟩ ht hu rest rest' h
  simp only [toNode, Node.displayWith, call, named, Text.join_singleton, List.append_assoc,
    List.append_cancel_left_eq] at h
  obtain ⟨htu, behind⟩ := Token.legible printable ht hu h
  exact ⟨congrArg Expression.mk htu, List.append_cancel_left behind⟩

/-- **Statements are legible**, if their tokens are told. -/
theorem Statement.legible :
    Legible (fun s : Statement => ∀ t ∈ s.tokens, t.Shown) fun s =>
      s.toNode.displayWith printable := by
  -- The first letter says which of the two it is.
  have apart : CodePoint.ofChar 'L' ≠ .ofChar 'R' := by decide
  intro s t hs ht rest rest' h
  cases s with
  | binding keyword target value =>
    cases t with
    | binding keyword' target' value' =>
      simp only [tokens, List.forall_mem_cons] at hs ht
      simp only [toNode, Node.displayWith, call, named, Text.join_cons_cons, Text.join_singleton,
        List.append_assoc, List.append_cancel_left_eq] at h
      obtain ⟨hkeyword, h⟩ := Token.legible printable hs.1 ht.1 h
      simp only [List.append_cancel_left_eq] at h
      obtain ⟨htarget, h⟩ := Expression.legible printable hs.2.1 ht.2.1 h
      simp only [List.append_cancel_left_eq] at h
      obtain ⟨hvalue, h⟩ := Expression.legible printable hs.2.2.1 ht.2.2.1 h
      exact ⟨by rw [hkeyword, htarget, hvalue], List.append_cancel_left h⟩
    | returning => exact absurd (List.cons.inj h).1 apart
  | returning keyword value =>
    cases t with
    | binding => exact absurd (List.cons.inj h).1.symm apart
    | returning keyword' value' =>
      simp only [tokens, List.forall_mem_cons] at hs ht
      simp only [toNode, Node.displayWith, call, named, Text.join_cons_cons, Text.join_singleton,
        List.append_assoc, List.append_cancel_left_eq] at h
      obtain ⟨hkeyword, h⟩ := Token.legible printable hs.1 ht.1 h
      simp only [List.append_cancel_left_eq] at h
      obtain ⟨hvalue, h⟩ := Expression.legible printable hs.2.1 ht.2.1 h
      exact ⟨by rw [hkeyword, hvalue], List.append_cancel_left h⟩

/-- **Programs are legible**, if the tokens of their statements are told. -/
theorem Program.legible :
    Legible (fun p : Program => ∀ s ∈ p.statements, ∀ t ∈ s.tokens, t.Shown) fun p =>
      p.toNode.displayWith printable := by
  have starts : ∀ s : Statement, (∀ t ∈ s.tokens, t.Shown) →
      ∃ c run, s.toNode.displayWith printable = c :: run ∧ c ≠ .ofChar ')' := by
    intro s _
    cases s <;> exact ⟨_, _, rfl, by decide⟩
  rintro ⟨ss⟩ ⟨ts⟩ hss hts rest rest' h
  simp only [toNode, Node.displayWith, Node.displayAllWith_eq_map, List.map_map, call, named,
    Text.join_singleton, List.append_assoc, List.append_cancel_left_eq] at h
  obtain ⟨hstatements, h⟩ := (Statement.legible printable).tuple starts hss hts h
  exact ⟨congrArg Program.mk hstatements, List.append_cancel_left h⟩

end Displays

/-! ## Reports -/

/-- The letter that every report starts with. -/
theorem Diagnostic.message_eq_cons (found : Token) (needed : Expected) :
    ∃ run, (unexpected found needed).message = .ofChar 'U' :: run := ⟨_, rfl⟩

/-- **A report is told by its wording.** No report starts with the words
that a location starts with, and a location ends at the colon. -/
theorem Diagnostic.text_inj {d e : Diagnostic} (hd : ∃ found needed, d = .unexpected found needed)
    (he : ∃ found needed, e = .unexpected found needed) (h : d.text = e.text) : d = e := by
  have apart : CodePoint.ofChar 'O' ≠ .ofChar 'U' := by decide
  have stop : ∀ message : Text, ∀ c ∈ (Text.ofString ": " ++ message).head?,
      Numeral.isPart c = false := by
    intro message c hc
    cases hc
    rfl
  obtain ⟨found, needed, hd⟩ := hd
  obtain ⟨found', needed', he⟩ := he
  obtain ⟨run, hrun⟩ := message_eq_cons found needed
  obtain ⟨run', hrun'⟩ := message_eq_cons found' needed'
  rw [← hd] at hrun
  rw [← he] at hrun'
  rcases d with ⟨message, location⟩
  rcases e with ⟨message', location'⟩
  cases location with
  | none =>
    cases location' with
    | none => exact congrArg (Diagnostic.mk · none) h
    | some n =>
      rw [text, text, hrun] at h
      exact absurd (List.cons.inj h).1.symm apart
  | some m =>
    cases location' with
    | none =>
      rw [text, text, hrun'] at h
      exact absurd (List.cons.inj h).1 apart
    | some n =>
      simp only [text, List.append_assoc, List.append_cancel_left_eq] at h
      obtain ⟨hnumber, hmessage⟩ := Text.run_inj (Numeral.isPart_signed m)
        (Numeral.isPart_signed n) (stop message) (stop message') h
      rw [Numeral.signed_inj hnumber, List.append_cancel_left hmessage]

/-- **Reports are legible**, if a reader makes them. -/
theorem Diagnostic.legible (printable : CodePoint → Bool) :
    Legible (fun d : Diagnostic => ∃ found needed, d = .unexpected found needed)
      (Diagnostic.displayWith printable) := by
  intro d e hd he rest rest' h
  simp only [displayWith, call, Text.join_singleton, List.append_assoc,
    List.append_cancel_left_eq] at h
  obtain ⟨htext, behind⟩ := Quoted.legible printable trivial trivial h
  exact ⟨text_inj hd he htext, List.append_cancel_left behind⟩

/-! ## Readings -/

/-- **A reading that is told by its display.** -/
structure Reading.Shown (r : Reading) : Prop where
  statements : ∀ s ∈ r.program.statements, ∀ t ∈ s.tokens, t.Shown
  reports : ∀ d ∈ r.reports, ∃ found needed, d = .unexpected found needed

/-- What is read of a source is told. -/
theorem Reading.shown_of_read {o : Options} {source : Text} {r : Reading}
    (h : (o.read source).result = .ok r) : r.Shown := by
  obtain ⟨-, rfl⟩ := result_read_eq_ok_iff.1 h
  refine ⟨fun s hs t ht => ?_, fun d hd => ?_⟩
  · rcases Grammar.mem_of_mem_statements hs ht with ht | rfl
    · exact (Cursor.scanned_of_mem_tokens ht).shown
    · exact Token.shown_eof
  · rw [Grammar.reading, Grammar.reports_eq_map_complaints, List.mem_map] at hd
    obtain ⟨c, -, rfl⟩ := hd
    exact ⟨c.1, c.2, rfl⟩

/-- **Readings are legible**, if they are told at all. -/
theorem Reading.legible (printable : CodePoint → Bool) :
    Legible Reading.Shown (Reading.displayWith printable) := by
  have starts : ∀ d : Diagnostic, (∃ found needed, d = .unexpected found needed) →
      ∃ c run, d.displayWith printable = c :: run ∧ c ≠ .ofChar ']' :=
    fun d _ => ⟨_, _, rfl, by decide⟩
  rintro ⟨p, ds⟩ ⟨q, es⟩ hr hs rest rest' h
  simp only [displayWith, call, named, Text.join_cons_cons, Text.join_singleton,
    List.append_assoc, List.append_cancel_left_eq] at h
  obtain ⟨hprogram, h⟩ := Program.legible printable hr.statements hs.statements h
  simp only [List.append_cancel_left_eq] at h
  obtain ⟨hreports, h⟩ := (Diagnostic.legible printable).list starts hr.reports hs.reports h
  exact ⟨congrArg₂ Reading.mk hprogram hreports, List.append_cancel_left h⟩

/-- **Readings that are shown as the same text are the same**: the same
statements, with the same tokens, and the same reports, from whatever
sources they were read and under whatever options, and whatever code
points are printable. -/
theorem read_display_inj (printable : CodePoint → Bool) (o p : Options) {a b : Text}
    {r s : Reading} (first : (o.read a).result = .ok r) (second : (p.read b).result = .ok s)
    (same : r.displayWith printable = s.displayWith printable) : r = s := by
  have h := Reading.legible printable (Reading.shown_of_read first) (Reading.shown_of_read second)
    (congrArg (· ++ ([] : Text)) same)
  exact h.1

/-- Quotes among the tokens and in a report, from sources that end in
different blanks. -/
theorem read_display_inj_quotes :
    ∃ r s, (Options.read ⟨"illegal", none, false⟩ "let ';return \"").result = .ok r ∧
      (Options.read ⟨"saturate", none, false⟩ "let ';return \"\n ").result = .ok s ∧
      r.displayWith (fun c => decide (c.val < 0x7F)) =
        s.displayWith (fun c => decide (c.val < 0x7F)) ∧
      r.reports = [.unexpected ⟨.illegal, some 4, "'", none⟩ .identifier] ∧
      r.program.statements.map Statement.tokens =
        [[⟨.keyword .returnWord, some 6, "return", none⟩, ⟨.illegal, some 13, "\"", none⟩]] ∧
      r = s := by
  let r := Grammar.reading false ((Cursor.ofText "let ';return \"").tokens "illegal")
  let s := Grammar.reading false ((Cursor.ofText "let ';return \"\n ").tokens "saturate")
  have first : (Options.read ⟨"illegal", none, false⟩ "let ';return \"").result = .ok r :=
    result_read_eq_ok_iff.2 ⟨readable_iff.1 (readable_of_length_le (by decide)), rfl⟩
  have second : (Options.read ⟨"saturate", none, false⟩ "let ';return \"\n ").result = .ok s :=
    result_read_eq_ok_iff.2 ⟨readable_iff.1 (readable_of_length_le (by decide)), rfl⟩
  have same : r.displayWith (fun c => decide (c.val < 0x7F)) =
      s.displayWith (fun c => decide (c.val < 0x7F)) := by
    decide +kernel
  exact ⟨r, s, first, second, same, by decide +kernel, by decide +kernel,
    read_display_inj _ _ _ first second same⟩

end ScriptReader
