import ScriptReader.Proofs.Timeline

/-!
# The wording — what the log of a source says

A record is shown as a line: the channel that it is written to, its level
and its wording. `Note.line` spells out the line of a note, which quotes
the token that the note is on, and `Record.line` is how the record that a
note writes is shown (`Note.line_record`).

`read_timeline` is the theorem for a source: its log is what the notes of
a timeline write and the records that close it, and its lines are in these
words.
-/

namespace ScriptReader

theorem Text.ofString_append (s t : String) :
    Text.ofString (s ++ t) = (s : Text) ++ (t : Text) := by
  rw [ofString, ofString, ofString, String.toList_append, List.map_append]

/-- **A line of the log**, as it is shown. -/
structure Line where
  channel : String
  level : String
  text : Text
deriving DecidableEq

/-- How a record is shown. -/
def Record.line (r : Record) : Line := ⟨r.channel, r.level.name, r.text⟩

namespace Note

variable (policy : Text) (ts : List Token)

/-- **What a note says** where it writes something: a warning with the
digits, where they start and what becomes of them, or an error with the
place and the token that was found there. -/
def line : Note → Line
  | scan k =>
    let number := ts.getD k .eof
    ⟨"monkey.frontend.lexer", "WARNING",
      "Integer literal " ++ number.raw ++ " at offset " ++
        Numeral.decimal (number.location.getD 0).toNat ++
        " overflows 64 bits (policy: " ++ policy ++ ")"⟩
  | report k needed =>
    let found := ts.getD k .eof
    let place : Text := match found.location with
      | some n => "Offset " ++ Numeral.signed n ++ ": "
      | none => ""
    let wanted : Text := match needed with
      | .identifier => "identifier"
      | .assignment => "assignment operator"
      | .statement => "statement"
    ⟨"monkey.frontend.parser", "DEBUG",
      "Parse error: " ++ (place ++ ("Unexpected token '" ++ found.literal ++ "'. Expected " ++
        wanted))⟩

/-- An error is worded as the report that is returned. -/
theorem line_of_report {n : Note} {d : Diagnostic} (h : n.report? ts = some d) :
    n.line policy ts = ⟨"monkey.frontend.parser", "DEBUG", "Parse error: " ++ d.text⟩ := by
  cases n with
  | scan k => cases h
  | report k needed =>
    obtain rfl : Diagnostic.unexpected (ts.getD k .eof) needed = d := Option.some.inj h
    dsimp only [line, Diagnostic.text, Diagnostic.unexpected]
    cases (ts.getD k .eof).location <;> cases needed <;> rfl

/-- **The record of a note is shown in these words.** -/
theorem line_record (n : Note) : (n.record policy ts).line = n.line policy ts := by
  cases n with
  | scan k => rfl
  | report k needed => exact (line_of_report policy ts rfl).symm

theorem map_line_record (ns : List Note) :
    (ns.map (record policy ts)).map Record.line = ns.map (line policy ts) := by
  rw [List.map_map]
  exact List.map_congr_left fun n _ => line_record policy ts n

end Note

/-- **The log of a source is written in the order of its timeline.** Where
no run of digits is refused, the log is: what the notes of a timeline
write, a warning for each number that is too great and an error for each
report, in the order in which they come up; that the last statement was
not finished, if it is open; how much was read; and this once more if there
was something to report. Each is shown on its channel, at its level and in
its words, and an error in those of the report that is returned. -/
theorem read_timeline {o : Options} {source : Text} {ts : List Token}
    (h : (o.tokenize source).result = .ok (ts ++ [.eof])) :
    ∃ (reading : Reading) (spans : List Span) (notes : List Note),
      (o.read source).result = .ok reading ∧ (∀ t ∈ ts, t.kind ≠ .eof) ∧
      Partition ts reading spans ∧ Timeline ts reading.reports notes ∧
      (o.read source).records =
        notes.map (Note.record o.overflow ts) ++
          (if Grammar.Open ts spans then [.unterminated] else []) ++
          [.parsed reading.program.statements.length reading.reports.length] ++
          (if reading.reports = [] then []
          else [.faulty reading.program.statements.length reading.reports.length]) ∧
      (o.read source).records.map Record.line =
        notes.map (Note.line o.overflow ts) ++
          (if Grammar.Open ts spans then
            [⟨"monkey.frontend.parser", "DEBUG", "Statement not terminated before end of input"⟩]
          else []) ++
          [⟨"monkey.frontend.parser", "DEBUG",
            "Parsed " ++ Numeral.decimal reading.program.statements.length ++
              " statements with " ++ Numeral.decimal reading.reports.length ++ " errors"⟩] ++
          (if reading.reports = [] then []
          else
            [⟨"monkey.core.frontend", "INFO",
              "Parsed " ++ Numeral.decimal reading.program.statements.length ++
                " statements, " ++ Numeral.decimal reading.reports.length ++ " errors"⟩]) ∧
      ∀ n ∈ notes, ∀ d, n.report? ts = some d →
        n.line o.overflow ts = ⟨"monkey.frontend.parser", "DEBUG", "Parse error: " ++ d.text⟩ := by
  rw [result_tokenize] at h
  cases clear : (Cursor.ofText source).refusal? with
  | some e =>
    rw [clear] at h
    cases h
  | none =>
    rw [clear] at h
    obtain rfl : (Cursor.ofText source).tokens o.overflow = ts :=
      List.append_cancel_right (Except.ok.inj h)
    have hread := result_read o source
    rw [clear] at hread
    have hrecords := records_read o clear
    refine ⟨_, _, _, hread, fun t => Cursor.kind_ne_eof_of_mem_tokens,
      Grammar.partition_reading (Cursor.located_tokens o.overflow _)
        (fun t => Cursor.kind_of_mem_tokens) o.reportStray,
      Grammar.timeline_notes o.reportStray o.overflow _, hrecords, ?_,
      fun n _ d => Note.line_of_report o.overflow _⟩
    rw [hrecords, List.map_append, List.map_append, List.map_append, Note.map_line_record,
      apply_ite (List.map Record.line), apply_ite (List.map Record.line)]
    rfl

/-- A number that a binding is given up at is warned of before it is
complained about, and complained about once more when it is current. -/
theorem read_timeline_given_up :
    let o : Options := { Options.standard with reportStray := true }
    let source : Text := "let 9223372036854775808 return"
    let number : Token := ⟨.illegal, some 4, "9223372036854775808", none⟩
    ∃ ts, (o.tokenize source).result = .ok (ts ++ [.eof]) ∧
      ∃ (reading : Reading) (spans : List Span) (notes : List Note),
        (o.read source).result = .ok reading ∧ Partition ts reading spans ∧
        Timeline ts reading.reports notes ∧
        (o.read source).records =
          [.overflow "9223372036854775808" 4 "illegal",
            .malformed (.unexpected number .identifier),
            .malformed (.unexpected number .statement),
            .unterminated, .parsed 1 2, .faulty 1 2] ∧
        (o.read source).records.map Record.line =
          [⟨"monkey.frontend.lexer", "WARNING",
            "Integer literal 9223372036854775808 at offset 4 overflows 64 bits (policy: illegal)"⟩,
           ⟨"monkey.frontend.parser", "DEBUG",
            "Parse error: Offset 4: Unexpected token '9223372036854775808'. Expected identifier"⟩,
           ⟨"monkey.frontend.parser", "DEBUG",
            "Parse error: Offset 4: Unexpected token '9223372036854775808'. Expected statement"⟩,
           ⟨"monkey.frontend.parser", "DEBUG", "Statement not terminated before end of input"⟩,
           ⟨"monkey.frontend.parser", "DEBUG", "Parsed 1 statements with 2 errors"⟩,
           ⟨"monkey.core.frontend", "INFO", "Parsed 1 statements, 2 errors"⟩] := by
  intro o source number
  have clear : (Cursor.ofText source).refusal? = none :=
    readable_iff.1 (readable_of_length_le (by decide))
  have htokens := result_tokenize o source
  rw [clear] at htokens
  obtain ⟨reading, spans, notes, hread, -, hpartition, htimeline, -⟩ := read_timeline htokens
  have hrecords : (o.read source).records =
      [.overflow "9223372036854775808" 4 "illegal",
        .malformed (.unexpected number .identifier),
        .malformed (.unexpected number .statement),
        .unterminated, .parsed 1 2, .faulty 1 2] := by
    decide +kernel
  refine ⟨_, htokens, reading, spans, notes, hread, hpartition, htimeline, hrecords, ?_⟩
  rw [hrecords]
  -- The pieces of a line are joined as strings, whose code points need not be compared then.
  have hliteral : number.literal = ("9223372036854775808" : Text) := rfl
  have hlocation : number.location = some 4 := rfl
  have hdigits : Numeral.signed 4 = ("4" : Text) ∧ Numeral.decimal 4 = ("4" : Text) ∧
      Numeral.decimal 1 = ("1" : Text) ∧ Numeral.decimal 2 = ("2" : Text) := ⟨rfl, rfl, rfl, rfl⟩
  simp only [List.map_cons, List.map_nil, Record.line, Record.text, Diagnostic.text,
    Diagnostic.unexpected, Expected.text, hliteral, hlocation, hdigits, ← Text.ofString_append]
  rfl

end ScriptReader
