import ScriptReader.Reader

/-!
# Readings — a whole source

A reading is the program of a source and the reports on it. The scanner
and the reader of statements may go by different options, and then the
overflow policy is the scanner's and the flag is the reader's.
-/

namespace ScriptReader

/-- What reading a source comes to. -/
structure Reading where
  /-- The statements that were read, which may be fewer than there are. -/
  program : Program
  /-- The reports, in the order in which they were made. -/
  reports : List Diagnostic := []
deriving DecidableEq

namespace Reading

/-- Whether there was nothing to report. -/
def success (r : Reading) : Bool := r.reports.isEmpty

/-- Writes how much there was to report, if there was anything. -/
def announce (r : Reading) (s : Cursor) : Outcome Cursor Reading :=
  if r.success then .done r s
  else (Outcome.write (.faulty r.program.statements.length r.reports.length) s).map fun _ => r

/-- Reads the statements of a source under given rules. -/
def ofText (rules : Rules) (source : Text) : Outcome Cursor Reading :=
  (Reader.prime rules.policy (.ofText source)).andThen fun sight s =>
    let o := (Reader.mk s sight.1 sight.2 []).program rules
    (o.map fun p => ⟨p, o.state.reports⟩).mapState Reader.cursor

end Reading

namespace Options

/-- The tokens of a source, the end token last. -/
def tokenize (o : Options) (source : Text) : Outcome Cursor (List Token) :=
  ((Cursor.ofText source).drain o.overflow).map (· ++ [.eof])

/-- Reads a source, and writes to the log if there was anything to
report. -/
def read (o : Options) (source : Text) : Outcome Cursor Reading :=
  (Reading.ofText o.rules source).andThen Reading.announce

end Options

end ScriptReader
