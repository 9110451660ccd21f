import ScriptReader.Diagnostic

/-!
# Records — the lines of the log

A record says what happened, and its channel, level and wording follow
from that.
-/

namespace ScriptReader

/-- How much a record matters. -/
inductive Level where
  | debug
  | info
  | warning
deriving DecidableEq

namespace Level

/-- The name under which a level is shown. -/
def name : Level → String
  | debug => "DEBUG"
  | info => "INFO"
  | warning => "WARNING"

end Level

/-- A line of the log. -/
inductive Record where
  /-- An integer that does not fit was scanned under a policy. -/
  | overflow (digits : Text) (location : Nat) (policy : Text)
  /-- A malformed statement was reported. -/
  | malformed (d : Diagnostic)
  /-- A statement ran to the end of the source. -/
  | unterminated
  /-- All statements were read, with this many reports so far. -/
  | parsed (statements reports : Nat)
  /-- A whole source was read, and it had faults. -/
  | faulty (statements reports : Nat)
deriving DecidableEq

namespace Record

/-- The channel a record is written to. -/
def channel : Record → String
  | overflow .. => "monkey.frontend.lexer"
  | malformed _ | unterminated | parsed .. => "monkey.frontend.parser"
  | faulty .. => "monkey.core.frontend"

/-- The level a record is written at. -/
def level : Record → Level
  | overflow .. => .warning
  | malformed _ | unterminated | parsed .. => .debug
  | faulty .. => .info

/-- The wording of a record. -/
def text : Record → Text
  | overflow digits location policy =>
    "Integer literal " ++ digits ++ " at offset " ++ Numeral.decimal location ++
      " overflows 64 bits (policy: " ++ policy ++ ")"
  | malformed d => "Parse error: " ++ d.text
  | unterminated => "Statement not terminated before end of input"
  | parsed statements reports =>
    "Parsed " ++ Numeral.decimal statements ++ " statements with " ++
      Numeral.decimal reports ++ " errors"
  | faulty statements reports =>
    "Parsed " ++ Numeral.decimal statements ++ " statements, " ++
      Numeral.decimal reports ++ " errors"

end Record

end ScriptReader
