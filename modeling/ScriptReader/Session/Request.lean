import ScriptReader.Failure
import ScriptReader.Reading

/-!
# Sessions — what can be asked of each kind of object

A session works on options, scanners, readers and front ends that stay
alive between requests. Each kind has its requests, and `run` says what a
request comes to for an object that stands alone.
-/

namespace ScriptReader

namespace Session

/-- What a request is answered with. -/
inductive Reply where
  | nothing
  | options (o : Options)
  | token (t : Token)
  | tokens (ts : List Token)
  | reading (r : Reading)
  /-- A part of the tree, or that none was read. -/
  | node (n : Option Node)
  | reports (ds : List Diagnostic)
deriving DecidableEq

/-- A field of options with the value to assign. -/
inductive Assignment where
  | overflow (policy : Text)
  /-- The choices may be taken away altogether. -/
  | policies (choices : Option (List Text))
  | reportStray (flag : Bool)
deriving DecidableEq

/-- Options after an assignment, which nothing checks. -/
def Assignment.apply (a : Assignment) (o : Options) : Options :=
  match a with
  | overflow policy => { o with overflow := policy }
  | policies choices => { o with policies := choices }
  | reportStray flag => { o with reportStray := flag }

/-- What can be asked of a scanner. -/
inductive ScannerRequest where
  | next
  /-- At most so many tokens, none beyond the end. -/
  | take (n : Nat)
  /-- All tokens up to the end. -/
  | rest
deriving DecidableEq

/-- What a request comes to for a scanner. -/
def ScannerRequest.run (policy : Text) (s : Cursor) : ScannerRequest → Outcome Cursor Reply
  | next => (s.next policy).map .token
  | take n => (s.take policy n).map .tokens
  | rest => (s.drain policy).map .tokens

/-- What can be asked of a reader. -/
inductive ReaderRequest where
  | advance
  | skipToSemicolon
  | statement
  | letStatement
  | returnStatement
  | program
  | reports
  /-- Clears a copy of the reports. -/
  | clearReports
deriving DecidableEq

/-- What a request comes to for a reader. A malformed binding is a failure
only where the binding itself was asked for. -/
def ReaderRequest.run (rules : Rules) (r : Reader) :
    ReaderRequest → Outcome Reader (Except Diagnostic Reply)
  | advance => (r.advance rules.policy).map fun _ => .ok .nothing
  | skipToSemicolon => (r.skipToSemicolon rules.policy).map fun _ => .ok .nothing
  | statement => (r.statement rules).map fun s => .ok (.node (s.map Statement.toNode))
  | letStatement =>
    (r.letStatement rules.policy).map fun found => found.map fun s => .node (some s.toNode)
  | returnStatement =>
    (r.returnStatement rules.policy).map fun s => .ok (.node (some s.toNode))
  | program => (r.program rules).map fun p => .ok (.node (some p.toNode))
  | reports => .done (.ok (.reports r.reports)) r
  | clearReports => .done (.ok .nothing) r

/-- What can be asked of a front end. -/
inductive FrontEndRequest where
  | tokenize (source : Text)
  | read (source : Text)
deriving DecidableEq

/-- What a request comes to for a front end, which starts afresh on every
source. -/
def FrontEndRequest.run (o : Options) : FrontEndRequest → Outcome Cursor Reply
  | tokenize source => (o.tokenize source).map .tokens
  | read source => (o.read source).map .reading

end Session

end ScriptReader
