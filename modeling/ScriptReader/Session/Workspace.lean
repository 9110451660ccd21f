import ScriptReader.Session.Request

/-!
# Sessions — named objects that share what they use

A workspace holds options and scanners by number, because several objects
may use the same ones, and all that has a name under its name. A reader
keeps the number of its scanner and never the scanner itself, so readers
of one scanner draw from one stream, and an assignment to options is seen
at once by all that use them. `Workspace.step` answers one request and
`Workspace.run` a list of them.
-/

namespace ScriptReader

namespace Session

/-- Which options an object uses: those it was given, by their number, or
the standard ones. -/
abbrev OptionsRef := Option Nat

/-- A scanner: its place in the source, and its options. -/
structure Scanner where
  cursor : Cursor
  options : OptionsRef
deriving DecidableEq

/-- A reader without its cursor, which is its scanner's. -/
structure Desk where
  /-- The number of the scanner that tokens are drawn from. -/
  scanner : Nat
  options : OptionsRef
  current : Token
  peek : Token
  reports : List Diagnostic
deriving DecidableEq

/-- What a name stands for. -/
inductive Held where
  | options (number : Nat)
  | scanner (number : Nat)
  | reader (d : Desk)
  | frontEnd (options : OptionsRef)
deriving DecidableEq

/-- The objects of a session. -/
structure Workspace where
  /-- The options, by number. -/
  options : List Options := []
  /-- The scanners, by number. -/
  scanners : List Scanner := []
  /-- What each name stands for, each name once. -/
  names : List (Text × Held) := []
deriving DecidableEq

/-- A request, to the object with a name or to build one under it. -/
inductive Request where
  | makeOptions (o : Options)
  | makeScanner (source : Text) (options : Option Text)
  | makeReader (scanner : Text) (options : Option Text)
  | makeFrontEnd (options : Option Text)
  | assign (a : Assignment)
  | scanner (r : ScannerRequest)
  | reader (r : ReaderRequest)
  | frontEnd (r : FrontEndRequest)
  /-- Asks whether there is something under the name. -/
  | look
deriving DecidableEq

/-- The answer to a request, and what happened meanwhile. -/
structure Answer where
  result : Except Failure Reply
  history : List Event := []

namespace Answer

/-- The answer with which nothing happens. -/
def reply (r : Reply) : Answer where
  result := .ok r

/-- The failure with which nothing happens. -/
def failure (f : Failure) : Answer where
  result := .error f

/-- The answer that a step comes to. -/
def ofOutcome {σ : Type} (o : Outcome σ (Except Failure Reply)) : Answer where
  result := match o.result with
    | .error e => .error (.overlong e)
    | .ok r => r
  history := o.history

/-- The records that were written meanwhile. -/
def records (a : Answer) : List Record := Event.records a.history

end Answer

namespace Workspace

/-- What a name stands for. -/
def held? (w : Workspace) (name : Text) : Option Held := w.names.lookup name

/-- Lets a name stand for something, and for nothing else any more. -/
def hold (name : Text) (h : Held) (w : Workspace) : Workspace :=
  { w with names := (name, h) :: w.names.filter fun p => p.1 ≠ name }

@[simp] theorem held?_hold_self (w : Workspace) (name : Text) (h : Held) :
    (w.hold name h).held? name = some h := by
  simp [held?, hold]

/-- Letting one name stand for something leaves the others alone. -/
theorem held?_hold_of_ne (w : Workspace) {name other : Text} (h : Held) (ne : other ≠ name) :
    (w.hold name h).held? other = w.held? other := by
  simp only [held?, hold, List.lookup_cons, beq_false_of_ne ne]
  induction w.names with
  | nil => rfl
  | cons p names ih =>
    obtain ⟨key, held⟩ := p
    by_cases hkey : key = name
    · have hne : (other == key) = false := beq_false_of_ne (hkey ▸ ne)
      rw [List.lookup_cons, hne]
      simpa [hkey] using ih
    · simp_all [List.lookup_cons]

/-- The options that an object uses. -/
def optionsOf (w : Workspace) : OptionsRef → Options
  | some i => w.options.getD i .standard
  | none => .standard

/-- The options under a name. A name of anything else gives the standard
ones. -/
def optionsRef (w : Workspace) (name : Option Text) : OptionsRef :=
  match name.bind w.held? with
  | some (.options i) => some i
  | _ => none

/-- The policy under which a scanner scans. -/
def policyOf (w : Workspace) (s : Scanner) : Text := (w.optionsOf s.options).overflow

/-- The rules under which a reader reads: the policy of its scanner's
options and the flag of its own. -/
def rulesOf (w : Workspace) (s : Scanner) (d : Desk) : Rules :=
  ⟨w.policyOf s, (w.optionsOf d.options).reportStray⟩

/-- Puts the cursor of a scanner somewhere else. -/
def moveScanner (i : Nat) (c : Cursor) (w : Workspace) : Workspace :=
  { w with scanners := w.scanners.modify i fun s => { s with cursor := c } }

/-- Builds options, if they are accepted. -/
def makeOptions (name : Text) (o : Options) (w : Workspace) : Answer × Workspace :=
  match o.check with
  | .error e => (.failure (.policy e), w)
  | .ok o =>
    (.reply (.options o),
      { w with options := w.options ++ [o] }.hold name (.options w.options.length))

/-- Builds a scanner at the start of a source. -/
def makeScanner (name source : Text) (options : OptionsRef) (w : Workspace) :
    Answer × Workspace :=
  (.reply .nothing,
    { w with scanners := w.scanners ++ [Scanner.mk (.ofText source) options] }.hold name
      (.scanner w.scanners.length))

/-- Builds a reader on a scanner, which draws its two tokens. The scanner
has moved even if a draw is refused and no reader is built. -/
def makeReader (name : Text) (i : Nat) (s : Scanner) (options : OptionsRef) (w : Workspace) :
    Answer × Workspace :=
  let o := Reader.prime (w.policyOf s) s.cursor
  let moved := w.moveScanner i o.state
  (.ofOutcome (o.map fun _ => .ok .nothing),
    match o.result with
    | .error _ => moved
    | .ok (current, peek) => moved.hold name (.reader ⟨i, options, current, peek, []⟩))

/-- Assigns to a field of options, for all that use them. -/
def assign (i : Nat) (a : Assignment) (w : Workspace) : Answer × Workspace :=
  let w := { w with options := w.options.modify i a.apply }
  (.reply (.options (w.optionsOf (some i))), w)

/-- Answers a request to a scanner. -/
def askScanner (i : Nat) (s : Scanner) (r : ScannerRequest) (w : Workspace) :
    Answer × Workspace :=
  let o := r.run (w.policyOf s) s.cursor
  (.ofOutcome (o.map .ok), w.moveScanner i o.state)

/-- Answers a request to a reader, which has its scanner's cursor for the
time being. -/
def askReader (name : Text) (d : Desk) (s : Scanner) (r : ReaderRequest) (w : Workspace) :
    Answer × Workspace :=
  let o := r.run (w.rulesOf s d) ⟨s.cursor, d.current, d.peek, d.reports⟩
  (.ofOutcome (o.map (·.mapError .malformed)),
    (w.moveScanner d.scanner o.state.cursor).hold name
      (.reader { d with
        current := o.state.current, peek := o.state.peek, reports := o.state.reports }))

/-- The scanner under a name, with its number. -/
def scanner? (w : Workspace) (name : Text) : Option (Nat × Scanner) :=
  match w.held? name with
  | some (.scanner i) => w.scanners[i]?.map fun s => (i, s)
  | _ => none

/-- The reader under a name. -/
def desk? (w : Workspace) (name : Text) : Option Desk :=
  match w.held? name with
  | some (.reader d) => some d
  | _ => none

/-- The reader under a name, with its scanner. -/
def reader? (w : Workspace) (name : Text) : Option (Desk × Scanner) :=
  (w.desk? name).bind fun d => w.scanners[d.scanner]?.map fun s => (d, s)

/-- Answers a request under a name. A name that stands for nothing of the
kind asked for is a failure, and then nothing happens. -/
def step (name : Text) (request : Request) (w : Workspace) : Answer × Workspace :=
  match request with
  | .makeOptions o => w.makeOptions name o
  | .makeScanner source options => w.makeScanner name source (w.optionsRef options)
  | .makeFrontEnd options => (.reply .nothing, w.hold name (.frontEnd (w.optionsRef options)))
  | .makeReader scanner options =>
    match w.scanner? scanner with
    | some (i, s) => w.makeReader name i s (w.optionsRef options)
    | none => (.failure (.unknown scanner), w)
  | .assign a =>
    match w.held? name with
    | some (.options i) => w.assign i a
    | _ => (.failure (.unknown name), w)
  | .scanner r =>
    match w.scanner? name with
    | some (i, s) => w.askScanner i s r
    | none => (.failure (.unknown name), w)
  | .reader r =>
    match w.reader? name with
    | some (d, s) => w.askReader name d s r
    | none => (.failure (.unknown name), w)
  | .frontEnd r =>
    match w.held? name with
    | some (.frontEnd options) => (.ofOutcome ((r.run (w.optionsOf options)).map .ok), w)
    | _ => (.failure (.unknown name), w)
  | .look =>
    match w.held? name with
    | some _ => (.reply .nothing, w)
    | none => (.failure (.unknown name), w)

/-- Answers requests in order. A failure does not keep the later ones from
being answered. -/
def run : List (Text × Request) → Workspace → List Answer × Workspace
  | [], w => ([], w)
  | (name, request) :: later, w =>
    let (answer, w) := w.step name request
    let (answers, w) := run later w
    (answer :: answers, w)

end Workspace

end Session

end ScriptReader
