import ScriptReader.Proofs.Kinship
import ScriptReader.Proofs.Turns

/-!
# Assignments — a session with them and without them

Options may be assigned to at any time, and all that use them go by the
new ones from then on. Two workspaces are akin if they differ in their
options alone, and in what follows from these: `Workspace.Akin`. Kindred
workspaces answer a request with kindred answers and stay akin
(`Workspace.Akin.step`), and an assignment keeps a workspace akin to
whatever it was akin to (`Workspace.Akin.assign`). So a session is akin to
the one in which nothing is assigned, at any time (`Workspace.akin_run`).
-/

namespace ScriptReader

/-- **Readings of the same statements** that complain of the same
bindings. -/
structure Reading.Akin (r r' : Reading) : Prop where
  program : Reader.ProgramsAkin r.program r'.program
  reports : Diagnostic.AllAkin r.reports r'.reports

namespace Reading

theorem Akin.announce {r r' : Reading} (h : r.Akin r') (s : Cursor) :
    Outcome.Akin Eq Akin (r.announce s) (r'.announce s) := by
  -- A record may be written on one side only.
  have announced : ∀ q : Reading, (q.announce s).result = .ok q ∧ (q.announce s).state = s ∧
      (q.announce s).draws = [] := by
    intro q
    unfold Reading.announce
    split <;> exact ⟨rfl, rfl, rfl⟩
  obtain ⟨result, state, draws⟩ := announced r
  obtain ⟨result', state', draws'⟩ := announced r'
  refine ⟨?_, state.trans state'.symm, ?_⟩
  · rw [result, result']
    exact .ok h
  · rw [draws, draws']
    exact .nil

theorem akin_ofText (rules rules' : Rules) (source : Text) :
    Outcome.Akin Eq Akin (ofText rules source) (ofText rules' source) := by
  have primed := Reader.akin_prime rules.policy rules'.policy (.ofText source)
  refine primed.andThen fun sight sight' ⟨current, peek⟩ => ?_
  have start : Reader.Akin
      ⟨(Reader.prime rules.policy (.ofText source)).state, sight.1, sight.2, []⟩
      ⟨(Reader.prime rules'.policy (.ofText source)).state, sight'.1, sight'.2, []⟩ :=
    ⟨primed.state, current, peek, .nil⟩
  have read := start.program rules rules'
  exact (read.map fun _ _ program => ⟨program, read.state.reports⟩).mapState Reader.Akin.cursor_eq

end Reading

namespace Session

/-! ## Answers -/

/-- **Replies that are made of kindred tokens** in one way. -/
inductive Reply.Akin : Reply → Reply → Prop
  | nothing : Akin .nothing .nothing
  | options (o : Options) : Akin (.options o) (.options o)
  | token {t u : Token} (akin : t.Akin u) : Akin (.token t) (.token u)
  | tokens {ts us : List Token} (akin : List.Forall₂ Token.Akin ts us) :
      Akin (.tokens ts) (.tokens us)
  | reading {r r' : Reading} (akin : r.Akin r') : Akin (.reading r) (.reading r')
  | noNode : Akin (.node none) (.node none)
  | statement {s s' : Statement} (akin : s.Akin s') :
      Akin (.node (some s.toNode)) (.node (some s'.toNode))
  | program {p p' : Program} (akin : Reader.ProgramsAkin p p') :
      Akin (.node (some p.toNode)) (.node (some p'.toNode))
  | reports {ds ds' : List Diagnostic} (akin : Diagnostic.AllAkin ds ds') :
      Akin (.reports ds) (.reports ds')

/-- **Failures for one cause.** A binding that was asked for is malformed
on both sides. -/
inductive Failure.Akin : Failure → Failure → Prop
  | same (f : Failure) : Akin f f
  | malformed {d d' : Diagnostic} (akin : d.Akin d') : Akin (.malformed d) (.malformed d')

/-- **Answers that are akin**, with draws that are akin one by one. -/
structure Answer.Akin (a b : Answer) : Prop where
  result : Matching Failure.Akin Reply.Akin a.result b.result
  draws : List.Forall₂ Draw.Akin (Event.draws a.history) (Event.draws b.history)

theorem Answer.akin_failure (f : Failure) : (failure f).Akin (failure f) := ⟨.error (.same f), .nil⟩

/-- **Steps that go alike** come to kindred answers. -/
theorem Answer.akin_ofOutcome {σ τ : Type} {S : σ → τ → Prop}
    {o : Outcome σ (Except Failure Reply)} {p : Outcome τ (Except Failure Reply)}
    (h : Outcome.Akin S (Matching Failure.Akin Reply.Akin) o p) :
    (ofOutcome o).Akin (ofOutcome p) := by
  refine ⟨?_, h.draws⟩
  rw [ofOutcome, ofOutcome]
  dsimp only
  obtain ⟨a, b, hx, hy, rel⟩ | ⟨e, e', hx, hy, rfl⟩ := h.result.ok_or_error
  · rw [hx, hy]
    exact rel
  · rw [hx, hy]
    exact .error (.same _)

theorem ScannerRequest.akin_run (policy other : Text) (s : Cursor) (q : ScannerRequest) :
    Outcome.Akin Eq Reply.Akin (q.run policy s) (q.run other s) := by
  cases q with
  | next => exact (Cursor.akin_next policy other s).map fun _ _ akin => .token akin
  | take n => exact (Cursor.akin_take policy other n s).map fun _ _ akin => .tokens akin
  | rest => exact (Cursor.akin_drain policy other s).map fun _ _ akin => .tokens akin

/-- **Whatever is asked of kindred readers**, they answer alike and stay
akin. -/
theorem ReaderRequest.akin_run {r r' : Reader} (h : r.Akin r') (rules rules' : Rules)
    (q : ReaderRequest) :
    Outcome.Akin Reader.Akin (Matching Diagnostic.Akin Reply.Akin) (q.run rules r)
      (q.run rules' r') := by
  cases q with
  | advance => exact (h.advance rules.policy rules'.policy).map fun _ _ _ => .ok .nothing
  | skipToSemicolon =>
    exact (h.skipToSemicolon rules.policy rules'.policy).map fun _ _ _ => .ok .nothing
  | statement =>
    refine (h.statement rules rules').map fun found found' rel => ?_
    cases rel with
    | none => exact .ok .noNode
    | some akin => exact .ok (.statement akin)
  | letStatement =>
    refine (h.letStatement rules.policy rules'.policy).map fun found found' rel => ?_
    cases rel with
    | ok akin => exact .ok (.statement akin)
    | error akin => exact .error akin
  | returnStatement =>
    exact (h.returnStatement rules.policy rules'.policy).map fun _ _ akin => .ok (.statement akin)
  | program => exact (h.program rules rules').map fun _ _ akin => .ok (.program akin)
  | reports => exact Outcome.akin_done h (.ok (.reports h.reports))
  | clearReports => exact Outcome.akin_done h (.ok .nothing)

theorem FrontEndRequest.akin_run (o p : Options) (q : FrontEndRequest) :
    Outcome.Akin Eq Reply.Akin (q.run o) (q.run p) := by
  cases q with
  | tokenize source =>
    have drained := Cursor.akin_drain o.overflow p.overflow (.ofText source)
    have ended : Token.Akin .eof .eof :=
      ⟨o.overflow, p.overflow, Cursor.alike_under (s := .ofText source) _ (.inr rfl)⟩
    exact (drained.map fun _ _ akin => List.rel_append akin (.cons ended .nil)).map
      fun _ _ akin => .tokens akin
  | read source =>
    have read := Reading.akin_ofText o.rules p.rules source
    refine (read.andThen fun found found' akin => ?_).map fun _ _ akin => .reading akin
    rw [← read.state]
    exact akin.announce _

/-! ## Workspaces -/

/-- Readers of one scanner, with one place for their options, that look at
kindred tokens. -/
structure Desk.Akin (d e : Desk) : Prop where
  scanner_eq : d.scanner = e.scanner
  options_eq : d.options = e.options
  current : d.current.Akin e.current
  peek : d.peek.Akin e.peek
  reports : Diagnostic.AllAkin d.reports e.reports

/-- Names that stand for one thing, or for kindred readers. -/
inductive Held.Akin : Held → Held → Prop
  | options (number : Nat) : Akin (.options number) (.options number)
  | scanner (number : Nat) : Akin (.scanner number) (.scanner number)
  | reader {d e : Desk} (akin : d.Akin e) : Akin (.reader d) (.reader e)
  | frontEnd (options : OptionsRef) : Akin (.frontEnd options) (.frontEnd options)

namespace Workspace

/-- **Workspaces that differ in the options that they hold**, and in what
has followed from these. -/
structure Akin (w v : Workspace) : Prop where
  length_options : w.options.length = v.options.length
  scanners : w.scanners = v.scanners
  held : ∀ name, Option.Rel Held.Akin (w.held? name) (v.held? name)

theorem akin_empty : Akin {} {} := ⟨rfl, rfl, fun _ => .none⟩

namespace Akin

variable {w v : Workspace}

theorem hold (h : w.Akin v) (name : Text) {x y : Held} (akin : x.Akin y) :
    (w.hold name x).Akin (v.hold name y) where
  length_options := h.length_options
  scanners := h.scanners
  held := by
    intro other
    by_cases same : other = name
    · subst same
      rw [held?_hold_self, held?_hold_self]
      exact .some akin
    · rw [held?_hold_of_ne w x same, held?_hold_of_ne v y same]
      exact h.held other

theorem moveScanner (h : w.Akin v) (i : Nat) {c c' : Cursor} (same : c = c') :
    (w.moveScanner i c).Akin (v.moveScanner i c') where
  length_options := h.length_options
  scanners := by
    rw [Workspace.moveScanner, Workspace.moveScanner, h.scanners, same]
  held := h.held

/-- A name stands for nothing on both sides, or for things that are
akin. -/
theorem none_or_some (h : w.Akin v) (name : Text) :
    (w.held? name = none ∧ v.held? name = none) ∨
      ∃ x y, w.held? name = some x ∧ v.held? name = some y ∧ x.Akin y := by
  have rel := h.held name
  generalize w.held? name = x at rel
  generalize v.held? name = y at rel
  cases rel with
  | none => exact .inl ⟨rfl, rfl⟩
  | some akin => exact .inr ⟨_, _, rfl, rfl, akin⟩

theorem optionsRef_eq (h : w.Akin v) (options : Option Text) :
    w.optionsRef options = v.optionsRef options := by
  cases options with
  | none => rfl
  | some name =>
    rw [optionsRef, optionsRef, Option.bind_some, Option.bind_some]
    obtain ⟨hw, hv⟩ | ⟨x, y, hw, hv, akin⟩ := h.none_or_some name
    · rw [hw, hv]
    · rw [hw, hv]
      cases akin <;> rfl

theorem scanner?_eq (h : w.Akin v) (name : Text) : w.scanner? name = v.scanner? name := by
  rw [scanner?, scanner?, h.scanners]
  obtain ⟨hw, hv⟩ | ⟨x, y, hw, hv, akin⟩ := h.none_or_some name
  · rw [hw, hv]
  · rw [hw, hv]
    cases akin <;> rfl

/-- The same holds of readers, whose scanners are the same. -/
theorem no_reader_or_reader (h : w.Akin v) (name : Text) :
    (w.reader? name = none ∧ v.reader? name = none) ∨
      ∃ d e s, w.reader? name = some (d, s) ∧ v.reader? name = some (e, s) ∧ d.Akin e := by
  rw [reader?, reader?, desk?, desk?, h.scanners]
  obtain ⟨hw, hv⟩ | ⟨x, y, hw, hv, akin⟩ := h.none_or_some name
  · rw [hw, hv]
    exact .inl ⟨rfl, rfl⟩
  · rw [hw, hv]
    cases akin with
    | @reader d e akin =>
      rw [Option.bind_some, Option.bind_some, akin.scanner_eq]
      cases v.scanners[e.scanner]? with
      | none => exact .inl ⟨rfl, rfl⟩
      | some s => exact .inr ⟨d, e, s, rfl, rfl, akin⟩
    | _ => exact .inl ⟨rfl, rfl⟩

/-- **Building a reader.** -/
theorem makeReader (h : w.Akin v) (name : Text) (i : Nat) (s : Scanner) (options : OptionsRef) :
    (w.makeReader name i s options).1.Akin (v.makeReader name i s options).1 ∧
      (w.makeReader name i s options).2.Akin (v.makeReader name i s options).2 := by
  have primed := Reader.akin_prime (w.policyOf s) (v.policyOf s) s.cursor
  have moved := h.moveScanner i primed.state
  refine ⟨Answer.akin_ofOutcome (primed.map fun _ _ _ => .ok .nothing), ?_⟩
  rw [Workspace.makeReader, Workspace.makeReader]
  dsimp only
  obtain ⟨sight, sight', hw, hv, akin⟩ | ⟨_, _, hw, hv, -⟩ := primed.result.ok_or_error
  · rw [hw, hv]
    exact moved.hold name (.reader ⟨rfl, rfl, akin.1, akin.2, .nil⟩)
  · rw [hw, hv]
    exact moved

/-- **Asking a reader.** -/
theorem askReader (h : w.Akin v) (name : Text) {d e : Desk} (akin : d.Akin e) (s : Scanner)
    (r : ReaderRequest) :
    (w.askReader name d s r).1.Akin (v.askReader name e s r).1 ∧
      (w.askReader name d s r).2.Akin (v.askReader name e s r).2 := by
  have start : Reader.Akin ⟨s.cursor, d.current, d.peek, d.reports⟩
      ⟨s.cursor, e.current, e.peek, e.reports⟩ := ⟨rfl, akin.current, akin.peek, akin.reports⟩
  have asked := r.akin_run start (w.rulesOf s d) (v.rulesOf s e)
  have left := asked.state
  constructor
  · refine Answer.akin_ofOutcome (asked.map fun found found' rel => ?_)
    cases rel with
    | ok akin => exact .ok akin
    | error akin => exact .error (.malformed akin)
  · have moved := h.moveScanner d.scanner left.cursor_eq
    rw [Workspace.askReader, Workspace.askReader, ← akin.scanner_eq]
    exact moved.hold name
      (.reader ⟨rfl, akin.options_eq, left.current, left.peek, left.reports⟩)

/-- **Kindred workspaces answer alike** and stay akin, whatever is asked
but an assignment. -/
theorem step (h : w.Akin v) (name : Text) {request : Request}
    (steady : ∀ a, request ≠ .assign a) :
    (w.step name request).1.Akin (v.step name request).1 ∧
      (w.step name request).2.Akin (v.step name request).2 := by
  cases request with
  | assign a => exact absurd rfl (steady a)
  | makeOptions o =>
    rw [Workspace.step, Workspace.step, makeOptions, makeOptions]
    cases o.check with
    | error e => exact ⟨Answer.akin_failure _, h⟩
    | ok o =>
      refine ⟨⟨.ok (.options o), .nil⟩, ?_⟩
      have added : Akin { w with options := w.options ++ [o] }
          { v with options := v.options ++ [o] } :=
        ⟨by rw [List.length_append, List.length_append, h.length_options], h.scanners, h.held⟩
      dsimp only
      rw [h.length_options]
      exact added.hold name (.options _)
  | makeScanner source options =>
    rw [Workspace.step, Workspace.step, makeScanner, makeScanner, h.optionsRef_eq options,
      h.scanners]
    have added : Akin { w with scanners := v.scanners ++ [⟨.ofText source, v.optionsRef options⟩] }
        { v with scanners := v.scanners ++ [⟨.ofText source, v.optionsRef options⟩] } :=
      ⟨h.length_options, rfl, h.held⟩
    exact ⟨⟨.ok .nothing, .nil⟩, added.hold name (.scanner _)⟩
  | makeFrontEnd options =>
    rw [Workspace.step, Workspace.step, h.optionsRef_eq options]
    exact ⟨⟨.ok .nothing, .nil⟩, h.hold name (.frontEnd _)⟩
  | makeReader scanner options =>
    rw [Workspace.step, Workspace.step, h.scanner?_eq scanner, h.optionsRef_eq options]
    split
    · exact h.makeReader name _ _ _
    · exact ⟨Answer.akin_failure _, h⟩
  | scanner r =>
    rw [Workspace.step, Workspace.step, h.scanner?_eq name]
    split
    · next i s _ =>
      have asked := r.akin_run (w.policyOf s) (v.policyOf s) s.cursor
      exact ⟨Answer.akin_ofOutcome (asked.map fun _ _ akin => .ok akin),
        h.moveScanner i asked.state⟩
    · exact ⟨Answer.akin_failure _, h⟩
  | reader r =>
    rw [Workspace.step, Workspace.step]
    obtain ⟨hw, hv⟩ | ⟨d, e, s, hw, hv, akin⟩ := h.no_reader_or_reader name
    · rw [hw, hv]
      exact ⟨Answer.akin_failure _, h⟩
    · rw [hw, hv]
      exact h.askReader name akin s r
  | frontEnd r =>
    rw [Workspace.step, Workspace.step]
    obtain ⟨hw, hv⟩ | ⟨x, y, hw, hv, akin⟩ := h.none_or_some name
    · rw [hw, hv]
      exact ⟨Answer.akin_failure _, h⟩
    · rw [hw, hv]
      cases akin with
      | frontEnd options =>
        have asked := r.akin_run (w.optionsOf options) (v.optionsOf options)
        exact ⟨Answer.akin_ofOutcome (asked.map fun _ _ akin => .ok akin), h⟩
      | _ => exact ⟨Answer.akin_failure _, h⟩
  | look =>
    rw [Workspace.step, Workspace.step]
    obtain ⟨hw, hv⟩ | ⟨x, y, hw, hv, -⟩ := h.none_or_some name
    · rw [hw, hv]
      exact ⟨Answer.akin_failure _, h⟩
    · rw [hw, hv]
      exact ⟨⟨.ok .nothing, .nil⟩, h⟩

/-- **An assignment is not seen** but in the options. -/
theorem assign (h : w.Akin v) (name : Text) (a : Assignment) :
    (w.step name (.assign a)).2.Akin v := by
  rw [Workspace.step]
  split
  · exact ⟨(List.length_modify ..).trans h.length_options, h.scanners, h.held⟩
  · exact h

end Akin

end Workspace

/-! ## Sessions -/

/-- Whether a request assigns to options. -/
def Request.isAssign : Request → Bool
  | .assign _ => true
  | _ => false

theorem Request.isAssign_eq_false_iff {request : Request} :
    request.isAssign = false ↔ ∀ a, request ≠ .assign a := by
  cases request <;> simp [isAssign]

/-- A session without its assignments. -/
def unassigned (requests : List (Text × Request)) : List (Text × Request) :=
  requests.filter fun q => !q.2.isAssign

/-- **A session without its assignments leaves a workspace that is akin.** -/
theorem Workspace.akin_run (requests : List (Text × Request)) {w v : Workspace} (h : w.Akin v) :
    (run requests w).2.Akin (run (unassigned requests) v).2 := by
  induction requests generalizing w v with
  | nil => exact h
  | cons q later ih =>
    obtain ⟨name, request⟩ := q
    rw [unassigned, List.filter_cons]
    cases isAssign : request.isAssign with
    | true =>
      cases request with
      | assign a => exact ih (h.assign name a)
      | _ => cases isAssign
    | false => exact ih (h.step name (Request.isAssign_eq_false_iff.1 isAssign)).2

end Session

end ScriptReader
