import ScriptReader.Proofs.Diary
import ScriptReader.Proofs.Recovery

/-!
# Logbooks — what the readers of a session complain of

A report is kept and written to the log in one move, and no other move
does either. So what an operation adds to the reports are its complaints:
the reports that it writes records of (`Reader.Made.reports_eq`).

A `Logbook` goes along with a session. It counts the readers that have been
built under a name, and keeps what has happened in the requests to the
last of them. The reports of a reader are the complaints in there
(`Logbook.tells_run`), and as long as no other reader is built under its
name they only grow (`Logbook.grows_run`). `complaints_run` puts this
beside what a failed production leaves in sight.
-/

namespace ScriptReader

namespace Record

/-- The report that a record is about, if it is about one. -/
def malformed? : Record → Option Diagnostic
  | malformed d => some d
  | _ => none

/-- How the wording of a complaint begins. -/
def complaint : Text := "Parse error: "

/-- **A complaint is told by its beginning**: no other record is worded
like that. -/
theorem isPrefixOf_complaint (record : Record) :
    complaint.isPrefixOf record.text = record.malformed?.isSome := by
  cases record with
  | malformed d => exact List.isPrefixOf_iff_prefix.2 (List.prefix_append ..)
  | _ => rfl

/-- The wordings of the complaints in a log. -/
theorem map_text_complaints (records : List Record) :
    (records.filter fun record => complaint.isPrefixOf record.text).map text =
      (records.filterMap malformed?).map fun d => complaint ++ d.text := by
  induction records with
  | nil => rfl
  | cons record records ih =>
    rw [List.filter_cons, isPrefixOf_complaint, List.filterMap_cons]
    cases record with
    | malformed d => exact congrArg ((complaint ++ d.text) :: ·) ih
    | _ => exact ih

end Record

namespace Event

/-- **The complaints of a history**: the reports that it has records of. -/
def complaints (history : List Event) : List Diagnostic :=
  (records history).filterMap Record.malformed?

theorem complaints_append (h k : List Event) :
    complaints (h ++ k) = complaints h ++ complaints k := by
  rw [complaints, records_append, List.filterMap_append]
  rfl

/-- A warning is no complaint. -/
theorem complaints_of_warnings {h : List Event} (warns : records h = warnings h) :
    complaints h = [] := by
  rw [complaints, warns, List.filterMap_eq_nil_iff]
  intro record hrecord
  have hlevel := of_decide_eq_true (List.mem_filter.1 hrecord).2
  cases record with
  | malformed d => cases hlevel
  | _ => rfl

end Event

/-- A scanner complains of nothing. -/
theorem Cursor.complaints_next (policy : Text) (s : Cursor) :
    Event.complaints (s.next policy).history = [] :=
  Event.complaints_of_warnings (records_next policy s)

namespace Reader

variable {policy : Text} {r : Reader} {α : Type} {o : Outcome Reader α}

/-- Nor does building a reader. -/
theorem complaints_prime (policy : Text) (s : Cursor) :
    Event.complaints (prime policy s).history = [] := by
  rw [prime]
  cases hr : (s.next policy).result with
  | error e =>
    rw [Outcome.andThen_of_error hr]
    exact s.complaints_next policy
  | ok t =>
    rw [Outcome.andThen_of_ok hr, Event.complaints_append, s.complaints_next]
    exact Cursor.complaints_next policy _

/-- **What is reported is complained of**, and nothing else is, refused or
not. -/
theorem Made.reports_eq (made : Made policy r o) :
    o.state.reports = r.reports ++ Event.complaints o.history := by
  refine made.keeps (P := fun s h => s.reports = r.reports ++ Event.complaints h)
    (fun {s h m} proper told => ?_) (h := []) (List.append_nil _).symm
  rw [Event.complaints_append, ← List.append_assoc, ← told]
  cases m with
  | advance =>
    rw [move, reports_advance, history_advance, Cursor.complaints_next, List.append_nil]
  | write record =>
    obtain rfl | ⟨n, rfl⟩ := proper <;> exact (List.append_nil _).symm
  | report d => rfl

end Reader

/-- **So it is with a whole source.** -/
theorem Reading.reports_eq {o : Options} {source : Text} {reading : Reading}
    (h : (o.read source).result = .ok reading) :
    reading.reports = Event.complaints (o.read source).history := by
  obtain ⟨found, hofText, hannounced⟩ := Outcome.exists_of_andThen_ok h
  obtain ⟨hfound, hquiet⟩ : found = reading ∧
      Event.complaints (found.announce (Reading.ofText o.rules source).state).history = [] := by
    unfold announce at hannounced ⊢
    split at hannounced
    · next success =>
      rw [if_pos success]
      exact ⟨Except.ok.inj hannounced, rfl⟩
    · next success =>
      rw [if_neg success]
      exact ⟨Except.ok.inj hannounced, rfl⟩
  subst hfound
  rw [Options.read, Outcome.andThen_of_ok hofText, Event.complaints_append, hquiet,
    List.append_nil]
  obtain ⟨sight, hprime, hread⟩ := Outcome.exists_of_andThen_ok hofText
  obtain ⟨program, -, rfl⟩ := Outcome.result_map_eq_ok_iff.1 hread
  rw [ofText, Outcome.andThen_of_ok hprime, Event.complaints_append, Reader.complaints_prime]
  exact (Reader.made_program o.rules).reports_eq

namespace Session

namespace Workspace

variable {w : Workspace} {name other : Text} {d : Desk}

/-- **A reader that is asked reports what it complains of**, and the others
report nothing. -/
theorem exists_desk_of_step_reader {r : ReaderRequest}
    (found : (w.step name (.reader r)).2.desk? other = some d) :
    ∃ e, w.desk? other = some e ∧ d.reports = e.reports ++
      if other = name then Event.complaints (w.step name (.reader r)).1.history else [] := by
  cases hreader : w.reader? name with
  | none =>
    have hstep : w.step name (.reader r) = (.failure (.unknown name), w) := by
      rw [step, hreader]
    rw [hstep] at found ⊢
    refine ⟨d, found, ?_⟩
    have hnothing : Event.complaints (Answer.failure (.unknown name)).history = [] := rfl
    rw [hnothing, ite_self, List.append_nil]
  | some held =>
    obtain ⟨e, s⟩ := held
    have hstep : w.step name (.reader r) = w.askReader name e s r := by
      rw [step, hreader]
    rw [hstep, askReader] at found ⊢
    obtain ⟨hnew, rfl⟩ | ⟨ne, hold⟩ := desk?_of_hold found
    · cases hnew
      refine ⟨e, (reader?_eq_some_iff.1 hreader).1, ?_⟩
      rw [if_pos rfl]
      exact (Reader.made_run (w.rulesOf s e) r).reports_eq
    · refine ⟨d, hold, ?_⟩
      rw [if_neg ne, List.append_nil]

end Workspace

/-- **What the readers of a session have done.** -/
structure Logbook where
  workspace : Workspace := {}
  /-- How many readers have been built under a name. -/
  built : Text → Nat := fun _ => 0
  /-- What has happened in the requests to the last of them, from the one
  that built it on. -/
  history : Text → List Event := fun _ => []

namespace Logbook

/-- How many readers have been built after a request, by its answer. -/
def count (b : Logbook) (name : Text) : Request → Except Failure Reply → Text → Nat
  | .makeReader .., .ok _ => fun other =>
    if other = name then b.built other + 1 else b.built other
  | _, _ => b.built

/-- What has happened to the readers after a request, by its answer. -/
def enter (b : Logbook) (name : Text) (h : List Event) :
    Request → Except Failure Reply → Text → List Event
  | .makeReader .., .ok _ => fun other => if other = name then h else b.history other
  | .reader _, _ => fun other => if other = name then b.history other ++ h else b.history other
  | _, _ => b.history

/-- Notes what a request does. -/
def step (name : Text) (request : Request) (b : Logbook) : Logbook where
  workspace := (b.workspace.step name request).2
  built := b.count name request (b.workspace.step name request).1.result
  history := b.enter name (b.workspace.step name request).1.history request
    (b.workspace.step name request).1.result

/-- And what all requests do. -/
def run : List (Text × Request) → Logbook → Logbook
  | [], b => b
  | (name, request) :: later, b => run later (b.step name request)

variable {b : Logbook} {name other : Text} {d : Desk} {request : Request}

/-- **A logbook follows the session.** -/
theorem workspace_run (requests : List (Text × Request)) (b : Logbook) :
    (run requests b).workspace = (Workspace.run requests b.workspace).2 := by
  induction requests generalizing b with
  | nil => rfl
  | cons q later ih => exact ih _

/-! ## The complaints of a reader -/

/-- **The reports of the readers are in the logbook.** -/
def Tells (b : Logbook) : Prop :=
  ∀ name d, b.workspace.desk? name = some d → d.reports = Event.complaints (b.history name)

/-- A reader that is built has none, and building it complains of
nothing. -/
theorem Tells.step_makeReader (h : b.Tells) (name scanner : Text) (options : Option Text) :
    (b.step name (.makeReader scanner options)).Tells := by
  intro other d found
  rw [step] at found ⊢
  obtain ⟨i, s, current, peek, hscanner, hprime⟩ | ⟨⟨f, refused⟩, same⟩ :=
    b.workspace.built_or_of_makeReader name scanner options
  · rw [Workspace.step_makeReader_of_ok hscanner hprime] at found ⊢
    show d.reports = Event.complaints (if other = name then _ else b.history other)
    obtain ⟨hnew, rfl⟩ | ⟨ne, hold⟩ := Workspace.desk?_of_hold found
    · cases hnew
      rw [if_pos rfl]
      exact (Reader.complaints_prime _ _).symm
    · rw [if_neg ne]
      exact h other d hold
  · rw [refused]
    exact h other d ((same other).symm.trans found)

/-- A reader that is asked adds the same to both. -/
theorem Tells.step_reader (h : b.Tells) (name : Text) (r : ReaderRequest) :
    (b.step name (.reader r)).Tells := by
  intro other d found
  obtain ⟨e, hdesk, hreports⟩ := Workspace.exists_desk_of_step_reader found
  show d.reports = Event.complaints
    (if other = name then b.history other ++ (b.workspace.step name (.reader r)).1.history
      else b.history other)
  rw [hreports, h other e hdesk]
  split
  · rw [Event.complaints_append]
  · exact List.append_nil _

theorem Tells.step (h : b.Tells) (name : Text) (request : Request) :
    (b.step name request).Tells := by
  cases request with
  | makeReader scanner options => exact h.step_makeReader name scanner options
  | reader r => exact h.step_reader name r
  | _ =>
    exact fun other d found => h other d ((Workspace.desk?_of_step found).resolve_right (by simp))

/-- **They are there at any time.** -/
theorem tells_run (requests : List (Text × Request)) : (run requests {}).Tells := by
  have from_telling : ∀ b : Logbook, b.Tells → (run requests b).Tells := by
    induction requests with
    | nil => exact fun _ h => h
    | cons q later ih => exact fun b h => ih _ (h.step q.1 q.2)
  exact from_telling {} fun name d found => by cases found

/-! ## Reports only grow -/

theorem built_le_step (b : Logbook) (name : Text) (request : Request) (other : Text) :
    b.built other ≤ (b.step name request).built other := by
  cases request with
  | makeReader scanner options =>
    show _ ≤ b.count name (.makeReader scanner options) _ other
    cases (b.workspace.step name (.makeReader scanner options)).1.result with
    | error f => exact Nat.le_refl _
    | ok reply =>
      show _ ≤ if other = name then b.built other + 1 else b.built other
      split
      · exact Nat.le_succ _
      · exact Nat.le_refl _
  | _ => exact Nat.le_refl _

theorem built_le_run (requests : List (Text × Request)) (b : Logbook) (other : Text) :
    b.built other ≤ (run requests b).built other := by
  induction requests generalizing b with
  | nil => exact Nat.le_refl _
  | cons q later ih => exact Nat.le_trans (b.built_le_step q.1 q.2 other) (ih _)

/-- **No request takes a report away**, unless it builds another reader
under the name. -/
theorem grows_step (same : (b.step name request).built other = b.built other)
    (found : (b.step name request).workspace.desk? other = some d) :
    ∃ e, b.workspace.desk? other = some e ∧ e.reports <+: d.reports := by
  cases request with
  | makeReader scanner options =>
    rw [step] at found same
    obtain ⟨i, s, current, peek, hscanner, hprime⟩ | ⟨-, unchanged⟩ :=
      b.workspace.built_or_of_makeReader name scanner options
    · rw [Workspace.step_makeReader_of_ok hscanner hprime] at found same
      obtain ⟨-, rfl⟩ | ⟨-, hold⟩ := Workspace.desk?_of_hold found
      · -- Another one has been counted.
        have counted : b.built other + 1 = b.built other := (if_pos rfl).symm.trans same
        omega
      · exact ⟨d, hold, List.prefix_refl _⟩
    · exact ⟨d, (unchanged other).symm.trans found, List.prefix_refl _⟩
  | reader r =>
    obtain ⟨e, hdesk, hreports⟩ := Workspace.exists_desk_of_step_reader found
    exact ⟨e, hdesk, hreports ▸ List.prefix_append ..⟩
  | _ => exact ⟨d, (Workspace.desk?_of_step found).resolve_right (by simp), List.prefix_refl _⟩

/-- **No session does.** -/
theorem grows_run {later : List (Text × Request)} (same : (run later b).built name = b.built name)
    (found : (run later b).workspace.desk? name = some d) :
    ∃ e, b.workspace.desk? name = some e ∧ e.reports <+: d.reports := by
  induction later generalizing b with
  | nil => exact ⟨d, found, List.prefix_refl _⟩
  | cons q later ih =>
    -- The count grows, so it has stayed the same in between.
    have hstep := b.built_le_step q.1 q.2 name
    have hrun := built_le_run later (b.step q.1 q.2) name
    have same : (run later (b.step q.1 q.2)).built name = b.built name := same
    obtain ⟨e, hdesk, hle⟩ := ih (by omega) found
    obtain ⟨f, hfirst, hle'⟩ := grows_step (by omega) hdesk
    exact ⟨f, hfirst, hle'.trans hle⟩

end Logbook

/-- **A failed production keeps the token that it complains about**, and
the log has every complaint.

A binding that is given up reports nothing by itself, and what it is given
up at is the second token in sight. A statement adds the one report on it,
or on the token that starts none and stays current, and reports nothing if
it is read to its end. A program is read in rounds, one behind the other,
and a round that reads no statement passes over no token but a name.

In a session the reports of a reader are the complaints in what has
happened to it since it was built, word by word, and as long as it is
there they only grow. -/
theorem complaints_run :
    (∀ (policy : Text) (r : Reader),
      (r.letStatement policy).state.reports = r.reports ∧
      (∀ d, (r.letStatement policy).result = .ok (.error d) →
        r.GivesUp (r.letStatement policy) d) ∧
      (∀ s, (r.letStatement policy).result = .ok (.ok s) → r.Finishes (r.letStatement policy)) ∧
      ∀ s, (r.returnStatement policy).result = .ok s → r.Finishes (r.returnStatement policy)) ∧
    (∀ (rules : Rules) (r : Reader),
      r.Dispatches rules (r.statement rules) ∧
      ((r.rounds rules).IsChain fun a b => b = (a.round rules).state) ∧
      (r.program rules).draws = (r.rounds rules).flatMap (fun a => (a.round rules).draws) ∧
      ((r.round rules).result = .ok none →
        r.Recovers (r.round rules) ∧ r.Moved rules.policy (r.round rules) ∧
        ∀ ms t, ((r.round rules).map fun _ => ()) = r.moves rules.policy ms →
          t ∈ (r.visits rules.policy ms).tail.dropLast → t.kind = .identifier)) ∧
    (∀ (o : Options) (source : Text) (reading : Reading),
      (o.read source).result = .ok reading →
        reading.reports = Event.complaints (o.read source).history) ∧
    ∀ requests : List (Text × Request),
      let b := Logbook.run requests {}
      b.workspace = (Workspace.run requests {}).2 ∧
      (∀ name d, b.workspace.desk? name = some d →
        d.reports = Event.complaints (b.history name) ∧
        (d.reports.map fun report => Record.complaint ++ report.text) =
          ((Event.records (b.history name)).filter
            fun record => Record.complaint.isPrefixOf record.text).map Record.text) ∧
      ∀ later name d,
        (Logbook.run later b).built name = b.built name →
        (Logbook.run later b).workspace.desk? name = some d →
        ∃ e, b.workspace.desk? name = some e ∧ e.reports <+: d.reports := by
  refine ⟨fun policy r => ⟨Reader.reports_letStatement policy r,
    fun d => Reader.givesUp_of_letStatement, fun s => Reader.finishes_letStatement,
    fun s => Reader.finishes_returnStatement⟩, fun rules r => ?_,
    fun o source reading => Reading.reports_eq, fun requests => ?_⟩
  · refine ⟨Reader.dispatches_statement rules r, Reader.isChain_rounds rules r,
      Reader.draws_program_rounds rules r, fun quiet => ?_⟩
    have recovers := Reader.recovers_round rules quiet
    exact ⟨recovers, (Reader.made_round rules).moved,
      fun ms t hms inside => recovers.identifier_of_mem quiet hms inside⟩
  · refine ⟨Logbook.workspace_run requests {}, fun name d found => ?_,
      fun later name d => Logbook.grows_run⟩
    have told := Logbook.tells_run requests name d found
    refine ⟨told, ?_⟩
    rw [Record.map_text_complaints, told]
    rfl

/-- The first of two `let`s is given up at the second, twice since a
statement is asked for and then a program. The second one is read, and it
is given up at a number. -/
theorem complaints_run_twice :
    let source : Text := "let let x 5 return"
    let rules : Rules := ⟨"illegal", false⟩
    let first : Token := ⟨.keyword .letWord, some 0, "let", none⟩
    let second : Token := ⟨.keyword .letWord, some 4, "let", none⟩
    let number : Token := ⟨.integer, some 10, "5", some 5⟩
    let r : Reader := ⟨(Reader.prime "illegal" (.ofText source)).state, first, second, []⟩
    let requests : List (Text × Request) := [("s", .makeScanner source none),
      ("p", .makeReader "s" none), ("p", .reader .statement)]
    let later : List (Text × Request) := [("p", .reader .program)]
    let b := Logbook.run requests {}
    let c := Logbook.run later b
    r.GivesUp (r.letStatement "illegal") (.unexpected second .identifier) ∧
      (r.round rules).state.Recovers ((r.round rules).state.round rules) ∧
      ∃ d e, b.workspace.desk? "p" = some e ∧ c.workspace.desk? "p" = some d ∧
        e.reports = [.unexpected second .identifier] ∧
        d.reports = [.unexpected second .identifier, .unexpected second .identifier,
          .unexpected number .assignment] ∧
        d.reports = Event.complaints (c.history "p") ∧ e.reports <+: d.reports := by
  intro source rules first second number r requests later b c
  obtain ⟨productions, programs, -, sessions⟩ := complaints_run
  have failed : (r.letStatement "illegal").result =
      .ok (.error (.unexpected second .identifier)) := by
    decide +kernel
  have quiet : ((r.round rules).state.round rules).result = .ok none := by decide +kernel
  have hb : (b.workspace.desk? "p").map Desk.reports = some [.unexpected second .identifier] := by
    decide +kernel
  have hc : (c.workspace.desk? "p").map Desk.reports =
      some [.unexpected second .identifier, .unexpected second .identifier,
        .unexpected number .assignment] := by
    decide +kernel
  obtain ⟨e, he, hreports⟩ := Option.map_eq_some_iff.1 hb
  obtain ⟨d, hd, hall⟩ := Option.map_eq_some_iff.1 hc
  obtain ⟨-, -, grows⟩ := sessions requests
  have stays : c.built "p" = b.built "p" := by decide +kernel
  obtain ⟨e', he', hle⟩ := grows later "p" d stays hd
  obtain rfl : e = e' := Option.some.inj (he.symm.trans he')
  obtain ⟨-, told, -⟩ := sessions (requests ++ later)
  exact ⟨(productions "illegal" r).2.1 _ failed, ((programs rules _).2.2.2 quiet).1, d, e, he, hd,
    hreports, hall, (told "p" d hd).1, hle⟩

end Session

end ScriptReader
