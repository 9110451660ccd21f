import ScriptReader.Proofs.Assignments
import ScriptReader.Proofs.Slots
import ScriptReader.Proofs.Warnings

/-!
# Moments — when options are looked at

Options are looked at twice. A scanner looks at its policy when a token is
drawn from it: a number that is too great is what the policy makes of it
then (`Cursor.Serves.spoiled`), and so it stays, in the sight of a reader
and in what is made of it (`Diary.Stamped`). A reader looks at its flag
when it looks for a statement, and reports the token if none starts there
(`Reader.filter_isStray_run`, `Workspace.Flagged`).

`assignments_run` puts this beside what assignments do not change.
-/

namespace ScriptReader

/-! ## The policy -/

namespace Cursor

variable {policy : Text} {s left : Cursor} {h : List Event} {t : Token}

theorem mem_of_mem_stream {n : Nat} (ht : t ∈ Draw.tokens (s.stream policy n)) :
    t ∈ s.tokens policy ∨ t = .eof := by
  rw [stream_eq, Draw.tokens_append, List.mem_append] at ht
  obtain ht | ht := ht
  · left
    rw [← tokens_ahead]
    exact ((List.take_sublist _ _).filterMap _).subset ht
  · right
    obtain ⟨d, hd, hdt⟩ := List.mem_filterMap.1 ht
    obtain rfl := List.eq_of_mem_replicate hd
    exact (Option.some.inj hdt).symm

/-- **A number that is too great is spoiled as it is drawn.** -/
theorem Serves.spoiled (serves : s.Serves policy h left)
    (ht : t ∈ Draw.tokens (Event.draws h)) (great : t.TooGreat) : t.Spoiled policy := by
  rw [serves.draws_eq] at ht
  obtain ht | rfl := mem_of_mem_stream ht
  · exact spoiled_of_mem_tokens ht great
  · cases great.1

end Cursor

theorem Reading.draws_read (o : Options) (source : Text) :
    (o.read source).draws = (Reading.ofText o.rules source).draws := by
  rw [Options.read]
  cases hr : (Reading.ofText o.rules source).result with
  | error e =>
    rw [Outcome.andThen_of_error hr]
    rfl
  | ok reading =>
    rw [Outcome.draws_andThen_of_ok hr, (reading.announce_quiet _).1, List.append_nil]

/-! ## The flag -/

namespace Reader

open Session

/-- The tokens that a statement is looked for at. -/
def looks (rules : Rules) (r : Reader) : ReaderRequest → List Token
  | .statement => [r.current]
  | .program => (r.rounds rules).map Reader.current
  | _ => []

/-- **A token that starts no statement is reported where a statement is
looked for at it**, if the flag is set, and nothing else is reported in
these words. -/
theorem filter_isStray_run (rules : Rules) (r : Reader) (q : ReaderRequest) :
    (q.run rules r).state.reports.filter Diagnostic.isStray =
      r.reports.filter Diagnostic.isStray ++ strays rules.reportStray (r.looks rules q) := by
  have quiet : ∀ {s : Reader}, s.reports = r.reports → s.reports.filter Diagnostic.isStray =
      r.reports.filter Diagnostic.isStray ++ strays rules.reportStray [] := by
    intro s same
    rw [same, strays_nil, List.append_nil]
  cases q with
  | statement => exact filter_isStray_statement rules r
  | program =>
    refine (congrArg (List.filter Diagnostic.isStray) ?_).trans (filter_isStray_statements rules r)
    exact reports_andThen rfl fun _ => rfl
  | advance => exact quiet (reports_advance rules.policy r)
  | skipToSemicolon => exact quiet (reports_skipToSemicolon rules.policy r)
  | letStatement => exact quiet (reports_letStatement rules.policy r)
  | returnStatement => exact quiet (reports_returnStatement rules.policy r)
  | reports => exact quiet rfl
  | clearReports => exact quiet rfl

end Reader

namespace Session

/-- What is answered is what a step came to. -/
theorem Answer.result_of_ofOutcome {σ : Type} {o : Outcome σ Reply} {reply : Reply}
    (h : (ofOutcome (o.map .ok)).result = .ok reply) : o.result = .ok reply := by
  cases hr : o.result with
  | error e => simp [ofOutcome, Outcome.map, hr] at h
  | ok r => simpa [ofOutcome, Outcome.map, hr] using h

theorem FrontEndRequest.spoiled_run (o : Options) (q : FrontEndRequest) {t : Token}
    (ht : t ∈ (q.run o).delivered) (great : t.TooGreat) : t.Spoiled o.overflow := by
  cases q with
  | tokenize source => exact (Cursor.serves_drain o.overflow (.ofText source)).spoiled ht great
  | read source =>
    have ht : t ∈ Draw.tokens (o.read source).draws := ht
    rw [Reading.draws_read] at ht
    exact (Reading.serves_ofText o.rules source).spoiled ht great

namespace Workspace

variable {w : Workspace} {name : Text} {i : Nat} {d : Desk} {s : Scanner}

theorem spoiled_step {request : Request} (source : w.source? name request = some i) {t : Token}
    (ht : t ∈ Draw.tokens (Event.draws (w.step name request).1.history)) (great : t.TooGreat) :
    t.Spoiled (w.policyAt i) := by
  obtain ⟨s, hs⟩ : ∃ s, w.scanners[i]? = some s :=
    ⟨_, List.getElem?_eq_getElem (lt_length_of_source? source)⟩
  have turn := turn_step hs name request
  rw [policyAt_eq hs]
  generalize w.step name request = result at turn ht
  obtain ⟨answer, after⟩ := result
  dsimp only at turn ht
  cases turn with
  | direct r held => exact (Ledger.serves_run _ _ r).spoiled ht great
  | built held ready => exact (Reader.serves_prime _ _).spoiled ht great
  | unbuilt held refused => exact (Reader.serves_prime _ _).spoiled ht great
  | @asked r e o desk on run =>
    subst run
    exact (Reader.made_run (r := ⟨_, e.current, e.peek, e.reports⟩) _ r).serves.spoiled ht great
  | elsewhere away => exact absurd source away

/-- **Reports on tokens that start no statement go by the flag of the
moment**, that of the options of the reader that looks for one. -/
structure Flagged (w : Workspace) : Prop where
  /-- A reader that is asked adds one for each token that it looks for a
  statement at and that starts none, if its flag is set. -/
  asked : ∀ name d s r, w.reader? name = some (d, s) →
    ∃ e, (w.step name (.reader r)).2.desk? name = some e ∧
      e.reports.filter Diagnostic.isStray = d.reports.filter Diagnostic.isStray ++
        Reader.strays (w.optionsOf d.options).reportStray
          (Reader.looks (w.rulesOf s d) ⟨s.cursor, d.current, d.peek, d.reports⟩ r)
  /-- The reports of the others are left alone, and those of a new reader
  are none. -/
  others : ∀ name request other e, (w.step name request).2.desk? other = some e →
    w.desk? other = some e ∨ other = name ∧ ((∃ r, request = .reader r) ∨
      (∃ scanner options, request = .makeReader scanner options) ∧ e.reports = [])
  /-- The same is added by a front end. -/
  read : ∀ name options source found, w.held? name = some (.frontEnd options) →
    (w.step name (.frontEnd (.read source))).1.result = .ok (.reading found) →
    found.reports.filter Diagnostic.isStray =
      Reader.strays (w.optionsOf options).reportStray
        ((Reading.rounds (w.optionsOf options).rules source).map Reader.current)

theorem flagged (w : Workspace) : w.Flagged where
  asked := by
    intro name d s r found
    have hstep : w.step name (.reader r) = w.askReader name d s r := by
      rw [step, found]
    have reported := Reader.filter_isStray_run (w.rulesOf s d)
      ⟨s.cursor, d.current, d.peek, d.reports⟩ r
    rw [hstep, askReader, desk?, held?_hold_self]
    exact ⟨_, rfl, reported⟩
  others := fun _ _ _ _ found => desk?_of_step found
  read := by
    intro name options source found held hresult
    rw [step, held] at hresult
    obtain ⟨_, hread, heq⟩ := Outcome.result_map_eq_ok_iff.1 (Answer.result_of_ofOutcome hresult)
    cases heq
    exact Reading.filter_isStray_read hread

end Workspace

/-! ## Sessions -/

/-- The tokens of some draws that were noted. -/
def Noted.tokens (ns : List Noted) : List Token := Draw.tokens (ns.map Noted.draw)

namespace Diary

variable {y : Diary} {name : Text} {i : Nat}

/-- **The draws of a diary bear the policies of their moments**, and all
that a reader holds and makes is made of these draws. -/
structure Stamped (y : Diary) : Prop where
  /-- What a request draws, the policy that its scanner has then has
  spoiled if it is too great. -/
  now : ∀ name request i, y.workspace.source? name request = some i →
    ∀ t ∈ Draw.tokens (Event.draws (y.workspace.step name request).1.history),
      t.TooGreat → t.Spoiled (y.workspace.policyAt i)
  /-- So it is with a front end and its own policy. -/
  front_end : ∀ name r options, y.workspace.held? name = some (.frontEnd options) →
    ∀ t ∈ Draw.tokens (Event.draws (y.workspace.step name (.frontEnd r)).1.history),
      t.TooGreat → t.Spoiled (y.workspace.optionsOf options).overflow
  /-- A reader that is built has the draws that build it. -/
  built : ∀ name scanner options i,
    y.workspace.source? name (.makeReader scanner options) = some i →
    (y.workspace.step name (.makeReader scanner options)).1.result = .ok .nothing →
    (y.step name (.makeReader scanner options)).drawn name =
      (Event.draws (y.workspace.step name (.makeReader scanner options)).1.history).map
        (⟨y.workspace.policyAt i, ·⟩)
  /-- One that is asked gets those that it makes. -/
  asked : ∀ name r i, y.workspace.source? name (.reader r) = some i →
    (y.step name (.reader r)).drawn name = y.drawn name ++
      (Event.draws (y.workspace.step name (.reader r)).1.history).map
        (⟨y.workspace.policyAt i, ·⟩)
  /-- Whatever has been assigned since, its tokens are as they were
  drawn. -/
  noted : ∀ name d, y.workspace.desk? name = some d → ∀ n ∈ y.drawn name, ∀ t,
    n.draw = .token t → t.TooGreat → t.Spoiled n.policy
  /-- These are the tokens that it looks at. -/
  slots : ∀ name d, y.workspace.desk? name = some d →
    Slots ((y.drawn name).map Noted.draw) d.current d.peek
  /-- It complains of no others. -/
  about : ∀ name d, y.workspace.desk? name = some d →
    ∀ e ∈ d.reports, e.About (Noted.tokens (y.drawn name))
  /-- It answers with no others. -/
  answers : ∀ name r i, y.workspace.source? name (.reader r) = some i →
    (y.workspace.step name (.reader r)).1.From
      (Noted.tokens ((y.step name (.reader r)).drawn name))
  /-- And a scanner answers with what it draws for the purpose. -/
  handed : ∀ name r i, y.workspace.source? name (.scanner r) = some i →
    (y.workspace.step name (.scanner r)).1.From
      (Draw.tokens (Event.draws (y.workspace.step name (.scanner r)).1.history))

theorem all_spoiled (requests : List (Text × Request)) :
    (run requests {}).All fun _ ns => ∀ n ∈ ns, ∀ t, n.draw = .token t →
      t.TooGreat → t.Spoiled n.policy := by
  have drawn : ∀ {policy : Text} {c left : Cursor} {h : List Event}, c.Serves policy h left →
      ∀ n ∈ (Event.draws h).map (Noted.mk policy), ∀ t, n.draw = .token t →
        t.TooGreat → t.Spoiled n.policy := by
    intro policy c left h serves n hn t ht great
    obtain ⟨draw, hdraw, rfl⟩ := List.mem_map.1 hn
    obtain rfl : draw = .token t := ht
    exact serves.spoiled (List.mem_filterMap.2 ⟨_, hdraw, rfl⟩) great
  refine all_run ?_ ?_ requests
  · intro policy c i options current peek _
    exact drawn (Reader.serves_prime policy c)
  · intro rules c r d ns old o n hn
    rcases List.mem_append.1 hn with hn | hn
    · exact old n hn
    · exact drawn (Reader.made_run rules r).serves n hn

theorem all_within (requests : List (Text × Request)) :
    (run requests {}).All fun d ns => ∀ c,
      Reader.Within (Noted.tokens ns) ⟨c, d.current, d.peek, d.reports⟩ := by
  refine all_run ?_ ?_ requests
  · intro policy c i options current peek ready _
    rw [Noted.tokens, Noted.map_draw, Reader.draws_prime_of_ok ready]
    exact ⟨by simp [Draw.tokens, Draw.token?], by simp [Draw.tokens, Draw.token?], nofun⟩
  · intro rules c r d ns old o _
    have within := (Reader.made_run rules r).within (old c)
    rw [Noted.tokens, List.map_append, Noted.map_draw, Draw.tokens_append]
    exact ⟨within.current, within.peek, within.reports⟩

/-- A reader that has seen some tokens answers with these and with those
that it draws. -/
theorem from_askReader {w : Workspace} {d : Desk} {s : Scanner} {seen : List Token}
    (within : Reader.Within seen ⟨s.cursor, d.current, d.peek, d.reports⟩) (name : Text)
    (r : ReaderRequest) :
    (w.askReader name d s r).1.From
      (seen ++ Draw.tokens (Event.draws (w.askReader name d s r).1.history)) := by
  refine Answer.from_ofOutcome fun x hx => ?_
  obtain ⟨found, hfound, rfl⟩ := Outcome.result_map_eq_ok_iff.1 hx
  have made := Reader.from_run (w.rulesOf s d) r within hfound
  cases found with
  | ok reply => exact made
  | error e => exact made

/-- **So it is at any time in any session.** -/
theorem stamped_run (requests : List (Text × Request)) : (run requests {}).Stamped where
  now := fun _ _ _ source _ ht great => Workspace.spoiled_step source ht great
  front_end := by
    intro name r options held t ht great
    rw [Workspace.step, held] at ht
    exact r.spoiled_run _ ht great
  built := by
    intro name scanner options i source result
    show enter _ _ _ _ _ name = _
    rw [result]
    show (if name = name then noted _ _ _ else _) = _
    rw [if_pos rfl, noted, source]
  asked := by
    intro name r i source
    show (if name = name then drawn _ name ++ noted _ _ _ else _) = _
    rw [if_pos rfl, noted, source]
  noted := all_spoiled requests
  slots := all_slots requests
  about := fun name d hd => (all_within requests name d hd (.ofText [])).reports
  answers := by
    intro name r i source
    obtain ⟨⟨d, s⟩, hreader, -⟩ := Option.map_eq_some_iff.1 source
    obtain ⟨hdesk, -⟩ := Workspace.reader?_eq_some_iff.1 hreader
    have answered := from_askReader (w := (run requests {}).workspace)
      (all_within requests name d hdesk s.cursor) name r
    show Answer.From (Noted.tokens (if name = name then drawn _ name ++ noted _ _ _ else _)) _
    rw [if_pos rfl, noted, source, Noted.tokens, List.map_append, Noted.map_draw,
      Draw.tokens_append, Workspace.step, hreader]
    exact answered
  handed := by
    intro name r i source
    obtain ⟨⟨j, s⟩, hscanner, -⟩ := Option.map_eq_some_iff.1 source
    rw [Workspace.step, hscanner]
    refine Answer.from_ofOutcome fun x hx => ?_
    obtain ⟨reply, hreply, rfl⟩ := Outcome.result_map_eq_ok_iff.1 hx
    exact Ledger.from_scannerRequest _ s.cursor r hreply

end Diary

/-- **Options that change in a session** change nothing but what they are
looked at for, and no sooner than they are. After any requests the
workspace is akin to the one of the same session without its assignments,
and the next request is answered alike: as many tokens are drawn, of the
same source at the same places, the same runs are refused, and the same
statements and complaints are made of them. An assignment changes the
options alone. The policy is looked at when a token is drawn, and the flag
when a statement is looked for. -/
theorem assignments_run (requests : List (Text × Request)) :
    let w := (Workspace.run requests {}).2
    let v := (Workspace.run (unassigned requests) {}).2
    let y := Diary.run requests {}
    y.workspace = w ∧ w.Akin v ∧
      (∀ name request, (∀ a, request ≠ .assign a) →
        (w.step name request).1.Akin (v.step name request).1) ∧
      (∀ name a, (w.step name (.assign a)).1.history = [] ∧
        ∃ options, (w.step name (.assign a)).2 = { w with options := options }) ∧
      y.Stamped ∧ w.Flagged := by
  intro w v y
  have akin : w.Akin v := Workspace.akin_run requests Workspace.akin_empty
  refine ⟨Diary.workspace_run requests {}, akin, fun name _ steady => (akin.step name steady).1,
    fun name a => ?_, Diary.stamped_run requests, w.flagged⟩
  rw [Workspace.step]
  split
  · exact ⟨rfl, _, rfl⟩
  · exact ⟨rfl, w.options, rfl⟩

/-- The second of three numbers is drawn before the policy is assigned,
and the third after that. A statement is looked for at the second when the
flag is set. -/
theorem assignments_run_prefetched :
    let requests : List (Text × Request) :=
      [("o", .makeOptions .standard),
        ("s", .makeScanner "9223372036854775808 9223372036854775808 9223372036854775808"
          (some "o")),
        ("p", .makeReader "s" (some "o")), ("o", .assign (.overflow "saturate")),
        ("p", .reader .advance), ("o", .assign (.reportStray true))]
    let w := (Workspace.run requests {}).2
    let v := (Workspace.run (unassigned requests) {}).2
    let answer := (w.step "p" (.reader .statement)).1
    (∀ a, Request.reader .statement ≠ .assign a) ∧
      answer.Akin (v.step "p" (.reader .statement)).1 ∧
      ∃ d e, w.desk? "p" = some d ∧ d.current.Spoiled "illegal" ∧ d.peek.Spoiled "saturate" ∧
        (w.step "p" (.reader .statement)).2.desk? "p" = some e ∧
        e.reports.filter Diagnostic.isStray = [.unexpected d.current .statement] := by
  intro requests w v answer
  let current : Token := ⟨.illegal, some 20, "9223372036854775808", none⟩
  let peek : Token := ⟨.integer, some 40, "9223372036854775808", some 9223372036854775807⟩
  obtain ⟨hworkspace, -, alike, -, stamped, flagged⟩ := assignments_run requests
  have steady : ∀ a, Request.reader .statement ≠ .assign a := nofun
  have desk : w.desk? "p" = some ⟨0, some 0, current, peek, []⟩ := by decide +kernel
  have reader : w.reader? "p" = some (⟨0, some 0, current, peek, []⟩,
      ⟨⟨[], 59⟩, some 0⟩) := by decide +kernel
  have first : Noted.mk "illegal" (.token current) ∈ (Diary.run requests {}).drawn "p" := by
    decide +kernel
  have second : Noted.mk "saturate" (.token peek) ∈ (Diary.run requests {}).drawn "p" := by
    decide +kernel
  have noted := stamped.noted "p" _ ((congrArg (Workspace.desk? · "p") hworkspace).trans desk)
  obtain ⟨e, left, reported⟩ := flagged.asked "p" _ _ .statement reader
  refine ⟨steady, alike "p" _ steady, _, e, desk,
    noted _ first current rfl (by decide +kernel), noted _ second peek rfl (by decide +kernel),
    left, ?_⟩
  rw [reported]
  decide +kernel

end Session

end ScriptReader
