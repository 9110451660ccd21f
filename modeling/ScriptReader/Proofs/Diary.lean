import ScriptReader.Proofs.Sharing

/-!
# Diaries — what the readers of a session have drawn

A `Diary` goes along with a session and notes every draw that a request to
a scanner, or to a reader on it, makes, with the policy that the scanner's
options had at that moment: once for the scanner that it is made from,
and once for the reader that makes it. A reader that is built anew under a
name starts with the draws that build it.

`Diary.all_run` is the induction over sessions, made once: what holds of a
reader that has just been built, and is kept by whatever may be asked of
one, holds of every reader at any time, whatever other requests and
assignments come in between.
-/

namespace ScriptReader

namespace Session

namespace Workspace

/-- The policy under which the scanner under a number scans. -/
def policyAt (w : Workspace) (i : Nat) : Text :=
  match w.scanners[i]? with
  | some s => w.policyOf s
  | none => []

theorem policyAt_eq {w : Workspace} {i : Nat} {s : Scanner} (hs : w.scanners[i]? = some s) :
    w.policyAt i = w.policyOf s := by
  rw [policyAt, hs]

theorem lt_length_of_source? {w : Workspace} {name : Text} {request : Request} {i : Nat}
    (h : w.source? name request = some i) : i < w.scanners.length := by
  cases request with
  | scanner r =>
    obtain ⟨⟨j, s⟩, hs, rfl⟩ := Option.map_eq_some_iff.1 h
    exact (List.getElem?_eq_some_iff.1 (scanner?_eq_some_iff.1 hs).2).1
  | makeReader scanner options =>
    obtain ⟨⟨j, s⟩, hs, rfl⟩ := Option.map_eq_some_iff.1 h
    exact (List.getElem?_eq_some_iff.1 (scanner?_eq_some_iff.1 hs).2).1
  | reader r =>
    obtain ⟨⟨d, s⟩, hs, rfl⟩ := Option.map_eq_some_iff.1 h
    exact (List.getElem?_eq_some_iff.1 (reader?_eq_some_iff.1 hs).2).1
  | _ => cases h

/-- Building a reader adds no scanner. -/
theorem length_scanners_makeReader (w : Workspace) (name : Text) (i : Nat) (s : Scanner)
    (options : OptionsRef) :
    (w.makeReader name i s options).2.scanners.length = w.scanners.length := by
  have moved := length_scanners_moveScanner i (Reader.prime (w.policyOf s) s.cursor).state w
  rw [makeReader]
  dsimp only
  split <;> exact moved

/-- No scanner is taken away. -/
theorem length_scanners_step (w : Workspace) (name : Text) (request : Request) :
    w.scanners.length ≤ (w.step name request).2.scanners.length := by
  cases request with
  | makeScanner source options =>
    show _ ≤ (w.scanners ++ [_]).length
    rw [List.length_append]
    exact Nat.le_add_right _ _
  | makeReader scanner options =>
    rw [step]
    split
    · exact Nat.le_of_eq (length_scanners_makeReader ..).symm
    · exact Nat.le_refl _
  | makeOptions o =>
    rw [step, makeOptions]
    split <;> exact Nat.le_refl _
  | makeFrontEnd options => exact Nat.le_refl _
  | assign a =>
    rw [step]
    split <;> exact Nat.le_refl _
  | scanner r =>
    rw [step]
    split
    · exact Nat.le_of_eq (length_scanners_moveScanner ..).symm
    · exact Nat.le_refl _
  | reader r =>
    rw [step]
    split
    · exact Nat.le_of_eq (length_scanners_moveScanner ..).symm
    · exact Nat.le_refl _
  | frontEnd r =>
    rw [step]
    split <;> exact Nat.le_refl _
  | look =>
    rw [step]
    split <;> exact Nat.le_refl _

/-- **A reader is not built** if one of its draws is refused, but its scanner
has moved. -/
theorem step_makeReader_of_error {w : Workspace} {name scanner : Text} {options : Option Text}
    {i : Nat} {s : Scanner} {e : Overlong} (found : w.scanner? scanner = some (i, s))
    (refused : (Reader.prime (w.policyOf s) s.cursor).result = .error e) :
    w.step name (.makeReader scanner options) =
      (⟨.error (.overlong e), (Reader.prime (w.policyOf s) s.cursor).history⟩,
        w.moveScanner i (Reader.prime (w.policyOf s) s.cursor).state) := by
  rw [step, found]
  simp only [makeReader, Answer.ofOutcome, Outcome.map, refused]

/-- **A reader that is built** has the two tokens drawn, and no reports. -/
theorem step_makeReader_of_ok {w : Workspace} {name scanner : Text} {options : Option Text}
    {i : Nat} {s : Scanner} {current peek : Token} (found : w.scanner? scanner = some (i, s))
    (ready : (Reader.prime (w.policyOf s) s.cursor).result = .ok (current, peek)) :
    w.step name (.makeReader scanner options) =
      (⟨.ok .nothing, (Reader.prime (w.policyOf s) s.cursor).history⟩,
        (w.moveScanner i (Reader.prime (w.policyOf s) s.cursor).state).hold name
          (.reader ⟨i, w.optionsRef options, current, peek, []⟩)) := by
  rw [step, found]
  simp only [makeReader, Answer.ofOutcome, Outcome.map, ready]

/-- **A reader is built or it is not**, and then no reader has changed. -/
theorem built_or_of_makeReader (w : Workspace) (name scanner : Text) (options : Option Text) :
    (∃ i s current peek, w.scanner? scanner = some (i, s) ∧
      (Reader.prime (w.policyOf s) s.cursor).result = .ok (current, peek)) ∨
    (∃ f, (w.step name (.makeReader scanner options)).1.result = .error f) ∧
      ∀ other, (w.step name (.makeReader scanner options)).2.desk? other = w.desk? other := by
  cases found : w.scanner? scanner with
  | none =>
    right
    rw [step, found]
    exact ⟨⟨_, rfl⟩, fun _ => rfl⟩
  | some held =>
    obtain ⟨i, s⟩ := held
    cases hprime : (Reader.prime (w.policyOf s) s.cursor).result with
    | error e =>
      right
      rw [step_makeReader_of_error found hprime]
      exact ⟨⟨_, rfl⟩, fun _ => rfl⟩
    | ok sight => exact .inl ⟨i, s, sight.1, sight.2, rfl, hprime⟩

/-- **A reader that is there after a request** was there before, or has
been asked or built by it. -/
theorem desk?_of_step {w : Workspace} {name other : Text} {request : Request} {d : Desk}
    (found : (w.step name request).2.desk? other = some d) :
    w.desk? other = some d ∨ other = name ∧ ((∃ r, request = .reader r) ∨
      (∃ scanner options, request = .makeReader scanner options) ∧ d.reports = []) := by
  have of_hold : ∀ {v : Workspace} {x : Held}, (∀ d, x ≠ .reader d) →
      (∀ n, v.desk? n = w.desk? n) → (v.hold name x).desk? other = some d →
      w.desk? other = some d := by
    intro v x noReader same found
    obtain ⟨hx, -⟩ | ⟨-, found⟩ := desk?_of_hold found
    · exact absurd hx (noReader d)
    · rwa [same] at found
  cases request with
  | makeReader scanner options =>
    rw [step] at found
    split at found
    · rw [makeReader] at found
      dsimp only at found
      split at found
      · exact .inl found
      · obtain ⟨hnew, rfl⟩ | ⟨-, found⟩ := desk?_of_hold found
        · cases hnew
          exact .inr ⟨rfl, .inr ⟨⟨scanner, options, rfl⟩, rfl⟩⟩
        · exact .inl found
    · exact .inl found
  | reader r =>
    rw [step] at found
    split at found
    · obtain ⟨-, rfl⟩ | ⟨-, found⟩ := desk?_of_hold found
      · exact .inr ⟨rfl, .inl ⟨r, rfl⟩⟩
      · exact .inl found
    · exact .inl found
  | makeScanner source options =>
    rw [step, makeScanner] at found
    exact .inl (of_hold (v := { w with scanners := _ }) (by simp) (fun _ => rfl) found)
  | makeFrontEnd options => exact .inl (of_hold (v := w) (by simp) (fun _ => rfl) found)
  | makeOptions o =>
    rw [step, makeOptions] at found
    split at found
    · exact .inl found
    · exact .inl (of_hold (v := { w with options := _ }) (by simp) (fun _ => rfl) found)
  | assign a =>
    rw [step] at found
    split at found <;> exact .inl found
  | scanner r =>
    rw [step] at found
    split at found <;> exact .inl found
  | frontEnd r =>
    rw [step] at found
    split at found <;> exact .inl found
  | look =>
    rw [step] at found
    split at found <;> exact .inl found

end Workspace

/-- A draw, with the policy that the scanner had when it was made. -/
structure Noted where
  policy : Text
  draw : Draw
deriving DecidableEq

/-- **What has been drawn in a session**, by whom and from what. -/
structure Diary where
  workspace : Workspace := {}
  /-- The draws of the reader under a name, from the two that built it
  on. -/
  drawn : Text → List Noted := fun _ => []
  /-- The draws from the scanner under a number, whoever made them. -/
  given : Nat → List Noted := fun _ => []

namespace Diary

/-- What a request draws from a scanner that is held. -/
def noted (y : Diary) (name : Text) (request : Request) : List Noted :=
  match y.workspace.source? name request with
  | some i =>
    (Event.draws (y.workspace.step name request).1.history).map (⟨y.workspace.policyAt i, ·⟩)
  | none => []

/-- The draws of the readers after a request, by its answer. -/
def enter (y : Diary) (name : Text) (ds : List Noted) :
    Request → Except Failure Reply → Text → List Noted
  | .makeReader .., .ok _ => fun other => if other = name then ds else y.drawn other
  | .reader _, _ => fun other => if other = name then y.drawn other ++ ds else y.drawn other
  | _, _ => y.drawn

/-- Notes what a request draws. -/
def step (name : Text) (request : Request) (y : Diary) : Diary where
  workspace := (y.workspace.step name request).2
  drawn :=
    y.enter name (y.noted name request) request (y.workspace.step name request).1.result
  given := fun i =>
    if y.workspace.source? name request = some i then y.given i ++ y.noted name request
    else y.given i

/-- And what all requests do. -/
def run : List (Text × Request) → Diary → Diary
  | [], y => y
  | (name, request) :: later, y => run later (y.step name request)

variable {y : Diary}

/-- **A diary follows the session.** -/
theorem workspace_run (requests : List (Text × Request)) (y : Diary) :
    (run requests y).workspace = (Workspace.run requests y.workspace).2 := by
  induction requests generalizing y with
  | nil => rfl
  | cons q later ih => exact ih _

theorem run_append (requests later : List (Text × Request)) (y : Diary) :
    run (requests ++ later) y = run later (run requests y) := by
  induction requests generalizing y with
  | nil => rfl
  | cons q requests ih => exact ih _

/-! ## The draws of a reader -/

section Keeps

variable {P : Desk → List Noted → Prop}

/-- What building a reader makes hold, with the draws that build it. -/
def Builds (P : Desk → List Noted → Prop) : Prop :=
  ∀ (policy : Text) (c : Cursor) (i : Nat) (options : OptionsRef) (current peek : Token),
    (Reader.prime policy c).result = .ok (current, peek) →
      P ⟨i, options, current, peek, []⟩ ((Reader.prime policy c).draws.map (⟨policy, ·⟩))

/-- What a request to a reader keeps, with the draws that it makes. -/
def Keeps (P : Desk → List Noted → Prop) : Prop :=
  ∀ (rules : Rules) (c : Cursor) (r : ReaderRequest) (d : Desk) (ds : List Noted), P d ds →
    let o := r.run rules ⟨c, d.current, d.peek, d.reports⟩
    P { d with current := o.state.current, peek := o.state.peek, reports := o.state.reports }
      (ds ++ o.draws.map (⟨rules.policy, ·⟩))

/-- What a diary says of all readers. -/
def All (P : Desk → List Noted → Prop) (y : Diary) : Prop :=
  ∀ name d, y.workspace.desk? name = some d → P d (y.drawn name)

/-- A request that neither builds a reader nor asks one. -/
theorem All.idle (h : y.All P) {name : Text} {request : Request}
    (desks : ∀ other d, (y.workspace.step name request).2.desk? other = some d →
      y.workspace.desk? other = some d)
    (drawn : (y.step name request).drawn = y.drawn) : (y.step name request).All P := by
  intro other d hd
  rw [drawn]
  exact h other d (desks other d hd)

/-- What is noted of a scanner that is held. -/
theorem noted_eq {name : Text} {request : Request} {i : Nat} {s : Scanner}
    (source : y.workspace.source? name request = some i)
    (hs : y.workspace.scanners[i]? = some s) :
    y.noted name request = (Event.draws (y.workspace.step name request).1.history).map
      (⟨y.workspace.policyOf s, ·⟩) := by
  rw [noted, source, ← Workspace.policyAt_eq hs]

/-- **A reader that is built** starts with the draws that build it. -/
theorem All.step_makeReader (h : y.All P) (builds : Builds P) (name scanner : Text)
    (options : Option Text) : (y.step name (.makeReader scanner options)).All P := by
  obtain ⟨i, s, current, peek, found, hprime⟩ | ⟨⟨f, refused⟩, same⟩ :=
    y.workspace.built_or_of_makeReader name scanner options
  · obtain ⟨hheld, hs⟩ := Workspace.scanner?_eq_some_iff.1 found
    have hstep := @Workspace.step_makeReader_of_ok _ name scanner options _ _ _ _ found hprime
    have hnoted := noted_eq (Workspace.source?_makeReader hheld hs name options) hs
    rw [hstep] at hnoted
    intro other d hd
    have hd : (y.workspace.step name (.makeReader scanner options)).2.desk? other = some d := hd
    rw [hstep] at hd
    rw [step, hstep]
    show P d (if other = name then y.noted name _ else y.drawn other)
    obtain ⟨hnew, rfl⟩ | ⟨ne, hold⟩ := Workspace.desk?_of_hold hd
    · cases hnew
      rw [if_pos rfl, hnoted]
      exact builds _ s.cursor i _ current peek hprime
    · rw [if_neg ne]
      exact h other d hold
  · refine h.idle (fun other d hd => by rwa [same] at hd) ?_
    rw [step, refused]
    rfl

/-- **A reader that is asked** goes on with the draws that it makes. -/
theorem All.step_reader (h : y.All P) (keeps : Keeps P) (name : Text) (r : ReaderRequest) :
    (y.step name (.reader r)).All P := by
  cases found : y.workspace.reader? name with
  | none =>
    have hstep : y.workspace.step name (.reader r) = (.failure (.unknown name), y.workspace) := by
      rw [Workspace.step, found]
    have hnothing : y.noted name (.reader r) = [] := by
      rw [noted, Workspace.source?, found]
      rfl
    refine h.idle (fun other d hd => ?_) (funext fun other => ?_)
    · rwa [hstep] at hd
    · show (if other = name then y.drawn other ++ y.noted name _ else y.drawn other) = _
      rw [hnothing, List.append_nil, ite_self]
  | some held =>
    obtain ⟨d₀, s⟩ := held
    obtain ⟨hdesk, hs⟩ := Workspace.reader?_eq_some_iff.1 found
    have hstep : y.workspace.step name (.reader r) = y.workspace.askReader name d₀ s r := by
      rw [Workspace.step, found]
    intro other d hd
    have hnoted := noted_eq (Workspace.source?_reader hdesk hs r) hs
    have hd : (y.workspace.step name (.reader r)).2.desk? other = some d := hd
    rw [hstep, Workspace.askReader] at hd hnoted
    show P d (if other = name then y.drawn other ++ y.noted name (.reader r) else y.drawn other)
    obtain ⟨hnew, rfl⟩ | ⟨ne, hold⟩ := Workspace.desk?_of_hold hd
    · cases hnew
      rw [if_pos rfl, hnoted]
      exact keeps (y.workspace.rulesOf s d₀) s.cursor r d₀ _ (h other d₀ hdesk)
    · rw [if_neg ne]
      exact h other d hold

/-- **What is built in and kept holds on.** No other request has anything
to do with it. -/
theorem All.step (h : y.All P) (builds : Builds P) (keeps : Keeps P) (name : Text)
    (request : Request) : (y.step name request).All P := by
  cases request with
  | makeReader scanner options => exact h.step_makeReader builds name scanner options
  | reader r => exact h.step_reader keeps name r
  | _ => exact h.idle (fun _ _ hd => (Workspace.desk?_of_step hd).resolve_right (by simp)) rfl

/-- **The induction over sessions.** -/
theorem all_run (builds : Builds P) (keeps : Keeps P) (requests : List (Text × Request)) :
    (run requests {}).All P := by
  have from_all : ∀ y : Diary, y.All P → (run requests y).All P := by
    induction requests with
    | nil => exact fun _ h => h
    | cons q later ih => exact fun y h => ih _ (h.step builds keeps q.1 q.2)
  exact from_all {} fun name d hd => by cases hd

end Keeps

/-! ## The draws from a scanner -/

theorem length_scanners_run (requests : List (Text × Request)) (y : Diary) :
    y.workspace.scanners.length ≤ (run requests y).workspace.scanners.length := by
  induction requests generalizing y with
  | nil => exact Nat.le_refl _
  | cons q later ih =>
    exact Nat.le_trans (Workspace.length_scanners_step y.workspace q.1 q.2) (ih (y.step q.1 q.2))

/-- A scanner that is not there yet has given nothing. -/
theorem given_run_eq_nil (requests : List (Text × Request)) {i : Nat}
    (h : (run requests {}).workspace.scanners.length ≤ i) : (run requests {}).given i = [] := by
  have from_nothing : ∀ y : Diary, y.given i = [] →
      (run requests y).workspace.scanners.length ≤ i → (run requests y).given i = [] := by
    clear h
    induction requests with
    | nil => exact fun _ h _ => h
    | cons q later ih =>
      intro y hy h
      refine ih _ ?_ h
      have hle := Nat.le_trans (length_scanners_run (q :: later) y) h
      show (if _ then _ else _) = _
      rw [if_neg fun source => Nat.not_lt_of_le hle (Workspace.lt_length_of_source? source), hy]
  exact from_nothing {} rfl h

/-- **A diary has the draws of a ledger.** -/
theorem given_run (i : Nat) (requests : List (Text × Request)) {y : Diary} {l : Ledger}
    (workspace : l.workspace = y.workspace)
    (draws : (y.given i).map Noted.draw = l.draws.map Prod.snd) :
    ((run requests y).given i).map Noted.draw = (Ledger.run i requests l).draws.map Prod.snd := by
  induction requests generalizing y l with
  | nil => exact draws
  | cons q later ih =>
    obtain ⟨name, request⟩ := q
    refine ih ?_ ?_
    · rw [Ledger.workspace_step, workspace]
      rfl
    · show List.map Noted.draw (if _ then _ else _) = _
      rw [Ledger.step]
      dsimp only
      rw [workspace]
      by_cases source : y.workspace.source? name request = some i
      · rw [if_pos source, if_pos source, noted, source, List.map_append, List.map_append, draws,
          List.map_map, List.map_map]
        rfl
      · rw [if_neg source, if_neg source, draws]

end Diary

end Session

end ScriptReader
