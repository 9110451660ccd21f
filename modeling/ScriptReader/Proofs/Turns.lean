import ScriptReader.Proofs.Stream
import ScriptReader.Session.Workspace

/-!
# Turns — what a request does to one scanner

A scanner that is held in a workspace is moved by four kinds of request
and by no others: one to the scanner itself, one that builds a reader on
it, one for which that is refused, and one to a reader on it.
`Workspace.turn_step` sorts every request in this way, and says what each
comes to. No reference in a workspace dangles (`Workspace.sound_run`), so
a scanner keeps its policy unless the policy is assigned to
(`Workspace.overflow_step`).
-/

namespace ScriptReader

namespace Session

namespace Workspace

variable {w : Workspace} {name other : Text} {i j : Nat} {s : Scanner} {d : Desk}

/-- The scanner that a request draws from, among those that are held. -/
def source? (w : Workspace) (name : Text) : Request → Option Nat
  | .scanner _ => (w.scanner? name).map Prod.fst
  | .makeReader scanner _ => (w.scanner? scanner).map Prod.fst
  | .reader _ => (w.reader? name).map fun found => found.1.scanner
  | _ => none

theorem desk?_hold_of_ne (w : Workspace) (h : Held) (ne : other ≠ name) :
    (w.hold name h).desk? other = w.desk? other := by
  rw [desk?, held?_hold_of_ne w h ne, desk?]

/-- What holds of no reader holds of no reader under a name either. -/
theorem desk?_of_hold {h : Held} (found : (w.hold name h).desk? other = some d) :
    h = .reader d ∧ other = name ∨ other ≠ name ∧ w.desk? other = some d := by
  by_cases ne : other = name
  · subst ne
    left
    rw [desk?, held?_hold_self] at found
    cases h <;> cases found
    exact ⟨rfl, rfl⟩
  · rw [desk?_hold_of_ne w h ne] at found
    exact .inr ⟨ne, found⟩

theorem scanners_moveScanner_self (c : Cursor) (hs : w.scanners[i]? = some s) :
    (w.moveScanner i c).scanners[i]? = some { s with cursor := c } := by
  rw [moveScanner, List.getElem?_modify_eq, hs]
  rfl

theorem scanners_moveScanner_of_ne (c : Cursor) (ne : j ≠ i) :
    (w.moveScanner j c).scanners[i]? = w.scanners[i]? := by
  rw [moveScanner, List.getElem?_modify_ne _ _ ne]

theorem scanner?_eq_some_iff :
    w.scanner? name = some (i, s) ↔ w.held? name = some (.scanner i) ∧ w.scanners[i]? = some s := by
  rw [scanner?]
  split
  · next k hk =>
    rw [hk, Option.map_eq_some_iff, Option.some.injEq, Held.scanner.injEq]
    constructor
    · rintro ⟨t, ht, heq⟩
      obtain ⟨rfl, rfl⟩ := Prod.mk.inj heq
      exact ⟨rfl, ht⟩
    · rintro ⟨rfl, ht⟩
      exact ⟨s, ht, rfl⟩
  · next hno =>
    refine iff_of_false (by simp) ?_
    rintro ⟨hheld, -⟩
    exact hno i hheld

theorem reader?_eq_some_iff :
    w.reader? name = some (d, s) ↔ w.desk? name = some d ∧ w.scanners[d.scanner]? = some s := by
  rw [reader?, Option.bind_eq_some_iff]
  constructor
  · rintro ⟨e, he, hmap⟩
    obtain ⟨t, ht, heq⟩ := Option.map_eq_some_iff.1 hmap
    obtain ⟨rfl, rfl⟩ := Prod.mk.inj heq
    exact ⟨he, ht⟩
  · rintro ⟨hd, hs⟩
    exact ⟨d, hd, by rw [hs]; rfl⟩

theorem source?_scanner (held : w.held? name = some (.scanner i)) (hs : w.scanners[i]? = some s)
    (r : ScannerRequest) : w.source? name (.scanner r) = some i := by
  rw [source?, scanner?_eq_some_iff.2 ⟨held, hs⟩]
  rfl

theorem source?_makeReader {scanner : Text} (held : w.held? scanner = some (.scanner i))
    (hs : w.scanners[i]? = some s) (name : Text) (options : Option Text) :
    w.source? name (.makeReader scanner options) = some i := by
  rw [source?, scanner?_eq_some_iff.2 ⟨held, hs⟩]
  rfl

theorem source?_reader (desk : w.desk? name = some d) (hs : w.scanners[d.scanner]? = some s)
    (r : ReaderRequest) : w.source? name (.reader r) = some d.scanner := by
  rw [source?, reader?_eq_some_iff.2 ⟨desk, hs⟩]
  rfl

/-! ## One request and one scanner -/

/-- **What a request does to a scanner**, with the answer to it and the
workspace that it leaves. -/
inductive Turn (i : Nat) (s : Scanner) (w : Workspace) :
    Text → Request → Answer → Workspace → Prop
  /-- The scanner is asked itself. -/
  | direct {name : Text} (r : ScannerRequest) (held : w.held? name = some (.scanner i)) :
      Turn i s w name (.scanner r) (.ofOutcome ((r.run (w.policyOf s) s.cursor).map .ok))
        (w.moveScanner i (r.run (w.policyOf s) s.cursor).state)
  /-- A reader is built on it. -/
  | built {name scanner : Text} {options : Option Text} {current peek : Token}
      (held : w.held? scanner = some (.scanner i))
      (ready : (Reader.prime (w.policyOf s) s.cursor).result = .ok (current, peek)) :
      Turn i s w name (.makeReader scanner options)
        (.ofOutcome ((Reader.prime (w.policyOf s) s.cursor).map fun _ => .ok .nothing))
        ((w.moveScanner i (Reader.prime (w.policyOf s) s.cursor).state).hold name
          (.reader ⟨i, w.optionsRef options, current, peek, []⟩))
  /-- None is, for a draw is refused. -/
  | unbuilt {name scanner : Text} {options : Option Text} {e : Overlong}
      (held : w.held? scanner = some (.scanner i))
      (refused : (Reader.prime (w.policyOf s) s.cursor).result = .error e) :
      Turn i s w name (.makeReader scanner options)
        (.ofOutcome ((Reader.prime (w.policyOf s) s.cursor).map fun _ => .ok .nothing))
        (w.moveScanner i (Reader.prime (w.policyOf s) s.cursor).state)
  /-- A reader on it is asked. -/
  | asked {name : Text} (r : ReaderRequest) {d : Desk}
      {o : Outcome Reader (Except Diagnostic Reply)}
      (desk : w.desk? name = some d) (on : d.scanner = i)
      (run : o = r.run (w.rulesOf s d) ⟨s.cursor, d.current, d.peek, d.reports⟩) :
      Turn i s w name (.reader r) (.ofOutcome (o.map (·.mapError .malformed)))
        ((w.moveScanner i o.state.cursor).hold name
          (.reader { d with
            current := o.state.current, peek := o.state.peek, reports := o.state.reports }))
  /-- It is left alone, and so are the readers on it, but that a name may
  come to stand for something else. -/
  | elsewhere {name : Text} {request : Request} {answer : Answer} {after : Workspace}
      (away : w.source? name request ≠ some i) (scanner : after.scanners[i]? = some s)
      (desks : ∀ name d, after.desk? name = some d → d.scanner = i → w.desk? name = some d) :
      Turn i s w name request answer after

/-- Letting a name stand for something that is no reader of a scanner
leaves the scanner alone. -/
theorem Turn.hold {request : Request} {answer : Answer} {v : Workspace} {h : Held}
    (away : w.source? name request ≠ some i) (scanner : v.scanners[i]? = some s)
    (desks : ∀ name, v.desk? name = w.desk? name) (other : ∀ d, h = .reader d → d.scanner ≠ i) :
    Turn i s w name request answer (v.hold name h) := by
  refine .elsewhere away scanner fun n d found on => ?_
  obtain ⟨rfl, -⟩ | ⟨-, found⟩ := desk?_of_hold found
  · exact absurd on (other d rfl)
  · rw [← desks]
    exact found

/-- A request that fails at once leaves every scanner alone. -/
theorem Turn.same {request : Request} {answer : Answer} (hs : w.scanners[i]? = some s)
    (away : w.source? name request ≠ some i) : Turn i s w name request answer w :=
  .elsewhere away hs fun _ _ found _ => found

theorem turn_makeReader (hs : w.scanners[i]? = some s) (name scanner : Text)
    (options : Option Text) :
    Turn i s w name (.makeReader scanner options) (w.step name (.makeReader scanner options)).1
      (w.step name (.makeReader scanner options)).2 := by
  rw [step]
  split
  · next j t ht =>
    obtain ⟨hheld, hj⟩ := scanner?_eq_some_iff.1 ht
    rw [makeReader]
    by_cases on : j = i
    · subst on
      obtain rfl : s = t := Option.some.inj (hs.symm.trans hj)
      dsimp only
      split
      · next e he => exact .unbuilt hheld he
      · next current peek hready => exact .built hheld hready
    · have away : w.source? name (.makeReader scanner options) ≠ some i := by
        rw [source?_makeReader hheld hj]
        exact fun heq => on (Option.some.inj heq)
      have left : ∀ c, (w.moveScanner j c).scanners[i]? = some s := by
        intro c
        rw [scanners_moveScanner_of_ne c on, hs]
      dsimp only
      split
      · exact .elsewhere away (left _) fun _ _ found _ => found
      · refine Turn.hold away (left _) (fun _ => rfl) ?_
        rintro d ⟨rfl⟩
        exact on
  · next hnone => exact .same hs (by rw [source?, hnone]; simp)

theorem turn_scanner (hs : w.scanners[i]? = some s) (name : Text) (r : ScannerRequest) :
    Turn i s w name (.scanner r) (w.step name (.scanner r)).1 (w.step name (.scanner r)).2 := by
  rw [step]
  split
  · next j t ht =>
    obtain ⟨hheld, hj⟩ := scanner?_eq_some_iff.1 ht
    by_cases on : j = i
    · subst on
      obtain rfl : s = t := Option.some.inj (hs.symm.trans hj)
      exact .direct r hheld
    · refine .elsewhere ?_ ((scanners_moveScanner_of_ne _ on).trans hs) fun _ _ found _ => found
      rw [source?_scanner hheld hj]
      exact fun heq => on (Option.some.inj heq)
  · next hnone => exact .same hs (by rw [source?, hnone]; simp)

theorem turn_reader (hs : w.scanners[i]? = some s) (name : Text) (r : ReaderRequest) :
    Turn i s w name (.reader r) (w.step name (.reader r)).1 (w.step name (.reader r)).2 := by
  rw [step]
  split
  · next d t ht =>
    obtain ⟨hdesk, hj⟩ := reader?_eq_some_iff.1 ht
    by_cases on : d.scanner = i
    · subst on
      obtain rfl : s = t := Option.some.inj (hs.symm.trans hj)
      exact .asked r hdesk rfl rfl
    · refine Turn.hold ?_ ((scanners_moveScanner_of_ne _ on).trans hs) (fun _ => rfl) ?_
      · rw [source?_reader hdesk hj]
        exact fun heq => on (Option.some.inj heq)
      · rintro e ⟨rfl⟩
        exact on
  · next hnone => exact .same hs (by rw [source?, hnone]; simp)

/-- **Every request is one of these to every scanner.** -/
theorem turn_step (hs : w.scanners[i]? = some s) (name : Text) (request : Request) :
    Turn i s w name request (w.step name request).1 (w.step name request).2 := by
  cases request with
  | makeOptions o =>
    rw [step, makeOptions]
    split
    · exact .same hs (by simp [source?])
    · exact Turn.hold (by simp [source?]) hs (fun _ => rfl) (by simp)
  | makeScanner source options =>
    have hlt : i < w.scanners.length := (List.getElem?_eq_some_iff.1 hs).1
    refine Turn.hold (by simp [source?]) ?_ (fun _ => rfl) (by simp)
    rw [List.getElem?_append_left hlt, hs]
  | makeFrontEnd options => exact Turn.hold (by simp [source?]) hs (fun _ => rfl) (by simp)
  | makeReader scanner options => exact turn_makeReader hs name scanner options
  | assign a =>
    rw [step]
    split
    · exact .elsewhere (by simp [source?]) hs fun _ _ found _ => found
    · exact .same hs (by simp [source?])
  | scanner r => exact turn_scanner hs name r
  | reader r => exact turn_reader hs name r
  | frontEnd r =>
    rw [step]
    split <;> exact .same hs (by simp [source?])
  | look =>
    rw [step]
    split <;> exact .same hs (by simp [source?])

/-! ## References -/

/-- **No reference dangles**: there are options under every number of
options, and a scanner under every number of a reader's. -/
structure Sound (w : Workspace) : Prop where
  held : ∀ name k, w.held? name = some (.options k) → k < w.options.length
  scanners : ∀ s ∈ w.scanners, ∀ k ∈ s.options, k < w.options.length
  desks : ∀ name d, w.desk? name = some d → d.scanner < w.scanners.length

theorem sound_empty : Sound {} where
  held := by
    intro name k h
    cases h
  scanners := by
    intro s hs
    cases hs
  desks := by
    intro name d h
    cases h

theorem Sound.lt_of_mem_optionsRef (h : w.Sound) {options : Option Text} {k : Nat}
    (hk : k ∈ w.optionsRef options) : k < w.options.length := by
  rw [optionsRef] at hk
  split at hk
  · next l hl =>
    obtain rfl : l = k := Option.some.inj hk
    obtain ⟨name, -, hheld⟩ := Option.bind_eq_some_iff.1 hl
    exact h.held name l hheld
  · cases hk

theorem Sound.hold (h : w.Sound) {x : Held} (options : ∀ k, x = .options k → k < w.options.length)
    (reader : ∀ d, x = .reader d → d.scanner < w.scanners.length) : (w.hold name x).Sound where
  held := by
    intro n k found
    by_cases ne : n = name
    · subst ne
      rw [held?_hold_self] at found
      exact options k (Option.some.inj found)
    · rw [held?_hold_of_ne w x ne] at found
      exact h.held n k found
  scanners := h.scanners
  desks := by
    intro n d found
    obtain ⟨hx, -⟩ | ⟨-, found⟩ := desk?_of_hold found
    · exact reader d hx
    · exact h.desks n d found

theorem length_scanners_moveScanner (i : Nat) (c : Cursor) (w : Workspace) :
    (w.moveScanner i c).scanners.length = w.scanners.length := List.length_modify ..

theorem Sound.moveScanner (h : w.Sound) (i : Nat) (c : Cursor) : (w.moveScanner i c).Sound where
  held := h.held
  scanners := by
    intro s hs
    obtain ⟨k, hk⟩ := List.mem_iff_getElem?.1 hs
    rw [Workspace.moveScanner, List.getElem?_modify] at hk
    obtain ⟨t, ht, rfl⟩ := Option.map_eq_some_iff.1 hk
    have hmem := h.scanners t (List.mem_of_getElem? ht)
    split <;> exact hmem
  desks := by
    intro n d found
    rw [length_scanners_moveScanner]
    exact h.desks n d found

/-- Options may be added. -/
theorem Sound.addOptions (h : w.Sound) (o : Options) :
    Sound { w with options := w.options ++ [o] } where
  held := by
    intro n k hk
    rw [List.length_append]
    exact Nat.lt_add_right _ (h.held n k hk)
  scanners := by
    intro s hs k hk
    rw [List.length_append]
    exact Nat.lt_add_right _ (h.scanners s hs k hk)
  desks := h.desks

/-- And changed. -/
theorem Sound.modifyOptions (h : w.Sound) (i : Nat) (f : Options → Options) :
    Sound { w with options := w.options.modify i f } where
  held := by
    intro n k hk
    rw [List.length_modify]
    exact h.held n k hk
  scanners := by
    intro s hs k hk
    rw [List.length_modify]
    exact h.scanners s hs k hk
  desks := h.desks

/-- And so may scanners be added, with options under some name. -/
theorem Sound.addScanner (h : w.Sound) (c : Cursor) (options : Option Text) :
    Sound { w with scanners := w.scanners ++ [⟨c, w.optionsRef options⟩] } where
  held := h.held
  scanners := by
    intro s hs k hk
    rcases List.mem_append.1 hs with hs | hs
    · exact h.scanners s hs k hk
    · obtain rfl := List.mem_singleton.1 hs
      exact h.lt_of_mem_optionsRef hk
  desks := by
    intro n d found
    rw [List.length_append]
    exact Nat.lt_add_right _ (h.desks n d found)

theorem sound_step (h : w.Sound) (name : Text) (request : Request) :
    (w.step name request).2.Sound := by
  cases request with
  | makeOptions o =>
    rw [step, makeOptions]
    split
    · exact h
    · refine (h.addOptions _).hold ?_ (by simp)
      rintro k ⟨rfl⟩
      simp
  | makeScanner source options => exact (h.addScanner _ options).hold (by simp) (by simp)
  | makeFrontEnd options => exact h.hold (by simp) (by simp)
  | makeReader scanner options =>
    rw [step]
    split
    · next i s hs =>
      obtain ⟨-, hi⟩ := scanner?_eq_some_iff.1 hs
      have hlt : i < w.scanners.length := (List.getElem?_eq_some_iff.1 hi).1
      rw [makeReader]
      dsimp only
      split
      · exact h.moveScanner _ _
      · refine (h.moveScanner _ _).hold (by simp) ?_
        rintro d ⟨rfl⟩
        rw [length_scanners_moveScanner]
        exact hlt
    · exact h
  | assign a =>
    rw [step]
    split
    · exact h.modifyOptions _ _
    · exact h
  | scanner r =>
    rw [step]
    split
    · exact h.moveScanner _ _
    · exact h
  | reader r =>
    rw [step]
    split
    · next d s hs =>
      obtain ⟨hdesk, -⟩ := reader?_eq_some_iff.1 hs
      refine (h.moveScanner _ _).hold (by simp) ?_
      rintro e ⟨rfl⟩
      rw [length_scanners_moveScanner]
      exact h.desks name d hdesk
    · exact h
  | frontEnd r =>
    rw [step]
    split <;> exact h
  | look =>
    rw [step]
    split <;> exact h

/-- **No reference dangles in a session.** -/
theorem sound_run (h : w.Sound) (requests : List (Text × Request)) : (run requests w).2.Sound := by
  induction requests generalizing w with
  | nil => exact h
  | cons q later ih => exact ih (sound_step h q.1 q.2)

/-- New options are no old ones. -/
theorem optionsOf_addOptions {ref : OptionsRef} (valid : ∀ k ∈ ref, k < w.options.length)
    (o : Options) : optionsOf { w with options := w.options ++ [o] } ref = w.optionsOf ref := by
  cases ref with
  | none => rfl
  | some k =>
    rw [optionsOf, optionsOf, List.getD_eq_getElem?_getD, List.getD_eq_getElem?_getD,
      List.getElem?_append_left (valid k rfl)]

/-- Options that are assigned to keep a policy that the assignment keeps. -/
theorem overflow_modifyOptions (w : Workspace) (ref : OptionsRef) (i : Nat) {f : Options → Options}
    (keeps : ∀ o, (f o).overflow = o.overflow) :
    (optionsOf { w with options := w.options.modify i f } ref).overflow =
      (w.optionsOf ref).overflow := by
  cases ref with
  | none => rfl
  | some k =>
    rw [optionsOf, optionsOf, List.getD_eq_getElem?_getD, List.getD_eq_getElem?_getD,
      List.getElem?_modify]
    cases w.options[k]? with
    | none => rfl
    | some o =>
      show (if i = k then f o else o).overflow = o.overflow
      split
      · exact keeps o
      · rfl

theorem options_makeReader (w : Workspace) (name : Text) (i : Nat) (s : Scanner)
    (options : OptionsRef) : (w.makeReader name i s options).2.options = w.options := by
  rw [makeReader]
  dsimp only
  split <;> rfl

/-- **A policy stays** unless one is assigned. -/
theorem overflow_step {ref : OptionsRef} (valid : ∀ k ∈ ref, k < w.options.length) (name : Text)
    {request : Request} (steady : ∀ policy, request ≠ .assign (.overflow policy)) :
    ((w.step name request).2.optionsOf ref).overflow = (w.optionsOf ref).overflow := by
  -- The other fields of a workspace play no part in it.
  have same : ∀ {v : Workspace}, v.options = w.options →
      (v.optionsOf ref).overflow = (w.optionsOf ref).overflow := by
    intro v hv
    cases ref with
    | none => rfl
    | some k => rw [optionsOf, hv, optionsOf]
  cases request with
  | makeOptions o =>
    rw [step, makeOptions]
    split
    · rfl
    · exact congrArg Options.overflow (optionsOf_addOptions valid _)
  | assign a =>
    rw [step]
    split
    · refine overflow_modifyOptions w ref _ fun o => ?_
      cases a with
      | overflow policy => exact absurd rfl (steady policy)
      | policies choices => rfl
      | reportStray flag => rfl
    · rfl
  | makeScanner source options => exact same rfl
  | makeFrontEnd options => exact same rfl
  | makeReader scanner options =>
    rw [step]
    split
    · exact same (options_makeReader ..)
    · rfl
  | scanner r =>
    rw [step]
    split <;> exact same rfl
  | reader r =>
    rw [step]
    split <;> exact same rfl
  | frontEnd r =>
    rw [step]
    split <;> rfl
  | look =>
    rw [step]
    split <;> rfl

end Workspace

end Session

end ScriptReader
