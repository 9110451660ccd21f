import ScriptReader.Record

/-!
# Outcomes — what a step of reading comes to

A step ends with a value or with the refusal of a run of digits. Either
way it leaves a state behind and a history: what was drawn from the
scanner and what was written to the log, in the order in which it
happened. `Outcome.andThen` puts two steps together, and the second
happens only if the first was not refused.
-/

namespace ScriptReader

/-- What asking the scanner once comes to. -/
inductive Draw where
  | token (t : Token)
  | refused (o : Overlong)
deriving DecidableEq

/-- What happens in a step. -/
inductive Event where
  | drew (d : Draw)
  | wrote (r : Record)
deriving DecidableEq

namespace Event

/-- The draws of a history, in order. -/
def draws (history : List Event) : List Draw :=
  history.filterMap fun
    | drew d => some d
    | wrote _ => none

/-- The records of a history, in order. -/
def records (history : List Event) : List Record :=
  history.filterMap fun
    | drew _ => none
    | wrote r => some r

end Event

/-- What a step comes to: its result, the state it leaves behind, and what
happened. -/
structure Outcome (σ α : Type) where
  result : Except Overlong α
  state : σ
  history : List Event

namespace Outcome

variable {σ τ α β : Type}

/-- A step in which nothing happens. -/
def done (a : α) (s : σ) : Outcome σ α := ⟨.ok a, s, []⟩

/-- A step that writes a record. -/
def write (r : Record) (s : σ) : Outcome σ Unit := ⟨.ok (), s, [.wrote r]⟩

/-- A step, and after it the next one, which starts from the value and the
state that the first one ends with. -/
def andThen (o : Outcome σ α) (next : α → σ → Outcome σ β) : Outcome σ β :=
  match o.result with
  | .error e => ⟨.error e, o.state, o.history⟩
  | .ok a =>
    let p := next a o.state
    ⟨p.result, p.state, o.history ++ p.history⟩

/-- The same step with another value. -/
def map (f : α → β) (o : Outcome σ α) : Outcome σ β :=
  ⟨match o.result with
    | .error e => .error e
    | .ok a => .ok (f a), o.state, o.history⟩

/-- The same step seen from another state. -/
def mapState (f : σ → τ) (o : Outcome σ α) : Outcome τ α := ⟨o.result, f o.state, o.history⟩

/-- The draws of a step, in order. -/
def draws (o : Outcome σ α) : List Draw := Event.draws o.history

/-- The records of a step, in order. -/
def records (o : Outcome σ α) : List Record := Event.records o.history

@[simp] theorem state_map (f : α → β) (o : Outcome σ α) : (o.map f).state = o.state := rfl

@[simp] theorem draws_map (f : α → β) (o : Outcome σ α) : (o.map f).draws = o.draws := rfl

@[simp] theorem records_map (f : α → β) (o : Outcome σ α) : (o.map f).records = o.records := rfl

@[simp] theorem draws_write (r : Record) (s : σ) : (write r s).draws = [] := rfl

@[simp] theorem records_write (r : Record) (s : σ) : (write r s).records = [r] := rfl

@[simp] theorem draws_done (a : α) (s : σ) : (done a s).draws = [] := rfl

@[simp] theorem records_done (a : α) (s : σ) : (done a s).records = [] := rfl

theorem andThen_of_error {o : Outcome σ α} {e : Overlong} (h : o.result = .error e)
    (next : α → σ → Outcome σ β) : o.andThen next = ⟨.error e, o.state, o.history⟩ := by
  simp [andThen, h]

theorem andThen_of_ok {o : Outcome σ α} {a : α} (h : o.result = .ok a)
    (next : α → σ → Outcome σ β) :
    o.andThen next =
      ⟨(next a o.state).result, (next a o.state).state, o.history ++ (next a o.state).history⟩ := by
  simp [andThen, h]

/-- **A step that was not refused hands its draws on**: they come before
those of the step after it. -/
theorem draws_andThen_of_ok {o : Outcome σ α} {a : α} (h : o.result = .ok a)
    (next : α → σ → Outcome σ β) :
    (o.andThen next).draws = o.draws ++ (next a o.state).draws := by
  simp [andThen_of_ok h, draws, Event.draws]

theorem records_andThen_of_ok {o : Outcome σ α} {a : α} (h : o.result = .ok a)
    (next : α → σ → Outcome σ β) :
    (o.andThen next).records = o.records ++ (next a o.state).records := by
  simp [andThen_of_ok h, records, Event.records]

end Outcome

end ScriptReader
