import ScriptReader.Proofs.Replacement
import ScriptReader.Proofs.Stream

/-!
# Sight — what a reader has seen

A reader knows of no other tokens than it has drawn. `Reader.Within` says
of a reader that the tokens in sight and those that it complains of are
among some, and whatever is asked of it, they are still among these and
the ones drawn meanwhile (`Reader.Made.within`). What it answers with is
made of such tokens too (`Reader.from_run`).
-/

namespace ScriptReader

/-- The token of a draw, if there is one. -/
def Draw.token? : Draw → Option Token
  | token t => some t
  | refused _ => none

/-- The tokens of some draws. -/
def Draw.tokens (ds : List Draw) : List Token := ds.filterMap Draw.token?

theorem Draw.tokens_append (ds es : List Draw) : tokens (ds ++ es) = tokens ds ++ tokens es :=
  List.filterMap_append

theorem Draw.tokens_map_token (ts : List Token) : tokens (ts.map .token) = ts := by
  rw [tokens, List.filterMap_map]
  exact List.filterMap_some

/-- A report on one of some tokens. -/
def Diagnostic.About (seen : List Token) (d : Diagnostic) : Prop :=
  ∃ t ∈ seen, ∃ needed, d = .unexpected t needed

namespace Session

/-- **A reply that is made of some tokens.** -/
inductive Reply.From (seen : List Token) : Reply → Prop
  | nothing : From seen .nothing
  | token {t : Token} (mem : t ∈ seen) : From seen (.token t)
  | tokens {ts : List Token} (mem : ∀ t ∈ ts, t ∈ seen) : From seen (.tokens ts)
  | noNode : From seen (.node none)
  | statement {s : Statement} (mem : ∀ t ∈ s.tokens, t ∈ seen) :
      From seen (.node (some s.toNode))
  | program {p : Program} (mem : ∀ s ∈ p.statements, ∀ t ∈ s.tokens, t ∈ seen) :
      From seen (.node (some p.toNode))
  | reports {ds : List Diagnostic} (about : ∀ d ∈ ds, d.About seen) : From seen (.reports ds)

end Session

namespace Outcome

variable {σ α β : Type} {o : Outcome σ α} {seen : List Token}

/-- The tokens that a step draws. -/
def delivered (o : Outcome σ α) : List Token := Draw.tokens o.draws

theorem delivered_andThen_of_ok {a : α} (h : o.result = .ok a) (next : α → σ → Outcome σ β) :
    (o.andThen next).delivered = o.delivered ++ (next a o.state).delivered := by
  rw [delivered, draws_andThen_of_ok h, Draw.tokens_append]
  rfl

/-- **A step whose value is made of some tokens**, or of those that it
draws. -/
def Yields (seen : List Token) (tokens : α → List Token) (o : Outcome σ α) : Prop :=
  ∀ a, o.result = .ok a → ∀ t ∈ tokens a, t ∈ seen ++ o.delivered

theorem Yields.andThen {tokens : β → List Token} {next : α → σ → Outcome σ β}
    (later : ∀ a, o.result = .ok a → (next a o.state).Yields (seen ++ o.delivered) tokens) :
    (o.andThen next).Yields seen tokens := by
  intro b hb t ht
  obtain ⟨a, hr, hrest⟩ := exists_of_andThen_ok hb
  rw [delivered_andThen_of_ok hr, ← List.append_assoc]
  exact later a hr b hrest t ht

/-- A value that is put together from what was seen before. -/
theorem yields_map {tokens : β → List Token} {f : α → β}
    (known : ∀ a, o.result = .ok a → ∀ t ∈ tokens (f a), t ∈ seen ++ o.delivered) :
    (o.map f).Yields seen tokens := by
  intro b hb t ht
  obtain ⟨a, ha, rfl⟩ := result_map_eq_ok_iff.1 hb
  exact known a ha t ht

end Outcome

namespace Reader

variable {policy : Text} {r : Reader} {α : Type} {o : Outcome Reader α} {seen more : List Token}

/-- **A reader that has seen no tokens but some.** -/
structure Within (seen : List Token) (r : Reader) : Prop where
  current : r.current ∈ seen
  peek : r.peek ∈ seen
  reports : ∀ d ∈ r.reports, d.About seen

theorem Within.mono (h : r.Within seen) (sub : seen ⊆ more) : r.Within more where
  current := sub h.current
  peek := sub h.peek
  reports := by
    intro d hd
    obtain ⟨t, ht, needed, rfl⟩ := h.reports d hd
    exact ⟨t, sub ht, needed, rfl⟩

theorem Within.move (policy : Text) (h : r.Within seen) {m : Move} (proper : m.Proper r) :
    (r.move policy m).state.Within (seen ++ (r.move policy m).delivered) := by
  cases m with
  | advance =>
    rw [Reader.move, Outcome.delivered, draws_advance]
    cases hr : (r.cursor.next policy).result with
    | error e =>
      rw [advance_of_error hr]
      exact (⟨h.peek, h.peek, h.reports⟩ : Within seen ⟨_, r.peek, r.peek, r.reports⟩).mono
        (List.subset_append_left _ _)
    | ok t =>
      rw [advance_of_ok hr]
      have behind := h.mono (List.subset_append_left seen [t])
      exact ⟨behind.peek, List.mem_append_right _ (List.mem_singleton_self t), behind.reports⟩
  | write record => exact h.mono (List.subset_append_left _ _)
  | report d =>
    have reported : (Reader.mk r.cursor r.current r.peek (r.reports ++ [d])).Within seen := by
      refine ⟨h.current, h.peek, fun e he => ?_⟩
      rcases List.mem_append.1 he with he | he
      · exact h.reports e he
      · obtain rfl := List.mem_singleton.1 he
        obtain ⟨t, needed, rfl | rfl, rfl⟩ := proper
        · exact ⟨_, h.current, needed, rfl⟩
        · exact ⟨_, h.peek, needed, rfl⟩
    exact reported.mono (List.subset_append_left _ _)

/-- **An operation shows a reader no tokens but those that it draws.** -/
theorem Made.within (made : Made policy r o) (h : r.Within seen) :
    o.state.Within (seen ++ o.delivered) := by
  have keeps := made.keeps
    (P := fun s history => s.Within (seen ++ Draw.tokens (Event.draws history)))
    (fun proper within => by
      rw [Event.draws_append, Draw.tokens_append, ← List.append_assoc]
      exact within.move policy proper)
    (h := []) (h.mono (List.subset_append_left _ _))
  exact keeps

theorem Within.advance (policy : Text) (h : r.Within seen) :
    (r.advance policy).state.Within (seen ++ (r.advance policy).delivered) :=
  made_advance.within h

theorem yields_letStatement (h : r.Within seen) :
    (r.letStatement policy).Yields seen fun found => match found with
      | .ok s => s.tokens
      | .error _ => [] := by
  unfold letStatement
  split
  · refine Outcome.Yields.andThen fun _ _ => ?_
    have named := h.advance policy
    split
    · refine Outcome.Yields.andThen fun _ _ => Outcome.yields_map fun _ _ t ht => ?_
      have assigned := named.advance policy
      refine List.mem_append_left _ ?_
      simp only [Statement.tokens, List.mem_cons, List.not_mem_nil, or_false] at ht
      obtain rfl | rfl | rfl := ht
      · exact List.mem_append_left _ (List.mem_append_left _ h.current)
      · exact List.mem_append_left _ named.current
      · exact assigned.peek
    · intro found hfound t ht
      obtain rfl := Except.ok.inj hfound
      cases ht
  · intro found hfound t ht
    obtain rfl := Except.ok.inj hfound
    cases ht

theorem yields_returnStatement (h : r.Within seen) :
    (r.returnStatement policy).Yields seen Statement.tokens := by
  refine Outcome.Yields.andThen fun _ _ => Outcome.yields_map fun _ _ t ht => ?_
  have started := h.advance policy
  refine List.mem_append_left _ ?_
  simp only [Statement.tokens, List.mem_cons, List.not_mem_nil, or_false] at ht
  obtain rfl | rfl := ht
  · exact List.mem_append_left _ h.current
  · exact started.current

theorem yields_statement (rules : Rules) (h : r.Within seen) :
    (r.statement rules).Yields seen fun found => found.toList.flatMap Statement.tokens := by
  have nothing : ∀ (o : Outcome Reader (Option Statement)), (∀ a, o.result = .ok a → a = none) →
      o.Yields seen fun found => found.toList.flatMap Statement.tokens := by
    intro o none_read a ha t ht
    obtain rfl := none_read a ha
    cases ht
  unfold statement
  split
  · intro found hfound t ht
    obtain ⟨read, hr, hrest⟩ := Outcome.exists_of_andThen_ok hfound
    rw [Outcome.delivered_andThen_of_ok hr, ← List.append_assoc]
    cases read with
    | ok s =>
      obtain rfl := Except.ok.inj hrest
      refine List.mem_append_left _ (yields_letStatement h _ hr t ?_)
      simpa using ht
    | error d =>
      obtain rfl := Except.ok.inj hrest
      cases ht
  · refine Outcome.yields_map fun s hs t ht => yields_returnStatement h s hs t ?_
    simpa using ht
  · exact nothing _ fun a ha => (Except.ok.inj ha).symm
  · split
    · exact nothing _ fun a ha => (Except.ok.inj ha).symm
    · exact nothing _ fun a ha => (Except.ok.inj ha).symm

theorem yields_statements (rules : Rules) :
    ∀ seen, r.Within seen →
      (r.statements rules).Yields seen fun found => found.flatMap Statement.tokens := by
  fun_induction statements rules r with
  | case1 r =>
    intro seen h found hfound t ht
    obtain rfl := Except.ok.inj hfound
    cases ht
  | case2 r heof o ih =>
    intro seen h
    have read := (made_statement rules).within h
    have moved := read.advance rules.policy
    refine Outcome.Yields.andThen fun first hfirst => Outcome.Yields.andThen fun _ _ =>
      Outcome.yields_map fun later hlater t ht => ?_
    rw [List.flatMap_append] at ht
    rcases List.mem_append.1 ht with ht | ht
    · -- What was read first is made of what had been seen by then.
      have hseen := yields_statement rules h first hfirst t ht
      exact List.mem_append_left _ (List.mem_append_left _ hseen)
    · exact ih _ moved later hlater t ht

theorem yields_program (rules : Rules) (h : r.Within seen) :
    (r.program rules).Yields seen fun p => p.statements.flatMap Statement.tokens := by
  refine Outcome.Yields.andThen fun found hfound => Outcome.yields_map fun _ _ t ht => ?_
  exact List.mem_append_left _ (yields_statements rules seen h found hfound t ht)

/-- **What a reader answers with is made of what it has seen.** -/
theorem from_run (rules : Rules) (q : Session.ReaderRequest) (h : r.Within seen)
    {answer : Except Diagnostic Session.Reply} (hr : (q.run rules r).result = .ok answer) :
    match answer with
    | .ok reply => reply.From (seen ++ (q.run rules r).delivered)
    | .error d => d.About (seen ++ (q.run rules r).delivered) := by
  cases q with
  | advance =>
    obtain ⟨_, -, rfl⟩ := Outcome.result_map_eq_ok_iff.1 hr
    exact .nothing
  | skipToSemicolon =>
    obtain ⟨_, -, rfl⟩ := Outcome.result_map_eq_ok_iff.1 hr
    exact .nothing
  | statement =>
    obtain ⟨found, hfound, rfl⟩ := Outcome.result_map_eq_ok_iff.1 hr
    have seen := yields_statement rules h found hfound
    cases found with
    | none => exact .noNode
    | some s => exact .statement fun t ht => seen t (by simpa using ht)
  | letStatement =>
    obtain ⟨found, hfound, rfl⟩ := Outcome.result_map_eq_ok_iff.1 hr
    cases found with
    | ok s => exact .statement (yields_letStatement h _ hfound)
    | error d =>
      obtain ⟨needed, hd⟩ := diagnostic_of_letStatement hfound
      exact ⟨_, (made_letStatement.within h).peek, needed, hd⟩
  | returnStatement =>
    obtain ⟨s, hs, rfl⟩ := Outcome.result_map_eq_ok_iff.1 hr
    exact .statement (yields_returnStatement h s hs)
  | program =>
    obtain ⟨p, hp, rfl⟩ := Outcome.result_map_eq_ok_iff.1 hr
    have seen := yields_program rules h p hp
    exact .program fun s hs t ht => seen t (List.mem_flatMap.2 ⟨s, hs, ht⟩)
  | reports =>
    obtain rfl := Except.ok.inj hr
    exact .reports (h.mono (List.subset_append_left _ _)).reports
  | clearReports =>
    obtain rfl := Except.ok.inj hr
    exact .nothing

end Reader

end ScriptReader
