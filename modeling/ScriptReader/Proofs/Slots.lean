import ScriptReader.Proofs.Diary

/-!
# Slots — the two tokens that a reader looks at

A reader gives its current token up before it draws the next one. So what
it looks at is told by what it has drawn itself, whatever has been asked
of it, by whatever other consumers its scanner is used meanwhile, and
however often it was refused: the second token is the last that it drew,
and the first is the one drawn before that, or the second token once more
after a refusal. `Slots` says so, and `slots_run` that it holds throughout
every session. A reader that has its scanner for itself, and was not
refused, looks at two neighbours in the source.
-/

namespace ScriptReader

/-- **What a reader looks at**, by its draws. -/
structure Slots (ds : List Draw) (current peek : Token) : Prop where
  /-- The second token is the last that was drawn. -/
  peek_last : [peek] <:+ Draw.tokens ds
  /-- The first one was drawn before it, if the latest draw was
  answered. -/
  of_token : ∀ t, ds.getLast? = some (.token t) → [current, peek] <:+ Draw.tokens ds
  /-- If it was refused, then the first is the second. -/
  of_refused : ∀ e, ds.getLast? = some (.refused e) → current = peek
  /-- Two tokens were drawn at the least. -/
  primed : 2 ≤ (Draw.tokens ds).length

namespace Reader

variable {policy : Text} {r : Reader} {ds : List Draw} {α : Type} {o : Outcome Reader α}

theorem slots_of_prime {s : Cursor} {current peek : Token}
    (h : (prime policy s).result = .ok (current, peek)) :
    Slots (prime policy s).draws current peek := by
  rw [draws_prime_of_ok h]
  exact ⟨List.suffix_append [current] _, fun _ _ => List.suffix_refl _, nofun, Nat.le_refl _⟩

theorem slots_move (slots : Slots ds r.current r.peek) (m : Move) :
    Slots (ds ++ (r.move policy m).draws) (r.move policy m).state.current
      (r.move policy m).state.peek := by
  cases m with
  | advance =>
    rw [move, draws_advance]
    cases hr : (r.cursor.next policy).result with
    | error e =>
      -- No token is drawn, and the second one is all that is left.
      have htokens : Draw.tokens (ds ++ [.refused e]) = Draw.tokens ds := by
        rw [Draw.tokens_append]
        exact List.append_nil _
      rw [advance_of_error hr]
      refine ⟨?_, ?_, fun _ _ => rfl, ?_⟩
      · exact htokens ▸ slots.peek_last
      · intro t ht
        rw [List.getLast?_concat] at ht
        cases ht
      · exact htokens ▸ slots.primed
    | ok t =>
      have htokens : Draw.tokens (ds ++ [.token t]) = Draw.tokens ds ++ [t] :=
        Draw.tokens_append ..
      rw [advance_of_ok hr]
      refine ⟨?_, ?_, ?_, ?_⟩
      · exact htokens ▸ List.suffix_append ..
      · intro _ _
        obtain ⟨front, hfront⟩ := slots.peek_last
        exact ⟨front, by rw [Draw.ofAnswer, htokens, ← hfront, List.append_assoc]; rfl⟩
      · intro e he
        rw [List.getLast?_concat] at he
        cases he
      · rw [Draw.ofAnswer, htokens, List.length_append]
        exact Nat.le_add_right_of_le slots.primed
  | write record => exact (List.append_nil ds).symm ▸ slots
  | report d => exact (List.append_nil ds).symm ▸ slots

/-- **Every operation keeps what a reader looks at told by its draws.** -/
theorem Made.slots (made : Made policy r o) (slots : Slots ds r.current r.peek) :
    Slots (ds ++ o.draws) o.state.current o.state.peek := by
  have keeps := made.keeps
    (P := fun s h => Slots (ds ++ Event.draws h) s.current s.peek)
    (fun {s h m} _ slots => by
      rw [Event.draws_append, ← List.append_assoc]
      exact slots_move slots m)
    (h := []) ((List.append_nil ds).symm ▸ slots)
  exact keeps

end Reader

/-- **A stream that is not refused** is the tokens ahead, and then the
end. -/
theorem Cursor.getElem?_stream {policy : Text} {s : Cursor} {n : Nat} {ts : List Token}
    (h : s.stream policy n = ts.map .token) {i : Nat} (lt : i < ts.length) :
    ts[i]? = some ((s.tokens policy).getD i .eof) := by
  induction n generalizing s ts i with
  | zero =>
    obtain rfl := List.map_eq_nil_iff.1 h.symm
    cases lt
  | succ n ih =>
    rw [stream_succ] at h
    cases ts with
    | nil => cases lt
    | cons t ts =>
      obtain ⟨hfirst, hlater⟩ := List.cons.inj h
      have hnext : (s.next policy).result = .ok t := by
        cases hr : (s.next policy).result with
        | error e =>
          rw [hr] at hfirst
          cases hfirst
        | ok u =>
          rw [hr] at hfirst
          cases hfirst
          rfl
      obtain ⟨-, htokens⟩ | ⟨rfl, hend, htokens⟩ := tokens_of_next_ok hnext
      · rw [htokens]
        cases i with
        | zero => rfl
        | succ i => exact ih hlater (Nat.lt_of_succ_lt_succ lt)
      · -- Behind the end there are more ends.
        have hbehind : (s.next policy).state.tokens policy = [] :=
          tokens_of_atEnd policy (atEnd_next hend)
        rw [htokens]
        cases i with
        | zero => rfl
        | succ i =>
          have hrest := ih hlater (Nat.lt_of_succ_lt_succ lt)
          rw [hbehind] at hrest
          exact hrest

/-- Draws that are all answered are their tokens. -/
theorem Draw.eq_map_tokens {ds : List Draw} (h : ∀ d ∈ ds, d.token?.isSome) :
    ds = (Draw.tokens ds).map .token := by
  induction ds with
  | nil => rfl
  | cons d ds ih =>
    obtain ⟨hd, hds⟩ := List.forall_mem_cons.1 h
    cases d with
    | token t => exact congrArg (.token t :: ·) (ih hds)
    | refused e => cases hd

/-- **A reader that has its scanner for itself** and was not refused looks
at two neighbours. -/
theorem Slots.neighbours {policy : Text} {s : Cursor} {ds : List Draw} {current peek : Token}
    (slots : Slots ds current peek) (own : ds = s.stream policy ds.length)
    (answered : ∀ d ∈ ds, d.token?.isSome) :
    ∃ k, ds.length = k + 2 ∧ current = (s.tokens policy).getD k .eof ∧
      peek = (s.tokens policy).getD (k + 1) .eof := by
  have htokens := Draw.eq_map_tokens answered
  have hlength : (Draw.tokens ds).length = ds.length := by
    conv_rhs => rw [htokens, List.length_map]
  have hstream : s.stream policy ds.length = (Draw.tokens ds).map .token :=
    own.symm.trans htokens
  have hlast : ∃ t, ds.getLast? = some (.token t) := by
    have hne : Draw.tokens ds ≠ [] :=
      List.length_pos_iff.1 (Nat.lt_of_lt_of_le Nat.two_pos slots.primed)
    rw [htokens, List.getLast?_map, List.getLast?_eq_some_getLast hne]
    exact ⟨_, rfl⟩
  obtain ⟨t, ht⟩ := hlast
  obtain ⟨front, hfront⟩ := slots.of_token t ht
  have hfrontLength : ds.length = front.length + 2 := by
    rw [← hlength, ← hfront, List.length_append]
    rfl
  have at_index : ∀ i, i < ds.length →
      (front ++ [current, peek])[i]? = some ((s.tokens policy).getD i .eof) := by
    intro i hi
    rw [hfront]
    exact Cursor.getElem?_stream hstream (hlength.symm ▸ hi)
  refine ⟨front.length, hfrontLength, ?_, ?_⟩
  · have hcurrent := at_index front.length (by omega)
    rw [List.getElem?_append_right (Nat.le_refl _), Nat.sub_self] at hcurrent
    exact Option.some.inj hcurrent
  · have hpeek := at_index (front.length + 1) (by omega)
    rw [List.getElem?_append_right (Nat.le_add_right _ _), Nat.add_sub_cancel_left] at hpeek
    exact Option.some.inj hpeek

namespace Session

/-- The draws of a reader, their policies left out. -/
theorem Noted.map_draw (policy : Text) (ds : List Draw) :
    (ds.map (Noted.mk policy)).map Noted.draw = ds := by
  rw [List.map_map]
  exact List.map_id _

namespace Diary

theorem all_slots (requests : List (Text × Request)) :
    (run requests {}).All fun d ns => Slots (ns.map Noted.draw) d.current d.peek := by
  refine all_run ?_ ?_ requests
  · intro policy c i options current peek ready
    rw [Noted.map_draw]
    exact Reader.slots_of_prime ready
  · intro rules c r d ns slots o
    rw [List.map_append, Noted.map_draw]
    exact (Reader.made_run rules r).slots slots

/-- **What a scanner has given** is a stretch of its stream, if nothing is
assigned to a policy. -/
theorem given_eq_stream (earlier : List (Text × Request)) (name source : Text)
    (options : Option Text) {later : List (Text × Request)}
    (steady : ∀ q ∈ later, ∀ p, q.2 ≠ .assign (.overflow p)) :
    let w := (Workspace.run earlier {}).2
    let given := (run (earlier ++ (name, .makeScanner source options) :: later) {}).given
      w.scanners.length
    given.map Noted.draw =
      (Cursor.ofText source).stream (w.optionsOf (w.optionsRef options)).overflow given.length := by
  intro w given
  have sound := Workspace.sound_run Workspace.sound_empty earlier
  have fair := Ledger.fair_run (Ledger.fair_start sound name source options) steady
  have hworkspace : (run earlier {}).workspace = w := workspace_run earlier {}
  have hnone : (run earlier {}).given w.scanners.length = [] :=
    given_run_eq_nil earlier (Nat.le_of_eq (by rw [hworkspace]))
  -- The ledger and the diary set out from the same workspace, with nothing drawn.
  have hgiven := given_run w.scanners.length later
    (y := (run earlier {}).step name (.makeScanner source options))
    (l := { workspace := (w.step name (.makeScanner source options)).2 })
    (by rw [← hworkspace]; rfl) (by exact congrArg (List.map Noted.draw) hnone)
  have hrun : given = (run later ((run earlier {}).step name (.makeScanner source options))).given
      w.scanners.length := by
    show (run (earlier ++ _) {}).given _ = _
    rw [run_append]
    rfl
  rw [← hrun] at hgiven
  have hlength := congrArg List.length hgiven
  rw [List.length_map, List.length_map] at hlength
  rw [hgiven, hlength]
  exact fair.draws_eq

end Diary

/-- **What a reader looks at is told by its draws**, at any time in any
session. -/
theorem slots_run (requests : List (Text × Request)) :
    let y := Diary.run requests {}
    y.workspace = (Workspace.run requests {}).2 ∧
      ∀ name d, y.workspace.desk? name = some d →
        Slots ((y.drawn name).map Noted.draw) d.current d.peek ∧
        ∀ earlier scanner source options later,
          requests = earlier ++ (scanner, .makeScanner source options) :: later →
          (∀ q ∈ later, ∀ p, q.2 ≠ .assign (.overflow p)) →
          d.scanner = (Workspace.run earlier {}).2.scanners.length →
          y.given d.scanner = y.drawn name → (∀ n ∈ y.drawn name, n.draw.token?.isSome) →
          let w := (Workspace.run earlier {}).2
          let ts := (Cursor.ofText source).tokens (w.optionsOf (w.optionsRef options)).overflow
          ∃ k, (y.drawn name).length = k + 2 ∧ d.current = ts.getD k .eof ∧
            d.peek = ts.getD (k + 1) .eof := by
  intro y
  refine ⟨Diary.workspace_run requests {}, fun name d hd => ?_⟩
  have slots := Diary.all_slots requests name d hd
  refine ⟨slots, ?_⟩
  rintro earlier scanner source options later rfl steady on own answered
  have hstream := Diary.given_eq_stream earlier scanner source options steady
  dsimp only at hstream
  rw [← on, own] at hstream
  have neighbours := slots.neighbours (hstream.trans (by rw [List.length_map]))
    (by simpa using answered)
  rwa [List.length_map] at neighbours

/-- A reader that was advanced once looks at the second and at the third
of four words. -/
theorem slots_run_advanced :
    let later : List (Text × Request) := [("p", .makeReader "s" none), ("p", .reader .advance)]
    let y := Diary.run (("s", .makeScanner "a b c d" none) :: later) {}
    (∀ q ∈ later, ∀ p, q.2 ≠ .assign (.overflow p)) ∧
      ∃ d, y.workspace.desk? "p" = some d ∧ y.given d.scanner = y.drawn "p" ∧
        (∀ n ∈ y.drawn "p", n.draw.token?.isSome) ∧
        Slots ((y.drawn "p").map Noted.draw) d.current d.peek ∧
        d.current.raw = "b" ∧ d.peek.raw = "c" ∧
        ∃ k, (y.drawn "p").length = k + 2 ∧
          d.current = ((Cursor.ofText "a b c d").tokens "illegal").getD k .eof := by
  intro later y
  have steady : ∀ q ∈ later, ∀ p, q.2 ≠ .assign (.overflow p) := by simp [later]
  have desk : y.workspace.desk? "p" = some ⟨0, none, ⟨.identifier, some 2, "b", none⟩,
      ⟨.identifier, some 4, "c", none⟩, []⟩ := by decide +kernel
  have own : y.given 0 = y.drawn "p" := by decide +kernel
  have answered : ∀ n ∈ y.drawn "p", n.draw.token?.isSome := by decide +kernel
  obtain ⟨-, slots⟩ := slots_run (("s", .makeScanner "a b c d" none) :: later)
  obtain ⟨looks, alone⟩ := slots "p" _ desk
  obtain ⟨k, hk, hcurrent, -⟩ := alone [] "s" "a b c d" none later rfl steady rfl own answered
  exact ⟨steady, _, desk, own, answered, looks, rfl, rfl, k, hk, hcurrent⟩

end Session

end ScriptReader
