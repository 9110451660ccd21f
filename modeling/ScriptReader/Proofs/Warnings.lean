import ScriptReader.Proofs.Refinement
import ScriptReader.Proofs.Stream

/-!
# Warnings — what reading a source warns of

A source is scanned up to its first refusal, and every lexeme before that
which needs a warning is warned of once (`Cursor.warnings`). It makes no
difference who draws: whatever draws in a row, stops at a refusal and does
not stop before the end has the same warnings
(`Cursor.Serves.warnings_eq_of_prompt`). Both the tokens of a source
(`warnings_tokenize`) and its program (`warnings_read`) are drawn in that
way.
-/

namespace ScriptReader

namespace Cursor

variable {policy : Text} {s : Cursor} {n : Nat}

/-- The places ahead of a cursor that come before the first refusal. -/
def granted (s : Cursor) : List Place := s.places.takeWhile fun p => p.lexeme.refusal?.isNone

/-- What scanning up to the first refusal warns of. -/
def warnings (policy : Text) (s : Cursor) : List Record :=
  s.granted.flatMap (Place.warnings policy)

theorem warnings_of_atEnd (policy : Text) (h : s.atEnd = true) : s.warnings policy = [] := by
  rw [warnings, granted, places_eq_nil_iff.2 h]
  rfl

/-- A refusal ends the warnings, and is none itself. -/
theorem warnings_of_next_error {e : Overlong} (h : (s.next policy).result = .error e) :
    (s.places.take 1).flatMap (Place.warnings policy) = [] ∧ s.warnings policy = [] := by
  cases hs : s.places with
  | nil =>
    rw [result_next_of_places_nil hs] at h
    cases h
  | cons p ps =>
    rw [result_next_of_places_cons hs] at h
    have hrefusal : p.lexeme.refusal? = some e := Lexeme.token_eq_error_iff.1 h
    constructor
    · simp [Place.warnings, hrefusal]
    · simp [warnings, granted, hs, hrefusal]

/-- **A call that is answered puts its warnings in front.** -/
theorem warnings_of_next_ok {t : Token} (h : (s.next policy).result = .ok t) :
    s.warnings policy =
      (s.places.take 1).flatMap (Place.warnings policy) ++
        (s.next policy).state.warnings policy := by
  rw [warnings, warnings, granted, granted, places_next]
  cases hs : s.places with
  | nil => rfl
  | cons p ps =>
    rw [result_next_of_places_cons hs] at h
    have hclear : p.lexeme.refusal?.isNone = true := by
      rw [Lexeme.refusal_eq_none_of_token h]
      rfl
    rw [List.takeWhile_cons, if_pos hclear, List.take_succ_cons, List.take_zero, List.tail_cons,
      List.flatMap_cons, List.flatMap_singleton]

/-- So do calls that are all answered. -/
theorem warnings_of_stream {ts : List Token} (h : s.stream policy n = ts.map .token) :
    s.warnings policy =
      (s.places.take n).flatMap (Place.warnings policy) ++
        (s.afterCalls policy n).warnings policy := by
  induction n generalizing s ts with
  | zero => rfl
  | succ n ih =>
    rw [stream_succ] at h
    cases ts with
    | nil => cases h
    | cons t ts =>
      obtain ⟨hfirst, hlater⟩ := List.cons.inj h
      cases hr : (s.next policy).result with
      | error e =>
        rw [hr] at hfirst
        cases hfirst
      | ok u =>
        have hafter : s.afterCalls policy (n + 1) = (s.next policy).state.afterCalls policy n := by
          rw [Nat.add_comm, afterCalls_add]
          rfl
        rw [warnings_of_next_ok hr, ih hlater, hafter, places_next, Nat.add_comm n 1,
          List.take_add, List.flatMap_append, List.append_assoc, List.drop_one]

/-- **Whoever draws up to the first refusal, or else to the end, has the
warnings of the source.** -/
theorem Serves.warnings_eq_of_prompt {σ α : Type} {o : Outcome σ α} {left : Cursor}
    (serves : s.Serves policy o.history left) (prompt : o.Prompt)
    (complete : ∀ a, o.result = .ok a → left.atEnd = true) :
    o.warnings = s.warnings policy := by
  have hwarnings := serves.warnings_eq
  have hdraws := serves.draws_eq
  have hleft := serves.left_eq
  cases prompt with
  | @made a ts result draws =>
    rw [show Event.draws o.history = _ from draws, List.length_map] at hwarnings hdraws hleft
    rw [warnings_of_stream hdraws.symm, ← hleft, warnings_of_atEnd policy (complete a result),
      List.append_nil]
    exact hwarnings
  | @refused e ts result draws =>
    rw [show Event.draws o.history = _ from draws, List.length_append, List.length_map] at hwarnings
    rw [show Event.draws o.history = _ from draws, List.length_append, List.length_map,
      stream_add] at hdraws
    obtain ⟨htokens, hlast⟩ := List.append_inj hdraws
      (by rw [List.length_map, length_stream])
    -- The last draw is the refusal, which adds no warning to those of the tokens.
    have hrefused : ((s.afterCalls policy ts.length).next policy).result = .error e := by
      cases hr : ((s.afterCalls policy ts.length).next policy).result with
      | error f =>
        have hanswer : (s.afterCalls policy ts.length).answer policy 0 = .error f := hr
        simp [stream, Draw.ofAnswer, hanswer] at hlast
        rw [hlast]
      | ok t =>
        have hanswer : (s.afterCalls policy ts.length).answer policy 0 = .ok t := hr
        simp [stream, Draw.ofAnswer, hanswer] at hlast
    obtain ⟨hnone, hquiet⟩ := warnings_of_next_error hrefused
    rw [places_afterCalls] at hnone
    rw [warnings_of_stream htokens.symm, hquiet, List.append_nil]
    rw [List.length_singleton, List.take_add, List.flatMap_append, hnone, List.append_nil]
      at hwarnings
    exact hwarnings

/-- A drained scanner is at the end. -/
theorem atEnd_of_drain_ok {ts : List Token} (h : (s.drain policy).result = .ok ts) :
    (s.drain policy).state.atEnd = true := by
  have hleft := (serves_drain policy s).left_eq
  have hlength : (s.ahead policy).length = s.places.length := length_ahead policy s
  cases drained_drain policy s with
  | ended us result draws ahead =>
    rw [ahead, List.length_map] at hlength
    rw [show Event.draws (s.drain policy).history = _ from draws, List.length_append,
      List.length_map, hlength] at hleft
    rw [← places_eq_nil_iff, hleft, places_afterCalls]
    exact List.drop_eq_nil_of_le (Nat.le_add_right _ _)
  | refused us result draws ahead =>
    rw [result] at h
    cases h

end Cursor

/-- **The tokens of a source have the warnings of the source.** -/
theorem warnings_tokenize (o : Options) (source : Text) :
    (o.tokenize source).warnings = (Cursor.ofText source).warnings o.overflow := by
  show ((Cursor.ofText source).drain o.overflow).warnings = _
  exact (Cursor.serves_drain o.overflow _).warnings_eq_of_prompt
    (Cursor.taken_drain o.overflow _).prompt fun _ => Cursor.atEnd_of_drain_ok

namespace Reader

variable {policy : Text} {r : Reader}

/-- A program that was read leaves the scanner at the end. -/
theorem atEnd_of_program_ok {rules : Rules} (orderly : r.Orderly) {p : Program}
    (h : (r.program rules).result = .ok p) : (r.program rules).state.cursor.atEnd = true := by
  have hend : (r.program rules).state.current.kind = .eof := by
    obtain ⟨found, hr, -⟩ := Outcome.exists_of_andThen_ok h
    rw [program, Outcome.andThen_of_ok hr]
    exact current_eof_of_statements_ok found hr
  exact ((made_program rules).moved.orderly orderly).atEnd hend

end Reader

theorem Outcome.Prompt.mapState {σ τ α : Type} {o : Outcome σ α} (h : o.Prompt) (f : σ → τ) :
    (o.mapState f).Prompt := by
  cases h with
  | made ts result draws => exact .made ts result draws
  | refused ts result draws => exact .refused ts result draws

namespace Reading

variable (rules : Rules) (source : Text)

theorem serves_ofText :
    (Cursor.ofText source).Serves rules.policy (ofText rules source).history
      (ofText rules source).state :=
  Cursor.Serves.andThen id (Reader.serves_prime rules.policy _) fun sight _ =>
    (@Reader.made_program ⟨_, sight.1, sight.2, []⟩ rules).serves

theorem prompt_ofText : (ofText rules source).Prompt :=
  (Reader.prompt_prime rules.policy _).andThen fun _ _ =>
    ((Reader.made_program rules).prompt.map _).mapState _

theorem atEnd_of_ofText_ok {reading : Reading}
    (h : (ofText rules source).result = .ok reading) :
    (ofText rules source).state.atEnd = true := by
  obtain ⟨sight, hr, hrest⟩ := Outcome.exists_of_andThen_ok h
  obtain ⟨p, hp, -⟩ := Outcome.result_map_eq_ok_iff.1 hrest
  rw [ofText, Outcome.andThen_of_ok hr]
  exact Reader.atEnd_of_program_ok (Reader.orderly_of_prime hr) hp

/-- What is announced of a reading is no warning, and draws nothing. -/
theorem announce_quiet (reading : Reading) (s : Cursor) :
    (reading.announce s).draws = [] ∧ (reading.announce s).warnings = [] := by
  unfold announce
  split
  · exact ⟨rfl, rfl⟩
  · exact ⟨rfl, rfl⟩

end Reading

/-- **The program of a source has the warnings of the source.** -/
theorem warnings_read (o : Options) (source : Text) :
    (o.read source).warnings = (Cursor.ofText source).warnings o.overflow := by
  have hread : (o.read source).warnings = (Reading.ofText o.rules source).warnings := by
    rw [Options.read]
    cases hr : (Reading.ofText o.rules source).result with
    | error e =>
      rw [Outcome.andThen_of_error hr]
      rfl
    | ok reading =>
      rw [Outcome.warnings_andThen_of_ok hr, (reading.announce_quiet _).2, List.append_nil]
  rw [hread]
  exact (Reading.serves_ofText o.rules source).warnings_eq_of_prompt
    (Reading.prompt_ofText o.rules source) fun _ => Reading.atEnd_of_ofText_ok o.rules source

end ScriptReader
