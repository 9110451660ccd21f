import ScriptReader.Proofs.Warnings
import ScriptReader.Failure
import Mathlib.Data.List.Basic

/-!
# Runs — which sources are refused

A source is refused for a run of digits in it that is too long, and which
runs count can be said of the source alone (`Text.Run.Stands`): those that
are as long as they can be, and have no letter or low line in front. They
are the pieces of digits in its cut (`Text.Run.step`), so the first one
that is too long is the refusal, and those before it that are too great
are what is warned of (`exists_runs`).

`refused_iff_long_run` says so of the tokens and of the program of a
source alike.
-/

namespace ScriptReader

namespace Text

/-- A piece of a source, with all that is in front of it. -/
structure Run where
  before : Text
  digits : Text
deriving DecidableEq

namespace Run

/-- **A run of digits where a token starts**: there is no digit on either
side, and no letter or low line in front. -/
structure Stands (r : Run) (after : Text) : Prop where
  isNumeral : r.digits.isNumeral = true
  noDigitBehind : ∀ c ∈ after.head?, c.isDigit = false
  noDigitInFront : ∀ c ∈ r.before.getLast?, c.isDigit = false
  noWordInFront : ∀ c ∈ r.before.getLast?, c.isWordStart = false

/-- The runs of a source. -/
def In (source : Text) (r : Run) : Prop :=
  ∃ after, source = r.before ++ r.digits ++ after ∧ r.Stands after

/-- Whether a run is one that is refused. -/
def Long (r : Run) : Prop := Numeral.longest < r.digits.length

/-- Whether a run is one that is warned of, if nothing is refused first. -/
def Great (r : Run) : Prop := Numeral.greatest < Numeral.value r.digits

instance : DecidablePred Long := fun _ => inferInstanceAs (Decidable (_ < _))

instance : DecidablePred Great := fun _ => inferInstanceAs (Decidable (_ < _))

/-- Where one run comes before another. -/
def Before (q r : Run) : Prop := q.before.length < r.before.length

/-- **The first run that is too long.** -/
structure FirstLong (source : Text) (r : Run) : Prop where
  mem : r.In source
  long : r.Long
  first : ∀ q : Run, q.In source → q.Long → ¬ q.Before r

end Run

end Text

open Text (Run)

section Steps

variable {w v raw left after behind rest before front source : Text} {r : Run} {n : Nat}

/-- **A source starts with one lexeme in one way.** -/
theorem eq_of_longestMatch (hw : w.all CodePoint.isBlank = true)
    (hv : v.all CodePoint.isBlank = true) (hraw : LongestMatch raw after)
    (hleft : LongestMatch left behind) (h : w ++ raw ++ after = v ++ left ++ behind) :
    w = v ∧ raw = left ∧ after = behind := by
  obtain ⟨c, run, rfl⟩ := List.exists_cons_of_ne_nil hraw.isLexeme.ne_nil
  obtain ⟨d, more, rfl⟩ := List.exists_cons_of_ne_nil hleft.isLexeme.ne_nil
  have hskip := Cursor.skipBlanks_of_longestMatch hw hraw 0
  rw [h, Cursor.skipBlanks_of_longestMatch hv hleft 0] at hskip
  have hlength : w.length = v.length := by
    have := congrArg Cursor.offset hskip
    dsimp only at this
    omega
  rw [List.append_assoc, List.append_assoc] at h
  obtain ⟨rfl, htail⟩ := List.append_inj h hlength
  -- What is taken off the same source is the same.
  have hmunch := Lexeme.munch_eq_of_longestMatch hraw htail.symm
  rw [Lexeme.munch_eq_of_longestMatch hleft rfl] at hmunch
  obtain rfl : after = behind := (congrArg Prod.snd hmunch).symm
  exact ⟨rfl, List.append_cancel_right htail, rfl⟩

/-- What is behind a lexeme that a word could go on from starts no run. -/
theorem LongestMatch.isDigit_eq_false (h : LongestMatch raw after) :
    ∀ c ∈ raw.getLast?, c.isWordPart = true → ∀ d ∈ after.head?, d.isDigit = false := by
  intro c hc part d hd
  cases h with
  | word isWord full =>
    cases hdigit : d.isDigit with
    | false => rfl
    | true =>
      have := full d hd
      rw [CodePoint.isWordPart_of_isDigit hdigit] at this
      cases this
  | digits isNumeral full => exact full d hd
  | long pair => obtain rfl | rfl := pair <;> cases hc <;> cases part
  | short single alone => obtain rfl | rfl := single <;> cases hc <;> cases part
  | @single e after visible noWord noDigit =>
    obtain rfl : e = c := Option.some.inj hc
    rw [CodePoint.isWordPart, noWord, noDigit] at part
    cases part

namespace Text.Run

theorem Stands.longestMatch (h : r.Stands after) : LongestMatch r.digits after :=
  .digits h.isNumeral h.noDigitBehind

theorem Stands.isWordPart_eq_false (h : r.Stands after) :
    ∀ c ∈ r.before.getLast?, c.isWordPart = false := by
  intro c hc
  rw [CodePoint.isWordPart, h.noWordInFront c hc, h.noDigitInFront c hc]
  rfl

/-- A run is not joined to what is in front of it. -/
theorem Stands.seam (h : r.Stands after) (hfront : front <:+ r.before) :
    Seam front (r.digits ++ after) := by
  intro c hc d hd fuse
  have hlast : c ∈ r.before.getLast? := by
    obtain ⟨pre, hpre⟩ := hfront
    rw [← hpre, List.getLast?_append, hc]
    rfl
  have hdigit : d.isDigit = true := by
    obtain ⟨e, more, hdigits⟩ := List.exists_cons_of_ne_nil h.longestMatch.isLexeme.ne_nil
    have hnumeral := h.isNumeral
    rw [hdigits] at hnumeral hd
    cases hd
    exact (Bool.and_eq_true_iff.1 hnumeral).1
  obtain ⟨hpart, -⟩ | ⟨-, rfl⟩ := fuse
  · rw [h.isWordPart_eq_false c hlast] at hpart
    cases hpart
  · cases hdigit

/-- **A run is the first lexeme, or it is behind it.** -/
theorem Stands.step (h : r.Stands behind) (hbefore : r.before = before ++ front)
    (blank : w.all CodePoint.isBlank = true) (longest : LongestMatch raw after)
    (split : w ++ raw ++ after = front ++ r.digits ++ behind) :
    (front = w ∧ r.digits = raw ∧ behind = after) ∨
      ∃ front', front = w ++ raw ++ front' ∧ after = front' ++ r.digits ++ behind := by
  have hsuffix : front <:+ r.before := ⟨before, hbefore.symm⟩
  have seam : Seam front (r.digits ++ behind) := h.seam hsuffix
  obtain ⟨raws, cut⟩ : ∃ raws, Cut front raws := ⟨_, Cursor.cut_places ⟨front, 0⟩⟩
  cases cut with
  | blank hfront =>
    obtain ⟨rfl, rfl, rfl⟩ := eq_of_longestMatch blank hfront longest h.longestMatch split
    exact .inl ⟨rfl, rfl, rfl⟩
  | @lexeme v left rest raws hv hleft later =>
    -- The first lexeme in front of the run is the first of all.
    right
    have hmatch : LongestMatch left (rest ++ (r.digits ++ behind)) := by
      rw [List.append_assoc] at seam
      exact hleft.append (Seam.of_append seam)
    have hsplit : w ++ raw ++ after = v ++ left ++ (rest ++ (r.digits ++ behind)) := by
      rw [split]
      simp only [List.append_assoc]
    obtain ⟨rfl, rfl, rfl⟩ := eq_of_longestMatch blank hv longest hmatch hsplit
    exact ⟨rest, rfl, (List.append_assoc ..).symm⟩

end Text.Run

/-! ## The runs of a source, in order -/

/-- The refusal of a run, if it is too long. -/
def Text.Run.refusal? (r : Run) : Option Overlong := (Lexeme.digits r.digits).refusal?

/-- What scanning a run warns of. -/
def Text.Run.warnings (policy : Text) (r : Run) : List Record :=
  (Lexeme.digits r.digits).warnings policy r.before.size

/-- **The runs behind some text are told in order**: by their places, and
by what is refused and warned of. -/
structure Told (before rest : Text) (rs : List Run) : Prop where
  sorted : rs.Pairwise Run.Before
  mem_iff : ∀ r, r ∈ rs ↔ ∃ front behind, r.before = before ++ front ∧
    rest = front ++ r.digits ++ behind ∧ r.Stands behind
  refusal : ∀ n, (Cursor.mk rest n).refusal? = rs.findSome? Run.refusal?
  warnings : ∀ policy, (Cursor.mk rest before.size).warnings policy =
    (rs.takeWhile fun r => r.refusal?.isNone).flatMap (Run.warnings policy)

/-- The places of a source are the first lexeme and those behind it. -/
theorem places_of_longestMatch (blank : w.all CodePoint.isBlank = true)
    (longest : LongestMatch raw after) (n : Nat) :
    Cursor.places ⟨w ++ raw ++ after, n⟩ =
      ⟨n + w.length, .ofRaw raw⟩ ::
        Cursor.places ⟨after, n + w.length + (Lexeme.ofRaw raw).counted⟩ := by
  obtain ⟨c, run, rfl⟩ := List.exists_cons_of_ne_nil longest.isLexeme.ne_nil
  have hskip := Cursor.skipBlanks_of_longestMatch blank longest n
  have hmunch := Lexeme.munch_eq_of_longestMatch longest (List.cons_append ..).symm
  rw [Cursor.places_of_skipBlanks_cons hskip, hmunch]

/-- A refusal does not depend on where scanning starts. -/
theorem refusal_at (n m : Nat) : (Cursor.mk rest n).refusal? = (Cursor.mk rest m).refusal? := by
  have same : ∀ k, (Cursor.mk rest k).refusal? = (Cursor.ofText rest).refusal? := by
    intro k
    rw [Cursor.refusal?, Cursor.places_at, List.findSome?_map]
    rfl
  rw [same, same]

theorem refusal_of_longestMatch (blank : w.all CodePoint.isBlank = true)
    (longest : LongestMatch raw after) (n m : Nat) :
    (Cursor.mk (w ++ raw ++ after) n).refusal? =
      (Lexeme.ofRaw raw).refusal?.or (Cursor.mk after m).refusal? := by
  rw [Cursor.refusal?, places_of_longestMatch blank longest, List.findSome?_cons]
  dsimp only
  split
  · next e he => rw [he]; rfl
  · next hnone =>
    rw [hnone, Option.none_or]
    exact refusal_at _ m

theorem warnings_of_longestMatch (blank : w.all CodePoint.isBlank = true)
    (longest : LongestMatch raw after) (n : Nat) (policy : Text) :
    (Cursor.mk (w ++ raw ++ after) n).warnings policy =
      if (Lexeme.ofRaw raw).refusal?.isNone then
        (Lexeme.ofRaw raw).warnings policy (n + w.length) ++
          (Cursor.mk after (n + (w ++ raw).size)).warnings policy
      else [] := by
  rw [Cursor.warnings, Cursor.granted, places_of_longestMatch blank longest, List.takeWhile_cons]
  dsimp only
  split
  · next hnone =>
    have hrefusal : (Lexeme.ofRaw raw).refusal? = none := Option.isNone_iff_eq_none.1 hnone
    have hsize : n + (w ++ raw).size =
        n + w.length + (Lexeme.ofRaw raw).counted := by
      rw [Text.size_append, Text.size_eq_length_of_blank blank,
        Lexeme.counted_of_refusal_eq_none hrefusal, Lexeme.raw_ofRaw longest.isLexeme,
        Nat.add_assoc]
    rw [List.flatMap_cons, hsize, Place.warnings, if_neg (by rw [hrefusal]; decide)]
    rfl
  · rfl

theorem told_blank (blank : rest.all CodePoint.isBlank = true) : Told before rest [] where
  sorted := .nil
  mem_iff := by
    intro r
    refine iff_of_false List.not_mem_nil ?_
    rintro ⟨front, behind, -, rfl, stands⟩
    -- A run has a digit, which is no blank.
    obtain ⟨c, more, hdigits⟩ := List.exists_cons_of_ne_nil stands.longestMatch.isLexeme.ne_nil
    have hlexeme := stands.longestMatch.isLexeme
    rw [hdigits] at blank hlexeme
    have hblank : c.isBlank = true := List.all_eq_true.1 blank c (by simp)
    rw [hlexeme.isBlank_eq_false] at hblank
    cases hblank
  refusal := by
    intro n
    exact Cursor.refusal_of_places_nil (Cursor.places_eq_nil_iff.2 blank)
  warnings := by
    intro policy
    exact Cursor.warnings_of_atEnd policy blank

/-- The runs of a source are its first lexeme, if that is one, and those
behind it. -/
theorem mem_runs_iff (blank : w.all CodePoint.isBlank = true) (longest : LongestMatch raw after) :
    (∃ front behind, r.before = before ++ front ∧
        w ++ raw ++ after = front ++ r.digits ++ behind ∧ r.Stands behind) ↔
      (r = ⟨before ++ w, raw⟩ ∧ r.Stands after) ∨
        ∃ front behind, r.before = before ++ w ++ raw ++ front ∧
          after = front ++ r.digits ++ behind ∧ r.Stands behind := by
  constructor
  · rintro ⟨front, behind, hbefore, split, stands⟩
    obtain ⟨rfl, hdigits, rfl⟩ | ⟨front', rfl, hafter⟩ := stands.step hbefore blank longest split
    · left
      obtain ⟨rbefore, rdigits⟩ := r
      dsimp only at hbefore hdigits
      subst hbefore hdigits
      exact ⟨rfl, stands⟩
    · refine .inr ⟨front', behind, ?_, hafter, stands⟩
      rw [hbefore]
      simp only [List.append_assoc]
  · rintro (⟨rfl, stands⟩ | ⟨front, behind, hbefore, rfl, stands⟩)
    · exact ⟨w, after, rfl, rfl, stands⟩
    · refine ⟨w ++ raw ++ front, behind, ?_, ?_, stands⟩
      · rw [hbefore]
        simp only [List.append_assoc]
      · simp only [List.append_assoc]

/-- A lexeme that is no run adds none. -/
theorem Told.other {rs : List Run} (told : Told (before ++ w ++ raw) after rs)
    (blank : w.all CodePoint.isBlank = true) (longest : LongestMatch raw after)
    (noNumeral : raw.isNumeral ≠ true) : Told before (w ++ raw ++ after) rs := by
  have hrefusal : (Lexeme.ofRaw raw).refusal? = none :=
    Lexeme.refusal_ofRaw_eq_none_iff.2 fun h => absurd h noNumeral
  refine ⟨told.sorted, fun r => ?_, fun n => ?_, fun policy => ?_⟩
  · rw [mem_runs_iff blank longest, told.mem_iff]
    refine (or_iff_right ?_).symm
    rintro ⟨rfl, stands⟩
    exact noNumeral stands.isNumeral
  · rw [refusal_of_longestMatch blank longest n 0, hrefusal, Option.none_or]
    exact told.refusal 0
  · have hquiet : ∀ n, (Lexeme.ofRaw raw).warnings policy n = [] := by
      intro n
      rw [Lexeme.ofRaw, if_neg noNumeral]
      repeat' split
      all_goals rfl
    rw [warnings_of_longestMatch blank longest, hrefusal, hquiet, ← told.warnings,
      List.append_assoc, Text.size_append before]
    rfl

/-- A run comes in front of those behind it. -/
theorem Told.run {rs : List Run} (told : Told (before ++ w ++ raw) after rs)
    (blank : w.all CodePoint.isBlank = true) (longest : LongestMatch raw after)
    (stands : Run.Stands ⟨before ++ w, raw⟩ after) :
    Told before (w ++ raw ++ after) (⟨before ++ w, raw⟩ :: rs) := by
  have hraw := Lexeme.ofRaw_of_isNumeral stands.isNumeral
  refine ⟨List.pairwise_cons.2 ⟨fun r hr => ?_, told.sorted⟩, fun r => ?_, fun n => ?_,
    fun policy => ?_⟩
  · obtain ⟨front, behind, hbefore, -⟩ := (told.mem_iff r).1 hr
    have := List.length_pos_iff.2 longest.isLexeme.ne_nil
    show (before ++ w).length < r.before.length
    rw [hbefore]
    simp only [List.length_append]
    omega
  · rw [mem_runs_iff blank longest, List.mem_cons, told.mem_iff]
    refine or_congr_left ⟨fun h => ⟨h, ?_⟩, And.left⟩
    rw [h]
    exact stands
  · rw [refusal_of_longestMatch blank longest n 0, told.refusal 0, hraw, List.findSome?_cons,
      Run.refusal?]
    cases (Lexeme.digits raw).refusal? <;> rfl
  · have hsize : before.size + w.length = (before ++ w).size := by
      rw [Text.size_append, Text.size_eq_length_of_blank blank]
    have hbehind := told.warnings policy
    rw [List.append_assoc, Text.size_append] at hbehind
    rw [warnings_of_longestMatch blank longest, hraw, hsize, hbehind, List.takeWhile_cons]
    show _ = List.flatMap _ (if (Lexeme.digits raw).refusal?.isNone = true then _ else _)
    split <;> rfl

/-- A run behind blanks stands where a token starts, if the text in front
does not reach into it. -/
theorem stands_of_edge (blank : w.all CodePoint.isBlank = true) (longest : LongestMatch raw after)
    (isNumeral : raw.isNumeral = true)
    (edge : ∀ c ∈ before.getLast?, c.isWordPart = true →
      ∀ d ∈ (w ++ raw ++ after).head?, d.isDigit = false) :
    Run.Stands ⟨before ++ w, raw⟩ after := by
  obtain ⟨e, run, rfl⟩ := List.exists_cons_of_ne_nil longest.isLexeme.ne_nil
  have hdigit : e.isDigit = true := (Bool.and_eq_true_iff.1 isNumeral).1
  have hpart : ∀ c ∈ (before ++ w).getLast?, c.isWordPart = false := by
    intro c hc
    cases hpart : c.isWordPart with
    | false => rfl
    | true =>
      rcases List.eq_nil_or_concat w with rfl | ⟨v, d, rfl⟩
      · rw [List.append_nil] at hc
        have := edge c hc hpart e rfl
        rw [hdigit] at this
        cases this
      · -- A blank goes on no word.
        have hblank : d.isBlank = true := List.all_eq_true.1 blank d (by simp)
        obtain rfl : d = c := by simpa using hc
        rw [CodePoint.isBlank_eq_false_of_isWordPart hpart] at hblank
        cases hblank
  refine ⟨isNumeral, fun d hd => ?_, fun c hc => ?_, fun c hc => ?_⟩
  · cases hd' : d.isDigit with
    | false => rfl
    | true => exact absurd ⟨hdigit, hd'⟩ (longest.no_extension hd).2.1
  · exact (Bool.or_eq_false_iff.1 (hpart c hc)).2
  · exact (Bool.or_eq_false_iff.1 (hpart c hc)).1

/-- **The runs of a source can be listed**, and they tell what is refused
and what is warned of. The text in front must not reach into a run. -/
theorem exists_runs {raws : List Text} (cut : Cut rest raws) (before : Text)
    (edge : ∀ c ∈ before.getLast?, c.isWordPart = true → ∀ d ∈ rest.head?, d.isDigit = false) :
    ∃ rs, Told before rest rs := by
  induction cut generalizing before with
  | blank blank => exact ⟨[], told_blank blank⟩
  | @lexeme w raw after raws blank longest behind ih =>
    have hne : raw ≠ [] := longest.isLexeme.ne_nil
    obtain ⟨rs, told⟩ := ih (before ++ w ++ raw) (by
      rw [List.getLast?_append_of_ne_nil _ hne]
      exact longest.isDigit_eq_false)
    by_cases isNumeral : raw.isNumeral = true
    · exact ⟨_, told.run blank longest (stands_of_edge blank longest isNumeral edge)⟩
    · exact ⟨rs, told.other blank longest isNumeral⟩

end Steps

/-! ## What is refused and what is warned of -/

section Lists

variable {rs : List Run} {r : Run} {e : Overlong} {source : Text}

theorem Text.Run.refusal_eq_some_iff : r.refusal? = some e ↔ r.Long ∧ e = ⟨r.digits.length⟩ := by
  rw [Run.refusal?, Lexeme.refusal?, Run.Long]
  split
  · next h => exact ⟨fun he => ⟨h, (Option.some.inj he).symm⟩, fun he => congrArg some he.2.symm⟩
  · next h => exact ⟨fun he => absurd he (by simp), fun he => absurd he.1 h⟩

theorem Text.Run.refusal_eq_none_iff : r.refusal? = none ↔ ¬ r.Long := by
  rw [Option.eq_none_iff_forall_ne_some]
  constructor
  · intro h long
    exact h _ (refusal_eq_some_iff.2 ⟨long, rfl⟩)
  · intro short e he
    exact short (refusal_eq_some_iff.1 he).1

theorem Text.Run.warnings_eq (policy : Text) (r : Run) :
    r.warnings policy = if r.Great then [.overflow r.digits r.before.size policy] else [] := by
  rw [Run.warnings, Lexeme.warnings]
  by_cases great : r.Great
  · rw [if_pos great, if_neg (Nat.not_le_of_gt great)]
  · rw [if_neg great, if_pos (Nat.le_of_not_gt great)]

theorem forall_long_cons {a : Run} (short : ¬ a.Long) {P : Run → Prop} :
    (∀ q ∈ a :: rs, q.Long → P q) ↔ ∀ q ∈ rs, q.Long → P q := by
  rw [List.forall_mem_cons]
  exact and_iff_right fun long => absurd long short

/-- Of runs in order, those taken up to a long one are those before every
long one. -/
theorem mem_takeWhile_iff (sorted : rs.Pairwise Run.Before) :
    r ∈ rs.takeWhile (fun r => r.refusal?.isNone) ↔
      r ∈ rs ∧ ∀ q ∈ rs, q.Long → r.Before q := by
  induction rs with
  | nil => simp
  | cons a rs ih =>
    obtain ⟨hfirst, hlater⟩ := List.pairwise_cons.1 sorted
    rw [List.takeWhile_cons]
    by_cases long : a.Long
    · have hrefusal : a.refusal? = some ⟨a.digits.length⟩ :=
        Text.Run.refusal_eq_some_iff.2 ⟨long, rfl⟩
      rw [hrefusal]
      refine iff_of_false (by simp) ?_
      rintro ⟨hr, before⟩
      have hlt : r.before.length < a.before.length := before a List.mem_cons_self long
      rcases List.mem_cons.1 hr with rfl | hr
      · exact absurd hlt (Nat.lt_irrefl _)
      · exact absurd hlt (Nat.lt_asymm (hfirst r hr))
    · have hnone : a.refusal?.isNone = true := by
        rw [Text.Run.refusal_eq_none_iff.2 long]
        rfl
      rw [if_pos hnone, List.mem_cons, ih hlater, List.mem_cons, forall_long_cons long]
      constructor
      · rintro (rfl | ⟨hr, before⟩)
        · exact ⟨.inl rfl, fun q hq _ => hfirst q hq⟩
        · exact ⟨.inr hr, before⟩
      · rintro ⟨rfl | hr, before⟩
        · exact .inl rfl
        · exact .inr ⟨hr, before⟩

/-- And what is refused is the first long one. -/
theorem findSome_refusal_eq_some_iff (sorted : rs.Pairwise Run.Before) :
    rs.findSome? Run.refusal? = some e ↔
      ∃ r ∈ rs, r.Long ∧ (∀ q ∈ rs, q.Long → ¬ q.Before r) ∧ e = ⟨r.digits.length⟩ := by
  induction rs with
  | nil => simp
  | cons a rs ih =>
    obtain ⟨hfirst, hlater⟩ := List.pairwise_cons.1 sorted
    rw [List.findSome?_cons]
    by_cases long : a.Long
    · have hrefusal : a.refusal? = some ⟨a.digits.length⟩ :=
        Text.Run.refusal_eq_some_iff.2 ⟨long, rfl⟩
      rw [hrefusal]
      constructor
      · intro he
        refine ⟨a, List.mem_cons_self, long, fun q hq _ => ?_, (Option.some.inj he).symm⟩
        rcases List.mem_cons.1 hq with rfl | hq
        · exact Nat.lt_irrefl _
        · exact Nat.lt_asymm (hfirst q hq)
      · rintro ⟨r, hr, -, first, rfl⟩
        rcases List.mem_cons.1 hr with rfl | hr
        · rfl
        · exact absurd (hfirst r hr) (first a List.mem_cons_self long)
    · rw [Text.Run.refusal_eq_none_iff.2 long]
      dsimp only
      rw [ih hlater]
      constructor
      · rintro ⟨r, hr, hlong, first, he⟩
        exact ⟨r, List.mem_cons_of_mem _ hr, hlong, (forall_long_cons long).2 first, he⟩
      · rintro ⟨r, hr, hlong, first, he⟩
        rcases List.mem_cons.1 hr with rfl | hr
        · exact absurd hlong long
        · exact ⟨r, hr, hlong, (forall_long_cons long).1 first, he⟩

end Lists

/-- The runs of a whole source. -/
theorem exists_told (source : Text) :
    ∃ rs, Told [] source rs ∧ ∀ r, r ∈ rs ↔ Run.In source r := by
  obtain ⟨rs, told⟩ := exists_runs (Cursor.cut_places (.ofText source)) [] (by simp)
  refine ⟨rs, told, fun r => (told.mem_iff r).trans ?_⟩
  constructor
  · rintro ⟨front, behind, hbefore, split, stands⟩
    obtain rfl : r.before = front := hbefore
    exact ⟨behind, split, stands⟩
  · rintro ⟨behind, split, stands⟩
    exact ⟨r.before, behind, rfl, split, stands⟩

/-- **A source is refused for its first run that is too long.** -/
theorem refusal_eq_some_iff_firstLong {source : Text} {e : Overlong} :
    (Cursor.ofText source).refusal? = some e ↔
      ∃ r : Run, r.FirstLong source ∧ e = ⟨r.digits.length⟩ := by
  obtain ⟨rs, told, mem⟩ := exists_told source
  rw [Cursor.ofText, told.refusal, findSome_refusal_eq_some_iff told.sorted]
  constructor
  · rintro ⟨r, hr, long, first, he⟩
    exact ⟨r, ⟨(mem r).1 hr, long, fun q hq => first q ((mem q).2 hq)⟩, he⟩
  · rintro ⟨r, ⟨hr, long, first⟩, he⟩
    exact ⟨r, (mem r).2 hr, long, fun q hq => first q ((mem q).1 hq), he⟩

/-- And if there is one that is too long there is a first one. -/
theorem exists_refusal_iff_long {source : Text} :
    (∃ e, (Cursor.ofText source).refusal? = some e) ↔ ∃ r : Run, r.In source ∧ r.Long := by
  obtain ⟨rs, told, mem⟩ := exists_told source
  rw [Cursor.ofText, told.refusal]
  constructor
  · rintro ⟨e, he⟩
    obtain ⟨r, hr, long, -⟩ := (findSome_refusal_eq_some_iff told.sorted).1 he
    exact ⟨r, (mem r).1 hr, long⟩
  · rintro ⟨r, hr, long⟩
    rw [← Option.isSome_iff_exists, List.findSome?_isSome_iff]
    refine ⟨r, (mem r).2 hr, ?_⟩
    rw [Text.Run.refusal_eq_some_iff.2 ⟨long, rfl⟩]
    rfl

/-- **The warnings of a source are those of its runs that are too great**,
as far as the first one that is too long. -/
theorem exists_warned (source : Text) :
    ∃ rs : List Run, rs.Pairwise Run.Before ∧
      (∀ r, r ∈ rs ↔ r.In source ∧ r.Great ∧ ∀ q : Run, q.In source → q.Long → r.Before q) ∧
      ∀ policy, (Cursor.ofText source).warnings policy =
        rs.map fun r => .overflow r.digits r.before.size policy := by
  obtain ⟨rs, told, mem⟩ := exists_told source
  refine ⟨(rs.takeWhile fun r => r.refusal?.isNone).filter fun r => decide r.Great,
    (told.sorted.sublist (List.takeWhile_sublist _)).sublist List.filter_sublist, fun r => ?_,
    fun policy => ?_⟩
  · rw [List.mem_filter, mem_takeWhile_iff told.sorted, decide_eq_true_iff, mem]
    constructor
    · rintro ⟨⟨hr, before⟩, great⟩
      exact ⟨hr, great, fun q hq => before q ((mem q).2 hq)⟩
    · rintro ⟨hr, great, before⟩
      exact ⟨⟨hr, fun q hq => before q ((mem q).1 hq)⟩, great⟩
  · refine (told.warnings policy).trans ?_
    generalize (rs.takeWhile fun r => r.refusal?.isNone) = taken
    induction taken with
    | nil => rfl
    | cons r taken ih =>
      rw [List.flatMap_cons, ih, Text.Run.warnings_eq, List.filter_cons]
      by_cases great : r.Great
      · rw [if_pos great, if_pos (decide_eq_true great)]
        rfl
      · rw [if_neg great, if_neg (by rw [decide_eq_true_iff]; exact great)]
        rfl

/-- The one failure that a step can come to is a refusal. -/
theorem Outcome.value_eq_error_iff {σ α : Type} {o : Outcome σ α} {f : Failure} :
    o.value = .error f ↔ ∃ e, o.result = .error e ∧ f = .overlong e := by
  rw [Outcome.value]
  cases o.result with
  | error e =>
    constructor
    · intro h
      exact ⟨e, rfl, (Except.error.inj h).symm⟩
    · rintro ⟨d, hd, rfl⟩
      rw [hd]
      rfl
  | ok a =>
    refine iff_of_false (fun h => by cases h) ?_
    rintro ⟨d, hd, -⟩
    cases hd

theorem value_tokenize_eq_error_iff {o : Options} {source : Text} {f : Failure} :
    (o.tokenize source).value = .error f ↔
      ∃ e, (Cursor.ofText source).refusal? = some e ∧ f = .overlong e := by
  rw [Outcome.value_eq_error_iff, result_tokenize]
  cases (Cursor.ofText source).refusal? <;> simp

theorem value_read_eq_error_iff {o : Options} {source : Text} {f : Failure} :
    (o.read source).value = .error f ↔
      ∃ e, (Cursor.ofText source).refusal? = some e ∧ f = .overlong e := by
  rw [Outcome.value_eq_error_iff, result_read]
  cases (Cursor.ofText source).refusal? <;> simp

/-- **Tokens and program are refused together**, for the first run of the
source that is too long and for nothing else, whatever the options; and
until then they warn of the same runs, which are those that are too
great. -/
theorem refused_iff_long_run (o : Options) (source : Text) :
    ((∃ f, (o.tokenize source).value = .error f) ↔ ∃ r : Run, r.In source ∧ r.Long) ∧
    (∀ f, (o.tokenize source).value = .error f ↔
      ∃ r : Run, r.FirstLong source ∧ f = .overlong ⟨r.digits.length⟩) ∧
    (∀ f, (o.read source).value = .error f ↔ (o.tokenize source).value = .error f) ∧
    ∃ rs : List Run, rs.Pairwise Run.Before ∧
      (∀ r, r ∈ rs ↔ r.In source ∧ r.Great ∧ ∀ q : Run, q.In source → q.Long → r.Before q) ∧
      ((o.tokenize source).warnings =
        rs.map fun r => .overflow r.digits r.before.size o.overflow) ∧
      (o.read source).warnings = (o.tokenize source).warnings := by
  refine ⟨?_, fun f => ?_, fun f => ?_, ?_⟩
  · rw [← exists_refusal_iff_long]
    constructor
    · rintro ⟨f, hf⟩
      obtain ⟨e, he, -⟩ := value_tokenize_eq_error_iff.1 hf
      exact ⟨e, he⟩
    · rintro ⟨e, he⟩
      exact ⟨_, value_tokenize_eq_error_iff.2 ⟨e, he, rfl⟩⟩
  · rw [value_tokenize_eq_error_iff]
    constructor
    · rintro ⟨e, he, rfl⟩
      obtain ⟨r, hr, rfl⟩ := refusal_eq_some_iff_firstLong.1 he
      exact ⟨r, hr, rfl⟩
    · rintro ⟨r, hr, rfl⟩
      exact ⟨_, refusal_eq_some_iff_firstLong.2 ⟨r, hr, rfl⟩, rfl⟩
  · rw [value_read_eq_error_iff, value_tokenize_eq_error_iff]
  · obtain ⟨rs, sorted, mem, warned⟩ := exists_warned source
    refine ⟨rs, sorted, mem, ?_, ?_⟩
    · rw [warnings_tokenize, warned]
    · rw [warnings_read, warnings_tokenize]

end ScriptReader
