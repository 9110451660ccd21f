import ScriptReader.Proofs.Timeline

/-!
# Findings — in which order a source is complained about

A report names a token and what is needed in its place. A binding is
complained about when the offending token is still ahead, and that token
is the next at which a statement is looked for, so it may be complained
about once more. `Finding.time` puts both complaints on the scale of
`Note.time`: the times of findings are odd, they go up
(`Grammar.pairwise_findings`), and only the two times of one token are
next to each other. So reports are in order of their locations, and two of
them share one only if they are such a pair.

`read_findings` is the theorem for a source.
-/

namespace ScriptReader

/-- **What a report is about**: a token, by its index, and what is needed
in its place. -/
structure Finding where
  index : Nat
  needed : Expected
deriving DecidableEq

namespace Finding

/-- The report itself. -/
def diagnostic (ts : List Token) (f : Finding) : Diagnostic :=
  .unexpected (ts.getD f.index .eof) f.needed

/-- Whether it is a binding that is complained about, for its name or for
the sign after it. -/
def OnLet (f : Finding) : Prop := f.needed ≠ .statement

instance : DecidablePred OnLet := fun _ => inferInstanceAs (Decidable (_ ≠ _))

/-- When a report is made. -/
def time (f : Finding) : Nat := (Note.report f.index f.needed).time

variable {f g : Finding}

theorem time_of_onLet (h : f.OnLet) : f.time = 2 * f.index + 1 := by
  obtain ⟨k, needed⟩ := f
  cases needed with
  | statement => exact absurd rfl h
  | identifier => rfl
  | assignment => rfl

theorem time_of_not_onLet (h : ¬ f.OnLet) : f.time = 2 * f.index + 3 := by
  obtain ⟨k, needed⟩ := f
  obtain rfl : needed = .statement := Decidable.not_not.1 h
  rfl

theorem eq_of_not_onLet (h : ¬ f.OnLet) : f = ⟨f.index, .statement⟩ := by
  obtain ⟨k, needed⟩ := f
  obtain rfl : needed = .statement := Decidable.not_not.1 h
  rfl

/-- **A token is reported before the ones behind it**, and a binding is
before the token itself. -/
theorem lt_or_eq_of_time_lt (h : f.time < g.time) :
    f.index < g.index ∨ f.index = g.index ∧ f.OnLet ∧ ¬ g.OnLet := by
  by_cases hf : f.OnLet <;> by_cases hg : g.OnLet
  · rw [time_of_onLet hf, time_of_onLet hg] at h
    omega
  · rw [time_of_onLet hf, time_of_not_onLet hg] at h
    obtain hlt | heq := Nat.lt_or_eq_of_le (show f.index ≤ g.index by omega)
    · exact .inl hlt
    · exact .inr ⟨heq, hf, hg⟩
  · rw [time_of_not_onLet hf, time_of_onLet hg] at h
    omega
  · rw [time_of_not_onLet hf, time_of_not_onLet hg] at h
    omega

/-- Nothing is reported between the two reports on one token. -/
theorem not_between {e : Finding} (onLet : f.OnLet) (stray : ¬ g.OnLet)
    (same : f.index = g.index) : ¬ (f.time < e.time ∧ e.time < g.time) := by
  rw [time_of_onLet onLet, time_of_not_onLet stray, same]
  by_cases he : e.OnLet
  · rw [time_of_onLet he]
    omega
  · rw [time_of_not_onLet he]
    omega

end Finding

/-- A report located before another one, which may have no location. -/
def Diagnostic.Before (d e : Diagnostic) : Prop :=
  ∃ m, d.location = some m ∧ ∀ n ∈ e.location, m < n

/-- A report located before another one or with it, which may have no
location. -/
def Diagnostic.NotBehind (d e : Diagnostic) : Prop :=
  ∃ m, d.location = some m ∧ ∀ n ∈ e.location, m ≤ n

/-- **The reports on tokens, by what they are about.** -/
structure Findings (reportStray : Bool) (ts : List Token) (reports : List Diagnostic)
    (named : List Finding) : Prop where
  /-- They are the reports, in order. -/
  reports_eq : named.map (Finding.diagnostic ts) = reports
  /-- Each is on a token or on the end. -/
  within : ∀ f ∈ named, f.index ≤ ts.length
  /-- A token is reported to start no statement only on demand, and only
  if it starts none. The end never is. -/
  stray : ∀ f ∈ named, ¬ f.OnLet →
    reportStray = true ∧ f.index < ts.length ∧ (ts.getD f.index .eof).StartsNone
  /-- On no demand they are located one before the other, and all but the
  last have a location. -/
  strict : reportStray = false → reports.Pairwise Diagnostic.Before
  /-- They are never located behind a later one, and all but the last have
  a location. -/
  weak : reports.Pairwise Diagnostic.NotBehind
  /-- Two reports are located together if a binding is complained about
  and then, in the next report, the token that it is complained about. -/
  shared : ∀ (i j : Nat) (d e : Diagnostic), i < j → reports[i]? = some d → reports[j]? = some e →
    (d.location = e.location ↔
      j = i + 1 ∧ ∃ f : Finding, f.OnLet ∧ named[i]? = some f ∧
        named[j]? = some ⟨f.index, .statement⟩)
  /-- On demand this comes about if the token starts no statement and is
  not the end. -/
  paired : reportStray = true → ∀ (i : Nat) (f : Finding), named[i]? = some f → f.OnLet →
    (named[i + 1]? = some ⟨f.index, .statement⟩ ↔
      (ts.getD f.index .eof).StartsNone ∧ (ts.getD f.index .eof).kind ≠ .eof)
  /-- A token is in at most two reports. -/
  twice : ∀ k, named.countP (fun f => f.index = k) ≤ 2
  /-- At most one of them complains about a binding. -/
  binding_once : ∀ k, named.countP (fun f => f.index = k ∧ f.OnLet) ≤ 1
  /-- At most one of them complains about the token. -/
  stray_once : ∀ k, named.countP (fun f => f.index = k ∧ ¬ f.OnLet) ≤ 1

/-- What a note finds. -/
def Note.finding? : Note → Option Finding
  | scan _ => none
  | report k needed => some ⟨k, needed⟩

namespace Grammar

variable {reportStray : Bool} {ts : List Token} {q : Placed} {f : Finding} {k : Nat}

/-- **What is found in tokens**, in the order in which it is reported. -/
def findings (reportStray : Bool) (ts : List Token) : List Finding :=
  (notes reportStray ts).filterMap Note.finding?

theorem map_diagnostic_findings (reportStray : Bool) (ts : List Token) :
    (findings reportStray ts).map (Finding.diagnostic ts) = reports reportStray ts := by
  rw [findings, List.map_filterMap, ← filterMap_report_notes]
  refine congrArg (List.filterMap · _) (funext fun n => ?_)
  cases n with
  | scan k => rfl
  | report k needed => rfl

/-- **Findings are in order of time.** -/
theorem pairwise_findings (reportStray : Bool) (ts : List Token) :
    (findings reportStray ts).Pairwise fun f g => f.time < g.time := by
  rw [findings, List.pairwise_filterMap]
  refine (pairwise_notes reportStray ts).imp ?_
  intro m n hlt f hf g hg
  cases m with
  | scan k => cases hf
  | report k needed =>
    cases n with
    | scan l => cases hg
    | report l other =>
      cases hf
      cases hg
      exact hlt

/-- What is found is found in a production. -/
theorem mem_findings_iff :
    f ∈ findings reportStray ts ↔
      ∃ q ∈ arrangement ts, .report f.index f.needed ∈ q.notes reportStray := by
  have hnote : f ∈ findings reportStray ts ↔ .report f.index f.needed ∈ notes reportStray ts := by
    rw [findings, List.mem_filterMap]
    constructor
    · rintro ⟨n, hn, hf⟩
      cases n with
      | scan k => cases hf
      | report k needed => cases hf; exact hn
    · exact fun hn => ⟨_, hn, rfl⟩
  rw [hnote, notes, List.mem_append, List.mem_flatMap]
  exact or_iff_right (by simp)

/-- Only tokens that start no statement are reported for that. -/
theorem single_of_stray (h : .report k .statement ∈ q.notes reportStray) :
    k = q.start ∧ reportStray = true ∧
      ∃ t, q.production = .single t ∧ t.kind ≠ .mark .semicolon := by
  obtain ⟨start, p⟩ := q
  cases p with
  | binding => simp [Placed.notes] at h
  | returning => simp [Placed.notes] at h
  | unnamed => simp [Placed.notes] at h
  | unassigned => simp [Placed.notes] at h
  | single t =>
    rw [Placed.notes] at h
    dsimp only at h
    split at h
    · next on => exact ⟨by simpa using h, on.1, t, rfl, on.2⟩
    · simp at h

/-- **A binding is complained about for what stands behind it.** -/
theorem stop_eq_of_onLet (h : .report f.index f.needed ∈ q.notes reportStray) (onLet : f.OnLet) :
    q.stop = f.index := by
  obtain ⟨start, p⟩ := q
  obtain ⟨k, needed⟩ := f
  cases p with
  | binding => simp [Placed.notes] at h
  | returning => simp [Placed.notes] at h
  | unnamed =>
    obtain ⟨rfl, -⟩ : k = start + 1 ∧ needed = .identifier := by simpa [Placed.notes] using h
    rfl
  | unassigned =>
    obtain ⟨rfl, -⟩ : k = start + 2 ∧ needed = .assignment := by simpa [Placed.notes] using h
    rfl
  | single t =>
    rw [Placed.notes] at h
    dsimp only at h
    split at h
    · exact absurd (show needed = .statement by simpa using And.right (by simpa using h)) onLet
    · simp at h

/-- Where a production stops another one starts, or the tokens end. -/
theorem exists_start_eq_stop (hq : q ∈ arrangement ts) (lt : q.stop < ts.length) :
    ∃ r ∈ arrangement ts, r.start = q.stop := by
  obtain ⟨r, hr, le, gt⟩ := exists_mem_arrangement lt
  refine ⟨r, hr, Nat.le_antisymm le ?_⟩
  have apart := List.pairwise_iff_getElem.1 (pairwise_arrangement ts)
  obtain ⟨i, hi, rfl⟩ := List.mem_iff_getElem.1 hq
  obtain ⟨j, hj, rfl⟩ := List.mem_iff_getElem.1 hr
  rcases Nat.lt_trichotomy i j with hij | rfl | hij
  · exact apart i j hi hj hij
  · exact absurd gt (Nat.lt_irrefl _)
  · have := apart j i hj hi hij
    have := (arrangement ts)[i].start_lt_stop
    omega

theorem index_le_of_mem_findings (h : f ∈ findings reportStray ts) : f.index ≤ ts.length := by
  obtain ⟨q, hq, hmem⟩ := mem_findings_iff.1 h
  by_cases onLet : f.OnLet
  · rw [← stop_eq_of_onLet hmem onLet]
    exact (stands_of_mem_arrangement hq).stop_le
  · rw [Finding.eq_of_not_onLet onLet] at hmem
    obtain ⟨hindex, -⟩ := single_of_stray hmem
    rw [hindex]
    exact Nat.le_of_lt (Nat.lt_of_lt_of_le q.start_lt_stop (stands_of_mem_arrangement hq).stop_le)

/-- **Who is reported to start no statement starts none**, and is there. -/
theorem startsNone_of_stray (h : f ∈ findings reportStray ts) (stray : ¬ f.OnLet) :
    reportStray = true ∧ f.index < ts.length ∧ (ts.getD f.index .eof).StartsNone := by
  obtain ⟨q, hq, hmem⟩ := mem_findings_iff.1 h
  rw [Finding.eq_of_not_onLet stray] at hmem
  obtain ⟨hindex, on, t, hsingle, hstop⟩ := single_of_stray hmem
  have stands := stands_of_mem_arrangement hq
  have fits := stands.fits
  rw [hindex, getD_start stands]
  refine ⟨on, Nat.lt_of_lt_of_le q.start_lt_stop stands.stop_le, ?_⟩
  rw [hsingle] at fits ⊢
  cases fits with
  | single noLet noReturn => exact ⟨noLet, noReturn, hstop⟩

/-- **What stands behind a given up binding is reported as well**, on
demand, if it starts no statement. -/
theorem stray_mem_of_onLet (h : f ∈ findings true ts) (onLet : f.OnLet)
    (lt : f.index < ts.length) (startsNone : (ts.getD f.index .eof).StartsNone) :
    ⟨f.index, .statement⟩ ∈ findings true ts := by
  obtain ⟨q, hq, hmem⟩ := mem_findings_iff.1 h
  have hstop := stop_eq_of_onLet hmem onLet
  obtain ⟨r, hr, hstart⟩ := exists_start_eq_stop hq (by rwa [hstop])
  have stands := stands_of_mem_arrangement hr
  have fits := stands.fits
  rw [← hstop, ← hstart, getD_start stands] at startsNone
  obtain ⟨noLet, noReturn, noStop⟩ := startsNone
  refine mem_findings_iff.2 ⟨r, hr, ?_⟩
  rw [← hstop, ← hstart, Placed.notes]
  generalize r.production = p at fits noLet noReturn noStop
  cases fits with
  | binding isLet => exact absurd isLet noLet
  | returning isReturn => exact absurd isReturn noReturn
  | unnamed isLet => exact absurd isLet noLet
  | unassigned isLet => exact absurd isLet noLet
  | single =>
    dsimp only
    rw [if_pos ⟨rfl, noStop⟩]
    exact .head _

end Grammar

/-- A token that is there has a location, and none before those of the
tokens behind it. -/
theorem Located.exists_location {ts : List Token} (h : Located ts) {i j : Nat} (le : i ≤ j)
    (lt : i < ts.length) :
    ∃ m, (ts.getD i .eof).location = some m ∧
      ∀ n ∈ (ts.getD j .eof).location, m ≤ n ∧ (i < j → m < n) := by
  obtain ⟨m, hm⟩ := Option.ne_none_iff_exists'.1 (h.location_getD_ne_none lt)
  refine ⟨m, hm, fun n hn => ?_⟩
  obtain hlt | rfl := Nat.lt_or_eq_of_le le
  · have hj : j < ts.length := by
      refine Nat.lt_of_not_le fun hle => ?_
      rw [List.getD_eq_default _ _ hle] at hn
      cases hn
    obtain ⟨m', n', hm', hn', before⟩ :=
      List.pairwise_iff_getElem.1 h.ordered i j lt hj hlt
    rw [List.getElem_eq_getD .eof] at hm' hn'
    rw [hm] at hm'
    rw [hn] at hn'
    cases hm'
    cases hn'
    exact ⟨Int.le_of_lt before, fun _ => before⟩
  · rw [hm] at hn
    cases hn
    exact ⟨Int.le_refl _, fun h => absurd h (Nat.lt_irrefl _)⟩

namespace Grammar

variable {reportStray : Bool} {ts : List Token}

/-- **Of two reports the later one is on a later token**, or a binding and
then its offending token are complained about. The earlier one is not on
the end. -/
theorem pairwise_index_findings (reportStray : Bool) (ts : List Token) :
    (findings reportStray ts).Pairwise fun f g => f.index < ts.length ∧
      (f.index < g.index ∨ f.index = g.index ∧ f.OnLet ∧ ¬ g.OnLet) := by
  refine (pairwise_findings reportStray ts).imp_of_mem fun {f g} hf hg hlt => ?_
  have horder := Finding.lt_or_eq_of_time_lt hlt
  refine ⟨?_, horder⟩
  obtain hindex | ⟨hindex, -, stray⟩ := horder
  · exact Nat.lt_of_lt_of_le hindex (index_le_of_mem_findings hg)
  · rw [hindex]
    exact (startsNone_of_stray hg stray).2.1

/-- Findings of one time are one. -/
theorem countP_findings_le_one {P : Finding → Prop} [DecidablePred P] {l : Nat}
    (same : ∀ f, P f → f.time = l) : (findings reportStray ts).countP P ≤ 1 := by
  have ordered := (pairwise_findings reportStray ts).filter fun f => decide (P f)
  have hall : ∀ f ∈ (findings reportStray ts).filter fun f => decide (P f), f.time = l :=
    fun f hf => same f (of_decide_eq_true (List.mem_filter.1 hf).2)
  rw [List.countP_eq_length_filter]
  generalize (findings reportStray ts).filter (fun f => decide (P f)) = fs at ordered hall
  rcases fs with _ | ⟨f, _ | ⟨g, rest⟩⟩
  · exact Nat.zero_le _
  · exact Nat.le_refl _
  · have hlt := List.rel_of_pairwise_cons ordered (.head _)
    rw [hall f (.head _), hall g (.tail _ (.head _))] at hlt
    exact absurd hlt (Nat.lt_irrefl _)

theorem countP_onLet_le_one (k : Nat) :
    (findings reportStray ts).countP (fun f => f.index = k ∧ f.OnLet) ≤ 1 :=
  countP_findings_le_one fun f ⟨h, onLet⟩ => by rw [Finding.time_of_onLet onLet, h]

theorem countP_stray_le_one (k : Nat) :
    (findings reportStray ts).countP (fun f => f.index = k ∧ ¬ f.OnLet) ≤ 1 :=
  countP_findings_le_one fun f ⟨h, stray⟩ => by rw [Finding.time_of_not_onLet stray, h]

/-- **Two reports on one token are next to each other**: first the binding
is complained about and then the token. -/
theorem succ_of_index_eq {i j : Nat} {f g : Finding} (lt : i < j)
    (hf : (findings reportStray ts)[i]? = some f) (hg : (findings reportStray ts)[j]? = some g)
    (same : f.index = g.index) : j = i + 1 ∧ f.OnLet ∧ ¬ g.OnLet := by
  obtain ⟨hi, rfl⟩ := List.getElem?_eq_some_iff.1 hf
  obtain ⟨hj, rfl⟩ := List.getElem?_eq_some_iff.1 hg
  have htime := List.pairwise_iff_getElem.1 (pairwise_findings reportStray ts)
  obtain hlt | ⟨-, onLet, stray⟩ := Finding.lt_or_eq_of_time_lt (htime i j hi hj lt)
  · omega
  · refine ⟨?_, onLet, stray⟩
    obtain gap | next := Nat.lt_or_eq_of_le lt
    · have hnext : i + 1 < (findings reportStray ts).length := Nat.lt_trans gap hj
      exact absurd ⟨htime i (i + 1) hi hnext (Nat.lt_succ_self i), htime (i + 1) j hnext hj gap⟩
        (Finding.not_between onLet stray same)
    · exact next.symm

/-- Without the flag, reports are located one before the other. -/
theorem pairwise_before_reports (located : Located ts) :
    (reports false ts).Pairwise Diagnostic.Before := by
  rw [← map_diagnostic_findings, List.pairwise_map]
  refine (pairwise_index_findings false ts).imp_of_mem ?_
  rintro f g - hg ⟨lt, hlt | ⟨-, -, stray⟩⟩
  · obtain ⟨m, hm, before⟩ := located.exists_location (Nat.le_of_lt hlt) lt
    exact ⟨m, hm, fun n hn => (before n hn).2 hlt⟩
  · cases (startsNone_of_stray hg stray).1

/-- With it, none is located behind a later one. -/
theorem pairwise_notBehind_reports (located : Located ts) (reportStray : Bool) :
    (reports reportStray ts).Pairwise Diagnostic.NotBehind := by
  rw [← map_diagnostic_findings, List.pairwise_map]
  refine (pairwise_index_findings reportStray ts).imp ?_
  rintro f g ⟨lt, order⟩
  have hle : f.index ≤ g.index := order.elim Nat.le_of_lt fun h => Nat.le_of_eq h.1
  obtain ⟨m, hm, before⟩ := located.exists_location hle lt
  exact ⟨m, hm, fun n hn => (before n hn).1⟩

/-- **Reports that are located together are on one token.** -/
theorem index_eq_of_location_eq (located : Located ts) {i j : Nat} {f g : Finding} (lt : i < j)
    (hf : (findings reportStray ts)[i]? = some f) (hg : (findings reportStray ts)[j]? = some g)
    (same : (f.diagnostic ts).location = (g.diagnostic ts).location) : f.index = g.index := by
  obtain heq | ⟨hend, -⟩ := located.eq_of_location_eq same
  · exact heq
  · -- The earlier report is not on the end.
    obtain ⟨hi, rfl⟩ := List.getElem?_eq_some_iff.1 hf
    obtain ⟨hj, rfl⟩ := List.getElem?_eq_some_iff.1 hg
    have hindex := List.pairwise_iff_getElem.1 (pairwise_index_findings reportStray ts)
    exact absurd hend (Nat.not_le_of_lt (hindex i j hi hj lt).1)

/-- **On demand, the token that a binding is given up at is in the next
report** if it starts no statement and is not the end. -/
theorem getElem?_succ_findings_iff (noEnd : ∀ t ∈ ts, t.kind ≠ .eof) {i : Nat} {f : Finding}
    (hf : (findings true ts)[i]? = some f) (onLet : f.OnLet) :
    (findings true ts)[i + 1]? = some ⟨f.index, .statement⟩ ↔
      (ts.getD f.index .eof).StartsNone ∧ (ts.getD f.index .eof).kind ≠ .eof := by
  have stray : ¬ (⟨f.index, .statement⟩ : Finding).OnLet := fun h => h rfl
  constructor
  · intro hnext
    obtain ⟨-, lt, startsNone⟩ := startsNone_of_stray (List.mem_of_getElem? hnext) stray
    have lt : f.index < ts.length := lt
    refine ⟨startsNone, ?_⟩
    rw [← List.getElem_eq_getD (h := lt)]
    exact noEnd _ (List.getElem_mem lt)
  · rintro ⟨startsNone, notEnd⟩
    have lt := lt_length_of_kind_ne_eof notEnd
    have hmem := stray_mem_of_onLet (List.mem_of_getElem? hf) onLet lt startsNone
    obtain ⟨j, hj⟩ := List.mem_iff_getElem?.1 hmem
    rcases Nat.lt_trichotomy i j with hij | rfl | hij
    · obtain ⟨rfl, -⟩ := succ_of_index_eq hij hf hj rfl
      exact hj
    · rw [hf, Option.some.injEq] at hj
      rw [hj] at onLet
      exact absurd onLet stray
    · exact absurd (succ_of_index_eq hij hj hf rfl).2.1 stray

/-- **What is found in located tokens** is in the order of their
locations. -/
theorem findings_findings (located : Located ts) (noEnd : ∀ t ∈ ts, t.kind ≠ .eof)
    (reportStray : Bool) :
    Findings reportStray ts (reports reportStray ts) (findings reportStray ts) where
  reports_eq := map_diagnostic_findings reportStray ts
  within _ := index_le_of_mem_findings
  stray _ := startsNone_of_stray
  strict off := by
    rw [off]
    exact pairwise_before_reports located
  weak := pairwise_notBehind_reports located reportStray
  shared i j d e lt hd he := by
    rw [← map_diagnostic_findings, List.getElem?_map, Option.map_eq_some_iff] at hd he
    obtain ⟨f, hf, rfl⟩ := hd
    obtain ⟨g, hg, rfl⟩ := he
    constructor
    · intro same
      have hindex := index_eq_of_location_eq located lt hf hg same
      obtain ⟨hj, onLet, stray⟩ := succ_of_index_eq lt hf hg hindex
      refine ⟨hj, f, onLet, hf, ?_⟩
      rw [hg, hindex, ← Finding.eq_of_not_onLet stray]
    · rintro ⟨-, f', -, hf', hg'⟩
      obtain rfl := Option.some.inj (hf.symm.trans hf')
      obtain rfl := Option.some.inj (hg.symm.trans hg')
      rfl
  paired on i f hf onLet := by
    subst on
    exact getElem?_succ_findings_iff noEnd hf onLet
  twice k := by
    rw [List.countP_eq_countP_filter_add _ _ fun f => decide f.OnLet, List.countP_filter,
      List.countP_filter]
    have hbinding := @countP_onLet_le_one reportStray ts k
    have hstray := @countP_stray_le_one reportStray ts k
    simp only [Bool.decide_and, decide_not] at hbinding hstray
    omega
  binding_once := countP_onLet_le_one
  stray_once := countP_stray_le_one

end Grammar

/-- **The reports on a source are in order.** Where no run of digits is
refused, a token is reported before the ones behind it, and the end after
all; without the flag no two reports share a location, and with it a
binding that is given up and the token it is given up at do, if that token
starts no statement. -/
theorem read_findings (o : Options) {source : Text} (h : source.Readable) :
    ∃ (ts : List Token) (reading : Reading) (named : List Finding),
      (o.tokenize source).result = .ok (ts ++ [.eof]) ∧ (∀ t ∈ ts, t.kind ≠ .eof) ∧
      (o.read source).result = .ok reading ∧
      Findings o.reportStray ts reading.reports named := by
  have clear : (Cursor.ofText source).refusal? = none := readable_iff.1 h
  have htokens := result_tokenize o source
  have hread := result_read o source
  rw [clear] at htokens hread
  exact ⟨_, _, _, htokens, fun t => Cursor.kind_ne_eof_of_mem_tokens, hread,
    Grammar.findings_findings (Cursor.located_tokens o.overflow _)
      (fun t => Cursor.kind_ne_eof_of_mem_tokens) o.reportStray⟩

/-- One `let` after the other is complained about, and what the last is
given up at is in two reports. -/
theorem read_findings_repeated :
    let on : Options := { Options.standard with reportStray := true }
    let source : Text := "let let let x x"
    let word (n : Int) : Token := ⟨.keyword .letWord, some n, "let", none⟩
    let name : Token := ⟨.identifier, some 14, "x", none⟩
    ∃ (ts : List Token) (reading : Reading) (named : List Finding),
      (on.tokenize source).result = .ok (ts ++ [.eof]) ∧
      (on.read source).result = .ok reading ∧ Findings true ts reading.reports named ∧
      reading.reports = [.unexpected (word 4) .identifier, .unexpected (word 8) .identifier,
        .unexpected name .assignment, .unexpected name .statement] := by
  intro on source word name
  have readable : source.Readable := readable_of_length_le (by decide)
  obtain ⟨ts, reading, named, htokens, -, hread, hfindings⟩ := read_findings on readable
  refine ⟨ts, reading, named, htokens, hread, hfindings, ?_⟩
  have hreports : (on.read source).result.map Reading.reports =
      .ok [.unexpected (word 4) .identifier, .unexpected (word 8) .identifier,
        .unexpected name .assignment, .unexpected name .statement] := by
    decide +kernel
  rw [hread] at hreports
  exact Except.ok.inj hreports

end ScriptReader
