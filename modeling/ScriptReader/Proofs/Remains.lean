import ScriptReader.Proofs.Halts
import ScriptReader.Proofs.Spans

/-!
# Remains — what a refused run leaves of a reading

A reader that has halted at a refused run still holds its reports and has
a scanner behind the run. The reports are those on the text before the
run, but for the ones that need its end (`Kept`,
`Grammar.filter_reports`). The scanner goes on, so the program can be asked
for again, and then the token in both places is read twice
(`Halt.readsOn`).

`program_halts` is the theorem for a source: a new reader is built, its
program is refused, and `Halted` says what remains.
-/

namespace ScriptReader

/-! ## Reports in front of a refusal -/

/-- **Whether a report is made before reading halts** behind some tokens:
a malformed binding complains about one of them, and a token that starts
no statement is not the last of them. -/
def Kept (ts : List Token) (d : Diagnostic) : Prop :=
  (∃ t ∈ ts, d = .unexpected t .identifier ∨ d = .unexpected t .assignment) ∨
    ∃ t ∈ ts.dropLast, d = .unexpected t .statement

instance (ts : List Token) : DecidablePred (Kept ts) := fun _ =>
  inferInstanceAs (Decidable (_ ∨ _))

namespace Located

variable {ts : List Token} {t u : Token} {a b : Expected}

/-- A report tells its token and what was needed. -/
theorem eq_of_unexpected_eq (located : Located ts) (ht : t ∈ ts) (hu : u ∈ ts)
    (h : Diagnostic.unexpected t a = .unexpected u b) : a = b ∧ t = u := by
  obtain ⟨i, hi, rfl⟩ := List.mem_iff_getElem.1 ht
  obtain ⟨j, hj, rfl⟩ := List.mem_iff_getElem.1 hu
  rw [List.getElem_eq_getD .eof, List.getElem_eq_getD .eof] at h ⊢
  obtain ⟨rfl, rfl | ⟨hge, -⟩⟩ := located.unexpected_inj h
  · exact ⟨rfl, rfl⟩
  · omega

/-- A complaint about the end comes too late. -/
theorem not_kept_eof (located : Located ts) : ¬ Kept ts (.unexpected .eof a) := by
  have foreign : ∀ t ∈ ts, ∀ b, Diagnostic.unexpected .eof a ≠ .unexpected t b := fun t ht b h =>
    located.location_ne_none t ht (congrArg Diagnostic.location h).symm
  rintro (⟨t, ht, h | h⟩ | ⟨t, ht, h⟩)
  · exact foreign t ht _ h
  · exact foreign t ht _ h
  · exact foreign t (List.dropLast_subset ts ht) _ h

/-- So does a report on the last token, which starts no statement. -/
theorem not_kept_last {earlier : List Token} (located : Located (earlier ++ [t])) :
    ¬ Kept (earlier ++ [t]) (.unexpected t .statement) := by
  have last : t ∈ earlier ++ [t] := List.mem_append_right _ (List.mem_singleton_self t)
  rintro (⟨u, hu, h | h⟩ | ⟨u, hu, h⟩)
  · cases (located.eq_of_unexpected_eq last hu h).1
  · cases (located.eq_of_unexpected_eq last hu h).1
  · obtain rfl := (located.eq_of_unexpected_eq last (List.dropLast_subset _ hu) h).2
    rw [List.dropLast_concat] at hu
    -- No two tokens are at one place.
    have hnodup := located.nodup_map_location
    rw [List.map_append, List.map_singleton, List.nodup_append] at hnodup
    exact hnodup.2.2 _ (List.mem_map_of_mem hu) _ (List.mem_singleton_self _) rfl

end Located

namespace Grammar

variable {p : Production} {t : Token} {ts earlier behind : List Token} {d : Diagnostic}
  {reportStray : Bool}

/-- **A report on a production that has a token behind it is made.** -/
theorem Fits.kept (fits : Fits p (t :: behind)) (report : p.report? reportStray = some d) :
    Kept (earlier ++ (p.span ++ t :: behind)) d := by
  cases fits with
  | binding => cases report
  | returning => cases report
  | unnamed =>
    cases report
    exact .inl ⟨t, by simp, .inl rfl⟩
  | unassigned =>
    cases report
    exact .inl ⟨t, by simp, .inr rfl⟩
  | @single u =>
    rw [Production.report?_single, Option.ite_none_right_eq_some] at report
    cases report.2
    refine .inr ⟨u, ?_, rfl⟩
    rw [Production.span, List.dropLast_append_of_ne_nil (by simp)]
    simp

/-- **And one on the last production is not.** -/
theorem Fits.not_kept (fits : Fits p []) (located : Located (earlier ++ p.span))
    (report : p.report? reportStray = some d) : ¬ Kept (earlier ++ p.span) d := by
  generalize hbehind : ([] : List Token) = behind at fits
  cases fits with
  | binding => cases report
  | returning => cases report
  | unnamed =>
    subst hbehind
    rw [Production.report?_unnamed] at report
    cases report
    exact located.not_kept_eof
  | unassigned =>
    subst hbehind
    rw [Production.report?_unassigned] at report
    cases report
    exact located.not_kept_eof
  | single =>
    rw [Production.report?_single, Option.ite_none_right_eq_some] at report
    cases report.2
    exact located.not_kept_last

/-- **The reports that are made** are those on all productions but the
last. -/
theorem filter_reports {ps : List Production} (derives : Derives ts ps)
    (located : Located (earlier ++ ts)) :
    ((ps.filterMap (Production.report? reportStray)).filter fun d => Kept (earlier ++ ts) d) =
      ps.dropLast.filterMap (Production.report? reportStray) := by
  induction derives generalizing earlier with
  | nil => rfl
  | @cons p behind ps fits later ih =>
    rw [Reader.filterMap_cons_eq_append, List.filter_append]
    cases behind with
    | nil =>
      obtain rfl : ps = [] := List.eq_nil_of_length_eq_zero (Nat.le_zero.1 later.length_le)
      rw [List.append_nil] at located ⊢
      refine List.append_eq_nil_iff.2 ⟨List.filter_eq_nil_iff.2 fun d hd => ?_, rfl⟩
      rw [decide_eq_true_eq]
      exact fits.not_kept located (Option.mem_toList.1 hd)
    | cons t behind =>
      have hps : ps ≠ [] := by
        rintro rfl
        cases later.eq_nil
      have hkept : ((p.report? reportStray).toList.filter fun d =>
          Kept (earlier ++ (p.span ++ t :: behind)) d) = (p.report? reportStray).toList := by
        rw [List.filter_eq_self]
        intro d hd
        rw [decide_eq_true_eq]
        exact fits.kept (Option.mem_toList.1 hd)
      rw [← List.append_assoc] at located
      rw [hkept, List.dropLast_cons_of_ne_nil hps, Reader.filterMap_cons_eq_append,
        ← List.append_assoc earlier, ih located]

end Grammar

/-! ## Reading on -/

/-- **What a halted reader has ahead**: the last token, twice, and what is
behind the refused run. -/
theorem Halt.sees_reader {halt : Halt} {policy : Text} (visible : halt.last.kind ≠ .eof)
    (clear : halt.cursor.refusal? = none) (reports : List Diagnostic) :
    (halt.reader reports).Sees policy (halt.last :: halt.last :: halt.cursor.tokens policy) := by
  refine ⟨⟨fun eof => absurd eof visible, fun eof => absurd eof visible⟩, clear, ?_⟩
  have hvisible : ∀ t ∈ halt.last :: halt.last :: halt.cursor.tokens policy, t.kind ≠ .eof :=
    List.forall_mem_cons.2 ⟨visible, List.forall_mem_cons.2
      ⟨visible, fun t => Cursor.kind_ne_eof_of_mem_tokens⟩⟩
  have htake := @List.takeWhile_append_of_pos _ (fun t : Token => decide (t.kind ≠ .eof)) _ []
    (fun t ht => decide_eq_true (hvisible t ht))
  rwa [List.append_nil, List.takeWhile_nil, List.append_nil] at htake

/-! ## A source with a refused run -/

/-- **Asking for the program again**: it is that of a new reader with
these tokens ahead, and so are the reports that come to those there are. -/
structure ReadsOn (o : Options) (r : Reader) (ts : List Token) : Prop where
  result : (r.program o.rules).result = .ok (Grammar.reading o.reportStray ts).program
  reports : (r.program o.rules).state.reports =
    r.reports ++ (Grammar.reading o.reportStray ts).reports
  /-- Any new reader with these tokens ahead reads the same. -/
  fresh : ∀ q : Reader, q.reports = [] → q.Sees o.overflow ts →
    (q.program o.rules).result = .ok (Grammar.reading o.reportStray ts).program ∧
      (q.program o.rules).state.reports = (Grammar.reading o.reportStray ts).reports

/-- **What a refused run leaves of a reading** of the text before it, the
run and the text after it, where the text before it holds some tokens. -/
structure Halted (o : Options) (before run after : Text) (ts : List Token)
    (reading : Outcome Reader Program) : Prop where
  /-- Reading is refused for the run, and there is no program. -/
  refused : reading.result = .error ⟨run.length⟩
  /-- The last token is current, and comes next. -/
  current : ts.getLast? = some reading.state.current
  peek : reading.state.peek = reading.state.current
  /-- Scanning goes on behind the run, whose bytes are not counted. -/
  cursor : reading.state.cursor = ⟨after, before.size⟩
  /-- The reports are those on the text before the run, but for the last
  ones. -/
  reports : ∃ complete : Reading, (o.read before).result = .ok complete ∧
    reading.state.reports = complete.reports.filter fun d => Kept ts d
  /-- If nothing else is refused, the last token is read twice, and then
  what stands behind the run. -/
  again : after.Readable → ∃ us : List Token,
    (o.tokenize after).result = .ok (us ++ [.eof]) ∧
      ReadsOn o reading.state
        (reading.state.current :: reading.state.current :: us.map (Token.shift before.size))

/-- A halted reader reads on. -/
theorem Halt.readsOn (o : Options) (halt : Halt) (visible : halt.last.kind ≠ .eof)
    (clear : halt.cursor.refusal? = none) (reports : List Diagnostic) :
    ReadsOn o (halt.reader reports) (halt.last :: halt.last :: halt.cursor.tokens o.overflow) := by
  have sees := @sees_reader halt o.overflow visible clear reports
  have hread := Reader.reads_program o.rules sees
  refine ⟨hread.result, hread.reports_eq, fun q hreports hsees => ?_⟩
  have hfresh := Reader.reads_program o.rules hsees
  rw [hreports, List.nil_append] at hfresh
  exact ⟨hfresh.result, hfresh.reports_eq⟩

/-- **Two tokens and a refusal** build a new reader and halt it. -/
theorem halted_of_delivers (o : Options) {source before run after : Text} {t u : Token}
    {ts : List Token} (clear : (Cursor.ofText before).refusal? = none)
    (tokens : (Cursor.ofText before).tokens o.overflow = t :: u :: ts)
    (delivers : (Cursor.ofText source).Delivers o.overflow ⟨run.length⟩ (t :: u :: ts)
      ⟨after, before.size⟩) :
    (Reader.prime o.overflow (.ofText source)).result = .ok (t, u) ∧
      Halted o before run after (t :: u :: ts)
        (Reader.program o.rules ⟨(Reader.prime o.overflow (.ofText source)).state, t, u, []⟩) := by
  obtain ⟨last, hlast⟩ : ∃ last, (t :: u :: ts).getLast? = some last :=
    ⟨_, List.getLast?_eq_some_getLast (List.cons_ne_nil t (u :: ts))⟩
  have visible : last.kind ≠ .eof := delivers.visible last (List.mem_of_getLast? hlast)
  obtain ⟨hprime, faces⟩ := Reader.faces_of_prime delivers hlast
  obtain ⟨hresult, hstate⟩ := Reader.halts_program o.rules faces
  have hread := result_read o before
  rw [clear, tokens] at hread
  have located := Cursor.located_tokens o.overflow (.ofText before)
  rw [tokens] at located
  refine ⟨hprime, hresult, ?_, ?_, ?_, ⟨_, hread, ?_⟩, fun readable => ?_⟩
  · rw [hstate]
    exact hlast
  · rw [hstate]
    rfl
  · rw [hstate]
    rfl
  · rw [hstate]
    have derives := Grammar.derives_productions (t :: u :: ts)
    exact (@Grammar.filter_reports _ [] o.reportStray _ derives located).symm
  · have clear' : (Cursor.ofText after).refusal? = none := readable_iff.1 readable
    have hclear : Cursor.refusal? ⟨after, before.size⟩ = none := readable_iff.1 readable
    refine ⟨(Cursor.ofText after).tokens o.overflow, ?_, ?_⟩
    · rw [result_tokenize, clear']
    · rw [hstate, ← Cursor.tokens_at]
      exact Halt.readsOn o ⟨_, _, last⟩ visible hclear _

/-- **A refused run halts a reading**, if it is behind two pieces of
source at the least: a new reader is built, and its program is refused
with these things left. -/
theorem program_halts (o : Options) {source run : Text} {raws more : List Text}
    (cut : Cut source (raws ++ run :: more)) (two : 2 ≤ raws.length)
    (clear : ∀ raw ∈ raws, raw.isNumeral = true → raw.length ≤ Numeral.longest)
    (isNumeral : run.isNumeral = true) (long : Numeral.longest < run.length) :
    ∃ (before after : Text) (t u : Token) (ts : List Token), source = before ++ run ++ after ∧
      (o.tokenize before).result = .ok (t :: u :: ts ++ [.eof]) ∧
      (t :: u :: ts).map Token.raw = raws ∧
      (Cursor.ofText source).Delivers o.overflow ⟨run.length⟩ (t :: u :: ts)
        ⟨after, before.size⟩ ∧
      (Reader.prime o.overflow (.ofText source)).result = .ok (t, u) ∧
      Halted o before run after (t :: u :: ts)
        (Reader.program o.rules ⟨(Reader.prime o.overflow (.ofText source)).state, t, u, []⟩) := by
  have refused : (Lexeme.ofRaw run).refusal? = some ⟨run.length⟩ :=
    Lexeme.refusal_ofRaw_eq_some_iff.2 ⟨isNumeral, long, rfl⟩
  obtain ⟨before, after, hsource, hcut, hdelivers⟩ := cut.delivers o.overflow clear refused 0
  rw [Nat.zero_add] at hdelivers
  have hplaces : raws = (Cursor.ofText before).places.map fun p => p.lexeme.raw :=
    (@Cursor.cut_iff (.ofText before) raws).1 hcut
  have readable : (Cursor.ofText before).refusal? = none := by
    refine readable_iff.1 fun raws' hcut' => ?_
    rwa [(@Cursor.cut_iff (.ofText before) raws').1 hcut', ← hplaces]
  have hraws : ((Cursor.ofText before).tokens o.overflow).map Token.raw = raws := by
    rw [Cursor.map_raw_tokens readable, hplaces]
  have hlength := congrArg List.length hraws
  rw [List.length_map] at hlength
  obtain ⟨t, u, ts, htokens⟩ :
      ∃ t u ts, (Cursor.ofText before).tokens o.overflow = t :: u :: ts := by
    rcases h : (Cursor.ofText before).tokens o.overflow with _ | ⟨t, _ | ⟨u, ts⟩⟩
    · rw [h, List.length_nil] at hlength
      omega
    · rw [h, List.length_singleton] at hlength
      omega
    · exact ⟨t, u, ts, rfl⟩
  change Cursor.Delivers _ _ _ ((Cursor.ofText before).tokens o.overflow) _ at hdelivers
  rw [htokens] at hdelivers
  refine ⟨before, after, t, u, ts, hsource, ?_, htokens ▸ hraws, hdelivers,
    halted_of_delivers o readable htokens hdelivers⟩
  rw [result_tokenize, readable, htokens]

/-- A run of zeros. -/
def Text.zeros (n : Nat) : Text := List.replicate n (CodePoint.ofChar '0')

theorem Text.length_zeros (n : Nat) : (zeros n).length = n := List.length_replicate

theorem Text.isNumeral_zeros (n : Nat) : (zeros (n + 1)).isNumeral = true := by
  have hall : (zeros n).all CodePoint.isDigit = true := by
    rw [zeros, List.all_replicate]
    cases n <;> rfl
  exact hall

/-- A run of digits behind a binding with no name. -/
theorem cut_let_numeral {run : Text} (isNumeral : run.isNumeral = true) :
    Cut ("let 5 " ++ (run ++ ";")) ([("let" : Text), "5"] ++ run :: [(";" : Text)]) := by
  have mark : Cut ";" [";"] :=
    @Cut.lexeme [] ";" [] [] rfl (.single rfl rfl rfl (by decide) (by decide)) (.blank rfl)
  have digits : Cut (" " ++ (run ++ ";")) [run, ";"] :=
    @Cut.lexeme " " run ";" _ rfl (.digits isNumeral (by decide)) mark
  have five : Cut (" 5 " ++ (run ++ ";")) ["5", run, ";"] := by
    refine @Cut.lexeme " " "5" (" " ++ (run ++ ";")) _ rfl (.digits rfl ?_) digits
    rintro c ⟨⟩
    rfl
  refine @Cut.lexeme [] "let" (" 5 " ++ (run ++ ";")) _ rfl (.word rfl ?_) five
  rintro c ⟨⟩
  rfl

/-- With one digit more than can be read, the binding is given up, and then
the reader is left with what stood in the place of the name. -/
theorem program_halts_zeros :
    Cut ("let 5 " ++ (Text.zeros 4301 ++ ";"))
        ([("let" : Text), "5"] ++ Text.zeros 4301 :: [(";" : Text)]) ∧
      ∃ t u left, (Reader.prime "illegal"
          (.ofText ("let 5 " ++ (Text.zeros 4301 ++ ";")))).result = .ok (t, u) ∧
        ((Reader.mk (Reader.prime "illegal"
          (.ofText ("let 5 " ++ (Text.zeros 4301 ++ ";")))).state t u []).program
            ⟨"illegal", false⟩).result = .error ⟨4301⟩ ∧
        ((Reader.mk (Reader.prime "illegal"
          (.ofText ("let 5 " ++ (Text.zeros 4301 ++ ";")))).state t u []).program
            ⟨"illegal", false⟩).state = left ∧
        left.current.raw = "5" ∧ left.peek = left.current := by
  have cut := cut_let_numeral (Text.isNumeral_zeros 4300)
  have long : Numeral.longest < (Text.zeros 4301).length := by
    rw [Text.length_zeros]
    decide
  obtain ⟨before, after, t, u, ts, -, -, hraws, -, hprime, halted⟩ := program_halts .standard cut
    (Nat.le_refl 2) (by decide) (Text.isNumeral_zeros 4300) long
  have hcurrent := congrArg (Option.map Token.raw) halted.current
  rw [← List.getLast?_map, hraws] at hcurrent
  have hrefused := halted.refused
  rw [Text.length_zeros] at hrefused
  exact ⟨cut, t, u, _, hprime, hrefused, rfl, (Option.some.inj hcurrent).symm, halted.peek⟩

end ScriptReader
