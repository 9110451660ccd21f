import ScriptReader.Reading

/-!
# The grammar — statements as spans of a list of tokens

`Grammar.productions` cuts a list of tokens into spans, one after the
other: a statement up to its semicolon, a malformed binding up to the
token it complains about, or a single token that starts no statement.
`Grammar.reading` reads the statements and the reports off them. No state
is kept and nothing is looked at twice, except the one token a malformed
binding complains about, which belongs to the next span.

`Grammar.Derives` says the same as a relation, and `derives_iff` that the
spans are the only ones.
-/

namespace ScriptReader

namespace Grammar

/-! ## Bodies -/

/-- The tokens up to the first semicolon, and it with them. -/
def through : List Token → List Token
  | [] => []
  | t :: ts => if t.kind = .mark .semicolon then [t] else t :: through ts

/-- The tokens after the first semicolon. -/
def after : List Token → List Token
  | [] => []
  | t :: ts => if t.kind = .mark .semicolon then ts else after ts

theorem through_append_after (ts : List Token) : through ts ++ after ts = ts := by
  induction ts with
  | nil => rfl
  | cons t ts ih =>
    unfold through after
    split
    · rfl
    · rw [List.cons_append, ih]

end Grammar

/-! ## Productions -/

/-- A span of tokens, and what it is. -/
inductive Production where
  /-- A binding, whose body starts after the sign and ends with its
  semicolon, if there is one. -/
  | binding (keyword target sign : Token) (body : List Token)
  /-- A returned value, with its body. -/
  | returning (keyword : Token) (body : List Token)
  /-- A binding with no name: what was found stands in its place. -/
  | unnamed (keyword found : Token)
  /-- A binding with no sign after the name. -/
  | unassigned (keyword target found : Token)
  /-- A token that starts no statement. -/
  | single (t : Token)
deriving DecidableEq

namespace Production

/-- The tokens of a production. What a malformed binding found is not one
of them. -/
def span : Production → List Token
  | binding keyword target sign body => keyword :: target :: sign :: body
  | returning keyword body => keyword :: body
  | unnamed keyword _ => [keyword]
  | unassigned keyword target _ => [keyword, target]
  | single t => [t]

/-- The statement of a production. Its value is the token that the body
starts with, and the end where there is none. -/
def statement? : Production → Option Statement
  | binding keyword target _ body => some (.binding keyword ⟨target⟩ ⟨body.headD .eof⟩)
  | returning keyword body => some (.returning keyword ⟨body.headD .eof⟩)
  | _ => none

/-- A report on a token, with the wording of what is needed in its place. -/
def reportOn (found : Token) (needed : Text) : Diagnostic where
  message := "Unexpected token '" ++ found.literal ++ "'. Expected " ++ needed
  location := found.location

/-- The report on a production. A token that starts no statement is
reported only on demand, and a semicolon never. -/
def report? (reportStray : Bool) : Production → Option Diagnostic
  | unnamed _ found => some (reportOn found "identifier")
  | unassigned _ _ found => some (reportOn found "assignment operator")
  | single t =>
    if reportStray ∧ t.kind ≠ .mark .semicolon then some (reportOn t "statement") else none
  | _ => none

/-! The wordings are those of what a reader expects. -/

section Reports

variable (reportStray : Bool) (keyword target found : Token)

@[simp] theorem report?_unnamed :
    (unnamed keyword found).report? reportStray = some (.unexpected found .identifier) := rfl

@[simp] theorem report?_unassigned :
    (unassigned keyword target found).report? reportStray =
      some (.unexpected found .assignment) := rfl

@[simp] theorem report?_single (t : Token) :
    (single t).report? reportStray =
      if reportStray ∧ t.kind ≠ .mark .semicolon then some (.unexpected t .statement) else none :=
  rfl

end Reports

end Production

namespace Grammar

/-- The production that tokens start with, and the tokens after it. -/
def first (t : Token) (rest : List Token) : Production × List Token :=
  match t.kind with
  | .keyword .letWord =>
    match rest with
    | [] => (.unnamed t .eof, [])
    | name :: rest =>
      if name.kind ≠ .identifier then (.unnamed t name, name :: rest)
      else match rest with
        | [] => (.unassigned t name .eof, [])
        | sign :: rest =>
          if sign.kind = .mark .assign then (.binding t name sign (through rest), after rest)
          else (.unassigned t name sign, sign :: rest)
  | .keyword .returnWord => (.returning t (through rest), after rest)
  | _ => (.single t, rest)

/-- A production and the tokens after it are the tokens before it. -/
theorem span_append_first (t : Token) (rest : List Token) :
    (first t rest).1.span ++ (first t rest).2 = t :: rest := by
  unfold first
  repeat' split
  all_goals simp [Production.span, through_append_after]

theorem length_first_lt (t : Token) (rest : List Token) :
    (first t rest).2.length < (t :: rest).length := by
  have h := congrArg List.length (span_append_first t rest)
  have hpos : 0 < (first t rest).1.span.length := by
    cases (first t rest).1 <;> simp [Production.span]
  rw [List.length_append] at h
  omega

/-- **Tokens cut into productions**, one after the other. -/
def productions : List Token → List Production
  | [] => []
  | t :: rest => (first t rest).1 :: productions (first t rest).2
termination_by ts => ts.length
decreasing_by exact length_first_lt t rest

/-- The statements of tokens. -/
def statements (ts : List Token) : List Statement :=
  (productions ts).filterMap Production.statement?

/-- The reports on tokens. -/
def reports (reportStray : Bool) (ts : List Token) : List Diagnostic :=
  (productions ts).filterMap (Production.report? reportStray)

/-- What reading tokens comes to. -/
def reading (reportStray : Bool) (ts : List Token) : Reading where
  program := ⟨statements ts⟩
  reports := reports reportStray ts

@[simp] theorem productions_nil : productions [] = [] := by rw [productions]

theorem productions_cons (t : Token) (rest : List Token) :
    productions (t :: rest) = (first t rest).1 :: productions (first t rest).2 := by
  rw [productions]

/-! ## The spans as a relation -/

/-- **Where a body ends**: with the first semicolon, or at the end. -/
inductive Closes : List Token → List Token → Prop
  | semicolon {body behind : List Token} {t : Token}
      (inside : ∀ u ∈ body, u.kind ≠ .mark .semicolon) (stop : t.kind = .mark .semicolon) :
      Closes (body ++ [t]) behind
  | finish {body : List Token} (inside : ∀ u ∈ body, u.kind ≠ .mark .semicolon) : Closes body []

theorem closes_through (ts : List Token) : Closes (through ts) (after ts) := by
  induction ts with
  | nil => exact .finish (by simp [through])
  | cons t ts ih =>
    unfold through after
    split
    · next h => exact @Closes.semicolon [] ts t (by simp) h
    · next h =>
      generalize hbody : through ts = body at ih
      generalize hbehind : after ts = behind at ih
      cases ih with
      | semicolon inside stop =>
        rw [← List.cons_append]
        exact .semicolon (List.forall_mem_cons.2 ⟨h, inside⟩) stop
      | finish inside => exact .finish (List.forall_mem_cons.2 ⟨h, inside⟩)

theorem Closes.through_after {body behind : List Token} (h : Closes body behind) :
    through (body ++ behind) = body ∧ after (body ++ behind) = behind := by
  cases h with
  | @semicolon body behind t inside stop =>
    rw [List.append_assoc, List.singleton_append]
    induction body with
    | nil => simp [through, after, stop]
    | cons u body ih =>
      obtain ⟨hu, inside⟩ := List.forall_mem_cons.1 inside
      obtain ⟨hthrough, hafter⟩ := ih inside
      simp [through, after, hu, hthrough, hafter]
  | finish inside =>
    rw [List.append_nil]
    induction body with
    | nil => exact ⟨rfl, rfl⟩
    | cons u body ih =>
      obtain ⟨hu, inside⟩ := List.forall_mem_cons.1 inside
      obtain ⟨hthrough, hafter⟩ := ih inside
      simp [through, after, hu, hthrough, hafter]

/-- The token that a body starts with is the one that is found there. -/
theorem Closes.headD_append {body behind : List Token} (h : Closes body behind) :
    (body ++ behind).headD .eof = body.headD .eof := by
  cases h with
  | @semicolon body behind t _ _ => cases body <;> rfl
  | finish _ => rw [List.append_nil]

/-- **What a production is**, with the tokens behind it. -/
inductive Fits : Production → List Token → Prop
  | binding {keyword target sign : Token} {body behind : List Token}
      (isLet : keyword.kind = .keyword .letWord) (isName : target.kind = .identifier)
      (isSign : sign.kind = .mark .assign) (closes : Closes body behind) :
      Fits (.binding keyword target sign body) behind
  | returning {keyword : Token} {body behind : List Token}
      (isReturn : keyword.kind = .keyword .returnWord) (closes : Closes body behind) :
      Fits (.returning keyword body) behind
  | unnamed {keyword : Token} {behind : List Token} (isLet : keyword.kind = .keyword .letWord)
      (noName : (behind.headD .eof).kind ≠ .identifier) :
      Fits (.unnamed keyword (behind.headD .eof)) behind
  | unassigned {keyword target : Token} {behind : List Token}
      (isLet : keyword.kind = .keyword .letWord) (isName : target.kind = .identifier)
      (noSign : (behind.headD .eof).kind ≠ .mark .assign) :
      Fits (.unassigned keyword target (behind.headD .eof)) behind
  | single {t : Token} {behind : List Token} (noLet : t.kind ≠ .keyword .letWord)
      (noReturn : t.kind ≠ .keyword .returnWord) : Fits (.single t) behind

/-- **Tokens as productions**, one behind the other. -/
inductive Derives : List Token → List Production → Prop
  | nil : Derives [] []
  | cons {p : Production} {behind : List Token} {ps : List Production} (fits : Fits p behind)
      (later : Derives behind ps) : Derives (p.span ++ behind) (p :: ps)

theorem fits_first (t : Token) (rest : List Token) : Fits (first t rest).1 (first t rest).2 := by
  unfold first
  split
  · next hlet =>
    split
    · exact @Fits.unnamed t [] hlet (by decide)
    · next name rest =>
      split
      · next hname => exact @Fits.unnamed t (name :: rest) hlet hname
      · next hname =>
        have hname := Decidable.not_not.1 hname
        split
        · exact @Fits.unassigned t name [] hlet hname (by decide)
        · next sign rest =>
          split
          · next hsign => exact .binding hlet hname hsign (closes_through rest)
          · next hsign => exact @Fits.unassigned t name (sign :: rest) hlet hname hsign
  · next hreturn => exact .returning hreturn (closes_through rest)
  · next hlet hreturn => exact .single hlet hreturn

/-- No other production fits. -/
theorem first_of_fits {p : Production} {behind : List Token} (h : Fits p behind) {t : Token}
    {rest : List Token} (tokens : t :: rest = p.span ++ behind) : first t rest = (p, behind) := by
  cases h with
  | binding isLet isName isSign closes =>
    cases tokens
    obtain ⟨hthrough, hafter⟩ := closes.through_after
    simp [first, isLet, isName, isSign, hthrough, hafter]
  | returning isReturn closes =>
    cases tokens
    obtain ⟨hthrough, hafter⟩ := closes.through_after
    simp [first, isReturn, hthrough, hafter]
  | unnamed isLet noName =>
    cases tokens
    cases behind <;> simp_all [first]
  | unassigned isLet isName noSign =>
    cases tokens
    cases behind <;> simp_all [first]
  | single noLet noReturn =>
    cases tokens
    unfold first
    split
    · contradiction
    · contradiction
    · rfl

theorem derives_productions (ts : List Token) : Derives ts (productions ts) := by
  fun_induction productions ts with
  | case1 => exact .nil
  | case2 t rest ih =>
    rw [← span_append_first t rest]
    exact .cons (fits_first t rest) ih

/-- **The productions are the one derivation of their tokens.** -/
theorem derives_iff {ts : List Token} {ps : List Production} :
    Derives ts ps ↔ productions ts = ps := by
  constructor
  · intro h
    induction h with
    | nil => exact productions_nil
    | @cons p behind ps fits later ih =>
      -- Only one production fits at the front, and `first` finds it.
      rcases htokens : p.span ++ behind with _ | ⟨t, rest⟩
      · cases p <;> simp [Production.span] at htokens
      · rw [productions_cons, first_of_fits fits htokens.symm, ih]
  · rintro rfl
    exact derives_productions ts

end Grammar

end ScriptReader
