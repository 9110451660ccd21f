import ScriptReader.Proofs.Grammar

/-!
# Positions — where productions stand among their tokens

`Grammar.arrangement` gives every production of tokens the index at which
it starts. Each stands there (`Grammar.stands_of_mem_arrangement`): its
span is found from its start, up to where it stops. The productions stand
one after the other (`Grammar.pairwise_arrangement`) and leave no token
out (`Grammar.exists_mem_arrangement`), so a fact about the token at an
index is a fact about the production around it.
-/

namespace ScriptReader

/-- A production, with the index of its first token. -/
structure Placed where
  start : Nat
  production : Production
deriving DecidableEq

namespace Placed

/-- The index behind the last token of a production. -/
def stop (q : Placed) : Nat := q.start + q.production.span.length

/-- **A production stands among tokens** at its index. -/
structure Stands (q : Placed) (ts : List Token) : Prop where
  tokens : ts.drop q.start = q.production.span ++ ts.drop q.stop
  fits : Grammar.Fits q.production (ts.drop q.stop)

end Placed

theorem Production.length_span_pos (p : Production) : 0 < p.span.length := by
  cases p <;> simp [span]

namespace Grammar

variable {ts : List Token} {ps : List Production} {q : Placed} {k : Nat}

/-- Productions one behind the other, from an index on. -/
def placed : Nat → List Production → List Placed
  | _, [] => []
  | k, p :: ps => ⟨k, p⟩ :: placed (k + p.span.length) ps

/-- The productions of tokens, where they stand. -/
def arrangement (ts : List Token) : List Placed := placed 0 (productions ts)

theorem map_production_placed (k : Nat) (ps : List Production) :
    (placed k ps).map Placed.production = ps := by
  induction ps generalizing k with
  | nil => rfl
  | cons p ps ih => rw [placed, List.map_cons, ih]

theorem map_production_arrangement (ts : List Token) :
    (arrangement ts).map Placed.production = productions ts :=
  map_production_placed 0 _

theorem start_ge_of_mem_placed (h : q ∈ placed k ps) : k ≤ q.start := by
  induction ps generalizing k with
  | nil => cases h
  | cons p ps ih =>
    obtain rfl | h := List.mem_cons.1 h
    · exact Nat.le_refl _
    · have := ih h
      omega

/-- **Productions do not overlap**, and stand in order. -/
theorem pairwise_placed (k : Nat) (ps : List Production) :
    (placed k ps).Pairwise fun q r => q.stop ≤ r.start := by
  induction ps generalizing k with
  | nil => exact .nil
  | cons p ps ih => exact .cons (fun r hr => start_ge_of_mem_placed hr) (ih _)

theorem pairwise_arrangement (ts : List Token) :
    (arrangement ts).Pairwise fun q r => q.stop ≤ r.start :=
  pairwise_placed 0 _

/-- Where the productions of the tokens behind `us` stand. -/
theorem stands_of_mem_placed (derives : Derives ts ps) (us : List Token)
    (h : q ∈ placed us.length ps) : q.Stands (us ++ ts) := by
  induction derives generalizing us with
  | nil => cases h
  | @cons p behind ps fits later ih =>
    obtain rfl | h := List.mem_cons.1 h
    · have hstop : (us ++ (p.span ++ behind)).drop (us.length + p.span.length) = behind := by
        rw [← List.append_assoc, ← List.length_append, List.drop_left]
      refine ⟨?_, ?_⟩
      · rw [Placed.stop, hstop, List.drop_left]
      · rwa [Placed.stop, hstop]
    · rw [← List.append_assoc]
      refine ih (us ++ p.span) ?_
      rwa [List.length_append]

/-- **Every production stands at its index.** -/
theorem stands_of_mem_arrangement (h : q ∈ arrangement ts) : q.Stands ts :=
  stands_of_mem_placed (derives_productions ts) [] h

/-- And no token is left out. -/
theorem exists_mem_placed (derives : Derives ts ps) (k : Nat) {i : Nat} (ge : k ≤ i)
    (lt : i < k + ts.length) : ∃ q ∈ placed k ps, q.start ≤ i ∧ i < q.stop := by
  induction derives generalizing k with
  | nil =>
    rw [List.length_nil] at lt
    omega
  | @cons p behind ps fits later ih =>
    rw [List.length_append] at lt
    rcases Nat.lt_or_ge i (k + p.span.length) with here | after
    · exact ⟨_, .head _, ge, here⟩
    · obtain ⟨q, hq, hle, hlt⟩ := ih (k + p.span.length) after (by omega)
      exact ⟨q, .tail _ hq, hle, hlt⟩

/-- **Every token is one of a production.** -/
theorem exists_mem_arrangement {i : Nat} (h : i < ts.length) :
    ∃ q ∈ arrangement ts, q.start ≤ i ∧ i < q.stop :=
  exists_mem_placed (derives_productions ts) 0 (Nat.zero_le i) (by omega)

end Grammar

/-! ## The tokens of a production that stands -/

theorem headD_drop (ts : List Token) (k : Nat) : (ts.drop k).headD .eof = ts.getD k .eof := by
  rw [List.headD_eq_head?_getD, List.head?_drop, List.getD_eq_getElem?_getD]

namespace Placed

theorem start_lt_stop (q : Placed) : q.start < q.stop := by
  have hpos := q.production.length_span_pos
  unfold stop
  omega

namespace Stands

variable {q : Placed} {ts : List Token}

/-- The tokens from somewhere in a production on. -/
theorem drop_add (h : q.Stands ts) {i : Nat} (hi : i ≤ q.production.span.length) :
    ts.drop (q.start + i) = q.production.span.drop i ++ ts.drop q.stop := by
  rw [← List.drop_drop, h.tokens, List.drop_append_of_le_length hi]

theorem stop_le (h : q.Stands ts) : q.stop ≤ ts.length := by
  have hlen := congrArg List.length h.tokens
  have hpos := q.production.length_span_pos
  rw [List.length_append, List.length_drop, List.length_drop] at hlen
  unfold Placed.stop at hlen ⊢
  omega

/-- A token between the start and the stop is one of the production. -/
theorem getElem?_mem_span (h : q.Stands ts) {k : Nat} (ge : q.start ≤ k) (lt : k < q.stop) :
    ∃ t ∈ q.production.span, ts[k]? = some t := by
  obtain ⟨i, rfl⟩ := Nat.exists_eq_add_of_le ge
  have hi : i < q.production.span.length := by
    unfold stop at lt
    omega
  refine ⟨q.production.span[i], List.getElem_mem hi, ?_⟩
  rw [← List.getElem?_drop, h.tokens, List.getElem?_append_left hi, List.getElem?_eq_getElem hi]

end Stands

end Placed

namespace Grammar

/-- **A production is known by where it starts.** -/
theorem eq_of_start_eq {ts : List Token} {q r : Placed} (hq : q ∈ arrangement ts)
    (hr : r ∈ arrangement ts) (h : q.start = r.start) : q = r := by
  have apart := List.pairwise_iff_getElem.1 (pairwise_arrangement ts)
  obtain ⟨i, hi, rfl⟩ := List.mem_iff_getElem.1 hq
  obtain ⟨j, hj, rfl⟩ := List.mem_iff_getElem.1 hr
  rcases Nat.lt_trichotomy i j with hij | rfl | hij
  · have := apart i j hi hj hij
    have := (arrangement ts)[i].start_lt_stop
    omega
  · rfl
  · have := apart j i hj hi hij
    have := (arrangement ts)[j].start_lt_stop
    omega

theorem nodup_arrangement (ts : List Token) : (arrangement ts).Nodup := by
  rw [List.nodup_iff_pairwise_ne]
  refine (pairwise_arrangement ts).imp ?_
  rintro q r hle rfl
  have := q.start_lt_stop
  omega

end Grammar

end ScriptReader
