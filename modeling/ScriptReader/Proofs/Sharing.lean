import ScriptReader.Proofs.Locations
import ScriptReader.Proofs.Sight
import ScriptReader.Proofs.Turns
import Mathlib.Data.List.Nodup
import Mathlib.Data.List.Pairwise

/-!
# Sharing — one scanner, many consumers

A scanner of a session may be asked directly, through iterators, and by
any number of readers, in any order. A `Ledger` goes along with a session
and notes who has drawn what from one scanner: each direct request and
each iterator is a consumer, and so is each reader, for all requests to
it. `Ledger.Fair` is what every request keeps (`Ledger.fair_step`): the
draws are the first of one stream, and each reader has seen no tokens but
its own.

`shared_run` draws the consequences for a whole session. No token is lost
and none is drawn twice, since those of a stream are located one after
the other (`Cursor.nodup_stream`).
-/

namespace ScriptReader

namespace Cursor

variable {policy : Text} {s left : Cursor}

/-- The tokens ahead are those of the draws ahead. -/
theorem tokens_ahead (policy : Text) (s : Cursor) :
    Draw.tokens (s.ahead policy) = s.tokens policy := by
  rw [ahead, Draw.tokens, List.filterMap_map, tokens]
  refine List.filterMap_congr fun p _ => ?_
  show (Draw.ofAnswer (p.token policy)).token? = _
  cases p.token policy <;> rfl

/-- **No token comes twice in a stream**, but for the end. -/
theorem nodup_stream (policy : Text) (s : Cursor) (n : Nat) :
    ((Draw.tokens (s.stream policy n)).filter fun t => decide (t.kind ≠ .eof)).Nodup := by
  have ends : ∀ k, (Draw.tokens (List.replicate k (.token .eof))).filter
      (fun t => decide (t.kind ≠ .eof)) = [] := by
    intro k
    induction k with
    | zero => rfl
    | succ k ih => exact ih
  have taken : (Draw.tokens ((s.ahead policy).take n)).Sublist (s.tokens policy) := by
    rw [← tokens_ahead]
    exact (List.take_sublist _ _).filterMap _
  rw [stream_eq, Draw.tokens_append, List.filter_append, ends, List.append_nil]
  refine List.Nodup.sublist (List.filter_sublist.trans taken) ?_
  exact List.Nodup.of_map _ (located_tokens policy s).nodup_map_location

end Cursor

namespace Session

/-- **An answer that is made of some tokens.** -/
def Answer.From (seen : List Token) (a : Answer) : Prop :=
  match a.result with
  | .ok reply => reply.From seen
  | .error (.malformed d) => d.About seen
  | .error _ => True

theorem Answer.from_ofOutcome {σ : Type} {o : Outcome σ (Except Failure Reply)} {seen : List Token}
    (h : ∀ x, o.result = .ok x → match x with
      | .ok reply => reply.From seen
      | .error (.malformed d) => d.About seen
      | .error _ => True) : (Answer.ofOutcome o).From seen := by
  rw [From, ofOutcome]
  cases hr : o.result with
  | error e => trivial
  | ok x => exact h x hr

/-- **Who has drawn what** from one scanner of a session. -/
structure Ledger where
  workspace : Workspace
  /-- The requests answered so far. The number of a direct request is how
  many there were before it, and a reader's is that of the request that
  built it. -/
  turns : Nat := 0
  /-- The number of the reader under a name. -/
  readers : Text → Nat := fun _ => 0
  /-- The draws, each with the number of its consumer. -/
  draws : List (Nat × Draw) := []

namespace Ledger

/-- The tokens that a consumer has drawn. -/
def owned (l : Ledger) (n : Nat) : List Token :=
  l.draws.filterMap fun c => if c.1 = n then c.2.token? else none

/-- Who draws at a request. -/
def consumer (l : Ledger) (name : Text) : Request → Nat
  | .reader _ => l.readers name
  | _ => l.turns

/-- The readers after a request: one may have been built. -/
def register (l : Ledger) (name : Text) : Request → Except Failure Reply → Text → Nat
  | .makeReader .., .ok _ => fun other => if other = name then l.turns else l.readers other
  | _, _ => l.readers

/-- Notes what a request draws from a scanner. -/
def step (i : Nat) (l : Ledger) (name : Text) (request : Request) : Ledger :=
  let (answer, after) := l.workspace.step name request
  if l.workspace.source? name request = some i then
    { workspace := after
      turns := l.turns + 1
      readers := l.register name request answer.result
      draws := l.draws ++ (Event.draws answer.history).map (l.consumer name request, ·) }
  else { l with workspace := after, turns := l.turns + 1 }

/-- And what all requests do. -/
def run (i : Nat) : List (Text × Request) → Ledger → Ledger
  | [], l => l
  | (name, request) :: later, l => run i later (l.step i name request)

variable {l : Ledger} {source policy name : Text} {i n : Nat} {request : Request}

theorem workspace_step (i : Nat) (l : Ledger) (name : Text) (request : Request) :
    (l.step i name request).workspace = (l.workspace.step name request).2 := by
  rw [step]
  dsimp only
  split <;> rfl

/-- **A ledger follows the session.** -/
theorem workspace_run (i : Nat) (requests : List (Text × Request)) (l : Ledger) :
    (l.run i requests).workspace = (Workspace.run requests l.workspace).2 := by
  induction requests generalizing l with
  | nil => rfl
  | cons q later ih =>
    rw [run, ih, workspace_step]
    rfl

/-- What a session keeps of the scanner under a number, if nothing is
assigned to its policy. -/
structure Fair (source policy : Text) (i : Nat) (l : Ledger) : Prop where
  sound : l.workspace.Sound
  scanner : ∃ s, l.workspace.scanners[i]? = some s ∧ l.workspace.policyOf s = policy ∧
    s.cursor = (Cursor.ofText source).afterCalls policy l.draws.length
  draws_eq : l.draws.map Prod.snd = (Cursor.ofText source).stream policy l.draws.length
  past : ∀ c ∈ l.draws, c.1 < l.turns
  readers_lt : ∀ name d, l.workspace.desk? name = some d → d.scanner = i →
    l.readers name < l.turns
  readers_inj : ∀ a b d e, l.workspace.desk? a = some d → l.workspace.desk? b = some e →
    d.scanner = i → e.scanner = i → l.readers a = l.readers b → a = b
  sight : ∀ name d, l.workspace.desk? name = some d → d.scanner = i → ∀ c,
    Reader.Within (l.owned (l.readers name)) ⟨c, d.current, d.peek, d.reports⟩

/-- The tokens of a consumer after more draws. -/
theorem owned_append (l : Ledger) (k : Nat) (ds : List Draw) (n : Nat) :
    owned { l with draws := l.draws ++ ds.map (k, ·) } n =
      l.owned n ++ if k = n then Draw.tokens ds else [] := by
  rw [owned, List.filterMap_append, List.filterMap_map]
  refine congrArg (l.owned n ++ ·) ?_
  split
  · next h => exact List.filterMap_congr fun d _ => if_pos h
  · next h => exact List.filterMap_eq_nil_iff.2 fun d _ => if_neg h

/-- A number that is still to come has drawn nothing. -/
theorem Fair.owned_eq_nil (fair : l.Fair source policy i) (h : l.turns ≤ n) : l.owned n = [] := by
  refine List.filterMap_eq_nil_iff.2 fun c hc => if_neg ?_
  have := fair.past c hc
  omega

/-- **More draws of the stream.** -/
theorem Fair.serves (fair : l.Fair source policy i) {h : List Event} {left : Cursor}
    (serves : ((Cursor.ofText source).afterCalls policy l.draws.length).Serves policy h left)
    (k : Nat) :
    (l.draws ++ (Event.draws h).map (k, ·)).map Prod.snd =
        (Cursor.ofText source).stream policy
          (l.draws ++ (Event.draws h).map (k, ·)).length ∧
      left = (Cursor.ofText source).afterCalls policy
        (l.draws ++ (Event.draws h).map (k, ·)).length := by
  rw [List.length_append, List.length_map]
  constructor
  · rw [Cursor.stream_add, ← serves.draws_eq, ← fair.draws_eq, List.map_append, List.map_map]
    exact congrArg (_ ++ ·) (List.map_id _)
  · rw [Cursor.afterCalls_add, ← serves.left_eq]

theorem Fair.past_append (fair : l.Fair source policy i) {k : Nat} (hk : k < l.turns + 1)
    (ds : List Draw) : ∀ c ∈ l.draws ++ ds.map (k, ·), c.1 < l.turns + 1 := by
  intro c hc
  rcases List.mem_append.1 hc with hc | hc
  · exact Nat.lt_succ_of_lt (fair.past c hc)
  · obtain ⟨d, -, rfl⟩ := List.mem_map.1 hc
    exact hk

/-- A reader that is left alone has still seen no other tokens. -/
theorem Fair.sight_append (fair : l.Fair source policy i) {d : Desk}
    (desk : l.workspace.desk? name = some d) (on : d.scanner = i) (k : Nat) (ds : List Draw)
    (c : Cursor) :
    Reader.Within (owned { l with draws := l.draws ++ ds.map (k, ·) } (l.readers name))
      ⟨c, d.current, d.peek, d.reports⟩ := by
  rw [owned_append]
  exact (fair.sight name d desk on c).mono (List.subset_append_left _ _)

/-- **Draws by a consumer that leaves all readers as they are.** -/
theorem Fair.drawn (fair : l.Fair source policy i) {s : Scanner} {after : Workspace}
    (sound : after.Sound) {left : Cursor}
    (scanner : after.scanners[i]? = some { s with cursor := left })
    (hpolicy : after.policyOf { s with cursor := left } = policy)
    (desks : ∀ name, after.desk? name = l.workspace.desk? name) {h : List Event}
    (serves : ((Cursor.ofText source).afterCalls policy l.draws.length).Serves policy h left) :
    Fair source policy i
      { workspace := after, turns := l.turns + 1, readers := l.readers,
        draws := l.draws ++ (Event.draws h).map (l.turns, ·) } where
  sound := sound
  scanner := ⟨_, scanner, hpolicy, (fair.serves serves l.turns).2⟩
  draws_eq := (fair.serves serves l.turns).1
  past := fair.past_append (Nat.lt_succ_self _) _
  readers_lt := by
    intro n d found on
    rw [desks] at found
    exact Nat.lt_succ_of_lt (fair.readers_lt n d found on)
  readers_inj := by
    intro a b d e ha hb
    rw [desks] at ha hb
    exact fair.readers_inj a b d e ha hb
  sight := by
    intro n d found on c
    rw [desks] at found
    exact fair.sight_append found on l.turns _ c

/-- **Draws by a reader that is new.** -/
theorem Fair.registered (fair : l.Fair source policy i) {s : Scanner} {v : Workspace} {d : Desk}
    (sound : (v.hold name (.reader d)).Sound) {left : Cursor}
    (scanner : v.scanners[i]? = some { s with cursor := left })
    (hpolicy : (v.hold name (.reader d)).policyOf { s with cursor := left } = policy)
    (desks : ∀ name, v.desk? name = l.workspace.desk? name) {h : List Event}
    (serves : ((Cursor.ofText source).afterCalls policy l.draws.length).Serves policy h left)
    (draws : Event.draws h = [.token d.current, .token d.peek]) (quiet : d.reports = []) :
    Fair source policy i
      { workspace := v.hold name (.reader d), turns := l.turns + 1
        readers := fun other => if other = name then l.turns else l.readers other
        draws := l.draws ++ (Event.draws h).map (l.turns, ·) } where
  sound := sound
  scanner := ⟨_, scanner, hpolicy, (fair.serves serves l.turns).2⟩
  draws_eq := (fair.serves serves l.turns).1
  past := fair.past_append (Nat.lt_succ_self _) _
  readers_lt := by
    intro n e found on
    dsimp only
    obtain ⟨-, rfl⟩ | ⟨ne, found⟩ := Workspace.desk?_of_hold found
    · rw [if_pos rfl]
      exact Nat.lt_succ_self _
    · rw [desks] at found
      rw [if_neg ne]
      exact Nat.lt_succ_of_lt (fair.readers_lt n e found on)
  readers_inj := by
    intro a b e f ha hb he hf heq
    dsimp only at heq
    -- The new number is none of the old ones.
    obtain ⟨-, rfl⟩ | ⟨hane, holda⟩ := Workspace.desk?_of_hold ha
    · obtain ⟨-, rfl⟩ | ⟨hbne, holdb⟩ := Workspace.desk?_of_hold hb
      · rfl
      · rw [desks] at holdb
        rw [if_pos rfl, if_neg hbne] at heq
        have := fair.readers_lt b f holdb hf
        omega
    · rw [desks] at holda
      have hlt := fair.readers_lt a e holda he
      obtain ⟨-, rfl⟩ | ⟨hbne, holdb⟩ := Workspace.desk?_of_hold hb
      · rw [if_neg hane, if_pos rfl] at heq
        omega
      · rw [desks] at holdb
        rw [if_neg hane, if_neg hbne] at heq
        exact fair.readers_inj a b e f holda holdb he hf heq
  sight := by
    intro n e found on c
    obtain ⟨heq, rfl⟩ | ⟨ne, found⟩ := Workspace.desk?_of_hold found
    · obtain rfl : d = e := by cases heq; rfl
      have mine : owned { l with draws := l.draws ++ (Event.draws h).map (l.turns, ·) } l.turns =
          [d.current, d.peek] := by
        rw [owned_append, if_pos rfl, fair.owned_eq_nil (Nat.le_refl _), draws]
        rfl
      show Reader.Within (owned { l with draws := _ } (if n = n then _ else _)) _
      rw [if_pos rfl, mine, quiet]
      exact ⟨by simp, by simp, by simp⟩
    · rw [desks] at found
      show Reader.Within (owned { l with draws := _ } (if n = name then _ else _)) _
      rw [if_neg ne]
      exact fair.sight_append found on l.turns _ c

/-- **Draws by a reader that is asked.** -/
theorem Fair.seen (fair : l.Fair source policy i) {s : Scanner} {v : Workspace} {d e : Desk}
    (desk : l.workspace.desk? name = some d) (on : d.scanner = i)
    (sound : (v.hold name (.reader e)).Sound) {left : Cursor}
    (scanner : v.scanners[i]? = some { s with cursor := left })
    (hpolicy : (v.hold name (.reader e)).policyOf { s with cursor := left } = policy)
    (desks : ∀ name, v.desk? name = l.workspace.desk? name) {h : List Event}
    (serves : ((Cursor.ofText source).afterCalls policy l.draws.length).Serves policy h left)
    (within : ∀ c, Reader.Within (l.owned (l.readers name) ++ Draw.tokens (Event.draws h))
      ⟨c, e.current, e.peek, e.reports⟩) :
    Fair source policy i
      { workspace := v.hold name (.reader e), turns := l.turns + 1, readers := l.readers
        draws := l.draws ++ (Event.draws h).map (l.readers name, ·) } where
  sound := sound
  scanner := ⟨_, scanner, hpolicy, (fair.serves serves _).2⟩
  draws_eq := (fair.serves serves _).1
  past := fair.past_append (Nat.lt_succ_of_lt (fair.readers_lt name d desk on)) _
  readers_lt := by
    intro n f found hf
    obtain ⟨-, rfl⟩ | ⟨ne, found⟩ := Workspace.desk?_of_hold found
    · exact Nat.lt_succ_of_lt (fair.readers_lt n d desk on)
    · rw [desks] at found
      exact Nat.lt_succ_of_lt (fair.readers_lt n f found hf)
  readers_inj := by
    intro a b f g ha hb hf hg heq
    have old : ∀ n f, (v.hold name (.reader e)).desk? n = some f → f.scanner = i →
        ∃ f', l.workspace.desk? n = some f' ∧ f'.scanner = i := by
      intro n f found hf
      obtain ⟨-, rfl⟩ | ⟨ne, found⟩ := Workspace.desk?_of_hold found
      · exact ⟨d, desk, on⟩
      · exact ⟨f, (desks n).symm.trans found, hf⟩
    obtain ⟨f', ha', hf'⟩ := old a f ha hf
    obtain ⟨g', hb', hg'⟩ := old b g hb hg
    exact fair.readers_inj a b f' g' ha' hb' hf' hg' heq
  sight := by
    intro n f found hf c
    obtain ⟨heq, rfl⟩ | ⟨ne, found⟩ := Workspace.desk?_of_hold found
    · obtain rfl : e = f := by cases heq; rfl
      show Reader.Within (owned { l with draws := _ } _) _
      rw [owned_append, if_pos rfl]
      exact within c
    · rw [desks] at found
      exact fair.sight_append found hf _ _ c

/-- What a request to a scanner draws is in a row. -/
theorem serves_run (policy : Text) (s : Cursor) (r : ScannerRequest) :
    s.Serves policy (r.run policy s).history (r.run policy s).state := by
  cases r with
  | next => exact s.serves_next policy
  | take n => exact s.serves_take policy n
  | rest => exact s.serves_drain policy

/-- Building a reader enters it, under the number of the request. -/
theorem register_of_ok (l : Ledger) (name : Text) {scanner : Text} {options : Option Text}
    {o : Outcome Cursor (Token × Token)} {sight : Token × Token} (h : o.result = .ok sight) :
    l.register name (.makeReader scanner options)
        (Answer.ofOutcome (o.map fun _ => .ok .nothing)).result =
      fun other => if other = name then l.turns else l.readers other := by
  simp [Answer.ofOutcome, Outcome.map, h, register]

/-- Where it is refused, none is entered. -/
theorem register_of_error (l : Ledger) (name : Text) {scanner : Text} {options : Option Text}
    {o : Outcome Cursor (Token × Token)} {e : Overlong} (h : o.result = .error e) :
    l.register name (.makeReader scanner options)
        (Answer.ofOutcome (o.map fun _ => .ok .nothing)).result = l.readers := by
  simp [Answer.ofOutcome, Outcome.map, h, register]

/-- **Every request is fair to all consumers.** -/
theorem fair_step (fair : l.Fair source policy i) (name : Text)
    (steady : ∀ p, request ≠ .assign (.overflow p)) :
    (l.step i name request).Fair source policy i := by
  obtain ⟨s, hs, rfl, hcursor⟩ := fair.scanner
  have sound := Workspace.sound_step fair.sound name request
  have valid := fair.sound.scanners s (List.mem_of_getElem? hs)
  have kept := Workspace.overflow_step valid name steady
  have turn := Workspace.turn_step hs name request
  rw [step]
  generalize l.workspace.step name request = result at sound kept turn
  obtain ⟨answer, after⟩ := result
  dsimp only at sound kept turn ⊢
  cases turn with
  | direct r held =>
    rw [if_pos (Workspace.source?_scanner held hs r)]
    exact fair.drawn sound (Workspace.scanners_moveScanner_self _ hs) kept (fun _ => rfl)
      (hcursor ▸ serves_run _ s.cursor r)
  | @unbuilt scanner options e held refused =>
    rw [if_pos (Workspace.source?_makeReader held hs name options),
      register_of_error l name refused]
    exact fair.drawn sound (Workspace.scanners_moveScanner_self _ hs) kept (fun _ => rfl)
      (hcursor ▸ Reader.serves_prime _ s.cursor)
  | @built scanner options current peek held ready =>
    rw [if_pos (Workspace.source?_makeReader held hs name options), register_of_ok l name ready]
    exact fair.registered sound (Workspace.scanners_moveScanner_self _ hs) kept (fun _ => rfl)
      (hcursor ▸ Reader.serves_prime _ s.cursor) (Reader.draws_prime_of_ok ready) rfl
  | @asked r d o desk on run =>
    subst on run
    have made := Reader.made_run (r := ⟨s.cursor, d.current, d.peek, d.reports⟩)
      (l.workspace.rulesOf s d) r
    have within := made.within (fair.sight name d desk rfl s.cursor)
    rw [if_pos (Workspace.source?_reader desk hs r)]
    exact fair.seen desk rfl sound (Workspace.scanners_moveScanner_self _ hs) kept (fun _ => rfl)
      (hcursor ▸ made.serves) fun _ => ⟨within.current, within.peek, within.reports⟩
  | elsewhere away scanner desks =>
    rw [if_neg away]
    exact
      { sound := sound
        scanner := ⟨s, scanner, kept, hcursor⟩
        draws_eq := fair.draws_eq
        past := fun c hc => Nat.lt_succ_of_lt (fair.past c hc)
        readers_lt := fun n d found on =>
          Nat.lt_succ_of_lt (fair.readers_lt n d (desks n d found on) on)
        readers_inj := fun a b d e ha hb hd he =>
          fair.readers_inj a b d e (desks a d ha hd) (desks b e hb he) hd he
        sight := fun n d found on => fair.sight n d (desks n d found on) on }

/-- **Whatever is asked in a session is fair to all consumers.** -/
theorem fair_run (fair : l.Fair source policy i) {requests : List (Text × Request)}
    (steady : ∀ q ∈ requests, ∀ p, q.2 ≠ .assign (.overflow p)) :
    (l.run i requests).Fair source policy i := by
  induction requests generalizing l with
  | nil => exact fair
  | cons q later ih =>
    exact ih (fair_step fair q.1 (steady q List.mem_cons_self)) fun r hr =>
      steady r (List.mem_cons_of_mem q hr)

/-- There is no reader on a scanner that is new. -/
theorem no_reader {w : Workspace} (sound : w.Sound) {name source : Text} {options : Option Text}
    {n : Text} {d : Desk}
    (found : (w.step name (.makeScanner source options)).2.desk? n = some d) :
    d.scanner ≠ w.scanners.length := by
  obtain ⟨hscanner, -⟩ | ⟨-, found⟩ := Workspace.desk?_of_hold found
  · cases hscanner
  · exact Nat.ne_of_lt (sound.desks n d found)

/-- The ledger of a scanner that is new. -/
theorem fair_start {w : Workspace} (sound : w.Sound) (name source : Text) (options : Option Text) :
    Fair source (w.optionsOf (w.optionsRef options)).overflow w.scanners.length
      { workspace := (w.step name (.makeScanner source options)).2 } where
  sound := Workspace.sound_step sound name _
  scanner := ⟨⟨.ofText source, w.optionsRef options⟩, List.getElem?_concat_length, rfl, rfl⟩
  draws_eq := rfl
  past := by
    intro c hc
    cases hc
  readers_lt := by
    intro n d found on
    exact absurd on (no_reader sound found)
  readers_inj := by
    intro a b d e ha hb hd
    exact absurd hd (no_reader sound ha)
  sight := by
    intro n d found on
    exact absurd on (no_reader sound found)

/-! ## What a session can rely on -/

/-- What a consumer has drawn after a request of its own. -/
theorem owned_step (drew : l.workspace.source? name request = some i) :
    (l.step i name request).owned (l.consumer name request) =
      l.owned (l.consumer name request) ++
        Draw.tokens (Event.draws (l.workspace.step name request).1.history) := by
  rw [step]
  dsimp only
  rw [if_pos drew]
  exact (owned_append l _ _ _).trans (by rw [if_pos rfl])

/-- What a scanner answers with, it draws for the purpose. -/
theorem from_scannerRequest (policy : Text) (s : Cursor) (r : ScannerRequest) {reply : Reply}
    (h : (r.run policy s).result = .ok reply) : reply.From (r.run policy s).delivered := by
  have several : ∀ {n : Nat} {o : Outcome Cursor (List Token)}, Cursor.Taken policy s n o →
      (o.map Reply.tokens).result = .ok reply → reply.From o.delivered := by
    intro n o taken hr
    obtain ⟨us, hus, rfl⟩ := Outcome.result_map_eq_ok_iff.1 hr
    cases taken with
    | full ts result count draws ahead =>
      obtain rfl := Except.ok.inj (result.symm.trans hus)
      rw [Outcome.delivered, draws, Draw.tokens_map_token]
      exact .tokens fun t ht => ht
    | ended ts result count draws ahead =>
      obtain rfl := Except.ok.inj (result.symm.trans hus)
      rw [Outcome.delivered, draws, Draw.tokens_append, Draw.tokens_map_token]
      exact .tokens fun t ht => List.mem_append_left _ ht
    | refused ts result count draws ahead =>
      rw [result] at hus
      cases hus
  cases r with
  | next =>
    obtain ⟨t, ht, rfl⟩ := Outcome.result_map_eq_ok_iff.1 h
    have hdelivered : ((s.next policy).map Reply.token).delivered = [t] := by
      rw [Outcome.delivered, Outcome.draws_map, s.draws_next policy, ht]
      rfl
    rw [ScannerRequest.run, hdelivered]
    exact .token (List.mem_singleton_self t)
  | take n => exact several (s.taken_take policy n) h
  | rest => exact several (s.taken_drain policy) h

/-- **A request is answered with tokens that its consumer has drawn.** -/
theorem Fair.from_step (fair : l.Fair source policy i)
    (drew : l.workspace.source? name request = some i) :
    (l.workspace.step name request).1.From
      ((l.step i name request).owned (l.consumer name request)) := by
  obtain ⟨s, hs, hpolicy, hcursor⟩ := fair.scanner
  have turn := Workspace.turn_step hs name request
  rw [owned_step drew]
  generalize l.workspace.step name request = result at turn
  obtain ⟨answer, after⟩ := result
  dsimp only at turn ⊢
  cases turn with
  | direct r held =>
    have nothing : l.owned (l.consumer name (.scanner r)) = [] :=
      fair.owned_eq_nil (Nat.le_refl _)
    rw [nothing, List.nil_append]
    refine Answer.from_ofOutcome fun x hx => ?_
    obtain ⟨reply, hreply, rfl⟩ := Outcome.result_map_eq_ok_iff.1 hx
    exact from_scannerRequest _ _ r hreply
  | unbuilt held refused =>
    refine Answer.from_ofOutcome fun x hx => ?_
    obtain ⟨-, -, rfl⟩ := Outcome.result_map_eq_ok_iff.1 hx
    exact .nothing
  | built held ready =>
    refine Answer.from_ofOutcome fun x hx => ?_
    obtain ⟨-, -, rfl⟩ := Outcome.result_map_eq_ok_iff.1 hx
    exact .nothing
  | @asked r d o desk on run =>
    subst run
    have within := fair.sight name d desk on s.cursor
    refine Answer.from_ofOutcome fun x hx => ?_
    obtain ⟨found, hfound, rfl⟩ := Outcome.result_map_eq_ok_iff.1 hx
    have made := Reader.from_run (l.workspace.rulesOf s d) r within hfound
    cases found with
    | ok reply => exact made
    | error d => exact made
  | elsewhere away scanner desks => exact absurd drew away

/-- The scanner as the next request finds it, if it has given what is
noted. -/
def here (source policy : Text) (l : Ledger) : Cursor :=
  (Cursor.ofText source).afterCalls policy l.draws.length

/-- What a request to the scanner comes to. -/
theorem Fair.answer_scanner (fair : l.Fair source policy i)
    (held : l.workspace.held? name = some (.scanner i)) (r : ScannerRequest) :
    (l.workspace.step name (.scanner r)).1 =
      .ofOutcome ((r.run policy (l.here source policy)).map .ok) := by
  obtain ⟨s, hs, hpolicy, hcursor⟩ := fair.scanner
  rw [Workspace.step, Workspace.scanner?_eq_some_iff.2 ⟨held, hs⟩]
  show Answer.ofOutcome ((r.run (l.workspace.policyOf s) s.cursor).map .ok) = _
  rw [hpolicy, hcursor, here]

/-- And what building a reader comes to. -/
theorem Fair.answer_makeReader (fair : l.Fair source policy i) {scanner : Text}
    (held : l.workspace.held? scanner = some (.scanner i)) (name : Text) (options : Option Text) :
    (l.workspace.step name (.makeReader scanner options)).1 =
      .ofOutcome ((Reader.prime policy (l.here source policy)).map fun _ => .ok .nothing) := by
  obtain ⟨s, hs, hpolicy, hcursor⟩ := fair.scanner
  rw [Workspace.step, Workspace.scanner?_eq_some_iff.2 ⟨held, hs⟩]
  show Answer.ofOutcome ((Reader.prime (l.workspace.policyOf s) s.cursor).map _) = _
  rw [hpolicy, hcursor, here]

/-- And an advance of a reader. -/
theorem Fair.draws_advance (fair : l.Fair source policy i) {d : Desk}
    (desk : l.workspace.desk? name = some d) (on : d.scanner = i) :
    Event.draws (l.workspace.step name (.reader .advance)).1.history =
      [.ofAnswer ((l.here source policy).next policy).result] := by
  obtain ⟨s, hs, hpolicy, hcursor⟩ := fair.scanner
  rw [Workspace.step, Workspace.reader?_eq_some_iff.2 ⟨desk, on ▸ hs⟩]
  show (Reader.advance (l.workspace.policyOf s) ⟨s.cursor, d.current, d.peek, d.reports⟩).draws = _
  rw [Reader.draws_advance, hpolicy, hcursor, here]

/-- **A scanner that is shared.** This is what holds of it between any two
requests of a session. -/
structure Shared (source policy : Text) (i : Nat) (l : Ledger) : Prop where
  /-- The draws so far, whoever made them, are the first answers of a
  scanner that is asked again and again. -/
  draws_eq : l.draws.map Prod.snd = (Cursor.ofText source).stream policy l.draws.length
  /-- These are the tokens and refusals of the source in its order, and
  then the end for ever. -/
  stream_eq : ∀ n, (Cursor.ofText source).stream policy n =
    ((Cursor.ofText source).ahead policy).take n ++
      List.replicate (n - ((Cursor.ofText source).ahead policy).length) (.token .eof)
  /-- The scanner is where these draws leave it. -/
  cursor : l.workspace.scanners[i]?.map Scanner.cursor = some (l.here source policy)
  /-- A direct request gets the next answer and draws it alone. -/
  next : ∀ name, l.workspace.held? name = some (.scanner i) →
    (l.workspace.step name (.scanner .next)).1 =
        .ofOutcome (((l.here source policy).next policy).map fun t => .ok (.token t)) ∧
      Event.draws (l.workspace.step name (.scanner .next)).1.history =
        [.ofAnswer ((l.here source policy).next policy).result]
  /-- An iterator gets as many tokens as it asks for, or all that there
  are, and draws nothing behind the last that it asks for. -/
  take : ∀ name n, l.workspace.held? name = some (.scanner i) →
    ∃ o, (l.here source policy).Taken policy n o ∧
      (l.workspace.step name (.scanner (.take n))).1 =
        .ofOutcome (o.map fun ts => .ok (.tokens ts))
  /-- One that asks for all gets all that there are, and stops behind the
  end. -/
  rest : ∀ name, l.workspace.held? name = some (.scanner i) →
    ∃ o, (l.here source policy).Drained policy o ∧
      (l.workspace.step name (.scanner .rest)).1 = .ofOutcome (o.map fun ts => .ok (.tokens ts))
  /-- Building a reader draws two tokens, unless one of the two draws is
  refused. -/
  build : ∀ name scanner options, l.workspace.held? scanner = some (.scanner i) →
    ((l.workspace.step name (.makeReader scanner options)).1.result = .ok .nothing ∧
        ∃ t u, Event.draws (l.workspace.step name (.makeReader scanner options)).1.history =
          [.token t, .token u]) ∨
      ∃ e, (l.workspace.step name (.makeReader scanner options)).1.result =
          .error (.overlong e) ∧
        (Event.draws (l.workspace.step name (.makeReader scanner options)).1.history =
            [.refused e] ∨
          ∃ t, Event.draws (l.workspace.step name (.makeReader scanner options)).1.history =
            [.token t, .refused e])
  /-- An advance draws once. -/
  advance : ∀ name d, l.workspace.desk? name = some d → d.scanner = i →
    Event.draws (l.workspace.step name (.reader .advance)).1.history =
      [.ofAnswer ((l.here source policy).next policy).result]
  /-- No two readers have one number, and none has one that is to come. -/
  readers_lt : ∀ name d, l.workspace.desk? name = some d → d.scanner = i →
    l.readers name < l.turns
  readers_inj : ∀ a b d e, l.workspace.desk? a = some d → l.workspace.desk? b = some e →
    d.scanner = i → e.scanner = i → l.readers a = l.readers b → a = b
  /-- No token has been drawn twice. -/
  nodup : ((Draw.tokens (l.draws.map Prod.snd)).filter fun t => decide (t.kind ≠ .eof)).Nodup
  /-- So a token that one consumer has drawn, no other one has. -/
  apart : ∀ m n, m ≠ n → ∀ t ∈ l.owned m, t.kind ≠ .eof → t ∉ l.owned n
  /-- A reader sees and reports no tokens but those that it has drawn. -/
  sight : ∀ name d, l.workspace.desk? name = some d → d.scanner = i → ∀ c,
    Reader.Within (l.owned (l.readers name)) ⟨c, d.current, d.peek, d.reports⟩
  /-- And no consumer is answered with any others. -/
  answers : ∀ name request, l.workspace.source? name request = some i →
    (l.workspace.step name request).1.From
      ((l.step i name request).owned (l.consumer name request))

/-- Two draws that have no token in common, but for the end. -/
def Apart (c c' : Nat × Draw) : Prop :=
  ∀ t ∈ c.2.token?, t.kind ≠ .eof → t ∉ c'.2.token?

instance : Std.Symm Apart where
  symm _ _ apart t ht visible ht' := apart t ht' visible ht

/-- What has been drawn by two consumers has been drawn twice. -/
theorem apart_of_nodup (l : Ledger)
    (nodup : ((Draw.tokens (l.draws.map Prod.snd)).filter fun t => decide (t.kind ≠ .eof)).Nodup)
    {m k : Nat} (ne : m ≠ k) {t : Token} (ht : t ∈ l.owned m) (visible : t.kind ≠ .eof) :
    t ∉ l.owned k := by
  intro ht'
  have apart : l.draws.Pairwise Apart := by
    rw [Draw.tokens, List.filterMap_map, List.Nodup, List.pairwise_filter,
      List.pairwise_filterMap] at nodup
    refine nodup.imp fun differ u hu hvisible hu' => ?_
    exact differ u hu u hu' (decide_eq_true hvisible) (decide_eq_true hvisible) rfl
  obtain ⟨c, hc, hct⟩ := List.mem_filterMap.1 ht
  obtain ⟨c', hc', hct'⟩ := List.mem_filterMap.1 ht'
  rw [Option.ite_none_right_eq_some] at hct hct'
  obtain ⟨rfl, hct⟩ := hct
  obtain ⟨rfl, hct'⟩ := hct'
  have other : c ≠ c' := fun heq => ne (congrArg Prod.fst heq)
  exact apart.forall hc hc' other t hct visible hct'

/-- **Fair sessions share.** -/
theorem Fair.shared (fair : l.Fair source policy i) : l.Shared source policy i where
  draws_eq := fair.draws_eq
  stream_eq := Cursor.stream_eq policy _
  cursor := by
    obtain ⟨s, hs, -, hcursor⟩ := fair.scanner
    rw [hs, here, ← hcursor]
    rfl
  next := by
    intro name held
    have hanswer := fair.answer_scanner held .next
    rw [ScannerRequest.run, Outcome.map_map] at hanswer
    refine ⟨hanswer, ?_⟩
    rw [hanswer]
    exact Cursor.draws_next policy _
  take := by
    intro name n held
    refine ⟨_, Cursor.taken_take policy _ n, ?_⟩
    rw [fair.answer_scanner held, ScannerRequest.run, Outcome.map_map]
  rest := by
    intro name held
    refine ⟨_, Cursor.drained_drain policy _, ?_⟩
    rw [fair.answer_scanner held, ScannerRequest.run, Outcome.map_map]
  build := by
    intro name scanner options held
    rw [fair.answer_makeReader held]
    cases hr : (Reader.prime policy (l.here source policy)).result with
    | ok sight =>
      left
      refine ⟨by simp [Answer.ofOutcome, Outcome.map, hr], sight.1, sight.2, ?_⟩
      exact Reader.draws_prime_of_ok hr
    | error e =>
      right
      refine ⟨e, by simp [Answer.ofOutcome, Outcome.map, hr], ?_⟩
      exact Reader.draws_prime_of_error hr
  advance := fun name d desk on => fair.draws_advance desk on
  readers_lt := fair.readers_lt
  readers_inj := fair.readers_inj
  nodup := by
    rw [fair.draws_eq]
    exact Cursor.nodup_stream policy _ _
  apart := by
    intro m n ne t ht visible
    refine apart_of_nodup l ?_ ne ht visible
    rw [fair.draws_eq]
    exact Cursor.nodup_stream policy _ _
  sight := fair.sight
  answers := fun name request drew => fair.from_step drew

end Ledger

theorem Workspace.run_append (requests later : List (Text × Request)) (w : Workspace) :
    (run (requests ++ later) w).2 = (run later (run requests w).2).2 := by
  induction requests generalizing w with
  | nil => rfl
  | cons q requests ih => exact ih _

/-- **However a scanner is shared, no token is lost or drawn twice.** In
any session a scanner is built, and what is asked after that does not
assign to a policy. -/
theorem shared_run (earlier : List (Text × Request)) (name source : Text) (options : Option Text)
    {requests : List (Text × Request)}
    (steady : ∀ q ∈ requests, ∀ p, q.2 ≠ .assign (.overflow p)) :
    ∃ (w : Workspace) (l : Ledger),
      w = (Workspace.run earlier {}).2 ∧
      l = Ledger.run w.scanners.length requests
        { workspace := (w.step name (.makeScanner source options)).2 } ∧
      l.workspace =
        (Workspace.run (earlier ++ (name, .makeScanner source options) :: requests) {}).2 ∧
      l.Shared source (w.optionsOf (w.optionsRef options)).overflow w.scanners.length := by
  refine ⟨_, _, rfl, rfl, ?_, ?_⟩
  · rw [Ledger.workspace_run, Workspace.run_append]
    rfl
  · have sound := Workspace.sound_run Workspace.sound_empty earlier
    exact (Ledger.fair_run (Ledger.fair_start sound name source options) steady).shared

/-- A reader on five words holds two of them. A direct request gets the
third, an advance the fourth, and an iterator only the fifth. -/
theorem shared_run_interleaved :
    ∃ requests : List (Text × Request),
      requests = ([("p", .makeReader "s" none), ("s", .scanner .next), ("p", .reader .advance),
        ("s", .scanner (.take 5))] : List (Text × Request)) ∧
      (∀ q ∈ requests, ∀ p, q.2 ≠ .assign (.overflow p)) ∧
      ∃ l : Ledger,
        l.workspace = (Workspace.run (("s", .makeScanner "a b c d e" none) :: requests) {}).2 ∧
        l.Shared "a b c d e" "illegal" 0 ∧
        l.draws.map (fun c => (c.1, c.2.token?.map Token.raw)) =
          ([(0, some "a"), (0, some "b"), (1, some "c"), (0, some "d"), (3, some "e"),
            (3, some "")] : List (Nat × Option Text)) := by
  have steady : ∀ q ∈ ([("p", .makeReader "s" none), ("s", .scanner .next),
      ("p", .reader .advance), ("s", .scanner (.take 5))] : List (Text × Request)),
      ∀ p, q.2 ≠ .assign (.overflow p) := by simp
  obtain ⟨w, l, rfl, rfl, hrun, shared⟩ := shared_run [] "s" "a b c d e" none steady
  exact ⟨_, rfl, steady, _, hrun, shared, by decide +kernel⟩

end Session

end ScriptReader
