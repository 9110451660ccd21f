import ScriptReader.Token.Basic

/-!
# The tree — programs, and parts put together freely

A program that was read is a list of statements, and a statement binds a
name to a value or returns one. A value is the one token it starts with,
whatever that token is: an expression keeps the token and no more.

A `Node` is a part of the tree that anyone may build, with any part in
the place of a name, a value or a statement. Programs, statements and
expressions are nodes, and no two of them are the same node
(`Program.toNode_inj`).
-/

namespace ScriptReader

/-- An expression, which keeps its first token. -/
structure Expression where
  token : Token
deriving DecidableEq

/-- A statement, with the reserved word that starts it. -/
inductive Statement where
  /-- A name is bound to a value. -/
  | binding (keyword : Token) (target value : Expression)
  /-- A value is returned. -/
  | returning (keyword : Token) (value : Expression)
deriving DecidableEq

/-- A program: its statements, in the order of the source. -/
structure Program where
  statements : List Statement := []
deriving DecidableEq

/-- A part of the tree, with no say in what its own parts are. -/
inductive Node where
  | expression (token : Token)
  | binding (keyword : Token) (target value : Node)
  | returning (keyword : Token) (value : Node)
  | program (parts : List Node)

namespace Node

/-- The literal of a part: that of its token, and for a program that of
its first part, if there is one. -/
def literal : Node → Text
  | expression token => token.literal
  | binding keyword _ _ => keyword.literal
  | returning keyword _ => keyword.literal
  | program [] => []
  | program (part :: _) => part.literal

/-- The token of a part. A program has none of its own. -/
def token? : Node → Option Token
  | expression token => some token
  | binding keyword _ _ => some keyword
  | returning keyword _ => some keyword
  | program _ => none

/-- The source of the name that a binding binds. -/
def name? : Node → Option Text
  | binding _ target _ => target.token?.map Token.raw
  | _ => none

/-! ## Equality

Two parts are equal when they are of one kind and agree in all they hold.
-/

mutual

/-- Whether two parts are equal. -/
def same : Node → Node → Bool
  | expression s, expression t => decide (s = t)
  | binding j s u, binding k t v => decide (j = k) && (same s t && same u v)
  | returning j u, returning k v => decide (j = k) && same u v
  | program ss, program ts => sameParts ss ts
  | _, _ => false

/-- Whether two lists of parts are equal. -/
def sameParts : List Node → List Node → Bool
  | [], [] => true
  | s :: ss, t :: ts => same s t && sameParts ss ts
  | _, _ => false

end

mutual

theorem same_eq_true_iff (m n : Node) : same m n = true ↔ m = n := by
  cases m with
  | expression s => cases n <;> simp [same]
  | binding j s u =>
    cases n with
    | binding k t v => simp [same, same_eq_true_iff s t, same_eq_true_iff u v]
    | _ => simp [same]
  | returning j u =>
    cases n with
    | returning k v => simp [same, same_eq_true_iff u v]
    | _ => simp [same]
  | program ss =>
    cases n with
    | program ts => simp [same, sameParts_eq_true_iff ss ts]
    | _ => simp [same]

theorem sameParts_eq_true_iff (ss ts : List Node) : sameParts ss ts = true ↔ ss = ts := by
  cases ss with
  | nil => cases ts <;> simp [sameParts]
  | cons s ss =>
    cases ts with
    | nil => simp [sameParts]
    | cons t ts => simp [sameParts, same_eq_true_iff s t, sameParts_eq_true_iff ss ts]

end

instance : DecidableEq Node := fun m n => decidable_of_iff _ (same_eq_true_iff m n)

end Node

/-! ## What was read, as nodes -/

/-- An expression as a node. -/
def Expression.toNode (e : Expression) : Node := .expression e.token

/-- A statement as a node. -/
def Statement.toNode : Statement → Node
  | .binding keyword target value => .binding keyword target.toNode value.toNode
  | .returning keyword value => .returning keyword value.toNode

/-- A program as a node. -/
def Program.toNode (p : Program) : Node := .program (p.statements.map Statement.toNode)

theorem Expression.toNode_inj {d e : Expression} : d.toNode = e.toNode ↔ d = e := by
  cases d; cases e; simp [toNode]

theorem Statement.toNode_inj {s t : Statement} : s.toNode = t.toNode ↔ s = t := by
  cases s <;> cases t <;> simp [toNode, Expression.toNode_inj]

/-- **A program is known by its node.** -/
theorem Program.toNode_inj {p q : Program} : p.toNode = q.toNode ↔ p = q := by
  have inj : ∀ s t : Statement, s.toNode = t.toNode → s = t := fun _ _ => Statement.toNode_inj.1
  cases p; cases q
  simp [toNode, List.map_inj_right inj]

end ScriptReader
