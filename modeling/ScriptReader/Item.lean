import ScriptReader.Options
import ScriptReader.Reading

/-!
# Items — values of all kinds side by side

Values are equal when they are of one kind and agree in every part. Of
the values that never change, `Item.distinct` counts how many different
ones there are.
-/

namespace ScriptReader

/-- A value of any kind. -/
inductive Item where
  | token (t : Token)
  | node (n : Node)
  | report (d : Diagnostic)
  | options (o : Options)
  | reading (r : Reading)
deriving DecidableEq

namespace Item

/-- Whether a value never changes. Options can be reassigned and a
reading's reports can be cleared. -/
def isFixed : Item → Bool
  | token _ | node _ | report _ => true
  | options _ | reading _ => false

/-- Which items equal which. -/
def equality (items : List Item) : List (List Bool) :=
  items.map fun a => items.map fun b => decide (a = b)

/-- How many different values there are among those that never change. -/
def distinct (items : List Item) : Nat := (items.filter isFixed).eraseDups.length

end Item

end ScriptReader
