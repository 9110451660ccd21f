import ScriptReader.Text.Quoted

/-!
# Options — how a source is read

The overflow policy says what becomes of an integer that does not fit in
64 bits; the flag says whether a token that starts no statement is
reported. The policies to choose from are an option themselves, and may
be left out. `Options.check` puts the usual ones in their place and then
asks only that the policy is one of the choices. What reads a source goes
by `Options.rules`.
-/

namespace ScriptReader

/-- The policies to choose from where nothing else is said. -/
def usualPolicies : List Text := ["illegal", "saturate"]

/-- How a source is read. -/
structure Options where
  /-- What becomes of an integer that does not fit. -/
  overflow : Text := "illegal"
  /-- The policies to choose from, if they are listed. -/
  policies : Option (List Text) := some usualPolicies
  /-- Whether a token that starts no statement is reported. -/
  reportStray : Bool := false
deriving DecidableEq

/-- The policy is none of those to choose from. -/
structure PolicyError where
  policy : Text
  choices : List Text
deriving DecidableEq

namespace PolicyError

/-- The wording of the error, which lists the choices in their order. -/
def message (e : PolicyError) : Text :=
  "Invalid integer overflow policy: " ++ e.policy.quoted ++ ". Use one of " ++
    Text.join ", " e.choices ++ "."

end PolicyError

/-- Whether an integer that does not fit becomes the greatest one that
does. Every policy but one refuses it. -/
def saturates (policy : Text) : Bool := decide (policy = "saturate")

/-- What reading a source depends on: the overflow policy for its
scanner, and the flag for the reader of its statements, which may come
from different options. -/
structure Rules where
  policy : Text
  reportStray : Bool
deriving DecidableEq

namespace Options

/-- The options of a reader that was given none. -/
def standard : Options := {}

/-- Options are accepted when their policy is one of their choices, which
are the usual ones if none are listed. -/
def check (o : Options) : Except PolicyError Options :=
  let choices := o.policies.getD usualPolicies
  if o.overflow ∈ choices then .ok { o with policies := some choices }
  else .error ⟨o.overflow, choices⟩

/-- The rules of a reader whose scanner has the same options. -/
def rules (o : Options) : Rules := ⟨o.overflow, o.reportStray⟩

theorem check_standard : standard.check = .ok standard := rfl

end Options

end ScriptReader
