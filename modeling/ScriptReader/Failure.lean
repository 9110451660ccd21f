import ScriptReader.Options
import ScriptReader.Outcome

/-!
# Failures — the causes for which a request has no answer
-/

namespace ScriptReader

/-- Why a request has no answer. -/
inductive Failure where
  /-- The overflow policy is none of the choices. -/
  | policy (e : PolicyError)
  /-- A run of digits was refused. -/
  | overlong (e : Overlong)
  /-- A statement that was asked for is malformed. -/
  | malformed (d : Diagnostic)
  /-- There is nothing under a name. -/
  | unknown (name : Text)
deriving DecidableEq

namespace Failure

/-- The wording of a failure. -/
def message : Failure → Text
  | policy e => e.message
  | overlong e => e.message
  | malformed d => d.text
  | unknown name => name

end Failure

/-- The value that a step ends with, if it is not refused. -/
def Outcome.value {σ α : Type} (o : Outcome σ α) : Except Failure α :=
  o.result.mapError .overlong

/-- Options that are accepted. -/
def Options.accept (o : Options) : Except Failure Options := o.check.mapError .policy

end ScriptReader
