import ScriptReader.Reading

/-!
# Display — values as constructor calls

Every value is shown as the call that builds it: a name, and its fields
in parentheses. `Display.call`, `Display.list` and `Display.tuple` are the
shapes, and each type's `displayWith` fills them in. As with quoted texts,
the printable code points are a parameter.
-/

namespace ScriptReader

namespace Display

/-- A name and its arguments in parentheses. -/
def call (name : String) (arguments : List Text) : Text :=
  name ++ "(" ++ Text.join ", " arguments ++ ")"

/-- An argument that is given by name. -/
def named (name : String) (value : Text) : Text := name ++ "=" ++ value

/-- Values in square brackets. -/
def list (values : List Text) : Text := "[" ++ Text.join ", " values ++ "]"

/-- Values in parentheses, where a single one is followed by a comma. -/
def tuple : List Text → Text
  | [value] => "(" ++ value ++ ",)"
  | values => "(" ++ Text.join ", " values ++ ")"

/-- A number, or the word for none. -/
def number? : Option Int → Text
  | some n => Numeral.signed n
  | none => "None"

/-- Values in square brackets, where there may be no list of them. -/
def list? : Option (List Text) → Text
  | some values => list values
  | none => "None"

/-- A truth value. -/
def truth : Bool → Text
  | true => "True"
  | false => "False"

end Display

open Display

variable (printable : CodePoint → Bool)

/-- The end token hides its fields, and the others their value. -/
def Token.displayWith (t : Token) : Text :=
  if t.kind = .eof then call "Token" [t.kind.name]
  else
    call "Token" [t.kind.name, Quoted.showWith printable t.raw,
      named "location" (number? t.location)]

mutual

/-- A part of the tree, as the call that builds it. An expression is shown
as an identifier, whatever its token. -/
def Node.displayWith : Node → Text
  | .expression token => call "Identifier" [named "token" (token.displayWith printable)]
  | .binding keyword target value =>
    call "Let" [named "token" (keyword.displayWith printable),
      named "identifier" target.displayWith, named "value" value.displayWith]
  | .returning keyword value =>
    call "Return" [named "token" (keyword.displayWith printable),
      named "return_value" value.displayWith]
  | .program parts => call "Program" [named "statements" (tuple (Node.displayAllWith parts))]

/-- Several parts of the tree, each as the call that builds it. -/
def Node.displayAllWith : List Node → List Text
  | [] => []
  | part :: parts => part.displayWith :: Node.displayAllWith parts

end

theorem Node.displayAllWith_eq_map (parts : List Node) :
    Node.displayAllWith printable parts = parts.map (·.displayWith printable) := by
  induction parts with
  | nil => rfl
  | cons part parts ih => rw [displayAllWith, ih, List.map_cons]

/-- A report is shown by its whole wording. -/
def Diagnostic.displayWith (d : Diagnostic) : Text :=
  call "ParserError" [Quoted.showWith printable d.text]

/-- A reading, as the call that builds it. -/
def Reading.displayWith (r : Reading) : Text :=
  call "ParseResult" [named "program" (r.program.toNode.displayWith printable),
    named "errors" (list (r.reports.map (·.displayWith printable)))]

/-- Options, as the call that builds them. -/
def Options.displayWith (o : Options) : Text :=
  call "Settings" [named "integer_overflow" (Quoted.showWith printable o.overflow),
    named "valid_overflow_policies"
      (list? (o.policies.map fun choices => choices.map (Quoted.showWith printable))),
    named "report_unrecognized_statements" (truth o.reportStray)]

/-! ## With Unicode's printable code points -/

/-- A token, as the call that builds it. -/
def Token.display (t : Token) : Text := t.displayWith CodePoint.isPrintable

/-- A part of the tree, as the call that builds it. -/
def Node.display (n : Node) : Text := n.displayWith CodePoint.isPrintable

/-- A report, as the call that builds it. -/
def Diagnostic.display (d : Diagnostic) : Text := d.displayWith CodePoint.isPrintable

/-- A reading, as the call that builds it. -/
def Reading.display (r : Reading) : Text := r.displayWith CodePoint.isPrintable

/-- Options, as the call that builds them. -/
def Options.display (o : Options) : Text := o.displayWith CodePoint.isPrintable

end ScriptReader
