import ScriptReader.Text.CodePoint

/-!
# Tokens — kinds, and the spellings that fix them

A token is a reserved word, a mark (an operator or a delimiter), an
identifier, an integer, a stray piece of source, or the end. Reserved
words and marks have one spelling each, and `Keyword.ofText?` and
`Mark.ofText?` find them by it: `Keyword.ofText?_eq_some_iff` and
`Mark.ofText?_eq_some_iff` say that looking up and spelling undo each
other.
-/

namespace ScriptReader

/-- The reserved words. -/
inductive Keyword where
  | fnWord
  | letWord
  | trueWord
  | falseWord
  | ifWord
  | elseWord
  | returnWord
deriving DecidableEq

namespace Keyword

/-- The reserved words in the order in which they are listed. -/
def all : List Keyword := [fnWord, letWord, trueWord, falseWord, ifWord, elseWord, returnWord]

/-- The one spelling of a reserved word. -/
def spelling : Keyword → Text
  | fnWord => "fn"
  | letWord => "let"
  | trueWord => "true"
  | falseWord => "false"
  | ifWord => "if"
  | elseWord => "else"
  | returnWord => "return"

/-- The reserved word a text spells. Case counts. -/
def ofText? (t : Text) : Option Keyword := all.find? fun k => k.spelling = t

theorem mem_all (k : Keyword) : k ∈ all := by cases k <;> decide

theorem ofText?_spelling (k : Keyword) : ofText? k.spelling = some k := by cases k <;> decide

theorem ofText?_eq_some_iff {t : Text} {k : Keyword} : ofText? t = some k ↔ k.spelling = t :=
  ⟨fun h => by simpa using List.find?_some h, fun h => h ▸ ofText?_spelling k⟩

end Keyword

/-- The operators and delimiters. -/
inductive Mark where
  | assign
  | plus
  | minus
  | star
  | slash
  | bang
  | equal
  | notEqual
  | less
  | greater
  | comma
  | semicolon
  | openParen
  | closeParen
  | openBrace
  | closeBrace
deriving DecidableEq

namespace Mark

/-- The marks in the order in which they are listed. -/
def all : List Mark :=
  [assign, plus, minus, star, slash, bang, equal, notEqual, less, greater, comma, semicolon,
    openParen, closeParen, openBrace, closeBrace]

/-- The one spelling of a mark. -/
def spelling : Mark → Text
  | assign => "="
  | plus => "+"
  | minus => "-"
  | star => "*"
  | slash => "/"
  | bang => "!"
  | equal => "=="
  | notEqual => "!="
  | less => "<"
  | greater => ">"
  | comma => ","
  | semicolon => ";"
  | openParen => "("
  | closeParen => ")"
  | openBrace => "\x7b"
  | closeBrace => "\x7d"

/-- The mark a text spells. -/
def ofText? (t : Text) : Option Mark := all.find? fun m => m.spelling = t

theorem mem_all (m : Mark) : m ∈ all := by cases m <;> decide

theorem ofText?_spelling (m : Mark) : ofText? m.spelling = some m := by cases m <;> decide

theorem ofText?_eq_some_iff {t : Text} {m : Mark} : ofText? t = some m ↔ m.spelling = t :=
  ⟨fun h => by simpa using List.find?_some h, fun h => h ▸ ofText?_spelling m⟩

end Mark

/-- What kind of token it is. -/
inductive Kind where
  /-- A piece of source that is no token of the language. -/
  | illegal
  /-- The end of the source. -/
  | eof
  | identifier
  | integer
  | mark (m : Mark)
  | keyword (k : Keyword)
deriving DecidableEq

namespace Kind

/-- The kinds in the order in which they are numbered, from one. -/
def all : List Kind :=
  [illegal, eof, identifier, integer] ++ Mark.all.map mark ++ Keyword.all.map keyword

/-- The name under which a kind is shown. -/
def name : Kind → String
  | illegal => "ILLEGAL"
  | eof => "EOF"
  | identifier => "IDENT"
  | integer => "INT"
  | mark .assign => "ASSIGN"
  | mark .plus => "PLUS"
  | mark .minus => "MINUS"
  | mark .star => "MULTIPLY"
  | mark .slash => "DIVIDE"
  | mark .bang => "NEGATION"
  | mark .equal => "EQUALS"
  | mark .notEqual => "NOT_EQUALS"
  | mark .less => "LESS_THAN"
  | mark .greater => "GREATER_THAN"
  | mark .comma => "COMMA"
  | mark .semicolon => "SEMICOLON"
  | mark .openParen => "LEFT_PAREN"
  | mark .closeParen => "RIGHT_PAREN"
  | mark .openBrace => "LEFT_BRACE"
  | mark .closeBrace => "RIGHT_BRACE"
  | keyword .fnWord => "FUNCTION"
  | keyword .letWord => "LET"
  | keyword .trueWord => "TRUE"
  | keyword .falseWord => "FALSE"
  | keyword .ifWord => "IF"
  | keyword .elseWord => "ELSE"
  | keyword .returnWord => "RETURN"

/-- The kind a name stands for. -/
def ofName? (s : String) : Option Kind := all.find? fun k => k.name = s

/-- The one spelling of a kind, for the kinds that have one. -/
def spelling? : Kind → Option Text
  | mark m => some m.spelling
  | keyword k => some k.spelling
  | _ => none

theorem mem_all (k : Kind) : k ∈ all := by
  cases k with
  | mark m => cases m <;> decide
  | keyword w => cases w <;> decide
  | _ => decide

theorem ofName?_name (k : Kind) : ofName? k.name = some k := by
  cases k with
  | mark m => cases m <;> decide
  | keyword w => cases w <;> decide
  | _ => decide

end Kind

end ScriptReader
