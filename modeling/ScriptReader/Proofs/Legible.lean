import ScriptReader.Display
import ScriptReader.Proofs.Spellings

/-!
# Legible texts — writing that tells where it ends

A way of writing values as texts is legible if a value can be told from
its text, and from every text that starts with it, together with what is
behind it (`Legible`). Texts between quotes are legible whatever is
printable (`Quoted.legible`): an escape is read back by its second code
point, in one way (`Quoted.unescape_escape`), and none starts with the
quote, so the quote behind a text is the first one that no escape takes.
Names and numbers end where a code point stands that they have none of
(`Text.run_inj`).

From legible parts, lists between brackets and tuples between parentheses
are legible (`Legible.list`, `Legible.tuple`).
-/

namespace ScriptReader

/-- **A way of writing that tells where it ends.** Of the values that can
be there, only one has a text that the given one starts with. -/
def Legible {α : Type} (known : α → Prop) (text : α → Text) : Prop :=
  ∀ ⦃a b : α⦄, known a → known b → ∀ ⦃rest rest' : Text⦄, text a ++ rest = text b ++ rest' →
    a = b ∧ rest = rest'

/-! ## Names and numbers -/

section Runs

variable {run run' after after' : Text}

/-- Runs of code points that are stopped by one of another sort are told
from each other. -/
theorem Text.run_inj {p : CodePoint → Bool} (all : run.all p = true) (all' : run'.all p = true)
    (stop : ∀ c ∈ after.head?, p c = false) (stop' : ∀ c ∈ after'.head?, p c = false)
    (h : run ++ after = run' ++ after') : run = run' ∧ after = after' := by
  have htake := congrArg (List.takeWhile p) h
  rw [Lexeme.takeWhile_run all stop, Lexeme.takeWhile_run all' stop'] at htake
  subst htake
  exact ⟨rfl, List.append_cancel_left h⟩

theorem Text.ofString_inj {s t : String} (h : ofString s = ofString t) : s = t :=
  String.toList_inj.1 ((List.map_inj_right fun _ _ => CodePoint.ofChar_inj).1 h)

end Runs

namespace Kind

theorem name_inj {k l : Kind} (h : k.name = l.name) : k = l := by
  have hk := ofName?_name k
  rw [h, ofName?_name] at hk
  exact (Option.some.inj hk).symm

/-- The name of a kind is a word. -/
theorem isWordPart_name (k : Kind) : (Text.ofString k.name).all CodePoint.isWordPart = true := by
  cases k with
  | mark m => cases m <;> decide
  | keyword w => cases w <;> decide
  | _ => decide

end Kind

namespace Numeral

/-- What integers are written with. -/
def isPart (c : CodePoint) : Bool := c.isDigit || c == .ofChar '-'

theorem isPart_decimal (n : Nat) : (decimal n).all isPart = true := by
  rw [List.all_eq_true]
  intro c hc
  rw [isPart, isDigit_of_mem_decimal hc]
  rfl

theorem isPart_signed (n : Int) : (signed n).all isPart = true := by
  cases n with
  | ofNat n => exact isPart_decimal n
  | negSucc n =>
    rw [signed, List.all_cons, isPart_decimal]
    rfl

theorem decimal_inj {m n : Nat} (h : decimal m = decimal n) : m = n := by
  rw [← value_decimal m, h, value_decimal]

/-- **An integer is told from its digits and its sign.** -/
theorem signed_inj {m n : Int} (h : signed m = signed n) : m = n := by
  -- No digit is the minus sign.
  have apart : ∀ k l : Nat, decimal k ≠ .ofChar '-' :: decimal l := by
    intro k l h
    have digit := @isDigit_of_mem_decimal k (.ofChar '-') (by rw [h]; exact .head _)
    cases digit
  cases m with
  | ofNat m =>
    cases n with
    | ofNat n => exact congrArg Int.ofNat (decimal_inj h)
    | negSucc n => exact absurd h (apart m (n + 1))
  | negSucc m =>
    cases n with
    | ofNat n => exact absurd h.symm (apart n (m + 1))
    | negSucc n => exact congrArg Int.negSucc (Nat.succ.inj (decimal_inj (List.cons.inj h).2))

end Numeral

namespace Display

/-- A number, or the word for none, is told with a parenthesis behind it. -/
theorem number?_inj {m n : Option Int} {rest rest' : Text}
    (h : number? m ++ .ofChar ')' :: rest = number? n ++ .ofChar ')' :: rest') :
    m = n ∧ rest = rest' := by
  have all : ∀ n : Option Int,
      (number? n).all (fun c => Numeral.isPart c || c.isWordPart) = true := by
    intro n
    cases n with
    | none => decide
    | some n =>
      refine List.all_eq_true.2 fun c hc => ?_
      rw [List.all_eq_true.1 (Numeral.isPart_signed n) c hc, Bool.true_or]
  have apart : ∀ n : Int, number? none ≠ number? (some n) := by
    intro n h
    have part := Numeral.isPart_signed n
    rw [number?, number?] at h
    rw [← h] at part
    cases part
  have stop : ∀ rest : Text, ∀ c ∈ (CodePoint.ofChar ')' :: rest).head?,
      (Numeral.isPart c || c.isWordPart) = false := by
    intro rest c hc
    cases hc
    rfl
  obtain ⟨hnumber, hrest⟩ := Text.run_inj (all m) (all n) (stop rest) (stop rest') h
  refine ⟨?_, (List.cons.inj hrest).2⟩
  cases m with
  | none =>
    cases n with
    | none => rfl
    | some n => exact absurd hnumber (apart n)
  | some m =>
    cases n with
    | none => exact absurd hnumber.symm (apart m)
    | some n => exact congrArg some (Numeral.signed_inj hnumber)

end Display

/-! ## Texts between quotes -/

namespace Quoted

/-- The number of a digit in hexadecimal. -/
def hexDigit (c : CodePoint) : Nat := if c.val < 0x3A then c.val - 0x30 else c.val - 0x57

/-- The number that digits in hexadecimal stand for. -/
def hexValue (digits : Text) : Nat := digits.foldl (fun n c => 16 * n + hexDigit c) 0

theorem hexDigit_digitChar {n : Nat} (h : n < 16) : hexDigit (.ofChar (Nat.digitChar n)) = n := by
  revert n
  decide

/-- **Reading gives back what was written**, if there was room for it. -/
theorem hexValue_hex {width n : Nat} (h : n < 16 ^ width) : hexValue (hex width n) = n := by
  induction width generalizing n with
  | zero =>
    obtain rfl := Nat.lt_one_iff.1 h
    rfl
  | succ width ih =>
    have high : n / 16 < 16 ^ width := by
      rw [Nat.pow_succ] at h
      omega
    have split : hexValue (hex (width + 1) n) =
        16 * hexValue (hex width (n / 16)) + hexDigit (.ofChar (Nat.digitChar (n % 16))) := by
      rw [hex, hexValue, List.foldl_append]
      rfl
    rw [split, ih high, hexDigit_digitChar (Nat.mod_lt n (by decide))]
    exact Nat.div_add_mod n 16

/-- What the backslash in front of a text makes of it: the number of a
code point, and what is behind it. -/
def unmark : Text → Nat × Text
  | [] => (0, [])
  | c :: rest =>
    if c = .ofChar 'n' then (0x0A, rest)
    else if c = .ofChar 'r' then (0x0D, rest)
    else if c = .ofChar 't' then (0x09, rest)
    else if c = .ofChar 'x' then (hexValue (rest.take 2), rest.drop 2)
    else if c = .ofChar 'u' then (hexValue (rest.take 4), rest.drop 4)
    else if c = .ofChar 'U' then (hexValue (rest.take 8), rest.drop 8)
    else (c.val, rest)

/-- The number of the code point that a text starts with, escaped or not,
and what is behind it. -/
def unescape : Text → Nat × Text
  | [] => (0, [])
  | c :: rest => if c = backslash then unmark rest else (c.val, rest)

section Escapes

variable {printable : CodePoint → Bool} {quote c d : CodePoint} {t u rest rest' : Text}

/-- A code point that is escaped by its number is read back from it. -/
theorem unescape_escapeNumber (c : CodePoint) (rest : Text) :
    unescape (escapeNumber c ++ rest) = (c.val, rest) := by
  have digits : ∀ width : Nat, c.val < 16 ^ width →
      (hexValue ((hex width c.val ++ rest).take width), (hex width c.val ++ rest).drop width) =
        (c.val, rest) := by
    intro width room
    have length := length_hex width c.val
    rw [List.take_left' length, List.drop_left' length, hexValue_hex room]
  have bound := c.val_lt
  rw [escapeNumber]
  split
  · exact digits 2 (by omega)
  · split
    · exact digits 4 (by omega)
    · exact digits 8 (by omega)

/-- **An escape is read back** as the code point that was escaped,
whatever is printable. -/
theorem unescape_escape (isQuote : quote = singleQuote ∨ quote = doubleQuote) (c : CodePoint)
    (rest : Text) : unescape (escapeWith printable quote c ++ rest) = (c.val, rest) := by
  rw [escapeWith]
  split
  · next marked =>
    rcases marked with rfl | rfl
    · rcases isQuote with rfl | rfl <;> rfl
    · rfl
  · next plain =>
    split
    · next h => rw [h]; rfl
    · split
      · next h => rw [h]; rfl
      · split
        · next h => rw [h]; rfl
        · split
          · exact if_neg fun h => plain (.inr h)
          · exact unescape_escapeNumber c rest

/-- No escape starts with the quote. -/
theorem escape_eq_cons (printable : CodePoint → Bool)
    (isQuote : quote = singleQuote ∨ quote = doubleQuote) (c : CodePoint) :
    ∃ d run, escapeWith printable quote c = d :: run ∧ d ≠ quote := by
  have noQuote : backslash ≠ quote := by
    rcases isQuote with rfl | rfl <;> decide
  rw [escapeWith]
  split
  · exact ⟨_, _, rfl, noQuote⟩
  · next plain =>
    split
    · exact ⟨_, _, rfl, noQuote⟩
    · split
      · exact ⟨_, _, rfl, noQuote⟩
      · split
        · exact ⟨_, _, rfl, noQuote⟩
        · split
          · exact ⟨_, _, rfl, fun h => plain (.inl h)⟩
          · rw [escapeNumber]
            split
            · exact ⟨_, _, rfl, noQuote⟩
            · split <;> exact ⟨_, _, rfl, noQuote⟩

/-- Escaped texts end at the quote behind them. -/
theorem flatMap_escape_inj (isQuote : quote = singleQuote ∨ quote = doubleQuote)
    (h : t.flatMap (escapeWith printable quote) ++ quote :: rest =
      u.flatMap (escapeWith printable quote) ++ quote :: rest') : t = u ∧ rest = rest' := by
  -- Where one text is at its end the quote stands, and an escape does not start with it.
  induction t generalizing u with
  | nil =>
    cases u with
    | nil => exact ⟨rfl, (List.cons.inj h).2⟩
    | cons d u =>
      obtain ⟨e, run, he, noQuote⟩ := escape_eq_cons printable isQuote d
      rw [List.flatMap_cons, he] at h
      exact absurd (List.cons.inj h).1.symm noQuote
  | cons c t ih =>
    cases u with
    | nil =>
      obtain ⟨e, run, he, noQuote⟩ := escape_eq_cons printable isQuote c
      rw [List.flatMap_cons, he] at h
      exact absurd (List.cons.inj h).1 noQuote
    | cons d u =>
      rw [List.flatMap_cons, List.flatMap_cons, List.append_assoc, List.append_assoc] at h
      have hread := congrArg unescape h
      rw [unescape_escape isQuote, unescape_escape isQuote, Prod.mk.injEq] at hread
      obtain ⟨hcode, hbehind⟩ := hread
      obtain ⟨rfl, hrest⟩ := ih hbehind
      exact ⟨congrArg (· :: t) (CodePoint.ext hcode), hrest⟩

theorem quoteFor_eq (t : Text) : quoteFor t = singleQuote ∨ quoteFor t = doubleQuote := by
  rw [quoteFor]
  split
  · exact .inr rfl
  · exact .inl rfl

/-- **Texts between quotes are legible**, whatever is printable. -/
theorem legible (printable : CodePoint → Bool) : Legible (fun _ => True) (showWith printable) := by
  intro t u _ _ rest rest' h
  rw [showWith, showWith] at h
  simp only [List.append_assoc, List.singleton_append] at h
  obtain ⟨hquote, h⟩ := List.cons.inj h
  rw [← hquote] at h
  exact flatMap_escape_inj (quoteFor_eq t) h

end Escapes

end Quoted

/-! ## Lists and tuples -/

namespace Text

theorem join_singleton (separator t : Text) : join separator [t] = t := by
  simp [join, List.intercalate]

theorem join_cons_cons (separator t u : Text) (ts : List Text) :
    join separator (t :: u :: ts) = t ++ (separator ++ join separator (u :: ts)) := by
  simp [join, List.intercalate]

/-- All texts but the first one have the separator in front. -/
theorem join_cons (separator t : Text) (ts : List Text) :
    join separator (t :: ts) = t ++ ts.flatMap (separator ++ ·) := by
  induction ts generalizing t with
  | nil => rw [join_singleton, List.flatMap_nil, List.append_nil]
  | cons u ts ih => rw [join_cons_cons, ih u, List.flatMap_cons, List.append_assoc]

end Text

namespace Display

variable {α : Type}

/-- Values with a comma in front of each, and what closes them. -/
def commas (text : α → Text) (close : CodePoint) (as : List α) : Text :=
  (as.map text).flatMap ((", " : Text) ++ ·) ++ [close]

/-- Values behind an opening bracket: the first one and what is written of
the later ones, or only what closes them. -/
def opened (text : α → Text) (close : CodePoint) (later : List α → Text) : List α → Text
  | [] => [close]
  | a :: as => text a ++ later as

/-- The later values of a tuple, where none at all leave a comma. -/
def tupled (text : α → Text) : List α → Text
  | [] => ",)"
  | a :: as => commas text ')' (a :: as)

theorem list_map_eq (text : α → Text) (as : List α) :
    list (as.map text) = ("[" : Text) ++ opened text ']' (commas text ']') as := by
  cases as with
  | nil => rfl
  | cons a as =>
    rw [list, opened, commas, List.map_cons, Text.join_cons, List.append_assoc, List.append_assoc]
    rfl

theorem tuple_map_eq (text : α → Text) (as : List α) :
    tuple (as.map text) = ("(" : Text) ++ opened text ')' (tupled text) as := by
  match as with
  | [] => rfl
  | [a] => rw [List.map_cons, List.map_nil, tuple, opened, tupled, List.append_assoc]
  | a :: b :: as =>
    rw [List.map_cons, List.map_cons, tuple, opened, tupled, commas, Text.join_cons,
      List.append_assoc, List.append_assoc]
    · rfl
    · simp

end Display

namespace Legible

variable {α : Type} {known : α → Prop} {text : α → Text} {later : List α → Text}
  {close : CodePoint}

/-- What is written in front of legible texts leaves them legible. -/
theorem behind (front : Text) (legible : Legible known text) :
    Legible known (fun a => front ++ text a) := by
  intro a b ha hb rest rest' h
  simp only [List.append_assoc, List.append_cancel_left_eq] at h
  exact legible ha hb h

/-- Legible texts stay legible with commas in front of them. -/
theorem commas (legible : Legible known text) (apart : close ≠ .ofChar ',') :
    Legible (fun as => ∀ a ∈ as, known a) (Display.commas text close) := by
  intro as
  induction as with
  | nil =>
    intro bs _ _ rest rest' h
    cases bs with
    | nil => exact ⟨rfl, (List.cons.inj h).2⟩
    | cons b bs => exact absurd (List.cons.inj h).1 apart
  | cons a as ih =>
    intro bs has hbs rest rest' h
    cases bs with
    | nil => exact absurd (List.cons.inj h).1.symm apart
    | cons b bs =>
      obtain ⟨ha, has⟩ := List.forall_mem_cons.1 has
      obtain ⟨hb, hbs⟩ := List.forall_mem_cons.1 hbs
      simp only [Display.commas, List.map_cons, List.flatMap_cons, List.append_assoc,
        List.append_cancel_left_eq] at h
      obtain ⟨hab, behind⟩ := legible ha hb h
      rw [← List.append_assoc, ← List.append_assoc] at behind
      obtain ⟨hlater, hrest⟩ := ih has hbs behind
      exact ⟨congrArg₂ List.cons hab hlater, hrest⟩

/-- The first one is told from what closes them, if it does not start with
that. -/
theorem opened (legible : Legible known text)
    (starts : ∀ a, known a → ∃ c run, text a = c :: run ∧ c ≠ close)
    (hlater : Legible (fun as => ∀ a ∈ as, known a) later) :
    Legible (fun as => ∀ a ∈ as, known a) (Display.opened text close later) := by
  intro as bs has hbs rest rest' h
  cases as with
  | nil =>
    cases bs with
    | nil => exact ⟨rfl, (List.cons.inj h).2⟩
    | cons b bs =>
      obtain ⟨c, run, hb, other⟩ := starts b (hbs b (.head bs))
      rw [Display.opened, Display.opened, hb] at h
      exact absurd (List.cons.inj h).1.symm other
  | cons a as =>
    obtain ⟨ha, has⟩ := List.forall_mem_cons.1 has
    cases bs with
    | nil =>
      obtain ⟨c, run, hc, other⟩ := starts a ha
      rw [Display.opened, Display.opened, hc] at h
      exact absurd (List.cons.inj h).1 other
    | cons b bs =>
      obtain ⟨hb, hbs⟩ := List.forall_mem_cons.1 hbs
      rw [Display.opened, Display.opened, List.append_assoc, List.append_assoc] at h
      obtain ⟨hab, behind⟩ := legible ha hb h
      obtain ⟨htail, hrest⟩ := hlater has hbs behind
      exact ⟨congrArg₂ List.cons hab htail, hrest⟩

/-- The later values of a tuple are told from none. -/
theorem tupled (legible : Legible known text) :
    Legible (fun as => ∀ a ∈ as, known a) (Display.tupled text) := by
  -- Behind the first comma of a tuple of more than one is a space.
  have apart : CodePoint.ofChar ')' ≠ .ofChar ' ' := by decide
  intro as bs has hbs rest rest' h
  cases as with
  | nil =>
    cases bs with
    | nil => exact ⟨rfl, List.append_cancel_left h⟩
    | cons b bs => exact absurd (List.cons.inj (List.cons.inj h).2).1 apart
  | cons a as =>
    cases bs with
    | nil => exact absurd (List.cons.inj (List.cons.inj h).2).1.symm apart
    | cons b bs => exact legible.commas (by decide) has hbs h

/-- **Lists of legible texts are legible**, if none of these starts with
the bracket that closes the list. -/
theorem list (legible : Legible known text)
    (starts : ∀ a, known a → ∃ c run, text a = c :: run ∧ c ≠ .ofChar ']') :
    Legible (fun as => ∀ a ∈ as, known a) (fun as : List α => Display.list (as.map text)) := by
  rw [funext (Display.list_map_eq text)]
  exact (legible.opened starts (legible.commas (by decide))).behind "["

/-- **And so are tuples.** -/
theorem tuple (legible : Legible known text)
    (starts : ∀ a, known a → ∃ c run, text a = c :: run ∧ c ≠ .ofChar ')') :
    Legible (fun as => ∀ a ∈ as, known a) (fun as : List α => Display.tuple (as.map text)) := by
  rw [funext (Display.tuple_map_eq text)]
  exact (legible.opened starts legible.tupled).behind "("

end Legible

end ScriptReader
