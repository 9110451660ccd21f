/-!
# Text — code points, and the bytes they take

A text is a list of code points, lone surrogates included, because a
source may hold a code point that no `String` can. Positions in a source
are counted in bytes: `CodePoint.encode` spells the bytes out and
`CodePoint.width` counts them without building them
(`CodePoint.length_encode`). `Text.size` is the same count for a text, so
that it adds up over a seam (`Text.size_append`).
-/

namespace ScriptReader

/-- A code point: a number below `0x110000`. The surrogates are among
them, since a text may hold one on its own. -/
@[ext] structure CodePoint where
  /-- The number of the code point. -/
  val : Nat
  val_lt : val < 0x110000
deriving DecidableEq

namespace CodePoint

/-- The code point of a character. -/
def ofChar (c : Char) : CodePoint where
  val := c.toNat
  val_lt := by
    have h := c.valid
    simp only [UInt32.isValidChar, Nat.isValidChar] at h
    simp only [Char.toNat, UInt32.toNat] at *
    omega

instance : Coe Char CodePoint := ⟨ofChar⟩

instance : Inhabited CodePoint := ⟨ofChar ' '⟩

/-- The surrogates: the code points that are no characters. -/
def IsSurrogate (c : CodePoint) : Prop := 0xD800 ≤ c.val ∧ c.val ≤ 0xDFFF

instance (c : CodePoint) : Decidable c.IsSurrogate := by
  unfold IsSurrogate; infer_instance

/-- The character of a code point, for every code point that is one. -/
def toChar? (c : CodePoint) : Option Char :=
  if c.IsSurrogate then none else some (Char.ofNat c.val)

/-- The bytes of a code point in UTF-8. A surrogate takes three bytes, by
the rule for its neighbours. -/
def encode (c : CodePoint) : List UInt8 :=
  if c.val < 0x80 then [.ofNat c.val]
  else if c.val < 0x800 then [.ofNat (0xC0 + c.val / 64), tail c.val]
  else if c.val < 0x10000 then
    [.ofNat (0xE0 + c.val / 4096), tail (c.val / 64), tail c.val]
  else
    [.ofNat (0xF0 + c.val / 262144), tail (c.val / 4096), tail (c.val / 64), tail c.val]
where
  /-- A byte that goes on with a code point: its six low bits under the
  mark `10`. -/
  tail (n : Nat) : UInt8 := .ofNat (0x80 + n % 64)

/-- How many bytes a code point takes. -/
def width (c : CodePoint) : Nat :=
  if c.val < 0x80 then 1 else if c.val < 0x800 then 2 else if c.val < 0x10000 then 3 else 4

theorem length_encode (c : CodePoint) : c.encode.length = c.width := by
  unfold encode width
  repeat' split
  all_goals rfl

theorem width_pos (c : CodePoint) : 0 < c.width := by
  unfold width
  repeat' split
  all_goals omega

theorem width_of_lt {c : CodePoint} (h : c.val < 0x80) : c.width = 1 := if_pos h

end CodePoint

/-- A text: code points in order. -/
abbrev Text := List CodePoint

namespace Text

/-- The text of a string. -/
def ofString (s : String) : Text := s.toList.map .ofChar

instance : Coe String Text := ⟨ofString⟩

/-- The string of a text, for every text without surrogates. -/
def toString? (t : Text) : Option String := (t.mapM CodePoint.toChar?).map String.ofList

/-- The bytes of a text. -/
def encode (t : Text) : List UInt8 := t.flatMap CodePoint.encode

/-- How many bytes a text takes. -/
def size : Text → Nat
  | [] => 0
  | c :: t => c.width + size t

@[simp] theorem size_nil : size [] = 0 := rfl

@[simp] theorem size_cons (c : CodePoint) (t : Text) : size (c :: t) = c.width + size t := rfl

/-- **Bytes add up over a seam.** -/
@[simp] theorem size_append (s t : Text) : size (s ++ t) = size s + size t := by
  induction s with
  | nil => simp
  | cons c s ih => simp [ih, Nat.add_assoc]

theorem encode_append (s t : Text) : encode (s ++ t) = encode s ++ encode t :=
  List.flatMap_append

theorem length_encode (t : Text) : (encode t).length = size t := by
  induction t with
  | nil => rfl
  | cons c t ih =>
    rw [encode] at *
    simp [CodePoint.length_encode, ih]

/-- The texts with a separator between neighbours. -/
def join (separator : Text) (ts : List Text) : Text := separator.intercalate ts

end Text

end ScriptReader
