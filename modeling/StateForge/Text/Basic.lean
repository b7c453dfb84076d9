/-!
# Byte strings

Names, documents, paths and generated files are byte strings: nothing in the program promises that
they are well-formed UTF-8, lengths are counted in bytes and identifiers are tested byte by byte.
A `Text` is a list of bytes, so that every fact about lists is a fact about texts.

## What is here

* `Text` and `Text.ofString`, which is also a coercion: a literal in the source stands for its
  UTF-8 bytes.
* `Text.decimal`, `Text.hex`, `Text.spaces`, `Text.unlines`: the few ways in which texts are put
  together.
* `Text.cutPrefix?`, `Text.splitOn`: the few ways in which they are taken apart.
-/

set_option autoImplicit false

namespace StateForge

/-- A byte string. -/
abbrev Text := List UInt8

namespace Text

/-- The UTF-8 bytes of a string. -/
def ofString (s : String) : Text :=
  s.toList.flatMap String.utf8EncodeChar

instance : Coe String Text := ⟨ofString⟩

instance (s : Text) (list : List Text) : Decidable (s ∈ list) :=
  List.instDecidableMemOfLawfulBEq s list

/-- The line feed. -/
def newline : UInt8 := 0x0a

/-- The carriage return. -/
def carriageReturn : UInt8 := 0x0d

/-- The space. -/
def space : UInt8 := 0x20

/-- `n` spaces. -/
def spaces (n : Nat) : Text :=
  List.replicate n space

/-- The decimal digits of a number, without leading zeros. -/
def decimal (n : Nat) : Text :=
  ofString (toString n)

/-- The lower-case hexadecimal digits of `n`, padded with zeros to at least `width` digits. -/
def hex (width n : Nat) : Text :=
  let digits := (Nat.toDigits 16 n).map Char.toUInt8
  List.replicate (width - digits.length) 0x30 ++ digits

/-- The texts one after the other, each ended by a line feed. -/
def unlines (lines : List Text) : Text :=
  lines.flatMap fun line => line ++ [newline]

/-- What follows `lead` in a text that starts with it. -/
def cutPrefix? (lead s : Text) : Option Text :=
  if lead.isPrefixOf s then some (s.drop lead.length) else none

theorem cutPrefix?_append (lead s : Text) : cutPrefix? lead (lead ++ s) = some s := by
  rw [cutPrefix?, if_pos (List.isPrefixOf_iff_prefix.mpr (List.prefix_append _ _)), List.drop_left]

/-- The pieces between the occurrences of one byte: one more piece than there are occurrences. -/
def splitOn (sep : UInt8) : Text → List Text
  | [] => [[]]
  | b :: rest =>
    if b = sep then [] :: splitOn sep rest
    else
      match splitOn sep rest with
      | [] => [[b]]
      | piece :: pieces => (b :: piece) :: pieces

end Text

end StateForge
