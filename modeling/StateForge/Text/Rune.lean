import StateForge.Text.Basic

/-!
# Reading a byte string as characters

A byte string is read from left to right as a list of *runes*: a well-formed UTF-8 sequence is the
character it encodes, and a byte that starts no well-formed sequence stands for itself. Nothing is
lost: `Rune.bytes` gives back what a rune was read from.

Well-formed means the shortest form of a scalar value, so an overlong form, a surrogate and a value
above U+10FFFF are each read as single bytes.

White space is the Unicode property `White_Space`. A stray byte is never white space, so trimming
never cuts into a malformed sequence. Texts are compared with a given word of ASCII under simple
case folding: besides the ASCII letters two characters fold to one, the long s and the Kelvin sign.
The tables of other character properties are lists of ranges in increasing order.
-/

set_option autoImplicit false

namespace StateForge

/-- A unit of a byte string: a character, or a byte that is no part of one. -/
inductive Rune where
  | char (c : Char)
  | byte (b : UInt8)
deriving DecidableEq

namespace Rune

/-- The bytes a rune is read from. -/
def bytes : Rune → Text
  | char c => String.utf8EncodeChar c
  | byte b => [b]

/-- The character a rune shows as: a stray byte shows as the replacement character. -/
def shown : Rune → Char
  | char c => c
  | byte _ => '�'

end Rune

namespace Text

/-- Bytes that only continue a sequence: those of the form `10xxxxxx`. -/
def isContinuation (b : UInt8) : Bool :=
  0x80 ≤ b && b < 0xc0

/-- The six bits that a continuation byte carries. -/
def tailBits (b : UInt8) : Nat :=
  b.toNat % 64

/-- The character with code `code`, if its shortest form needs more than `below` allows. -/
def scalar? (below code : Nat) : Option Char :=
  if below ≤ code ∧ code.isValidChar then some (Char.ofNat code) else none

/-- The character of a two-byte sequence. -/
def scalar2? (b0 b1 : UInt8) : Option Char :=
  if 0xc0 ≤ b0 && b0 < 0xe0 && isContinuation b1 then
    scalar? 0x80 (b0.toNat % 32 * 64 + tailBits b1)
  else none

/-- The character of a three-byte sequence. -/
def scalar3? (b0 b1 b2 : UInt8) : Option Char :=
  if 0xe0 ≤ b0 && b0 < 0xf0 && isContinuation b1 && isContinuation b2 then
    scalar? 0x800 ((b0.toNat % 16 * 64 + tailBits b1) * 64 + tailBits b2)
  else none

/-- The character of a four-byte sequence. -/
def scalar4? (b0 b1 b2 b3 : UInt8) : Option Char :=
  if 0xf0 ≤ b0 && b0 < 0xf8 && isContinuation b1 && isContinuation b2 && isContinuation b3 then
    scalar? 0x10000
      (((b0.toNat % 8 * 64 + tailBits b1) * 64 + tailBits b2) * 64 + tailBits b3)
  else none

/-- The runes of a byte string. -/
def runes : Text → List Rune
  | [] => []
  | b0 :: r0 =>
    if b0 < 0x80 then .char (Char.ofNat b0.toNat) :: runes r0
    else
      match r0 with
      | [] => [.byte b0]
      | b1 :: r1 =>
        match scalar2? b0 b1 with
        | some c => .char c :: runes r1
        | none =>
          match r1 with
          | [] => .byte b0 :: runes [b1]
          | b2 :: r2 =>
            match scalar3? b0 b1 b2 with
            | some c => .char c :: runes r2
            | none =>
              match r2 with
              | [] => .byte b0 :: runes [b1, b2]
              | b3 :: r3 =>
                match scalar4? b0 b1 b2 b3 with
                | some c => .char c :: runes r3
                | none => .byte b0 :: runes (b1 :: b2 :: b3 :: r3)
termination_by structural s => s

/-- The bytes of a list of runes. -/
def ofRunes (rs : List Rune) : Text :=
  rs.flatMap Rune.bytes

/-- The bytes of a list of characters. -/
def ofChars (cs : List Char) : Text :=
  cs.flatMap String.utf8EncodeChar

end Text

/-! ## White space and trimming -/

/-- The characters with the property `White_Space`. -/
def isBlankChar (c : Char) : Bool :=
  let n := c.toNat
  (0x09 ≤ n && n ≤ 0x0d) || n == 0x20 || n == 0x85 || n == 0xa0 || n == 0x1680 ||
    (0x2000 ≤ n && n ≤ 0x200a) || n == 0x2028 || n == 0x2029 || n == 0x202f || n == 0x205f ||
    n == 0x3000

namespace Rune

/-- White space, as a rune. -/
def isBlank : Rune → Bool
  | char c => isBlankChar c
  | byte _ => false

end Rune

namespace Text

/-- Is there nothing but white space? -/
def isBlank (s : Text) : Bool :=
  s.runes.all Rune.isBlank

/-- The runes that are left when white space is taken off both ends. -/
def trimRunes (rs : List Rune) : List Rune :=
  ((rs.dropWhile Rune.isBlank).reverse.dropWhile Rune.isBlank).reverse

/-- The text without the white space at its ends. -/
def trim (s : Text) : Text :=
  ofRunes (trimRunes s.runes)

/-- The text without the spaces at its end. -/
def trimSpacesRight (s : Text) : Text :=
  (s.reverse.dropWhile (· == space)).reverse

end Text

/-! ## Comparing without regard to case -/

/-- The lower-case ASCII character that a rune folds to, if it folds to ASCII. -/
def Rune.folded? : Rune → Option Char
  | .char c =>
    if c == '\u017f' then some 's'
    else if c == '\u212a' then some 'k'
    else if c.toNat < 0x80 then some c.toLower
    else none
  | .byte _ => none

/-- Is the text the given ASCII word, up to case? -/
def Text.foldsTo (s : Text) (word : String) : Bool :=
  s.runes.map Rune.folded? == word.toList.map fun c => some c.toLower

/-! ## Sets of code points -/

/-- A set of code points, as ranges with both ends included. -/
abbrev CodeRanges := List (Nat × Nat)

namespace CodeRanges

/-- Is the code point in one of the ranges? -/
def contains (ranges : CodeRanges) (code : Nat) : Bool :=
  ranges.any fun range => range.1 ≤ code && code ≤ range.2

end CodeRanges

end StateForge
