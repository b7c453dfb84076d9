import StateForge.Text.Rune
import StateForge.Yaml.Fault

/-!
# The characters of a YAML text

A text is in UTF-8, or in UTF-16 with a byte order mark. It is read in blocks of 512 bytes, and a
block with a malformed sequence or a control character in it is refused as a whole, but only when
the block is needed: a document that ends before is accepted.

`CharStream.ofText` gives the characters of the blocks before the first bad one, and whether that is
all there is.
-/

set_option autoImplicit false

namespace StateForge
namespace Yaml

/-- The readable part of a text. -/
structure CharStream where
  chars : List Char
  /-- Is this the whole text? -/
  complete : Bool
deriving DecidableEq

/-- The encodings of a text. -/
inductive Encoding where
  | utf8
  | utf16LittleEndian
  | utf16BigEndian
deriving DecidableEq

namespace Encoding

/-- The encoding that a text announces and the length of its byte order mark. -/
def detect : Text → Encoding × Nat
  | 0xff :: 0xfe :: _ => (utf16LittleEndian, 2)
  | 0xfe :: 0xff :: _ => (utf16BigEndian, 2)
  | 0xef :: 0xbb :: 0xbf :: _ => (utf8, 3)
  | _ => (utf8, 0)

end Encoding

/-- The characters that may stand in a text: no control characters but tab, line ends and the next
line character. -/
def isAllowedChar (c : Char) : Bool :=
  let n := c.toNat
  n == 0x09 || n == 0x0a || n == 0x0d || (0x20 ≤ n && n ≤ 0x7e) || n == 0x85 ||
    (0xa0 ≤ n && n ≤ 0xd7ff) || (0xe000 ≤ n && n ≤ 0xfffd) || 0x10000 ≤ n

/-- What reading a block gives. -/
inductive Block where
  /-- A malformed sequence or a control character. -/
  | bad
  /-- Its characters, and the bytes at its end that begin a sequence of the next block. -/
  | good (chars : List Char) (carry : Text)
deriving DecidableEq

namespace Block

/-- Puts a character in front of a block. -/
def cons (c? : Option Char) (rest : Block) : Block :=
  match c?, rest with
  | some c, good chars carry => if isAllowedChar c then good (c :: chars) carry else bad
  | _, _ => bad

/-- Reads a block of UTF-8. -/
def ofUtf8 : Text → Block
  | [] => good [] []
  | b0 :: r0 =>
    if b0 < 0x80 then cons (some (Char.ofNat b0.toNat)) (ofUtf8 r0)
    else if b0 < 0xc0 || 0xf8 ≤ b0 then bad
    else
      match r0 with
      | [] => good [] [b0]
      | b1 :: r1 =>
        if b0 < 0xe0 then cons (Text.scalar2? b0 b1) (ofUtf8 r1)
        else
          match r1 with
          | [] => good [] [b0, b1]
          | b2 :: r2 =>
            if b0 < 0xf0 then cons (Text.scalar3? b0 b1 b2) (ofUtf8 r2)
            else
              match r2 with
              | [] => good [] [b0, b1, b2]
              | b3 :: r3 => cons (Text.scalar4? b0 b1 b2 b3) (ofUtf8 r3)
termination_by structural s => s

/-- The character of two surrogates. -/
def surrogatePair? (high low : Nat) : Option Char :=
  if 0xdc00 ≤ low ∧ low < 0xe000 then
    some (Char.ofNat (0x10000 + (high - 0xd800) * 0x400 + (low - 0xdc00)))
  else none

/-- Reads a block of UTF-16 whose units are made of two bytes by `unit`. -/
def ofUtf16 (unit : UInt8 → UInt8 → Nat) : Text → Block
  | [] => good [] []
  | [b0] => good [] [b0]
  | b0 :: b1 :: r1 =>
    let u := unit b0 b1
    if 0xdc00 ≤ u && u < 0xe000 then bad
    else if 0xd800 ≤ u && u < 0xdc00 then
      match r1 with
      | [] => good [] [b0, b1]
      | [b2] => good [] [b0, b1, b2]
      | b2 :: b3 :: r3 => cons (surrogatePair? u (unit b2 b3)) (ofUtf16 unit r3)
    else cons (some (Char.ofNat u)) (ofUtf16 unit r1)
termination_by structural s => s

/-- Reads a block in the given encoding. -/
def read : Encoding → Text → Block
  | .utf8, s => ofUtf8 s
  | .utf16LittleEndian, s => ofUtf16 (fun low high => high.toNat * 256 + low.toNat) s
  | .utf16BigEndian, s => ofUtf16 (fun high low => high.toNat * 256 + low.toNat) s

end Block

namespace CharStream

/-- The number of bytes in a block. -/
def blockSize : Nat := 512

/-- Reads blocks one after the other. The first one has room for `room` bytes beside `carry`, which
is left over from the block before. -/
def readBlocks (encoding : Encoding) : Nat → Nat → Text → Text → CharStream
  | 0, _, _, _ => ⟨[], false⟩
  | fuel + 1, room, carry, rest =>
    match Block.read encoding (carry ++ rest.take room) with
    | .bad => ⟨[], false⟩
    | .good chars carry' =>
      match rest.drop room with
      | [] => ⟨chars, carry' == []⟩
      | b :: rest' =>
        let tail := readBlocks encoding fuel (blockSize - carry'.length) carry' (b :: rest')
        ⟨chars ++ tail.chars, tail.complete⟩

/-- The characters of a text. -/
def ofText (s : Text) : CharStream :=
  let (encoding, mark) := Encoding.detect s
  readBlocks encoding (s.length + 1) (blockSize - mark) [] (s.drop mark)

end CharStream

end Yaml
end StateForge
