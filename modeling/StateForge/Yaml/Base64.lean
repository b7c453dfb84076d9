import StateForge.Text.Basic

/-!
# Base 64

Binary data in a YAML text. Line ends between the digits do not count; padding does.
-/

set_option autoImplicit false

namespace StateForge
namespace Base64

/-- The value of a digit. -/
def digit? (b : UInt8) : Option Nat :=
  if 0x41 ≤ b && b ≤ 0x5a then some (b.toNat - 0x41)
  else if 0x61 ≤ b && b ≤ 0x7a then some (b.toNat - 0x61 + 26)
  else if 0x30 ≤ b && b ≤ 0x39 then some (b.toNat - 0x30 + 52)
  else if b == 0x2b then some 62
  else if b == 0x2f then some 63
  else none

/-- The padding byte. -/
def padding : UInt8 := 0x3d

/-- Decodes groups of four digits; the last one may be padded. -/
def decodeGroups : Text → Option Text
  | [] => some []
  | a :: b :: c :: d :: rest => do
    let a ← digit? a
    let b ← digit? b
    if c == padding then
      if d == padding && rest == [] then some [(a * 4 + b / 16).toUInt8] else none
    else
      let c ← digit? c
      if d == padding then
        if rest == [] then some [(a * 4 + b / 16).toUInt8, (b % 16 * 16 + c / 4).toUInt8] else none
      else
        let d ← digit? d
        let tail ← decodeGroups rest
        return (a * 4 + b / 16).toUInt8 :: (b % 16 * 16 + c / 4).toUInt8 ::
          (c % 4 * 64 + d).toUInt8 :: tail
  | _ => none

/-- The bytes that a text of digits stands for. -/
def decode? (s : Text) : Option Text :=
  decodeGroups (s.filter fun b => b != Text.newline && b != Text.carriageReturn)

end Base64
end StateForge
