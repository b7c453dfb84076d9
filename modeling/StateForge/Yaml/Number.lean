import StateForge.Identifier

/-!
# Numbers in YAML

Which plain scalars are integers and which are floating-point numbers. Only the kind matters here:
the program never computes with a number that it reads.
-/

set_option autoImplicit false

namespace StateForge
namespace Yaml
namespace Number

/-- The value of a digit in bases up to 36. -/
def digit? (b : UInt8) : Option Nat :=
  if 0x30 ≤ b && b ≤ 0x39 then some (b.toNat - 0x30)
  else if 0x61 ≤ b && b ≤ 0x7a then some (b.toNat - 0x57)
  else if 0x41 ≤ b && b ≤ 0x5a then some (b.toNat - 0x37)
  else none

/-- The number that a text of digits stands for. -/
def natural? (base : Nat) (digits : Text) : Option Nat :=
  digits.foldlM (fun n b => (digit? b).bind fun d => if d < base then some (n * base + d) else none)
    0

/-- A natural number in decimal, or with one of the leads `0b`, `0o`, `0x` and `0`. -/
def unsigned? : Text → Option Nat
  | [] => none
  | 0x30 :: mark :: d :: rest =>
    if mark == 0x62 || mark == 0x42 then natural? 2 (d :: rest)
    else if mark == 0x6f || mark == 0x4f then natural? 8 (d :: rest)
    else if mark == 0x78 || mark == 0x58 then natural? 16 (d :: rest)
    else natural? 8 (mark :: d :: rest)
  | 0x30 :: rest => natural? 8 rest
  | s => natural? 10 s

/-- The integers by the size of the word that holds them. -/
inductive Size where
  /-- Fits a signed word of 64 bits. -/
  | signed
  /-- Fits only an unsigned word of 64 bits. -/
  | unsigned
deriving DecidableEq

/-- The size of a number, given its sign and magnitude. -/
def sizeOf? (negative : Bool) (n : Nat) : Option Size :=
  if n < 1 <<< 63 || (negative && n == 1 <<< 63) then some .signed else none

/-- The size of a number that may have a sign, read by `read`. -/
def signedSize? (read : Text → Option Nat) : Text → Option Size
  | 0x2b :: s => (read s).bind (sizeOf? false)
  | 0x2d :: s => (read s).bind (sizeOf? true)
  | s => (read s).bind (sizeOf? false)

/-- The size of a number without a sign, read by `read`. -/
def unsignedSize? (read : Text → Option Nat) (s : Text) : Option Size :=
  (read s).bind fun n => if n < 1 <<< 64 then some .unsigned else none

/-- Digits in a base, of which there has to be one. -/
def digits? (base : Nat) (s : Text) : Option Nat :=
  if s == [] then none else natural? base s

/-- Integers with the lead `0b` or `0o`, after which a sign may stand. -/
def leadSize? (lead : Text) (base : Nat) (s : Text) : Option Size :=
  match Text.cutPrefix? lead s with
  | some rest => signedSize? (digits? base) rest <|> unsignedSize? (digits? base) rest
  | none =>
    match Text.cutPrefix? (0x2d :: lead) s with
    | some rest => (digits? base rest).bind (sizeOf? true)
    | none => none

/-- The size of an integer; underscores between digits are already taken out. -/
def integerSize? (s : Text) : Option Size :=
  signedSize? unsigned? s <|> unsignedSize? unsigned? s

/-- The size of an integer in one of the forms that are tried last. -/
def lateIntegerSize? (s : Text) : Option Size :=
  leadSize? "0b" 2 s <|> leadSize? "0o" 8 s

/-- A decimal fraction: `digits · 10^exponent`. -/
structure Decimal where
  digits : Nat
  exponent : Int

/-- The exponent at the end of a number: nothing, or a mark, a sign and digits. -/
def exponent? : Text → Option Int
  | [] => some 0
  | mark :: rest =>
    if mark == 0x65 || mark == 0x45 then
      match rest with
      | 0x2b :: s => (digits? 10 s).map Int.ofNat
      | 0x2d :: s => (digits? 10 s).map fun n => -Int.ofNat n
      | s => (digits? 10 s).map Int.ofNat
    else none

/-- A decimal fraction without a sign. Digits have to stand before the point or after it. -/
def decimal? (s : Text) : Option Decimal :=
  let whole := s.takeWhile isDigitByte
  let rest := s.dropWhile isDigitByte
  let fraction :=
    match rest with
    | 0x2e :: t => t.takeWhile isDigitByte
    | _ => []
  let rest :=
    match rest with
    | 0x2e :: t => t.dropWhile isDigitByte
    | t => t
  if whole == [] && fraction == [] then none
  else do
    let digits ← natural? 10 (whole ++ fraction)
    let e ← exponent? rest
    return ⟨digits, e - fraction.length⟩

/-- Does the number fit a double-precision floating-point number? From `2^1024 - 2^970` on it is
rounded to infinity. -/
def Decimal.isFinite (d : Decimal) : Bool :=
  if d.digits == 0 then true
  else
    let length := (Nat.toDigits 10 d.digits).length
    if (length : Int) + d.exponent > 310 then false
    else if (length : Int) + d.exponent < 300 then true
    else if 0 ≤ d.exponent then d.digits * Nat.pow 10 d.exponent.toNat < 1 <<< 1024 - 1 <<< 970
    else d.digits < (1 <<< 1024 - 1 <<< 970) * Nat.pow 10 (-d.exponent).toNat

/-- Is the text a floating-point number? -/
def isFloat (s : Text) : Bool :=
  let unsigned :=
    match s with
    | 0x2b :: t => t
    | 0x2d :: t => t
    | t => t
  ((decimal? unsigned).map Decimal.isFinite).getD false

end Number
end Yaml
end StateForge
