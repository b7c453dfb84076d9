import StateForge.Text.Rune

/-!
# JSON values

`Json.parse?` reads a JSON text. It accepts exactly the grammar of JSON: one value with white space
around it. The texts of numbers are not kept, since no field of a document is a number.

A string may hold any bytes; those that are no part of a character are read as replacement
characters, and so are escapes of surrogates without a partner.
-/

set_option autoImplicit false

namespace StateForge

/-- A JSON value. Members of objects are in the order of the text. -/
inductive Json where
  | null
  | bool
  | number
  | string (s : Text)
  | array (items : List Json)
  | object (members : List (Text × Json))

namespace Json

/-- White space between tokens. -/
def isSpace (b : UInt8) : Bool :=
  b == 0x20 || b == 0x09 || b == 0x0a || b == 0x0d

/-- The text without the white space at its beginning. -/
def skipSpace (s : Text) : Text :=
  s.dropWhile isSpace

/-- Decimal digits. -/
def isDigit (b : UInt8) : Bool :=
  0x30 ≤ b && b ≤ 0x39

/-! ## Numbers -/

/-- At least one digit; gives what follows. -/
def digits? (s : Text) : Option Text :=
  match s with
  | d :: rest => if isDigit d then some (rest.dropWhile isDigit) else none
  | [] => none

/-- The digits before the point: no zero in front of others. -/
def integer? : Text → Option Text
  | 0x30 :: rest => some rest
  | s => digits? s

/-- The digits after the point, if there are any. -/
def fraction? : Text → Option Text
  | 0x2e :: rest => digits? rest
  | s => some s

/-- The exponent, if there is one. -/
def exponent? : Text → Option Text
  | mark :: rest =>
    if mark == 0x65 || mark == 0x45 then
      match rest with
      | 0x2b :: s => digits? s
      | 0x2d :: s => digits? s
      | s => digits? s
    else some (mark :: rest)
  | [] => some []

/-- A number; gives what follows. -/
def number? (s : Text) : Option Text :=
  let unsigned :=
    match s with
    | 0x2d :: rest => rest
    | s => s
  (integer? unsigned).bind fun s => (fraction? s).bind exponent?

/-! ## Strings -/

/-- The value of a hexadecimal digit. -/
def hexDigit? (b : UInt8) : Option Nat :=
  if 0x30 ≤ b && b ≤ 0x39 then some (b.toNat - 0x30)
  else if 0x61 ≤ b && b ≤ 0x66 then some (b.toNat - 0x57)
  else if 0x41 ≤ b && b ≤ 0x46 then some (b.toNat - 0x37)
  else none

/-- A number of four hexadecimal digits, and what follows. -/
def unit? : Text → Option (Nat × Text)
  | a :: b :: c :: d :: rest => do
    let a ← hexDigit? a
    let b ← hexDigit? b
    let c ← hexDigit? c
    let d ← hexDigit? d
    return (((a * 16 + b) * 16 + c) * 16 + d, rest)
  | _ => none

/-- The character that stands for what is none. -/
def replacement : Char := '�'

/-- The character of a UTF-16 unit, which is paired with the escape after it if both are
surrogates. -/
def escapedChar (unit : Nat) (rest : Text) : Char × Text :=
  if 0xd800 ≤ unit && unit < 0xdc00 then
    match rest with
    | 0x5c :: 0x75 :: rest' =>
      match unit? rest' with
      | some (low, rest'') =>
        if 0xdc00 ≤ low && low < 0xe000 then
          (Char.ofNat (0x10000 + (unit - 0xd800) * 0x400 + (low - 0xdc00)), rest'')
        else (replacement, rest)
      | none => (replacement, rest)
    | _ => (replacement, rest)
  else if 0xdc00 ≤ unit && unit < 0xe000 then (replacement, rest)
  else (Char.ofNat unit, rest)

/-- What an escape of one letter stands for. -/
def simpleEscape? (b : UInt8) : Option Char :=
  match Char.ofNat b.toNat with
  | '"' => some '"'
  | '\\' => some '\\'
  | '/' => some '/'
  | 'b' => some '\x08'
  | 'f' => some '\x0c'
  | 'n' => some '\n'
  | 'r' => some '\r'
  | 't' => some '\t'
  | _ => none

/-- The text with a replacement character for each byte that is no part of a character. -/
def wellFormed (s : Text) : Text :=
  Text.ofChars (s.runes.map Rune.shown)

/-- What was read before an escape and after it, all in reverse. -/
def flush (text plain : Text) : Text :=
  (wellFormed plain.reverse).reverse ++ text

/-- Reads the inside of a string and its closing quote. `plain` is what was read since the last
escape and `text` what was read before, both in reverse. -/
def string? : Nat → Text → Text → Text → Option (Text × Text)
  | 0, _, _, _ => none
  | fuel + 1, text, plain, s =>
    match s with
    | [] => none
    | b :: rest =>
      if b == 0x22 then some ((flush text plain).reverse, rest)
      else if b == 0x5c then
        match rest with
        | [] => none
        | e :: rest =>
          if e == 0x75 then do
            let (unit, rest) ← unit? rest
            let (c, rest) := escapedChar unit rest
            string? fuel ((Text.ofChars [c]).reverse ++ flush text plain) [] rest
          else do
            let c ← simpleEscape? e
            string? fuel ((Text.ofChars [c]).reverse ++ flush text plain) [] rest
      else if b < 0x20 then none
      else string? fuel text (b :: plain) rest

/-- Reads a string after its opening quote. -/
def stringAfterQuote? (s : Text) : Option (Text × Text) :=
  string? (s.length + 1) [] [] s

/-! ## Values -/

mutual

/-- Reads a value, and gives what follows. -/
def value? : Nat → Text → Option (Json × Text)
  | 0, _ => none
  | fuel + 1, s =>
    match skipSpace s with
    | [] => none
    | b :: rest =>
      if b == 0x7b then
        match skipSpace rest with
        | 0x7d :: rest => some (object [], rest)
        | rest => (members? fuel rest).map fun (ms, rest) => (object ms, rest)
      else if b == 0x5b then
        match skipSpace rest with
        | 0x5d :: rest => some (array [], rest)
        | rest => (items? fuel rest).map fun (vs, rest) => (array vs, rest)
      else if b == 0x22 then (stringAfterQuote? rest).map fun (t, rest) => (string t, rest)
      else
        match Text.cutPrefix? "true" (b :: rest), Text.cutPrefix? "false" (b :: rest),
            Text.cutPrefix? "null" (b :: rest) with
        | some rest, _, _ => some (bool, rest)
        | _, some rest, _ => some (bool, rest)
        | _, _, some rest => some (null, rest)
        | _, _, _ => (number? (b :: rest)).map fun rest => (number, rest)
termination_by structural fuel => fuel

/-- Reads the items of an array, of which there is one at least, and the closing bracket. -/
def items? : Nat → Text → Option (List Json × Text)
  | 0, _ => none
  | fuel + 1, s => do
    let (v, rest) ← value? fuel s
    match skipSpace rest with
    | 0x2c :: rest =>
      let (vs, rest) ← items? fuel rest
      return (v :: vs, rest)
    | 0x5d :: rest => return ([v], rest)
    | _ => none
termination_by structural fuel => fuel

/-- Reads the members of an object, of which there is one at least, and the closing brace. -/
def members? : Nat → Text → Option (List (Text × Json) × Text)
  | 0, _ => none
  | fuel + 1, s =>
    match skipSpace s with
    | 0x22 :: rest => do
      let (name, rest) ← stringAfterQuote? rest
      match skipSpace rest with
      | 0x3a :: rest =>
        let (v, rest) ← value? fuel rest
        match skipSpace rest with
        | 0x2c :: rest =>
          let (ms, rest) ← members? fuel rest
          return ((name, v) :: ms, rest)
        | 0x7d :: rest => return ([(name, v)], rest)
        | _ => none
      | _ => none
    | _ => none
termination_by structural fuel => fuel

end

/-- Reads a JSON text. -/
def parse? (s : Text) : Option Json :=
  match value? (s.length + 1) s with
  | some (v, rest) => if (skipSpace rest).isEmpty then some v else none
  | none => none

end Json

end StateForge
