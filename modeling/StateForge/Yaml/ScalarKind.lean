import StateForge.Yaml.Fault
import StateForge.Yaml.Number
import StateForge.Yaml.Timestamp

/-!
# What a scalar stands for

A plain scalar is null, a truth value, a number, a timestamp or a string, as its text shows. An
explicit tag of one of these kinds has to fit the text; all other tags are taken as they are.
-/

set_option autoImplicit false

namespace StateForge
namespace Yaml

/-- The kinds of plain scalars. -/
inductive ScalarKind where
  | null
  | bool
  | int (size : Number.Size)
  | float
  | timestamp
  | str
deriving DecidableEq

/-- Tags that the schema knows, in their short form. -/
structure Schema where
  null : Text := "!!null"
  bool : Text := "!!bool"
  int : Text := "!!int"
  float : Text := "!!float"
  timestamp : Text := "!!timestamp"
  str : Text := "!!str"
  binary : Text := "!!binary"
  merge : Text := "!!merge"
  seq : Text := "!!seq"
  map : Text := "!!map"

/-- The tags of the schema. -/
def schema : Schema := {}

namespace ScalarKind

/-- The tag of a kind. -/
def tag : ScalarKind → Text
  | null => schema.null
  | bool => schema.bool
  | int _ => schema.int
  | float => schema.float
  | timestamp => schema.timestamp
  | str => schema.str

/-- Is the text one of these words? -/
def isWord (words : List String) (s : Text) : Bool :=
  words.any fun word => Text.ofString word == s

/-- Words that stand for nothing. -/
def nullWords : List String := ["", "~", "null", "Null", "NULL"]

/-- Words that stand for truth values. -/
def boolWords : List String := ["true", "True", "TRUE", "false", "False", "FALSE"]

/-- Words that stand for floating-point numbers without digits. -/
def floatWords : List String :=
  [".nan", ".NaN", ".NAN", ".inf", ".Inf", ".INF", "+.inf", "+.Inf", "+.INF", "-.inf", "-.Inf",
   "-.INF"]

/-- The kind of a text that starts with a digit or a sign. -/
def ofNumeral (timestamps : Bool) (s : Text) : ScalarKind :=
  let digits := s.filter (· != 0x5f)
  if timestamps && Timestamp.isTimestamp s then timestamp
  else
    match Number.integerSize? digits with
    | some size => int size
    | none =>
      if Number.isFloat digits then float
      else
        match Number.lateIntegerSize? digits with
        | some size => int size
        | none => str

/-- The kind of a text. Timestamps are only looked for if `timestamps` is set. -/
def ofText (timestamps : Bool) (s : Text) : ScalarKind :=
  if isWord nullWords s then null
  else if isWord boolWords s then bool
  else if isWord floatWords s then float
  else
    match s with
    | [] => null
    | b :: _ =>
      if b == 0x2e then (if Number.isFloat s then float else str)
      else if isDigitByte b || b == 0x2b || b == 0x2d then ofNumeral timestamps s
      else str

end ScalarKind

/-- What a scalar resolves to. -/
inductive Resolved where
  | null
  /-- A value with its tag. -/
  | value (tag : Text)
deriving DecidableEq

/-- Resolves a scalar with a tag in its short form. A tag of the schema has to fit the text, except
that an integer may stand for a floating-point number. -/
def resolve (tag text : Text) : Except Fault Resolved :=
  if tag == schema.bool || tag == schema.int || tag == schema.float || tag == schema.null ||
      tag == schema.timestamp then
    let kind := ScalarKind.ofText (tag == schema.timestamp) text
    if kind == .null && tag == schema.null then .ok .null
    else if kind.tag == tag || (tag == schema.float && kind == .int .signed) then .ok (.value tag)
    else .error .tagMismatch
  else .ok (.value tag)

end Yaml
end StateForge
