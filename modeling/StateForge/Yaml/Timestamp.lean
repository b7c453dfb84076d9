import StateForge.Identifier

/-!
# Timestamps

A date, or a date with a time of day: `2001-12-14`, `2001-12-14t21:59:43.10-05:00`,
`2001-12-14 21:59:43`. Only the form and the calendar are checked here; nothing in the program uses
the moment that is meant.
-/

set_option autoImplicit false

namespace StateForge
namespace Yaml
namespace Timestamp

/-- The value of a decimal digit. -/
def digitValue (b : UInt8) : Nat :=
  b.toNat - 0x30

/-- A number of one or two digits, and what follows it. -/
def shortNumber? : Text → Option (Nat × Text)
  | a :: b :: rest =>
    if !isDigitByte a then none
    else if isDigitByte b then some (digitValue a * 10 + digitValue b, rest)
    else some (digitValue a, b :: rest)
  | [a] => if isDigitByte a then some (digitValue a, []) else none
  | [] => none

/-- A number of exactly two digits. -/
def twoDigits? (a b : UInt8) : Option Nat :=
  if isDigitByte a && isDigitByte b then some (digitValue a * 10 + digitValue b) else none

/-- What follows a given byte. -/
def after? (b : UInt8) : Text → Option Text
  | c :: rest => if c == b then some rest else none
  | [] => none

/-- Years with a 29th of February. -/
def isLeapYear (year : Nat) : Bool :=
  year % 4 == 0 && (year % 100 != 0 || year % 400 == 0)

/-- The number of days of a month. -/
def daysIn (year month : Nat) : Nat :=
  if month == 2 then (if isLeapYear year then 29 else 28)
  else if month == 4 || month == 6 || month == 9 || month == 11 then 30
  else 31

/-- Reads a date whose year has four digits; gives what follows it. -/
def date? (s : Text) : Option Text := do
  let digits := s.takeWhile isDigitByte
  if digits.length != 4 then none
  else
    let year := digits.foldl (fun n d => n * 10 + digitValue d) 0
    let (month, s) ← shortNumber? (← after? 0x2d (s.drop 4))
    let (day, s) ← shortNumber? (← after? 0x2d s)
    if 1 ≤ month && month ≤ 12 && 1 ≤ day && day ≤ daysIn year month then some s else none

/-- Leaves out a fraction of a second, after a point or a comma. -/
def skipFraction : Text → Text
  | mark :: d :: rest =>
    if (mark == 0x2e || mark == 0x2c) && isDigitByte d then rest.dropWhile isDigitByte
    else mark :: d :: rest
  | s => s

/-- Reads a time of day; gives what follows it. -/
def time? (s : Text) : Option Text := do
  let (hour, s) ← shortNumber? s
  let (minute, s) ← shortNumber? (← after? 0x3a s)
  let (second, s) ← shortNumber? (← after? 0x3a s)
  if hour < 24 && minute < 60 && second < 60 then some (skipFraction s) else none

/-- Is this the offset of a time zone? -/
def isZone : Text → Bool
  | [0x5a] => true
  | [sign, h1, h2, 0x3a, m1, m2] =>
    match twoDigits? h1 h2, twoDigits? m1 m2 with
    | some hours, some minutes =>
      (sign == 0x2b || sign == 0x2d) && hours ≤ 24 && minutes ≤ 60
    | _, _ => false
  | _ => false

/-- Is this what may follow a date? Nothing, a `T` with a time and a zone, or spaces and a time. -/
def isAfterDate : Text → Bool
  | [] => true
  | b :: rest =>
    if b == 0x54 || b == 0x74 then ((time? rest).map isZone).getD false
    else if b == 0x20 then time? (rest.dropWhile (· == 0x20)) == some []
    else false

/-- Is the text a timestamp? -/
def isTimestamp (s : Text) : Bool :=
  ((date? s).map isAfterDate).getD false

end Timestamp
end Yaml
end StateForge
