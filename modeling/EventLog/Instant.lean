import EventLog.Instant.Calendar
import EventLog.Text.Blank
import EventLog.Json.Record

/-!
# Instants

The time of an event, to the nanosecond. It is written in UTC after RFC 3339 with no more groups of
three fraction digits than it needs. It is read more freely: a signed year may have more than four
digits, white space may stand before the parts, the date and the time are parted by `T`, `t` or a
blank, the zone may be `Z`, `UTC` or an offset whose colon may be missing, and fraction digits after
the ninth are dropped. A sixtieth second is kept.
-/

namespace EventLog

/-- A point of time: whole seconds from the beginning of 1970 in UTC, and nanoseconds. A leap second
has a billion nanoseconds or more after the second before it. -/
structure Instant where
  seconds : Int
  nanos : Nat
deriving DecidableEq, Repr, Inhabited

namespace Instant

/-- `n` in decimal with leading zeros up to `width` digits. -/
def padded (width n : Nat) : List Char :=
  let ds := (toString n).toList
  List.replicate (width - ds.length) '0' ++ ds

/-- A year: four digits, and a sign with at least four digits outside of 0 to 9999. -/
def yearChars (year : Int) : List Char :=
  if year < 0 then '-' :: padded 4 year.natAbs
  else if 9999 < year then '+' :: padded 4 year.natAbs
  else padded 4 year.natAbs

/-- The fraction of a second: none, three, six or nine digits. -/
def fractionChars (nanos : Nat) : List Char :=
  if nanos == 0 then []
  else if nanos % 1000000 == 0 then '.' :: padded 3 (nanos / 1000000)
  else if nanos % 1000 == 0 then '.' :: padded 6 (nanos / 1000)
  else '.' :: padded 9 nanos

/-- The written form of an instant. -/
def chars (t : Instant) : List Char :=
  let days := Int.fdiv t.seconds 86400
  let second := (t.seconds - days * 86400).toNat
  let (year, month, day) := Calendar.ofDays days
  let leap := t.nanos / 1000000000
  yearChars year ++ '-' :: padded 2 month ++ '-' :: padded 2 day ++
    'T' :: padded 2 (second / 3600) ++ ':' :: padded 2 (second / 60 % 60) ++
    ':' :: padded 2 (second % 60 + leap) ++ fractionChars (t.nanos % 1000000000) ++ ['Z']

/-- The written form of an instant. -/
def toText (t : Instant) : String := String.ofList t.chars

/-- The number that a list of digits denotes. -/
def valueOf (ds : List Char) : Nat :=
  ds.foldl (fun n c => 10 * n + (c.toNat - '0'.toNat)) 0

/-- Drops white space at the head of a text. -/
def skipBlank (cs : List Char) : List Char := cs.dropWhile Text.isBlank

/-- One to `most` digits, after white space. -/
def number? (most : Nat) (cs : List Char) : Option (Nat × List Char) :=
  let cs := skipBlank cs
  let ds := (cs.takeWhile Char.isDigit).take most
  if ds.isEmpty then none else some (valueOf ds, cs.drop ds.length)

/-- A number within bounds, after white space. -/
def bounded? (lo hi : Nat) (cs : List Char) : Option (Nat × List Char) := do
  let (n, rest) ← number? 2 cs
  if lo ≤ n && n ≤ hi then some (n, rest) else none

/-- A year: up to four digits, or any number of them after a sign. -/
def year? (cs : List Char) : Option (Int × List Char) :=
  match skipBlank cs with
  | '-' :: rest => do
    let ds := rest.takeWhile Char.isDigit
    if ds.isEmpty then none else some (-(valueOf ds : Int), rest.drop ds.length)
  | '+' :: rest => do
    let ds := rest.takeWhile Char.isDigit
    if ds.isEmpty then none else some ((valueOf ds : Int), rest.drop ds.length)
  | cs => (number? 4 cs).map fun (n, rest) => ((n : Int), rest)

/-- The mark `c`, after white space. -/
def mark? (c : Char) (cs : List Char) : Option (List Char) :=
  match skipBlank cs with
  | x :: rest => if x == c then some rest else none
  | [] => none

/-- The nanoseconds of a fraction, if a point follows. -/
def fraction? : List Char → Option (Nat × List Char)
  | '.' :: rest =>
    let ds := rest.takeWhile Char.isDigit
    if ds.isEmpty then none
    else
      let kept := ds.take 9
      some (valueOf kept * Nat.pow 10 (9 - kept.length), rest.drop ds.length)
  | cs => some (0, cs)

/-- Two digits without white space before them. -/
def twoDigits? : List Char → Option (Nat × List Char)
  | a :: b :: rest => if a.isDigit && b.isDigit then some (valueOf [a, b], rest) else none
  | _ => none

/-- An offset of hours and minutes after its sign, in seconds. -/
def offsetParts? (cs : List Char) : Option (Nat × List Char) := do
  let (hours, cs) ← twoDigits? cs
  let (minutes, cs) ← twoDigits? (cs.dropWhile fun c => c == ':' || Text.isBlank c)
  if minutes < 60 then some (hours * 3600 + minutes * 60, cs) else none

/-- The zone in seconds to the east of UTC. -/
def zone? (cs : List Char) : Option (Int × List Char) :=
  if (cs.take 3).map Char.toLower == "utc".toList then some (0, cs.drop 3)
  else match cs with
    | 'Z' :: rest => some (0, rest)
    | 'z' :: rest => some (0, rest)
    | '+' :: rest => (offsetParts? rest).map fun (n, rest) => ((n : Int), rest)
    | '-' :: rest => (offsetParts? rest).map fun (n, rest) => (-(n : Int), rest)
    | '\u2212' :: rest => (offsetParts? rest).map fun (n, rest) => (-(n : Int), rest)
    | _ => none

/-- The character that parts date and time. -/
def partition? : List Char → Option (List Char)
  | 'T' :: rest => some rest
  | 't' :: rest => some rest
  | ' ' :: rest => some rest
  | _ => none

/-- The years that a date may have. -/
def minYear : Int := -262143

/-- The last year that a date may have. -/
def maxYear : Int := 262142

/-- Reads an instant. -/
def ofChars? (cs : List Char) : Option Instant := do
  let (year, cs) ← year? cs
  let cs ← mark? '-' cs
  let (month, cs) ← bounded? 1 12 cs
  let cs ← mark? '-' cs
  let (day, cs) ← bounded? 1 31 cs
  let cs ← partition? cs
  let (hour, cs) ← bounded? 0 23 cs
  let cs ← mark? ':' cs
  let (minute, cs) ← bounded? 0 59 cs
  let cs ← mark? ':' cs
  let (second, cs) ← bounded? 0 60 cs
  let (nanos, cs) ← fraction? cs
  let (offset, cs) ← zone? (skipBlank cs)
  if !(skipBlank cs).isEmpty then none
  else if year < minYear || maxYear < year || Calendar.daysIn year month < day then none
  else if offset ≤ -86400 || 86400 ≤ offset then none
  else
    let leap : Nat := if second == 60 then 1 else 0
    let clock : Int := hour * 3600 + minute * 60 + second - leap
    some ⟨Calendar.toDays year month day * 86400 + clock - offset, nanos + leap * 1000000000⟩

/-- Reads an instant. -/
def parse? (s : String) : Option Instant := ofChars? s.toList

/-- An instant in JSON is its text. -/
def toValue (t : Instant) : Json.Value := .string t.toText

/-- Reads an instant from JSON. -/
def read : Json.Reader Instant := fun depth d => do
  let s ← d.readString depth
  match parse? s with
  | some t => return t
  | none => .error .mismatch

end Instant

end EventLog
