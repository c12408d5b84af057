import EventLog.Json.Writer
import EventLog.Json.Record

/-!
# Event identifiers

An identifier is a UUID, 128 bits. It is written in lower case with hyphens after the 4th, 6th, 8th
and 10th byte. It is read in that form, also between braces or after `urn:uuid:`, or as 32 digits
without hyphens; digits and the word before them may be of either case.
-/

namespace EventLog

/-- The identifier of an event; also how another event names it as its cause or correlation. -/
structure EventId where
  bits : BitVec 128
deriving DecidableEq, Repr, Inhabited

namespace EventId

/-- The identifier with the number `n`. -/
def ofNat (n : Nat) : EventId := ⟨BitVec.ofNat 128 n⟩

/-- The identifier as a number. -/
def toNat (id : EventId) : Nat := id.bits.toNat

/-- The version, the four bits after the 48th. -/
def version (id : EventId) : Nat := (id.bits.extractLsb' 76 4).toNat

/-- The `count` hexadecimal digits of `n`, most significant first. -/
def hexChars : Nat → Nat → List Char
  | 0, _ => []
  | count + 1, n => hexChars count (n / 16) ++ [Json.hexDigit (n % 16)]

/-- The written form of an identifier. -/
def chars (id : EventId) : List Char :=
  let ds := hexChars 32 id.toNat
  ds.take 8 ++ '-' :: (ds.drop 8).take 4 ++ '-' :: (ds.drop 12).take 4 ++
    '-' :: (ds.drop 16).take 4 ++ '-' :: ds.drop 20

/-- The written form of an identifier. -/
def toText (id : EventId) : String := String.ofList id.chars

/-- The number that a list of hexadecimal digits denotes. -/
def ofHex? (ds : List Char) : Option Nat :=
  ds.foldlM (fun n c => (Json.Source.hexValue? c).map (16 * n + ·)) 0

/-- An identifier of 32 digits. -/
def ofDigits? (ds : List Char) : Option EventId :=
  if ds.length = 32 then (ofHex? ds).map ofNat else none

/-- The digits of the hyphenated form, whose hyphens stand at fixed places. -/
def unhyphenate? (cs : List Char) : Option (List Char) :=
  if cs.length = 36 && cs[8]? == some '-' && cs[13]? == some '-' && cs[18]? == some '-' &&
      cs[23]? == some '-' then
    some (cs.take 8 ++ (cs.drop 9).take 4 ++ (cs.drop 14).take 4 ++ (cs.drop 19).take 4 ++
      cs.drop 24)
  else none

/-- An identifier in the hyphenated form. -/
def ofHyphenated? (cs : List Char) : Option EventId :=
  (unhyphenate? cs).bind ofDigits?

/-- The words that may stand before the hyphenated form. -/
def urn : List Char := "urn:uuid:".toList

/-- Reads an identifier. The length of the text decides which form it has. -/
def ofChars? (cs : List Char) : Option EventId :=
  if cs.length = 32 then ofDigits? cs
  else if cs.length = 36 then ofHyphenated? cs
  else if cs.length = 38 then
    if cs.head? = some '\x7b' && cs.getLast? = some '\x7d' then ofHyphenated? ((cs.drop 1).take 36)
    else none
  else if cs.length = 45 then
    if (cs.take 9).map Char.toLower == urn then ofHyphenated? (cs.drop 9) else none
  else none

/-- Reads an identifier. -/
def parse? (s : String) : Option EventId := ofChars? s.toList

/-- An identifier in JSON is its text. -/
def toValue (id : EventId) : Json.Value := .string id.toText

/-- Reads an identifier from JSON. -/
def read : Json.Reader EventId := fun depth d => do
  let s ← d.readString depth
  match parse? s with
  | some id => return id
  | none => .error .mismatch

end EventId

end EventLog
