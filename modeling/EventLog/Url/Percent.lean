import EventLog.Json.Document
import EventLog.Text.Utf8

/-!
# Percent encoding

A percent sign and two hexadecimal digits stand for a byte. A percent sign without them stands for
itself.
-/

namespace EventLog.Url

/-- The value of a byte that is a hexadecimal digit. -/
def hexByte? (b : UInt8) : Option Nat := Json.Source.hexValue? (Char.ofNat b.toNat)

/-- Decodes bytes. -/
def percentDecodeBytes : List UInt8 → List UInt8
  | 0x25 :: a :: b :: bs =>
    match hexByte? a, hexByte? b with
    | some x, some y => UInt8.ofNat (16 * x + y) :: percentDecodeBytes bs
    | _, _ => 0x25 :: percentDecodeBytes (a :: b :: bs)
  | b :: bs => b :: percentDecodeBytes bs
  | [] => []

/-- The bytes that a text stands for. -/
def percentDecode (s : String) : List UInt8 := percentDecodeBytes (Text.encode s)

/-- An upper case hexadecimal digit. -/
def upperHex (n : Nat) : Char := if n < 10 then Char.ofNat (48 + n) else Char.ofNat (55 + n)

/-- A byte, encoded if it is a control character or not ASCII. -/
def percentEncodeByte (b : UInt8) : List Char :=
  if b < 0x20 || 0x7E < b then ['%', upperHex (b.toNat / 16), upperHex (b.toNat % 16)]
  else [Char.ofNat b.toNat]

/-- A text with its control characters and all that is not ASCII encoded. -/
def percentEncode (s : String) : String :=
  String.ofList ((Text.encode s).flatMap percentEncodeByte)

/-- A name and its value in a query: both may hold `+` for a blank. -/
def decodePart (cs : List Char) : String :=
  Text.decodeLossy (percentDecode (String.ofList (cs.map fun c => if c == '+' then ' ' else c)))

/-- Splits characters at every `sep`. -/
def splitAll (sep : Char) : List Char → List (List Char)
  | [] => [[]]
  | c :: cs =>
    match splitAll sep cs with
    | [] => [[c]]
    | p :: ps => if c == sep then [] :: p :: ps else (c :: p) :: ps

/-- The names and values of a query. -/
def queryPairs (query : List Char) : List (String × String) :=
  ((splitAll '&' query).filter (!·.isEmpty)).map fun part =>
    (decodePart (part.takeWhile (· != '=')), decodePart ((part.dropWhile (· != '=')).drop 1))

end EventLog.Url
