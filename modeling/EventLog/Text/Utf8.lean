/-!
# Bytes as text

Text from bytes that should be UTF-8. A byte sequence that is not is a fault at the place where it
begins; it is as long as it is a beginning of some character, and at least one byte.
-/

namespace EventLog.Text

/-- Bytes that are not UTF-8. -/
inductive Utf8Fault
  /-- A wrong sequence of `length` bytes. -/
  | invalid (length offset : Nat)
  /-- The bytes end within a character. -/
  | incomplete (offset : Nat)
deriving DecidableEq, Repr, Inhabited

/-- The text of a fault. -/
def Utf8Fault.message : Utf8Fault → String
  | .invalid n i => "invalid utf-8 sequence of " ++ toString n ++ " bytes from index " ++ toString i
  | .incomplete i => "incomplete utf-8 byte sequence from index " ++ toString i

/-- The bytes that may follow a first byte: the range of the second byte and the number of bytes after
that, or `none` for a byte that begins no character of several bytes. -/
def following? (b : UInt8) : Option (UInt8 × UInt8 × Nat) :=
  if 0xC2 ≤ b && b ≤ 0xDF then some (0x80, 0xBF, 0)
  else if b == 0xE0 then some (0xA0, 0xBF, 1)
  else if b == 0xED then some (0x80, 0x9F, 1)
  else if 0xE1 ≤ b && b ≤ 0xEF then some (0x80, 0xBF, 1)
  else if b == 0xF0 then some (0x90, 0xBF, 2)
  else if 0xF1 ≤ b && b ≤ 0xF3 then some (0x80, 0xBF, 2)
  else if b == 0xF4 then some (0x80, 0x8F, 2)
  else none

/-- A byte within a character. -/
def isContinuation (b : UInt8) : Bool := 0x80 ≤ b && b ≤ 0xBF

/-- What stands at the beginning of bytes. -/
inductive Lead
  /-- A character of `length` bytes. -/
  | character (length : Nat)
  /-- A wrong sequence of `length` bytes. -/
  | wrong (length : Nat)
  /-- A character that is cut off. -/
  | cut

/-- The bytes after the second one of a character, of which `rest` are missing. -/
def leadTail (seen rest : Nat) : List UInt8 → Lead
  | [] => if rest == 0 then .character seen else .cut
  | b :: bs =>
    match rest with
    | 0 => .character seen
    | rest + 1 => if isContinuation b then leadTail (seen + 1) rest bs else .wrong seen

/-- What stands at the beginning of bytes. -/
def leadOf : List UInt8 → Lead
  | [] => .cut
  | b :: bs =>
    if b < 0x80 then .character 1
    else
      match following? b with
      | none => .wrong 1
      | some (lo, hi, rest) =>
        match bs with
        | [] => .cut
        | c :: cs => if lo ≤ c && c ≤ hi then leadTail 2 rest cs else .wrong 1

/-- The first fault of bytes from an offset on. -/
def utf8Fault? (fuel offset : Nat) (bs : List UInt8) : Option Utf8Fault :=
  match fuel, bs with
  | 0, _ => none
  | _, [] => none
  | fuel + 1, bs =>
    match leadOf bs with
    | .character n => utf8Fault? fuel (offset + n) (bs.drop n)
    | .wrong n => some (.invalid n offset)
    | .cut => some (.incomplete offset)

/-- The text of bytes. -/
def decode (bs : List UInt8) : Except Utf8Fault String :=
  match utf8Fault? bs.length 0 bs with
  | some fault => .error fault
  | none => .ok ((String.fromUTF8? ⟨bs.toArray⟩).getD "")

/-- The text of bytes with the replacement character for every fault. -/
def repair (fuel : Nat) (bs : List UInt8) : List UInt8 :=
  match fuel, bs with
  | 0, _ => []
  | _, [] => []
  | fuel + 1, bs =>
    match leadOf bs with
    | .character n => bs.take n ++ repair fuel (bs.drop n)
    | .wrong n => [0xEF, 0xBF, 0xBD] ++ repair fuel (bs.drop n)
    | .cut => [0xEF, 0xBF, 0xBD]

/-- The text of bytes with the replacement character for every fault. -/
def decodeLossy (bs : List UInt8) : String :=
  (String.fromUTF8? ⟨(repair bs.length bs).toArray⟩).getD ""

/-- The bytes of a text. -/
def encode (s : String) : List UInt8 := s.toUTF8.toList

end EventLog.Text
