import EventLog.Json.Value

/-!
# JSON numerals

A numeral is split into its digits first and valued afterwards. It is an exact integer when it has
neither a fraction nor an exponent and fits; otherwise its leading digits, as many as fit 64 bits,
are the significand that one power of ten scales.
-/

namespace EventLog.Json

/-- The parts of a numeral, digits as written. -/
structure Numeral where
  negative : Bool
  whole : List Char
  fraction : List Char
  /-- The exponent part: whether it is negative, and its digits. -/
  exponent : Option (Bool × List Char)
deriving Repr, Inhabited

namespace Numeral

/-- The value of a decimal digit. -/
def digitValue (c : Char) : Nat := c.toNat - '0'.toNat

/-- The number that a list of digits denotes. -/
def valueOf (ds : List Char) : Nat :=
  ds.foldl (fun n c => 10 * n + digitValue c) 0

/-- The digits at the head of a text, and what follows them. -/
def digits (cs : List Char) : List Char × List Char :=
  (cs.takeWhile Char.isDigit, cs.dropWhile Char.isDigit)

/-- A run of digits that has to be there. -/
def someDigits (cs : List Char) : Except Defect (List Char × List Char) :=
  match digits cs with
  | ([], []) => .error .truncated
  | ([], _ :: _) => .error .malformed
  | (ds, rest) => .ok (ds, rest)

/-- The whole part: `0` alone, or digits that do not start with `0`. -/
def readWhole : List Char → Except Defect (List Char × List Char)
  | '0' :: rest =>
    match rest with
    | c :: _ => if c.isDigit then .error .malformed else .ok (['0'], rest)
    | [] => .ok (['0'], rest)
  | cs => someDigits cs

/-- The fraction, if a point follows. -/
def readFraction : List Char → Except Defect (List Char × List Char)
  | '.' :: rest => someDigits rest
  | cs => .ok ([], cs)

/-- The digits of an exponent after its mark and sign. -/
def readPower (negative : Bool) (cs : List Char) :
    Except Defect (Option (Bool × List Char) × List Char) := do
  let (ds, rest) ← someDigits cs
  return (some (negative, ds), rest)

/-- The sign and digits of an exponent after its mark. -/
def readSignedPower : List Char → Except Defect (Option (Bool × List Char) × List Char)
  | '+' :: r => readPower false r
  | '-' :: r => readPower true r
  | r => readPower false r

/-- The exponent part, if its mark follows. -/
def readExponent : List Char → Except Defect (Option (Bool × List Char) × List Char)
  | 'e' :: r => readSignedPower r
  | 'E' :: r => readSignedPower r
  | cs => .ok (none, cs)

/-- Reads the numeral at the head of a text, after its minus sign if it has one. -/
def readUnsigned (negative : Bool) (cs : List Char) : Except Defect (Numeral × List Char) := do
  let (whole, cs) ← readWhole cs
  let (fraction, cs) ← readFraction cs
  let (exponent, cs) ← readExponent cs
  return ({ negative, whole, fraction, exponent }, cs)

/-- Reads the numeral at the head of a text. -/
def read : List Char → Except Defect (Numeral × List Char)
  | '-' :: cs => readUnsigned true cs
  | cs => readUnsigned false cs

/-- The largest significand. -/
def maxSignificand : Nat := 0xFFFFFFFFFFFFFFFF

/-- Takes whole digits into the significand while it fits; the digits from the first that does not
are dropped and counted. -/
def absorbWhole (significand : Nat) : List Char → Nat × Nat
  | [] => (significand, 0)
  | c :: cs =>
    let next := 10 * significand + digitValue c
    if next ≤ maxSignificand then absorbWhole next cs else (significand, cs.length + 1)

/-- Takes fraction digits into the significand while it fits, and lowers the exponent for each. -/
def absorbFraction (significand : Nat) (exponent : Int) : List Char → Nat × Int
  | [] => (significand, exponent)
  | c :: cs =>
    let next := 10 * significand + digitValue c
    if next ≤ maxSignificand then absorbFraction next (exponent - 1) cs
    else (significand, exponent)

/-- The largest exponent that is added up; beyond it a number is zero or out of range. -/
def maxPower : Nat := 0x7FFFFFFF

/-- The magnitude of a numeral that is no exact integer. -/
def magnitude? (t : Numeral) : Option Magnitude :=
  let (significand, dropped) := absorbWhole 0 t.whole
  let (significand, exponent) := absorbFraction significand dropped t.fraction
  match t.exponent with
  | none => Magnitude.ofDecimal? significand exponent
  | some (negative, ds) =>
    let power := valueOf ds
    if maxPower < power then
      if significand == 0 || negative then some Magnitude.zero else none
    else
      Magnitude.ofDecimal? significand (if negative then exponent - power else exponent + power)

/-- The number that a numeral denotes, or `none` if it is out of range. -/
def value? (t : Numeral) : Option Number :=
  let real := t.magnitude?.map fun m => Number.real ⟨t.negative, m⟩
  if t.fraction.isEmpty && t.exponent.isNone then
    let n : Int := valueOf t.whole
    if t.negative then
      if n == 0 then real
      else if Number.minInt ≤ -n then some (.int (-n)) else real
    else if n ≤ Number.maxInt then some (.int n) else real
  else real

end Numeral

end EventLog.Json
