import EventLog.Yaml.Node

/-!
# Reading records from YAML

A section of a document is a mapping from names to values. Names that are not known are passed over,
and a known name may stand there once. A section that is not written at all is an empty one.
-/

namespace EventLog.Yaml

/-- A reader of nodes; `none` where the node has another form than is asked. -/
abbrev Reader (α : Type) := Node → Option α

/-- A field of a record over partial records `σ`. -/
structure Field (σ : Type) where
  name : String
  /-- The field has been read. -/
  isSet : σ → Bool
  /-- Reads the field into a partial record. -/
  read : Node → σ → Option σ

/-- A field that is held as an option. -/
def Field.option {σ α : Type} (name : String) (get : σ → Option α) (put : σ → α → σ)
    (item : Reader α) : Field σ where
  name := name
  isSet s := (get s).isSome
  read n s := (item n).map (put s)

namespace Node

variable {σ : Type}

/-- Reads the entries of a mapping in turn. -/
def readEntries (fields : List (Field σ)) (acc : σ) : List (Node × Node) → Option σ
  | [] => some acc
  | (.scalar _ k, v) :: es =>
    match fields.find? (·.name == k) with
    | none => readEntries fields acc es
    | some f =>
      if f.isSet acc then none
      else do
        let acc ← f.read v acc
        readEntries fields acc es
  | _ :: _ => none

/-- Reads a section. -/
def readSection (fields : List (Field σ)) (blank : σ) : Node → Option σ
  | .mapping entries => readEntries fields blank entries
  | .scalar .plain text => if text == "" then some blank else none
  | _ => none

/-- Any scalar as text. -/
def readText : Reader String
  | .scalar _ text => some text
  | _ => none

/-- The value of a digit in a base up to 16. -/
def digit? (base : Nat) (c : Char) : Option Nat :=
  (Json.Source.hexValue? c).filter (· < base)

/-- The number that digits in a base denote; there has to be one. -/
def ofDigits? (base : Nat) (ds : List Char) : Option Nat :=
  if ds.isEmpty then none
  else ds.foldlM (fun n c => (digit? base c).map (base * n + ·)) 0

/-- Drops a sign before a number. -/
def dropSign : List Char → List Char
  | '+' :: ds => ds
  | '-' :: ds => ds
  | ds => ds

/-- A number that is written with a zero too many is a text. -/
def isPadded (cs : List Char) : Bool :=
  match dropSign cs with
  | '0' :: d :: ds => (d :: ds).all Char.isDigit
  | _ => false

/-- The digits of a numeral up to `hi`, in a base. -/
def within? (hi base : Nat) (ds : List Char) : Option Nat :=
  (ofDigits? base ds).filter (· ≤ hi)

/-- A natural number up to `hi`: decimal, or in base 16, 8 or 2 after `0x`, `0o` or `0b`; a plus may
stand before it. -/
def natural? (hi : Nat) (cs : List Char) : Option Nat :=
  let ds := match cs with
    | '+' :: ds => ds
    | ds => ds
  match ds with
  | '0' :: 'x' :: hex => within? hi 16 hex
  | '0' :: 'o' :: octal => within? hi 8 octal
  | '0' :: 'b' :: binary => within? hi 2 binary
  | _ => if isPadded cs then none else within? hi 10 ds

/-- A natural number up to `hi`, written as a plain scalar. -/
def readNat (hi : Nat) : Reader Nat
  | .scalar .plain text => natural? hi text.toList
  | _ => none

/-- The words for no value. -/
def isNull (text : String) : Bool := ["", "~", "null", "Null", "NULL"].contains text

/-- What `item` reads, or no value. -/
def readOption {α : Type} (item : Reader α) : Reader (Option α)
  | .scalar .plain text =>
    if isNull text then some none else (item (.scalar .plain text)).map some
  | n => (item n).map some

end Node

end EventLog.Yaml
