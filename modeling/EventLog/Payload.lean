import EventLog.Event
import EventLog.Text.Quoted

/-!
# Reading payloads

The data of an event is free JSON. A reader asks it for a certain form and says, when it has another,
what was found and what was expected. The members of an object are visited in order of their keys and
the items of an array in their own order, so the first of several faults is fixed.
-/

namespace EventLog.Payload

open Json

/-- A payload has another form than is asked. -/
inductive Fault
  | missingField (name : String)
  | invalidType (found : Value) (expected : String)
  | invalidValue (found : Int) (expected : String)
  | invalidLength (length : Nat) (expected : String)
deriving Repr, Inhabited

/-- How a diagnostic names a value. -/
def describe : Value → String
  | .null => "null"
  | .bool b => "boolean `" ++ (if b then "true" else "false") ++ "`"
  | .number (.int n) => "integer `" ++ toString n ++ "`"
  | .number (.real x) => "floating point `" ++ String.ofList x.chars ++ "`"
  | .string s => "string " ++ Text.quoted s
  | .array _ => "sequence"
  | .object _ => "map"

/-- The text of a fault. -/
def Fault.message : Fault → String
  | .missingField name => "missing field `" ++ name ++ "`"
  | .invalidType found expected => "invalid type: " ++ describe found ++ ", expected " ++ expected
  | .invalidValue found expected =>
    "invalid value: integer `" ++ toString found ++ "`, expected " ++ expected
  | .invalidLength n expected => "invalid length " ++ toString n ++ ", expected " ++ expected

/-- A reader of payloads. -/
abbrev Reader (α : Type) := Value → Except Fault α

/-- An integer from `lo` to `hi`, called `name`. -/
def readInt (lo hi : Int) (name : String) : Reader Int
  | .number (.int n) => if lo ≤ n && n ≤ hi then .ok n else .error (.invalidValue n name)
  | v => .error (.invalidType v name)

/-- A signed integer of 64 bits. -/
def readInt64 : Reader Int := readInt (-0x8000000000000000) 0x7FFFFFFFFFFFFFFF "i64"

/-- A natural number of 32 bits. -/
def readNat32 : Reader Nat := fun v => (readInt 0 0xFFFFFFFF "u32" v).map Int.toNat

/-- A string. -/
def readString : Reader String
  | .string s => .ok s
  | v => .error (.invalidType v "a string")

/-- `null` or what `item` reads. -/
def readOption {α : Type} (item : Reader α) : Reader (Option α)
  | .null => .ok none
  | v => (item v).map some

/-- The items of a list in turn. -/
def readEach {α : Type} (item : Reader α) : List Value → Except Fault (List α)
  | [] => .ok []
  | v :: vs => do
    let x ← item v
    let xs ← readEach item vs
    return x :: xs

/-- A list. -/
def readList {α : Type} (item : Reader α) : Reader (List α)
  | .array items => readEach item items
  | v => .error (.invalidType v "a sequence")

/-- A field of a record over partial records `σ`. -/
structure Field (σ : Type) where
  name : String
  read : Value → σ → Except Fault σ

/-- A record type: its name, its fields in order, the record before any field is read, and its
completion, which says `none` for a field that is missing. -/
structure Record (σ α : Type) where
  name : String
  fields : List (Field σ)
  blank : σ
  complete : σ → Except String α

namespace Record

variable {σ α : Type}

/-- Reads the members of an object in turn and passes over those that are no fields. -/
def readMembers (fields : List (Field σ)) (acc : σ) : Members → Except Fault σ
  | [] => .ok acc
  | (k, v) :: ms =>
    match fields.find? (·.name == k) with
    | none => readMembers fields acc ms
    | some f => do
      let acc ← f.read v acc
      readMembers fields acc ms

/-- Reads the items of an array as the fields in turn; the second result counts those read. -/
def readItems : List (Field σ) → σ → List Value → Except Fault (σ × Nat)
  | f :: fs, acc, v :: vs => do
    let acc ← f.read v acc
    let (acc, n) ← readItems fs acc vs
    return (acc, n + 1)
  | _, acc, _ => .ok (acc, 0)

/-- How a diagnostic names a record and its number of fields. -/
def expected (r : Record σ α) : String :=
  "struct " ++ r.name ++ " with " ++ toString r.fields.length ++
    (if r.fields.length == 1 then " element" else " elements")

/-- Reads a record from an object, or from an array of its fields in order. -/
def read (r : Record σ α) : Reader α
  | .object members => do
    let acc ← readMembers r.fields r.blank members
    (r.complete acc).mapError .missingField
  | .array items => do
    let (acc, n) ← readItems r.fields r.blank items
    let x ← (r.complete acc).mapError fun _ => Fault.invalidLength n r.expected
    if items.length ≤ r.fields.length then return x
    else throw (.invalidLength items.length "fewer elements in array")
  | v => .error (.invalidType v ("struct " ++ r.name))

end Record

/-- A field that has to be there. -/
def required {α : Type} (name : String) (x : Option α) : Except String α :=
  match x with
  | some a => .ok a
  | none => .error name

end EventLog.Payload
