import EventLog.Json.Document

/-!
# Reading records

A record type is described by its fields, in the order of their declaration, over a partial record
that holds what has been read so far. An object and an array may both stand for a record; an object
may hold members that are no fields, an array may lack the last fields, and whether a field may be
missing is decided when the record is completed.

Every reader takes the number of containers that may still be entered, `none` for any number.
-/

namespace EventLog.Json

/-- How many containers may still be entered. -/
abbrev Depth := Option Nat

/-- The depth of a text: 127 containers inside each other. -/
def Depth.ofText : Depth := some 127

/-- Enters a container. -/
def Depth.enter : Depth → Except Defect Depth
  | none => .ok none
  | some 0 => .error .malformed
  | some (n + 1) => .ok (some n)

/-- A reader of documents. -/
abbrev Reader (α : Type) := Depth → Document → Except Defect α

namespace Document

/-- The defect of a document that is not of the form asked, whatever that form is. -/
def refusal : Document → Defect
  | .unfit asked _ => asked
  | _ => .mismatch

/-- What is due at the end of a container. -/
def close (ending : Option Defect) : Except Defect Unit :=
  match ending with
  | none => .ok ()
  | some e => .error e

/-- A string. -/
def readString : Reader String
  | _, .string s => .ok s
  | _, d => .error d.refusal

/-- An integer between `lo` and `hi`. -/
def readInt (lo hi : Int) : Reader Int
  | _, .number (.int n) => if lo ≤ n && n ≤ hi then .ok n else .error .mismatch
  | _, d => .error d.refusal

/-- A natural number up to `hi`. -/
def readNat (hi : Nat) : Reader Nat := fun depth d => do
  let n ← readInt 0 hi depth d
  return n.toNat

/-- A value or `null`. -/
def readOption {α : Type} (item : Reader α) : Reader (Option α)
  | _, .null => .ok none
  | depth, d => (item depth d).map some

/-- The items of a list, one after the other. -/
def readEach {α : Type} (item : Reader α) (depth : Depth) : List Document → Except Defect (List α)
  | [] => .ok []
  | d :: ds => do
    let x ← item depth d
    let xs ← readEach item depth ds
    return x :: xs

/-- A list. -/
def readList {α : Type} (item : Reader α) : Reader (List α)
  | depth, .array items ending => do
    let inner ← depth.enter
    let xs ← readEach item inner items
    close ending
    return xs
  | _, d => .error d.refusal

mutual

/-- The value of a document. -/
def readValue (depth : Depth) : Document → Except Defect Value
  | .null => .ok .null
  | .bool b => .ok (.bool b)
  | .number n => .ok (.number n)
  | .string s => .ok (.string s)
  | .array items ending => do
    let inner ← depth.enter
    let vs ← readValues inner items
    close ending
    return .array vs
  | .object members ending => do
    let inner ← depth.enter
    let ms ← readMembers inner [] members
    close ending
    return .object ms
  | .unfit asked _ => .error asked

/-- The values of the items of an array. -/
def readValues (depth : Depth) : List Document → Except Defect (List Value)
  | [] => .ok []
  | d :: ds => do
    let v ← readValue depth d
    let vs ← readValues depth ds
    return v :: vs

/-- The members of an object in order of their keys, the last of each key. -/
def readMembers (depth : Depth) (acc : Members) :
    List (Except Defect String × Document) → Except Defect Members
  | [] => .ok acc
  | (k, d) :: ms => do
    let k ← k
    let v ← readValue depth d
    readMembers depth (Members.insert k v acc) ms

end

mutual

/-- Passes over a document that nobody asks for: it only has to be of the right form. -/
def skip : Document → Except Defect Unit
  | .array items ending => do
    skipItems items
    close ending
  | .object members ending => do
    skipMembers members
    close ending
  | .unfit _ passed => close passed
  | _ => .ok ()

/-- Passes over the items of an array. -/
def skipItems : List Document → Except Defect Unit
  | [] => .ok ()
  | d :: ds => do
    skip d
    skipItems ds

/-- Passes over the members of an object. -/
def skipMembers : List (Except Defect String × Document) → Except Defect Unit
  | [] => .ok ()
  | (_, d) :: ms => do
    skip d
    skipMembers ms

end

end Document

/-- A field of a record over partial records `σ`. -/
structure Field (σ : Type) where
  name : String
  /-- The field has been read. -/
  isSet : σ → Bool
  /-- Reads the field into a partial record. -/
  read : Depth → Document → σ → Except Defect σ

/-- A field that is held as an option. -/
def Field.option {σ α : Type} (name : String) (get : σ → Option α) (put : σ → α → σ)
    (item : Reader α) : Field σ where
  name := name
  isSet s := (get s).isSome
  read depth d s := do
    let x ← item depth d
    return put s x

/-- A record type: its fields, the record before any field is read, and its completion. -/
structure Shape (σ α : Type) where
  fields : List (Field σ)
  blank : σ
  complete : σ → Except Defect α

namespace Shape

variable {σ α : Type}

/-- Reads the members of an object in turn. A field that comes twice is refused. -/
def readMembers (fields : List (Field σ)) (depth : Depth) (acc : σ) :
    List (Except Defect String × Document) → Except Defect σ
  | [] => .ok acc
  | (k, d) :: ms => do
    let k ← k
    match fields.find? (·.name == k) with
    | none =>
      d.skip
      readMembers fields depth acc ms
    | some f =>
      if f.isSet acc then throw .mismatch
      else
        let acc ← f.read depth d acc
        readMembers fields depth acc ms

/-- Reads the items of an array as the fields in turn. More items than fields are malformed. -/
def readItems (depth : Depth) (ending : Option Defect) :
    List (Field σ) → σ → List Document → Except Defect σ
  | _, acc, [] => do
    Document.close ending
    return acc
  | [], _, _ :: _ => .error .malformed
  | f :: fs, acc, d :: ds => do
    let acc ← f.read depth d acc
    readItems depth ending fs acc ds

/-- Reads a record. -/
def read (s : Shape σ α) : Reader α
  | depth, .object members ending => do
    let inner ← depth.enter
    let acc ← readMembers s.fields inner s.blank members
    Document.close ending
    s.complete acc
  | depth, .array items ending => do
    let inner ← depth.enter
    let acc ← readItems inner ending s.fields s.blank items
    s.complete acc
  | _, d => .error d.refusal

end Shape

/-- A field that has to be there. -/
def required {α : Type} (x : Option α) : Except Defect α :=
  match x with
  | some a => .ok a
  | none => .error .mismatch

/-- Reads a whole text. A defect of what follows the document shows last. -/
def readText {α : Type} (reader : Reader α) (s : String) : Except Defect α := do
  let source := Source.read s
  let x ← reader Depth.ofText source.document
  Document.close source.trailing
  return x

/-- Reads a value. It has the right form already, so it can only fail to be what is asked. -/
def readFrom {α : Type} (reader : Reader α) (v : Value) : Except Defect α :=
  (reader none (Document.ofValue v)).mapError fun _ => .mismatch

end EventLog.Json
