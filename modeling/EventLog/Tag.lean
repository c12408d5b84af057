import EventLog.Text.Blank
import EventLog.Validation

/-!
# Tags

A tag is a key and a value, such as `account:17`. Its written form joins them by a colon, so a key
holds no colon; a value may. Neither part is empty or begins or ends with white space.

* `Tag.validate` judges a tag, the key before the value.
* `Tag.parse` splits a text at its first colon and validates the parts.
* `Tag.encode` writes a tag.
-/

namespace EventLog

/-- A key and a value that place an event within consistency boundaries. -/
structure Tag where
  key : String
  value : String
deriving DecidableEq, Repr, Inhabited

namespace Tag

/-- The mark between key and value. -/
def separator : Char := ':'

/-- A key is not empty, not padded, and free of the separator. -/
def isValidKey (k : String) : Bool :=
  k != "" && !Text.isPadded k && !k.toList.contains separator

/-- A value is not empty and not padded. -/
def isValidValue (v : String) : Bool :=
  v != "" && !Text.isPadded v

/-- Refuses a tag whose written form could not be read back. -/
def validate (t : Tag) : Except ValidationError Unit :=
  if !isValidKey t.key then .error (.invalidTagKey t.key)
  else if !isValidValue t.value then .error (.invalidTagValue t.key t.value)
  else .ok ()

/-- The written form of a tag. -/
def encode (t : Tag) : String :=
  String.ofList (t.key.toList ++ separator :: t.value.toList)

/-- The parts of a text before and after its first separator. -/
def split? (cs : List Char) : Option (List Char × List Char) :=
  match cs.dropWhile (· != separator) with
  | [] => none
  | _ :: rest => some (cs.takeWhile (· != separator), rest)

/-- Reads a tag. -/
def parse (s : String) : Except ValidationError Tag :=
  match split? s.toList with
  | none => .error (.malformedTag s)
  | some (k, v) => do
    let t : Tag := ⟨String.ofList k, String.ofList v⟩
    t.validate
    return t

/-- The first tag of a list that is refused, if one is. -/
def validateAll : List Tag → Except ValidationError Unit
  | [] => .ok ()
  | t :: ts => do
    t.validate
    validateAll ts

/-- Tags are ordered by key and then by value, code point by code point. -/
def le (a b : Tag) : Bool :=
  if a.key == b.key then decide (a.value ≤ b.value) else decide (a.key ≤ b.key)

end Tag

end EventLog
