import EventLog.Json.Value
import EventLog.Number.Shortest

/-!
# Writing JSON

The compact form has no white space. The indented form puts every item and member on a line of its
own, two blanks deeper than its container, and leaves empty containers on one line.
-/

namespace EventLog.Json

/-- A hexadecimal digit in lower case. -/
def hexDigit (n : Nat) : Char :=
  if n < 10 then Char.ofNat ('0'.toNat + n) else Char.ofNat ('a'.toNat + (n - 10))

/-- How one character stands inside a JSON string. Only quotes, backslashes and the control
characters below `U+0020` are escaped. -/
def escapeChar (c : Char) : List Char :=
  if c == '"' then ['\\', '"']
  else if c == '\\' then ['\\', '\\']
  else if c == '\x08' then ['\\', 'b']
  else if c == '\x0c' then ['\\', 'f']
  else if c == '\n' then ['\\', 'n']
  else if c == '\r' then ['\\', 'r']
  else if c == '\t' then ['\\', 't']
  else if c.toNat < 0x20 then ['\\', 'u', '0', '0', hexDigit (c.toNat / 16), hexDigit (c.toNat % 16)]
  else [c]

/-- A JSON string. -/
def writeString (s : String) : List Char :=
  '"' :: s.toList.flatMap escapeChar ++ ['"']

/-- A JSON number. -/
def writeNumber : Number → List Char
  | .int n => (toString n).toList
  | .real x => x.chars

/-- The texts `parts` with `sep` between them. -/
def joinWith (sep : List Char) : List (List Char) → List Char
  | [] => []
  | [p] => p
  | p :: ps => p ++ sep ++ joinWith sep ps

mutual

/-- The compact form of a value. -/
def Value.compact : Value → List Char
  | .null => "null".toList
  | .bool true => "true".toList
  | .bool false => "false".toList
  | .number n => writeNumber n
  | .string s => writeString s
  | .array items => '[' :: joinWith [','] (compactItems items) ++ [']']
  | .object members => '\x7b' :: joinWith [','] (compactMembers members) ++ ['\x7d']

/-- The compact forms of the items of an array. -/
def compactItems : List Value → List (List Char)
  | [] => []
  | v :: vs => v.compact :: compactItems vs

/-- The compact forms of the members of an object. -/
def compactMembers : List (String × Value) → List (List Char)
  | [] => []
  | (k, v) :: ms => (writeString k ++ ':' :: v.compact) :: compactMembers ms

end

/-- A new line, indented to `depth`. -/
def newLine (depth : Nat) : List Char :=
  '\n' :: List.replicate (2 * depth) ' '

/-- A container between `left` and `right` whose parts stand on lines of their own. -/
def block (depth : Nat) (left right : Char) (parts : List (List Char)) : List Char :=
  if parts.isEmpty then [left, right]
  else left :: newLine (depth + 1) ++ joinWith (',' :: newLine (depth + 1)) parts ++
    newLine depth ++ [right]

mutual

/-- The indented form of a value that starts at `depth`. -/
def Value.indented (depth : Nat) : Value → List Char
  | .null => "null".toList
  | .bool true => "true".toList
  | .bool false => "false".toList
  | .number n => writeNumber n
  | .string s => writeString s
  | .array items => block depth '[' ']' (indentedItems (depth + 1) items)
  | .object members => block depth '\x7b' '\x7d' (indentedMembers (depth + 1) members)

/-- The indented forms of the items of an array. -/
def indentedItems (depth : Nat) : List Value → List (List Char)
  | [] => []
  | v :: vs => v.indented depth :: indentedItems depth vs

/-- The indented forms of the members of an object. -/
def indentedMembers (depth : Nat) : List (String × Value) → List (List Char)
  | [] => []
  | (k, v) :: ms => (writeString k ++ ':' :: ' ' :: v.indented depth) :: indentedMembers depth ms

end

/-- The compact text of a value. -/
def Value.toText (v : Value) : String := String.ofList v.compact

/-- The indented text of a value. -/
def Value.toIndentedText (v : Value) : String := String.ofList (v.indented 0)

end EventLog.Json
