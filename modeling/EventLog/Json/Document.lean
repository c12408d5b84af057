import EventLog.Json.Numeral

/-!
# JSON documents

A document is a JSON text as far as it can be read: members in the order in which they stand, repeated
keys included, with a mark where the text stops being JSON. What is asked of a text decides which of
its defects shows first, so a reader of records walks a document in order of the text and reports the
defect that it meets first. A part that nobody asks for is only passed over: there a number may be out
of range and an escape may be half of a surrogate pair.

* `Source.read` is total on texts.
* `Document.ofValue` turns a value back into a document without defects.
-/

namespace EventLog.Json

/-- A JSON text as far as it can be read. -/
inductive Document
  | null
  | bool (b : Bool)
  | number (n : Number)
  | string (s : String)
  /-- The defect, if any, that stands where a comma or the closing bracket is due. -/
  | array (items : List Document) (ending : Option Defect)
  /-- The defect, if any, that stands where the next key or the closing brace is due. -/
  | object (members : List (Except Defect String × Document)) (ending : Option Defect)
  /-- A text that denotes nothing: the defect that shows when it is asked for, and the one, if any,
  that shows when it is passed over. -/
  | unfit (asked : Defect) (passed : Option Defect)
deriving Inhabited

/-- A text that has one defect, asked for or not. -/
def Document.broken (defect : Defect) : Document := .unfit defect (some defect)

/-- A numeral or string of the right form that denotes nothing. -/
def Document.meaningless (asked : Defect) : Document := .unfit asked none

mutual

/-- A value as a document. -/
def Document.ofValue : Value → Document
  | .null => .null
  | .bool b => .bool b
  | .number n => .number n
  | .string s => .string s
  | .array items => .array (documentsOf items) none
  | .object members => .object (memberDocumentsOf members) none

/-- The items of an array as documents. -/
def documentsOf : List Value → List Document
  | [] => []
  | v :: vs => Document.ofValue v :: documentsOf vs

/-- The members of an object as documents. -/
def memberDocumentsOf : List (String × Value) → List (Except Defect String × Document)
  | [] => []
  | (k, v) :: ms => (.ok k, Document.ofValue v) :: memberDocumentsOf ms

end

namespace Source

/-- The four characters that may stand between the parts of a JSON text. -/
def isSpace (c : Char) : Bool :=
  c == ' ' || c == '\n' || c == '\t' || c == '\r'

/-- Drops white space at the head of a text. -/
def skipSpace (cs : List Char) : List Char :=
  cs.dropWhile isSpace

/-- The value of a hexadecimal digit of either case. -/
def hexValue? (c : Char) : Option Nat :=
  let n := c.toNat
  if '0'.toNat ≤ n && n ≤ '9'.toNat then some (n - '0'.toNat)
  else if 'a'.toNat ≤ n && n ≤ 'f'.toNat then some (n - 'a'.toNat + 10)
  else if 'A'.toNat ≤ n && n ≤ 'F'.toNat then some (n - 'A'.toNat + 10)
  else none

/-- Four hexadecimal digits. A text of fewer than four bytes is truncated. -/
def readUnit : List Char → Except Defect (Nat × List Char)
  | a :: b :: c :: d :: rest =>
    match hexValue? a, hexValue? b, hexValue? c, hexValue? d with
    | some a, some b, some c, some d => .ok (((a * 16 + b) * 16 + c) * 16 + d, rest)
    | _, _, _, _ => .error .malformed
  | cs => if (String.ofList cs).utf8ByteSize < 4 then .error .truncated else .error .malformed

/-- A leading half of a surrogate pair. -/
def isLeading (n : Nat) : Bool := 0xD800 ≤ n && n ≤ 0xDBFF

/-- A trailing half of a surrogate pair. -/
def isTrailing (n : Nat) : Bool := 0xDC00 ≤ n && n ≤ 0xDFFF

/-- The character of a surrogate pair. -/
def pairChar (lead trail : Nat) : Char :=
  Char.ofNat (0x10000 + (lead - 0xD800) * 0x400 + (trail - 0xDC00))

/-- The trailing half that has to follow a leading one. -/
def readTrailing : List Char → Except Defect (Nat × List Char)
  | '\\' :: 'u' :: rest => readUnit rest
  | [] => .error .truncated
  | ['\\'] => .error .truncated
  | _ => .error .malformed

/-- The character that an escape denotes, or the defect of asking for it, and the text after the
escape. -/
abbrev Escape := Except Defect Char × List Char

/-- What follows a backslash and `u`. Half of a surrogate pair denotes nothing when it stands
alone. -/
def readCodePoint (cs : List Char) : Except Defect Escape := do
  let (n, rest) ← readUnit cs
  if isTrailing n then return (.error .malformed, rest)
  else if isLeading n then
    match readTrailing rest with
    | .error e => return (.error e, rest)
    | .ok (m, after) =>
      if isTrailing m then return (.ok (pairChar n m), after) else return (.error .malformed, rest)
  else return (.ok (Char.ofNat n), rest)

/-- What follows a backslash. -/
def readEscape : List Char → Except Defect Escape
  | [] => .error .truncated
  | '"' :: r => .ok (.ok '"', r)
  | '\\' :: r => .ok (.ok '\\', r)
  | '/' :: r => .ok (.ok '/', r)
  | 'b' :: r => .ok (.ok '\x08', r)
  | 'f' :: r => .ok (.ok '\x0c', r)
  | 'n' :: r => .ok (.ok '\n', r)
  | 'r' :: r => .ok (.ok '\r', r)
  | 't' :: r => .ok (.ok '\t', r)
  | 'u' :: r => readCodePoint r
  | _ :: _ => .error .malformed

/-- A string as far as it can be read: its characters, or the first defect met, and the text after
the closing quote, or the defect that stands before it. -/
structure Quotation where
  chars : Except Defect (List Char)
  rest : Except Defect (List Char)

/-- A string that ends with a defect. -/
def Quotation.broken (e : Defect) : Quotation := ⟨.error e, .error e⟩

/-- A string with one more character in front. -/
def Quotation.cons (c : Except Defect Char) (q : Quotation) : Quotation where
  chars := do
    let c ← c
    let cs ← q.chars
    return c :: cs
  rest := q.rest

/-- Reads the rest of a string after its opening quote. The fuel is more than the length of the
text. -/
def readQuotation : Nat → List Char → Quotation
  | 0, _ => .broken .truncated
  | _ + 1, [] => .broken .truncated
  | _ + 1, '"' :: rest => ⟨.ok [], .ok rest⟩
  | fuel + 1, '\\' :: rest =>
    match readEscape rest with
    | .error e => .broken e
    | .ok (c, rest) => (readQuotation fuel rest).cons c
  | fuel + 1, c :: rest =>
    if c.toNat < 0x20 then .broken .malformed else (readQuotation fuel rest).cons (.ok c)

/-- What a string denotes. -/
def Quotation.text (q : Quotation) : Except Defect String := q.chars.map String.ofList

/-- The rest of a text after `word`, which it has to start with. -/
def readWord : List Char → List Char → Except Defect (List Char)
  | [], cs => .ok cs
  | _ :: _, [] => .error .truncated
  | w :: ws, c :: cs => if w == c then readWord ws cs else .error .malformed

/-- A document and the text after it; no text once a defect is met. -/
abbrev Reading := Document × Option (List Char)

/-- A word that stands for a document. -/
def wordReading (word : String) (d : Document) (cs : List Char) : Reading :=
  match readWord word.toList cs with
  | .ok rest => (d, some rest)
  | .error e => (.broken e, none)

/-- A numeral as a document. One that the text cuts short is malformed when it is passed over. -/
def numeralReading (cs : List Char) : Reading :=
  match Numeral.read cs with
  | .error e => (.unfit e (some .malformed), none)
  | .ok (t, rest) =>
    match t.value? with
    | some n => (.number n, some rest)
    | none => (.meaningless .malformed, some rest)

/-- A string as a document. -/
def stringReading (fuel : Nat) (cs : List Char) : Reading :=
  let q := readQuotation fuel cs
  match q.text, q.rest with
  | .ok s, .ok rest => (.string s, some rest)
  | .error e, .ok rest => (.meaningless e, some rest)
  | .error e, .error d => (.unfit e (some d), none)
  | .ok _, .error d => (.broken d, none)

/-- Items of an array, the defect after them, and the text after the closing bracket. -/
structure Items where
  items : List Document
  ending : Option Defect
  rest : Option (List Char)

/-- Members of an object, the defect after them, and the text after the closing brace. -/
structure Entries where
  members : List (Except Defect String × Document)
  ending : Option Defect
  rest : Option (List Char)

mutual

/-- Reads the document at the head of a text. The fuel is more than twice the length of the
text. -/
def readDocument : Nat → List Char → Reading
  | 0, _ => (.broken .malformed, none)
  | fuel + 1, cs =>
    match skipSpace cs with
    | [] => (.broken .truncated, none)
    | '"' :: rest => stringReading fuel rest
    | '[' :: rest =>
      match skipSpace rest with
      | ']' :: rest => (.array [] none, some rest)
      | rest =>
        let r := readItems fuel rest
        (.array r.items r.ending, r.rest)
    | '\x7b' :: rest =>
      match skipSpace rest with
      | '\x7d' :: rest => (.object [] none, some rest)
      | rest =>
        let r := readEntries fuel rest
        (.object r.members r.ending, r.rest)
    | 'n' :: rest => wordReading "ull" .null rest
    | 't' :: rest => wordReading "rue" (.bool true) rest
    | 'f' :: rest => wordReading "alse" (.bool false) rest
    | c :: rest =>
      if c == '-' || c.isDigit then numeralReading (c :: rest) else (.broken .malformed, none)

/-- Reads the items of an array from its first item on. -/
def readItems : Nat → List Char → Items
  | 0, _ => ⟨[], some .malformed, none⟩
  | fuel + 1, cs =>
    match readDocument fuel cs with
    | (d, none) => ⟨[d], none, none⟩
    | (d, some rest) =>
      match skipSpace rest with
      | ']' :: rest => ⟨[d], none, some rest⟩
      | ',' :: rest =>
        match skipSpace rest with
        | ']' :: _ => ⟨[d], some .malformed, none⟩
        | rest =>
          let r := readItems fuel rest
          { r with items := d :: r.items }
      | [] => ⟨[d], some .truncated, none⟩
      | _ :: _ => ⟨[d], some .malformed, none⟩

/-- Reads the members of an object from its first key on. -/
def readEntries : Nat → List Char → Entries
  | 0, _ => ⟨[], some .malformed, none⟩
  | fuel + 1, cs =>
    match cs with
    | [] => ⟨[], some .truncated, none⟩
    | '"' :: rest =>
      let q := readQuotation fuel rest
      let key := q.text
      match q.rest with
      | .error e => ⟨[(key, .broken e)], none, none⟩
      | .ok rest =>
        match skipSpace rest with
        | [] => ⟨[(key, .broken .truncated)], none, none⟩
        | ':' :: rest =>
          match readDocument fuel rest with
          | (d, none) => ⟨[(key, d)], none, none⟩
          | (d, some rest) =>
            match skipSpace rest with
            | '\x7d' :: rest => ⟨[(key, d)], none, some rest⟩
            | ',' :: rest =>
              let r := readEntries fuel (skipSpace rest)
              { r with members := (key, d) :: r.members }
            | [] => ⟨[(key, d)], some .truncated, none⟩
            | _ :: _ => ⟨[(key, d)], some .malformed, none⟩
        | _ :: _ => ⟨[(key, .broken .malformed)], none, none⟩
    | _ :: _ => ⟨[], some .malformed, none⟩

end

end Source

/-- A whole text: its document, and the defect of what follows it. -/
structure Source where
  document : Document
  trailing : Option Defect
deriving Inhabited

/-- Reads a text. Only white space may follow the document. -/
def Source.read (s : String) : Source :=
  let cs := s.toList
  match Source.readDocument (2 * cs.length + 2) cs with
  | (d, none) => ⟨d, none⟩
  | (d, some rest) =>
    if (Source.skipSpace rest).isEmpty then ⟨d, none⟩ else ⟨d, some .malformed⟩

end EventLog.Json
