import EventLog.Yaml.Token

/-!
# YAML nodes

The tree that the tokens of a text stand for. An alias is replaced by the node it names. A node that
is not written at all is an empty plain scalar.

* `Reading.document` builds the tree of one document.
* `read` reads a text that holds at most one document.
-/

namespace EventLog.Yaml

/-- A node of a document. -/
inductive Node
  | scalar (style : Style) (text : String)
  | sequence (items : List Node)
  | mapping (entries : List (Node × Node))
deriving Repr, Inhabited

/-- A node that is not written. -/
def Node.absent : Node := .scalar .plain ""

/-- The tokens that are left and the nodes that have a name by now. -/
structure Reading where
  rest : List Token
  anchors : List (List Char × Node)
  /-- The short forms of tags that the document declares. -/
  handles : List (List Char)

namespace Reading

/-- Passes over a token. -/
def drop (c : Reading) : Reading := { c with rest := c.rest.drop 1 }

/-- What may stand before a node: an anchor and a tag, each at most once. -/
structure Properties where
  anchor : Option (List Char) := none
  tagged : Bool := false

/-- The tag may be used. -/
def knows (c : Reading) (handle : List Char) : Bool :=
  handle.isEmpty || handle == ['!'] || handle == ['!', '!'] || c.handles.contains handle

/-- Reads the anchor and the tag before a node. -/
def properties (c : Reading) : Option (Properties × Reading) :=
  match c.rest with
  | .anchor a :: .tag h _ :: rest => if c.knows h then some (⟨some a, true⟩, { c with rest }) else none
  | .tag h _ :: .anchor a :: rest => if c.knows h then some (⟨some a, true⟩, { c with rest }) else none
  | .anchor a :: rest => some (⟨some a, false⟩, { c with rest })
  | .tag h _ :: rest => if c.knows h then some (⟨none, true⟩, { c with rest }) else none
  | _ => some ({}, c)

/-- Gives a node its name. -/
def remember (c : Reading) (p : Properties) (n : Node) : Reading :=
  match p.anchor with
  | none => c
  | some a => { c with anchors := (a, n) :: c.anchors }

/-- Where a node stands: as an entry of a block, as the key or value of a block mapping, or in a flow
collection. -/
inductive Place
  | block
  | blockField
  | flow
deriving DecidableEq

mutual

/-- Reads a node. -/
def node (fuel : Nat) (place : Place) (c : Reading) : Option (Node × Reading) :=
  match fuel with
  | 0 => none
  | fuel + 1 =>
    match c.rest with
    | .alias a :: rest => do
      let n ← c.anchors.lookup a
      return (n, { c with rest })
    | _ => do
      let (p, c) ← c.properties
      let (n, c) ← content fuel place p c
      return (n, c.remember p n)

/-- Reads what a node consists of. -/
def content (fuel : Nat) (place : Place) (p : Properties) (c : Reading) :
    Option (Node × Reading) :=
  match fuel with
  | 0 => none
  | fuel + 1 =>
    match c.rest, place with
    | .entry :: _, .blockField => do
      let (items, c) ← looseItems fuel c
      return (.sequence items, c)
    | .scalar style text :: rest, _ => some (.scalar style (String.ofList text), { c with rest })
    | .flowSequence :: rest, _ => do
      let (items, c) ← flowItems fuel true { c with rest }
      return (.sequence items, c)
    | .flowMapping :: rest, _ => do
      let (entries, c) ← flowEntries fuel true { c with rest }
      return (.mapping entries, c)
    | .blockSequence :: rest, .block => do
      let (items, c) ← blockItems fuel { c with rest }
      return (.sequence items, c)
    | .blockSequence :: rest, .blockField => do
      let (items, c) ← blockItems fuel { c with rest }
      return (.sequence items, c)
    | .blockMapping :: rest, .block => do
      let (entries, c) ← blockEntries fuel { c with rest }
      return (.mapping entries, c)
    | .blockMapping :: rest, .blockField => do
      let (entries, c) ← blockEntries fuel { c with rest }
      return (.mapping entries, c)
    | _, _ => if p.anchor.isSome || p.tagged then some (.absent, c) else none

/-- Reads a node unless one of the `ends` stands there. -/
def nodeUnless (fuel : Nat) (place : Place) (ends : List Token) (c : Reading) :
    Option (Node × Reading) :=
  match fuel with
  | 0 => none
  | fuel + 1 =>
    if c.rest.head?.any ends.contains then some (.absent, c) else node fuel place c

/-- Reads the value after a key, if there is one. -/
def valueUnless (fuel : Nat) (place : Place) (ends : List Token) (c : Reading) :
    Option (Node × Reading) :=
  match fuel with
  | 0 => none
  | fuel + 1 =>
    match c.rest with
    | .value :: rest => nodeUnless fuel place ends { c with rest }
    | _ => some (.absent, c)

/-- Reads the items of a block sequence. -/
def blockItems (fuel : Nat) (c : Reading) : Option (List Node × Reading) :=
  match fuel with
  | 0 => none
  | fuel + 1 =>
    match c.rest with
    | .entry :: rest => do
      let (n, c) ← nodeUnless fuel .block [.entry, .blockEnd] { c with rest }
      let (ns, c) ← blockItems fuel c
      return (n :: ns, c)
    | .blockEnd :: rest => some ([], { c with rest })
    | _ => none

/-- Reads the items of a sequence that is not indented. -/
def looseItems (fuel : Nat) (c : Reading) : Option (List Node × Reading) :=
  match fuel with
  | 0 => none
  | fuel + 1 =>
    match c.rest with
    | .entry :: rest => do
      let (n, c) ← nodeUnless fuel .block [.entry, .key, .value, .blockEnd] { c with rest }
      let (ns, c) ← looseItems fuel c
      return (n :: ns, c)
    | _ => some ([], c)

/-- Reads the entries of a block mapping. -/
def blockEntries (fuel : Nat) (c : Reading) : Option (List (Node × Node) × Reading) :=
  match fuel with
  | 0 => none
  | fuel + 1 =>
    match c.rest with
    | .key :: rest => do
      let (k, c) ← nodeUnless fuel .blockField [.key, .value, .blockEnd] { c with rest }
      let (v, c) ← valueUnless fuel .blockField [.key, .value, .blockEnd] c
      let (es, c) ← blockEntries fuel c
      return ((k, v) :: es, c)
    | .blockEnd :: rest => some ([], { c with rest })
    | _ => none

/-- Reads the items of a flow sequence. A single pair may stand for a mapping. -/
def flowItems (fuel : Nat) (first : Bool) (c : Reading) : Option (List Node × Reading) :=
  match fuel with
  | 0 => none
  | fuel + 1 =>
    match first, c.rest with
    | _, .flowSequenceEnd :: rest => some ([], { c with rest })
    | false, .comma :: .flowSequenceEnd :: rest => some ([], { c with rest })
    | false, .comma :: rest => flowItem fuel { c with rest }
    | false, _ => none
    | true, _ => flowItem fuel c

/-- Reads one item of a flow sequence and the items after it. -/
def flowItem (fuel : Nat) (c : Reading) : Option (List Node × Reading) :=
  match fuel with
  | 0 => none
  | fuel + 1 =>
    match c.rest with
    | .key :: rest => do
      let (k, c) ← nodeUnless fuel .flow [.value, .comma, .flowSequenceEnd] { c with rest }
      let (v, c) ← valueUnless fuel .flow [.comma, .flowSequenceEnd] c
      let (ns, c) ← flowItems fuel false c
      return (.mapping [(k, v)] :: ns, c)
    | _ => do
      let (n, c) ← node fuel .flow c
      let (ns, c) ← flowItems fuel false c
      return (n :: ns, c)

/-- Reads the entries of a flow mapping. -/
def flowEntries (fuel : Nat) (first : Bool) (c : Reading) :
    Option (List (Node × Node) × Reading) :=
  match fuel with
  | 0 => none
  | fuel + 1 =>
    match first, c.rest with
    | _, .flowMappingEnd :: rest => some ([], { c with rest })
    | false, .comma :: .flowMappingEnd :: rest => some ([], { c with rest })
    | false, .comma :: rest => flowEntry fuel { c with rest }
    | false, _ => none
    | true, _ => flowEntry fuel c

/-- Reads one entry of a flow mapping and the entries after it. -/
def flowEntry (fuel : Nat) (c : Reading) : Option (List (Node × Node) × Reading) :=
  match fuel with
  | 0 => none
  | fuel + 1 =>
    match c.rest with
    | .key :: rest => do
      let (k, c) ← nodeUnless fuel .flow [.value, .comma, .flowMappingEnd] { c with rest }
      let (v, c) ← valueUnless fuel .flow [.comma, .flowMappingEnd] c
      let (es, c) ← flowEntries fuel false c
      return ((k, v) :: es, c)
    | _ => do
      let (k, c) ← node fuel .flow c
      let (es, c) ← flowEntries fuel false c
      return ((k, .absent) :: es, c)

end

/-- Reads the directives before a document. There is at most one version, 1.1 or 1.2, and no handle
is declared twice. -/
def directives (handles : List (List Char)) (version : Bool) : List Token →
    Option (List (List Char) × List Token × Bool)
  | .version major minor :: rest =>
    if !version && major == 1 && (minor == 1 || minor == 2) then
      (directives handles true rest).map fun (hs, ts, _) => (hs, ts, true)
    else none
  | .tagHandle h :: rest =>
    if handles.contains h then none
    else (directives (h :: handles) version rest).map fun (hs, ts, _) => (hs, ts, true)
  | rest => some (handles, rest, false)

/-- Reads what follows the mark of a document's beginning. -/
def explicit (c : Reading) : Option (Node × Reading) :=
  match c.rest with
  | [] => some (.absent, c)
  | .documentEnd :: _ => some (.absent, c)
  | .documentStart :: _ => some (.absent, c)
  | .version _ _ :: _ => some (.absent, c)
  | .tagHandle _ :: _ => some (.absent, c)
  | ts => node (8 * ts.length + 8) .block c

/-- Reads the only document of a text; without one the node is absent. -/
def document (ts : List Token) : Option Node := do
  let (handles, rest, declared) ← directives [] false ts
  let c : Reading := ⟨rest, [], handles⟩
  match rest with
  | [] => if declared then none else return .absent
  | .documentStart :: rest =>
    let (n, c) ← explicit { c with rest }
    if c.rest.all (· == .documentEnd) then return n else none
  | _ =>
    if declared then none
    else
      let (n, c) ← node (8 * rest.length + 8) .block c
      if c.rest.all (· == .documentEnd) then return n else none

end Reading

/-- Reads a text that holds at most one document. -/
def read (text : String) : Option Node := do
  let ts ← tokens text.toList
  Reading.document ts

end EventLog.Yaml
