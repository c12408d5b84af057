import EventLog.Yaml.Scalar

/-!
# YAML tokens

A text as a list of tokens. The indentation of a line opens and closes blocks, and these stand among
the tokens as marks of their own. A scalar turns out to be a key only when its colon is seen; the
mark of a key, and of the block that the key opens, is then put in front of it.

* `Lexer.step` reads one token.
* `tokens` reads a text; `none` is a text that is not well formed.
-/

namespace EventLog.Yaml

/-- A token of a text. -/
inductive Token
  /-- `major` and `minor` of the YAML version that a document asks for. -/
  | version (major minor : Nat)
  /-- A short form of tags. -/
  | tagHandle (handle : List Char)
  | documentStart
  | documentEnd
  | blockSequence
  | blockMapping
  | blockEnd
  | flowSequence
  | flowSequenceEnd
  | flowMapping
  | flowMappingEnd
  | entry
  | comma
  | key
  | value
  | anchor (name : List Char)
  | alias (name : List Char)
  | tag (handle suffix : List Char)
  | scalar (style : Style) (text : List Char)
deriving DecidableEq, Repr, Inhabited

/-- A token that may turn out to be a key. -/
structure Candidate where
  /-- Without a colon the text is not well formed. -/
  required : Bool
  /-- The number of tokens before it. -/
  index : Nat
  line : Nat
  column : Nat
  offset : Nat
deriving Inhabited

/-- A text that is being read. -/
structure Lexer where
  source : Source
  /-- The tokens read so far, the last one first. -/
  read : List Token
  /-- The column of the innermost block, -1 outside of all. -/
  indent : Int
  /-- The columns of the blocks around it. -/
  outer : List Int
  /-- A key may begin here. -/
  keyAllowed : Bool
  /-- The candidates of the block context and of every open flow collection, the innermost first. -/
  candidates : List (Option Candidate)
deriving Inhabited

namespace Lexer

/-- A text before any token has been read. -/
def ofChars (cs : List Char) : Lexer :=
  { source := .ofChars (if cs.head? == some '\ufeff' then cs.drop 1 else cs), read := [],
    indent := -1, outer := [], keyAllowed := true, candidates := [none] }

/-- A flow collection is open. -/
def inFlow (l : Lexer) : Bool := decide (1 < l.candidates.length)

/-- The column of the next character. -/
def column (l : Lexer) : Int := l.source.column

/-- Adds a token at the end. -/
def emit (l : Lexer) (t : Token) : Lexer := { l with read := t :: l.read }

/-- Puts a token in front of the one with `index` tokens before it. -/
def insert (l : Lexer) (index : Nat) (t : Token) : Lexer :=
  let later := l.read.length - index
  { l with read := l.read.take later ++ t :: l.read.drop later }

/-- Passes over `n` characters. -/
def advance (l : Lexer) (n : Nat) : Lexer := { l with source := l.source.advance n }

/-- Opens a block at a column that is deeper than the block around it. -/
def openBlock (l : Lexer) (column : Int) (index : Nat) (t : Token) : Lexer :=
  if !l.inFlow && decide (l.indent < column) then
    { l with indent := column, outer := l.indent :: l.outer }.insert index t
  else l

/-- Closes the blocks that are deeper than a column. -/
def closeBlocks (l : Lexer) (column : Int) : Lexer :=
  if l.inFlow then l
  else
    let closed := (l.indent :: l.outer).takeWhile (column < ·)
    match (l.indent :: l.outer).drop closed.length with
    | [] => { l with indent := -1, outer := [] }
    | indent :: outer =>
      { l with indent, outer, read := List.replicate closed.length .blockEnd ++ l.read }

/-- Gives up the innermost candidate, which must not be required. -/
def dropCandidate (l : Lexer) : Option Lexer :=
  match l.candidates with
  | some c :: cs => if c.required then none else some { l with candidates := none :: cs }
  | _ => some l

/-- The next token may be a key. -/
def offerCandidate (l : Lexer) : Option Lexer :=
  if l.keyAllowed then do
    let l ← l.dropCandidate
    let c : Candidate := {
      required := !l.inFlow && l.indent == l.column
      index := l.read.length
      line := l.source.line
      column := l.source.column
      offset := l.source.offset }
    return { l with candidates := some c :: l.candidates.drop 1 }
  else some l

/-- A candidate is given up at the end of its line or after 1024 characters. -/
def isStale (s : Source) (c : Candidate) : Bool :=
  decide (c.line < s.line) || decide (c.offset + 1024 < s.offset)

/-- Gives up the candidates that are stale; none of them may be required. -/
def dropStale (l : Lexer) : Option Lexer :=
  if l.candidates.any (·.any fun c => isStale l.source c && c.required) then none
  else
    some { l with candidates := l.candidates.map (·.filter fun c => !isStale l.source c) }

/-- Passes over blanks, comments and line ends. A tab may not stand where a key could begin. -/
def skipGap (fuel : Nat) (l : Lexer) : Lexer :=
  match fuel with
  | 0 => l
  | fuel + 1 =>
    let tabs := l.inFlow || !l.keyAllowed
    let s := l.source.skipWhile fun c => c == ' ' || (tabs && c == '\t')
    let s := if s.peek == some '#' then s.skipWhile (!isBreak ·) else s
    if s.atBreak then
      skipGap fuel { l with source := s.takeBreak.1, keyAllowed := l.keyAllowed || !l.inFlow }
    else { l with source := s }

/-- The name of an anchor and what follows it. -/
def name? (s : Source) : Option (List Char × Source) :=
  let (name, rest) := s.takeWhile fun c => c.isAlphanum || c == '_' || c == '-'
  if name.isEmpty then none
  else if rest.atGap || rest.peek.any (['?', ':', ',', ']', '\x7d', '%', '@', '\x60'].contains ·) then
    some (name, rest)
  else none

/-- A character of a tag. -/
def isTagChar (c : Char) : Bool :=
  c.isAlphanum || "-_;/?:@&=+$.%!~*'()".toList.contains c

/-- Reads a tag: `!<…>`, or a handle and a suffix. -/
def tag? (s : Source) : Option (Token × Source) :=
  if s.peekAt 1 == some '<' then
    let (suffix, rest) := (s.advance 2).takeWhile fun c => isTagChar c || c == ',' || c == '[' || c == ']'
    if suffix.isEmpty || rest.peek != some '>' then none
    else some (.tag [] suffix, rest.advance 1)
  else
    let (word, rest) := (s.advance 1).takeWhile fun c => c.isAlphanum || c == '_' || c == '-'
    if rest.peek == some '!' then
      let (suffix, rest) := (rest.advance 1).takeWhile isTagChar
      if suffix.isEmpty then none else some (.tag ('!' :: word ++ ['!']) suffix, rest)
    else
      let (suffix, rest) := rest.takeWhile isTagChar
      some (.tag ['!'] (word ++ suffix), rest)

/-- The number that a list of digits denotes. -/
def digits (ds : List Char) : Nat :=
  ds.foldl (fun n c => 10 * n + (c.toNat - '0'.toNat)) 0

/-- Reads a directive: the version of a document, or a short form of tags. -/
def directive? (s : Source) : Option (Token × Source) :=
  let (name, rest) := (s.advance 1).takeWhile fun c => c.isAlphanum || c == '_' || c == '-'
  let rest := rest.skipWhile isBlank
  let ended (s : Source) : Option Source :=
    let s := s.skipWhile isBlank
    let s := if s.peek == some '#' then s.skipWhile (!isBreak ·) else s
    if s.atEnd || s.atBreak then some s else none
  if name == "YAML".toList then do
    let (major, rest) := rest.takeWhile Char.isDigit
    if major.isEmpty || rest.peek != some '.' then none
    else
      let (minor, rest) := (rest.advance 1).takeWhile Char.isDigit
      if minor.isEmpty then none
      else
        let rest ← ended rest
        return (.version (digits major) (digits minor), rest)
  else if name == "TAG".toList then do
    let (handle, rest) := rest.takeWhile fun c => c.isAlphanum || c == '_' || c == '-' || c == '!'
    if handle.head? != some '!' || handle.getLast? != some '!' || !rest.atBlank then none
    else
      let (uri, rest) := (rest.skipWhile isBlank).takeWhile fun c =>
        isTagChar c || c == ',' || c == '[' || c == ']'
      if uri.isEmpty || !rest.atGap then none
      else
        let rest ← ended rest
        return (.tagHandle handle, rest)
  else none

/-- The end of a block context or a mark of a document. -/
def atBoundary (l : Lexer) (t : Option Token) (n : Nat) : Option Lexer := do
  let l ← (l.closeBlocks (-1)).dropCandidate
  let l := { l with keyAllowed := false }
  return (match t with | none => l | some t => l.emit t).advance n

/-- A flow collection begins. -/
def openFlow (l : Lexer) (t : Token) : Option Lexer := do
  let l ← l.offerCandidate
  return { l with candidates := none :: l.candidates, keyAllowed := true }.emit t |>.advance 1

/-- A flow collection ends. -/
def closeFlow (l : Lexer) (t : Token) : Option Lexer := do
  let l ← l.dropCandidate
  let candidates := if l.inFlow then l.candidates.drop 1 else l.candidates
  return { l with candidates, keyAllowed := false }.emit t |>.advance 1

/-- An item of a block sequence, or a key with a mark of its own. -/
def mark (l : Lexer) (block t : Token) : Option Lexer :=
  if l.inFlow || l.keyAllowed then do
    let l := l.openBlock l.column l.read.length block
    let l ← l.dropCandidate
    let keyAllowed := t == .entry || !l.inFlow
    return { l with keyAllowed }.emit t |>.advance 1
  else none

/-- The colon between key and value. -/
def colon (l : Lexer) : Option Lexer :=
  match l.candidates with
  | some c :: cs =>
    let l := { l with candidates := none :: cs, keyAllowed := false }
    let l := l.insert c.index .key
    some ((l.openBlock c.column c.index .blockMapping).emit .value |>.advance 1)
  | _ =>
    if l.inFlow then some ({ l with keyAllowed := false }.emit .value |>.advance 1)
    else if l.keyAllowed then
      let l := l.openBlock l.column l.read.length .blockMapping
      some ({ l with keyAllowed := true }.emit .value |>.advance 1)
    else none

/-- A token that may be a key. -/
def simple (l : Lexer) (r : Source → Option (Token × Source)) : Option Lexer := do
  let l ← l.offerCandidate
  let (t, source) ← r l.source
  return { l with source, keyAllowed := false }.emit t

/-- A plain scalar. A new line after it may begin a key again. -/
def plain (l : Lexer) : Option Lexer := do
  let l ← l.offerCandidate
  let (text, source, broken) ← Scalar.plain l.inFlow l.indent l.source
  return { l with source, keyAllowed := broken }.emit (.scalar .plain text)

/-- A literal or folded scalar. -/
def block (l : Lexer) (isFolded : Bool) : Option Lexer := do
  let l ← l.dropCandidate
  let (text, source) ← Scalar.block isFolded l.indent l.source
  return { l with source, keyAllowed := true }.emit
    (.scalar (if isFolded then .folded else .literal) text)

/-- A character with which a plain scalar does not begin without further ado. -/
def isIndicator (c : Char) : Bool := "-?:,[]\x7b\x7d#&*!|>'\"%@\x60".toList.contains c

/-- A plain scalar begins. -/
def atPlain (l : Lexer) (c : Char) : Bool :=
  !(isBlank c || isIndicator c) ||
    (c == '-' && !(l.source.peekAt 1).any isBlank) ||
    (!l.inFlow && (c == '?' || c == ':') && !Source.isGap (l.source.peekAt 1))

/-- Reads the token that begins with `c`. -/
def token (l : Lexer) (c : Char) : Option Lexer :=
  let next := l.source.peekAt 1
  let gap := Source.isGap next
  if l.source.column == 0 && c == '%' then do
    let l ← l.atBoundary none 0
    let (t, source) ← directive? l.source
    return { l with source }.emit t
  else if l.source.atMark ['-', '-', '-'] then l.atBoundary (some .documentStart) 3
  else if l.source.atMark ['.', '.', '.'] then l.atBoundary (some .documentEnd) 3
  else if c == '[' then l.openFlow .flowSequence
  else if c == '\x7b' then l.openFlow .flowMapping
  else if c == ']' then l.closeFlow .flowSequenceEnd
  else if c == '\x7d' then l.closeFlow .flowMappingEnd
  else if c == ',' then do
    let l ← l.dropCandidate
    return { l with keyAllowed := true }.emit .comma |>.advance 1
  else if c == '-' && gap then l.mark .blockSequence .entry
  else if c == '?' && (l.inFlow || gap) then l.mark .blockMapping .key
  else if c == ':' && (l.inFlow || gap) then l.colon
  else if c == '*' then
    l.simple fun s => (name? (s.advance 1)).map fun (n, rest) => (.alias n, rest)
  else if c == '&' then
    l.simple fun s => (name? (s.advance 1)).map fun (n, rest) => (.anchor n, rest)
  else if c == '!' then
    l.simple fun s => do
      let (t, rest) ← tag? s
      if rest.atGap || (l.inFlow && rest.peek == some ',') then return (t, rest) else none
  else if c == '|' && !l.inFlow then l.block false
  else if c == '>' && !l.inFlow then l.block true
  else if c == '\'' || c == '"' then
    l.simple fun s => (Scalar.quoted c s).map fun (text, rest) => (.scalar .quoted text, rest)
  else if l.atPlain c then l.plain
  else none

/-- Reads one token. The second result says that the text is at its end. -/
def step (l : Lexer) : Option (Lexer × Bool) := do
  let l ← (l.skipGap (l.source.rest.length + 1)).dropStale
  let l := l.closeBlocks l.column
  match l.source.peek with
  | none =>
    let l ← l.atBoundary none 0
    return (l, true)
  | some c =>
    let l ← l.token c
    return (l, false)

/-- Reads tokens up to the end of the text. -/
def run (fuel : Nat) (l : Lexer) : Option Lexer :=
  match fuel with
  | 0 => none
  | fuel + 1 => do
    let (l, done) ← l.step
    if done then return l else run fuel l

end Lexer

/-- The tokens of a text. -/
def tokens (text : List Char) : Option (List Token) :=
  if text.all isAllowed then
    ((Lexer.ofChars text).run (text.length + 1)).map fun l => l.read.reverse
  else none

end EventLog.Yaml
