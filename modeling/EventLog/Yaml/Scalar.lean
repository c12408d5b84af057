import EventLog.Json.Document
import EventLog.Yaml.Source

/-!
# YAML scalars

The five ways to write a scalar: plain, between single or double quotes, literal and folded. Every
reader starts at the first character of the scalar, says `none` where it is not well formed, and
gives the text and what follows it.
-/

namespace EventLog.Yaml

/-- How a scalar was written. -/
inductive Style
  | plain
  | quoted
  | literal
  | folded
deriving DecidableEq, Repr, Inhabited

namespace Scalar

/-- Blanks and line ends that have been passed but not yet written. -/
structure Gap where
  /-- The blanks of the line, while it has not ended. -/
  blanks : List Char := []
  /-- A line has ended. -/
  broken : Bool := false
  first : List Char := []
  others : List Char := []

namespace Gap

/-- How a gap stands in a scalar: one line end becomes a blank, and of several the first is left
out. -/
def folded (g : Gap) : List Char :=
  if !g.broken then g.blanks
  else if g.first == ['\n'] then (if g.others.isEmpty then [' '] else g.others)
  else g.first ++ g.others

/-- The gap is empty. -/
def isEmpty (g : Gap) : Bool := !g.broken && g.blanks.isEmpty

/-- Passes over a line end. -/
def endLine (g : Gap) (s : Source) : Gap × Source :=
  let (s, br) := s.takeBreak
  if g.broken then ({ g with others := g.others ++ br }, s)
  else ({ g with blanks := [], broken := true, first := br }, s)

end Gap

/-- Passes over blanks and line ends. A tab before column `indent` of a new line is refused. -/
def takeGap (fuel : Nat) (indent : Int) (g : Gap) (s : Source) : Option (Gap × Source) :=
  match fuel with
  | 0 => some (g, s)
  | fuel + 1 =>
    if s.atBreak then
      let (g, s) := g.endLine s
      takeGap fuel indent g s
    else
      match s.peek with
      | some c =>
        if isBlank c then
          if c == '\t' && g.broken && decide ((s.column : Int) < indent) then none
          else
            takeGap fuel indent (if g.broken then g else { g with blanks := g.blanks ++ [c] })
              (s.advance 1)
        else some (g, s)
      | none => some (g, s)

/-- A character that ends a part of a plain scalar in a flow collection. -/
def isFlowMark (c : Char) : Bool :=
  c == ',' || c == '[' || c == ']' || c == '\x7b' || c == '\x7d'

/-- Reads on in a plain scalar up to a gap or to a mark that ends it. -/
def plainPart (flow : Bool) : List Char → Option (List Char)
  | [] => some []
  | c :: cs =>
    if isBlank c || isBreak c then some []
    else if c == ':' && flow && cs.head?.any (fun d => isFlowMark d || d == '?') then none
    else if c == ':' && Source.isGap cs.head? then some []
    else if flow && isFlowMark c then some []
    else (plainPart flow cs).map (c :: ·)

/-- Reads on in a plain scalar. `gap` stands between what was read and what follows. The third result
says that a new line has begun. -/
def plainFrom (fuel : Nat) (flow : Bool) (indent : Int) (acc : List Char) (gap : Gap) (s : Source) :
    Option (List Char × Source × Bool) :=
  match fuel with
  | 0 => some (acc, s, gap.broken)
  | fuel + 1 =>
    if s.atDocumentMark || s.peek == some '#' then some (acc, s, gap.broken)
    else do
      let part ← plainPart flow s.rest
      let acc := if part.isEmpty then acc else acc ++ gap.folded ++ part
      let gap := if part.isEmpty then gap else {}
      let s := s.advance part.length
      if s.atBlank || s.atBreak then
        let (gap, s) ← takeGap (s.rest.length + 1) indent gap s
        if !flow && decide ((s.column : Int) < indent) then return (acc, s, gap.broken)
        else plainFrom fuel flow indent acc gap s
      else return (acc, s, gap.broken)

/-- Reads a plain scalar inside a block that is indented to `indent`. -/
def plain (flow : Bool) (indent : Int) (s : Source) : Option (List Char × Source × Bool) :=
  plainFrom (s.rest.length + 1) flow (indent + 1) [] {} s

/-- The characters that a short escape denotes. -/
def escapes : List (Char × Char) :=
  [('0', '\x00'), ('a', '\x07'), ('b', '\x08'), ('t', '\t'), ('\t', '\t'), ('n', '\n'),
    ('v', '\x0b'), ('f', '\x0c'), ('r', '\r'), ('e', '\x1b'), (' ', ' '), ('"', '"'), ('/', '/'),
    ('\\', '\\'), ('N', '\u0085'), ('_', '\u00a0'), ('L', '\u2028'), ('P', '\u2029')]

/-- The number of digits after an escape by code point. -/
def escapeWidth? (c : Char) : Option Nat :=
  if c == 'x' then some 2 else if c == 'u' then some 4 else if c == 'U' then some 8 else none

/-- The character of a code point. -/
def charOf? (n : Nat) : Option Char :=
  if h : n.isValidChar then some ⟨n.toUInt32, by
    have : n < 0x100000000 := by rcases h with h | h <;> omega
    simpa [UInt32.isValidChar, Nat.toUInt32, UInt32.toNat_ofNat_of_lt' this] using h⟩ else none

/-- Reads the escape after a backslash: the character and the number of characters passed. -/
def escape? (cs : List Char) : Option (Char × Nat) :=
  match cs with
  | [] => none
  | c :: rest =>
    match escapes.lookup c with
    | some x => some (x, 1)
    | none => do
      let width ← escapeWidth? c
      let ds := rest.take width
      if ds.length = width then
        let n ← ds.foldlM (fun n c => (Json.Source.hexValue? c).map (16 * n + ·)) 0
        let x ← charOf? n
        return (x, width + 1)
      else none

/-- Reads on in a scalar between single quotes up to a gap or the closing quote. -/
def singlePart : List Char → List Char × Nat
  | [] => ([], 0)
  | '\'' :: '\'' :: cs =>
    let (part, n) := singlePart cs
    ('\'' :: part, n + 2)
  | c :: cs =>
    if c == '\'' || isBlank c || isBreak c then ([], 0)
    else
      let (part, n) := singlePart cs
      (c :: part, n + 1)

/-- Reads on in a scalar between double quotes up to a gap or the closing quote. The last result says
that the line end after a backslash was reached. -/
def doublePart (fuel : Nat) (cs : List Char) : Option (List Char × Nat × Bool) :=
  match fuel, cs with
  | 0, _ => some ([], 0, false)
  | _, [] => some ([], 0, false)
  | fuel + 1, c :: cs =>
    if c == '"' || isBlank c || isBreak c then some ([], 0, false)
    else if c == '\\' then
      if cs.head?.any isBreak then some ([], 1, true)
      else do
        let (x, n) ← escape? cs
        let (part, m, joined) ← doublePart fuel (cs.drop n)
        return (x :: part, m + n + 1, joined)
    else do
      let (part, m, joined) ← doublePart fuel cs
      return (c :: part, m + 1, joined)

/-- Reads on in a quoted scalar after its opening quote. -/
def quotedFrom (fuel : Nat) (quote : Char) (acc : List Char) (s : Source) :
    Option (List Char × Source) :=
  match fuel with
  | 0 => none
  | fuel + 1 =>
    if s.atDocumentMark || s.atEnd then none
    else do
      let (part, n, joined) ←
        if quote == '"' then doublePart (s.rest.length + 1) s.rest
        else
          let (part, n) := singlePart s.rest
          some (part, n, false)
      let acc := acc ++ part
      let s := s.advance n
      if !joined && s.peek == some quote then return (acc, s.advance 1)
      else
        let (start, s) : Gap × Source :=
          if joined then ({ broken := true }, s.takeBreak.1) else ({}, s)
        let (gap, s) ← takeGap (s.rest.length + 1) 0 start s
        quotedFrom fuel quote (acc ++ gap.folded) s

/-- Reads a quoted scalar. -/
def quoted (quote : Char) (s : Source) : Option (List Char × Source) :=
  quotedFrom (s.rest.length + 1) quote [] (s.advance 1)

/-- What becomes of the line ends after a block scalar. -/
inductive Chomping
  | strip
  | clip
  | keep
deriving DecidableEq, Repr, Inhabited

/-- The chomping that a character asks for. -/
def chomping? (c : Char) : Option Chomping :=
  if c == '-' then some .strip else if c == '+' then some .keep else none

/-- The indentation that a digit asks for; `0` asks for none and is refused. -/
def increment? (c : Char) : Option Nat :=
  if c.isDigit then some (c.toNat - '0'.toNat) else none

/-- The header of a block scalar: chomping and indentation in either order. -/
def header (s : Source) : Option (Chomping × Option Nat × Source) :=
  let first := s.peek
  let second := s.peekAt 1
  match first.bind chomping?, first.bind increment? with
  | some ch, _ =>
    match second.bind increment? with
    | some 0 => none
    | some n => some (ch, some n, s.advance 2)
    | none => some (ch, none, s.advance 1)
  | none, some 0 => none
  | none, some n =>
    match second.bind chomping? with
    | some ch => some (ch, some n, s.advance 2)
    | none => some (.clip, some n, s.advance 1)
  | none, none => some (.clip, none, s)

/-- Passes over empty lines before a line of a block scalar whose indentation is `indent`, or not yet
known. Gives the line ends and the deepest column reached. -/
def emptyLines (fuel : Nat) (indent : Option Nat) (deepest : Nat) (breaks : List Char) (s : Source) :
    Option (List Char × Nat × Source) :=
  match fuel with
  | 0 => some (breaks, deepest, s)
  | fuel + 1 =>
    let blanks := (s.rest.takeWhile (· == ' ')).length
    let s := s.advance (match indent with
      | none => blanks
      | some n => min blanks (n - s.column))
    let deepest := max deepest s.column
    let shallow := match indent with
      | none => true
      | some n => decide (s.column < n)
    if shallow && s.peek == some '\t' then none
    else if s.atBreak then
      let (s, br) := s.takeBreak
      emptyLines fuel indent deepest (breaks ++ br) s
    else some (breaks, deepest, s)

/-- The lines of a block scalar read so far: the text, the end of the last line, the empty lines after
it, and whether that line began with a blank. -/
structure Lines where
  text : List Char := []
  ending : List Char := []
  empty : List Char := []
  deeper : Bool := false

/-- How two lines of a block scalar are joined. In a folded scalar the end of a line becomes a blank,
unless a line that begins with a blank is next to it. -/
def Lines.join (l : Lines) (isFolded startsBlank : Bool) : List Char :=
  if isFolded && l.ending == ['\n'] && !l.deeper && !startsBlank then
    (if l.empty.isEmpty then [' '] else l.empty)
  else l.ending ++ l.empty

/-- Reads the lines of a block scalar. -/
def blockLines (fuel : Nat) (isFolded : Bool) (indent : Nat) (l : Lines) (s : Source) :
    Option (Lines × Source) :=
  match fuel with
  | 0 => some (l, s)
  | fuel + 1 =>
    if s.column == indent && !s.atEnd then do
      let startsBlank := s.atBlank
      let (line, s) := s.takeWhile (!isBreak ·)
      let text := l.text ++ l.join isFolded startsBlank ++ line
      let (s, br) := if s.atEnd then (s, []) else s.takeBreak
      let (empty, _, s) ← emptyLines (s.rest.length + 1) (some indent) 0 [] s
      blockLines fuel isFolded indent ⟨text, br, empty, startsBlank⟩ s
    else some (l, s)

/-- The line after a header holds nothing but a comment. -/
def endHeader (s : Source) : Option Source :=
  let s := s.skipWhile isBlank
  let s := if s.peek == some '#' then s.skipWhile (!isBreak ·) else s
  if s.atBreak then some s.takeBreak.1
  else if s.atEnd then some s
  else none

/-- Reads a literal or folded scalar inside a block that is indented to `outer`. -/
def block (isFolded : Bool) (outer : Int) (s : Source) : Option (List Char × Source) := do
  let (chomping, increment, s) ← header (s.advance 1)
  let s ← endHeader s
  let asked := increment.map fun n => (max outer 0).toNat + n
  let (empty, deepest, s) ← emptyLines (s.rest.length + 1) asked 0 [] s
  let indent := asked.getD (max deepest (max (outer + 1).toNat 1))
  let (l, s) ← blockLines (s.rest.length + 1) isFolded indent { empty := empty } s
  let tail := match chomping with
    | .strip => []
    | .clip => l.ending
    | .keep => l.ending ++ l.empty
  return (l.text ++ tail, s)

end Scalar

end EventLog.Yaml
