/-!
# YAML source text

A text that is read from front to back, with the place of the next character. Lines end with a line
feed, a carriage return, both, or one of the three line ends of Unicode.
-/

namespace EventLog.Yaml

/-- What is left of a text and where it begins. -/
structure Source where
  rest : List Char
  line : Nat
  column : Nat
  /-- The characters before it. -/
  offset : Nat
deriving Inhabited

/-- A blank inside a line. -/
def isBlank (c : Char) : Bool := c == ' ' || c == '\t'

/-- A line end. -/
def isBreak (c : Char) : Bool :=
  c == '\n' || c == '\r' || c == '\u0085' || c == '\u2028' || c == '\u2029'

/-- A character that a YAML text may hold. -/
def isAllowed (c : Char) : Bool :=
  let n := c.toNat
  n == 0x09 || n == 0x0A || n == 0x0D || (0x20 ≤ n && n ≤ 0x7E) || n == 0x85 ||
    (0xA0 ≤ n && n ≤ 0xD7FF) || (0xE000 ≤ n && n ≤ 0xFFFD) || 0x10000 ≤ n

namespace Source

/-- The whole of a text. -/
def ofChars (cs : List Char) : Source := ⟨cs, 0, 0, 0⟩

/-- The next character. -/
def peek (s : Source) : Option Char := s.rest.head?

/-- The character `n` places after the next one. -/
def peekAt (s : Source) (n : Nat) : Option Char := s.rest[n]?

/-- The text is at its end. -/
def atEnd (s : Source) : Bool := s.rest.isEmpty

/-- A character that is a blank, a line end or the end of the text. -/
def isGap : Option Char → Bool
  | none => true
  | some c => isBlank c || isBreak c

/-- The next character is a blank, a line end or the end of the text. -/
def atGap (s : Source) : Bool := isGap s.peek

/-- The text continues with a line end. -/
def atBreak (s : Source) : Bool := s.peek.any isBreak

/-- The text continues with a blank. -/
def atBlank (s : Source) : Bool := s.peek.any isBlank

/-- Passes over `n` characters of a line. -/
def advance (s : Source) (n : Nat) : Source :=
  { s with rest := s.rest.drop n, column := s.column + n, offset := s.offset + n }

/-- Passes over a line end of `n` characters. -/
def endLine (s : Source) (n : Nat) : Source :=
  ⟨s.rest.drop n, s.line + 1, 0, s.offset + n⟩

/-- Passes over a line end. The second result is how it stands in a scalar: the line ends of ASCII
and `U+0085` are a line feed there. -/
def takeBreak (s : Source) : Source × List Char :=
  match s.rest with
  | '\r' :: '\n' :: _ => (s.endLine 2, ['\n'])
  | '\u2028' :: _ => (s.endLine 1, ['\u2028'])
  | '\u2029' :: _ => (s.endLine 1, ['\u2029'])
  | _ => (s.endLine 1, ['\n'])

/-- Passes over the characters of a line that satisfy `p`. -/
def skipWhile (s : Source) (p : Char → Bool) : Source :=
  s.advance (s.rest.takeWhile p).length

/-- The characters that satisfy `p`, and what follows them. -/
def takeWhile (s : Source) (p : Char → Bool) : List Char × Source :=
  (s.rest.takeWhile p, s.skipWhile p)

/-- A line begins with the three characters `mark` and a gap. -/
def atMark (s : Source) (mark : List Char) : Bool :=
  s.column == 0 && mark.isPrefixOf s.rest && isGap (s.peekAt 3)

/-- A line begins with the mark of a document's beginning or end. -/
def atDocumentMark (s : Source) : Bool :=
  s.atMark ['-', '-', '-'] || s.atMark ['.', '.', '.']

end Source

end EventLog.Yaml
