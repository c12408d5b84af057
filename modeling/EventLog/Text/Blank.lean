/-!
# White space

The characters with the Unicode property `White_Space`, and the text operations that depend on
them. Tag parts, event types and connection URLs are judged by this set and no other: a zero width
space or a byte order mark is an ordinary character.
-/

namespace EventLog.Text

/-- Membership in the Unicode property `White_Space`. -/
def isBlank (c : Char) : Bool :=
  let n := c.toNat
  (0x09 ≤ n && n ≤ 0x0D) || n == 0x20 || n == 0x85 || n == 0xA0 || n == 0x1680 ||
    (0x2000 ≤ n && n ≤ 0x200A) || n == 0x2028 || n == 0x2029 || n == 0x202F || n == 0x205F ||
    n == 0x3000

/-- Drops white space from both ends of a list of characters. -/
def trimChars (cs : List Char) : List Char :=
  ((cs.dropWhile isBlank).reverse.dropWhile isBlank).reverse

/-- Drops white space from both ends of a text. -/
def trim (s : String) : String :=
  String.ofList (trimChars s.toList)

/-- The text holds nothing but white space. -/
def allBlank (s : String) : Bool :=
  s.toList.all isBlank

/-- The text begins or ends with white space. -/
def isPadded (s : String) : Bool :=
  trim s != s

/-- Every character that core calls white space is in the table. -/
theorem isBlank_of_isWhitespace {c : Char} (h : c.isWhitespace = true) : isBlank c = true := by
  simp only [Char.isWhitespace, Bool.or_eq_true, decide_eq_true_eq] at h
  rcases h with ((rfl | rfl) | rfl) | rfl <;> decide

/-- The property has twenty-five members: eight among the first 256 characters, fifteen in General
Punctuation, the Ogham space mark and the ideographic space. -/
example :
    ((List.range 0x100).filter fun n => isBlank (Char.ofNat n)).length = 8 ∧
      ((List.range' 0x2000 0x70).filter fun n => isBlank (Char.ofNat n)).length = 15 ∧
      isBlank '\u1680' = true ∧ isBlank '\u3000' = true := by
  decide +kernel

example : isBlank '\u200b' = false ∧ isBlank '\ufeff' = false ∧ isBlank '\x1c' = false := by decide

end EventLog.Text
