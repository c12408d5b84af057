import EventLog.Proofs.EventIdText
import EventLog.Proofs.NumeralText

/-!
# Reading back JSON

The compact text of a value stands on one line, and it is read back as the document of the value, provided that
its numbers are legible.

## Key results

- `Source.readQuotation_escaped`: a string is read back
- `Source.readDocument_compact`: a value is read back before other text
- `Source.read_toText`: a text that is a value is read back
- `newline_not_mem_compact`: a value stands on one line
-/

namespace EventLog.Json

namespace Source

/-! ### Strings -/

/-- A control character is read back from its four digits. -/
theorem readCodePoint_control {c : Char} (h : c.toNat < 0x20) (rest : List Char) :
    readCodePoint ('0' :: '0' :: hexDigit (c.toNat / 16) :: hexDigit (c.toNat % 16) :: rest) =
      .ok (.ok c, rest) := by
  have hhigh := EventId.hexValue?_hexDigit (c.toNat / 16) (by omega)
  have hlow := EventId.hexValue?_hexDigit (c.toNat % 16) (by omega)
  have hunit : readUnit ('0' :: '0' :: hexDigit (c.toNat / 16) :: hexDigit (c.toNat % 16) :: rest) =
      .ok (c.toNat, rest) := by
    have hzero : hexValue? '0' = some 0 := by decide
    simp only [readUnit, hzero, hhigh, hlow]
    congr 2
    omega
  -- a control character is no surrogate, so no second escape is waited for
  have htrailing : isTrailing c.toNat = false := by
    simp [isTrailing]
    omega
  have hleading : isLeading c.toNat = false := by
    simp [isLeading]
    omega
  simp [readCodePoint, hunit, htrailing, hleading, bind, Except.bind, pure, Except.pure]

/-- How a character is written: as an escape by a letter, as an escape by four digits, or as itself. -/
theorem escapeChar_cases (c : Char) :
    (∃ letter, escapeChar c = ['\\', letter] ∧ letter ≠ '\n' ∧
      ∀ rest, readEscape (letter :: rest) = .ok (.ok c, rest)) ∨
    (c.toNat < 0x20 ∧
      escapeChar c = ['\\', 'u', '0', '0', hexDigit (c.toNat / 16), hexDigit (c.toNat % 16)]) ∨
    (0x20 ≤ c.toNat ∧ c ≠ '"' ∧ c ≠ '\\' ∧ escapeChar c = [c]) := by
  -- seven characters have letters of their own, the other control characters have none
  by_cases hletter : c ∈ ['"', '\\', '\x08', '\x0c', '\n', '\r', '\t']
  · simp only [List.mem_cons, List.not_mem_nil, or_false] at hletter
    rcases hletter with rfl | rfl | rfl | rfl | rfl | rfl | rfl <;>
      exact .inl ⟨_, rfl, by decide, fun _ => rfl⟩
  · simp only [List.mem_cons, List.not_mem_nil, or_false, not_or] at hletter
    by_cases hcontrol : c.toNat < 0x20
    · exact .inr (.inl ⟨hcontrol, by simp [escapeChar, hletter, hcontrol]⟩)
    · exact .inr (.inr ⟨by omega, hletter.1, hletter.2.1, by simp [escapeChar, hletter, hcontrol]⟩)

/-- A character is read back from what it is written as. -/
theorem readQuotation_escapeChar (fuel : Nat) (c : Char) (rest : List Char) :
    readQuotation (fuel + 1) (escapeChar c ++ rest) = (readQuotation fuel rest).cons (.ok c) := by
  rcases escapeChar_cases c with ⟨letter, hc, -, hletter⟩ | ⟨hcontrol, hc⟩ | ⟨hplain, hquote, hescape, hc⟩
  · simp [hc, readQuotation, hletter]
  · simp [hc, readQuotation, readEscape, readCodePoint_control hcontrol]
  · -- a plain character is none of those by which the reader is stopped
    have hlow : ¬c.toNat < 0x20 := by omega
    rw [hc, List.singleton_append, readQuotation, if_neg hlow]
    · exact hquote
    · exact hescape

/-- The rest of a string is read back after its opening quote. -/
theorem readQuotation_escaped {fuel : Nat} {cs : List Char} (hfuel : cs.length < fuel) (rest : List Char) :
    readQuotation fuel (cs.flatMap escapeChar ++ '"' :: rest) = ⟨.ok cs, .ok rest⟩ := by
  induction cs generalizing fuel with
  | nil =>
    -- the closing quote ends the string, and the rest is left
    obtain ⟨fuel, rfl⟩ := Nat.exists_eq_add_of_lt hfuel
    simp [readQuotation]
  | cons c cs ih =>
    obtain ⟨fuel, rfl⟩ : ∃ n, fuel = n + 1 := ⟨fuel - 1, by rw [List.length_cons] at hfuel; omega⟩
    rw [List.flatMap_cons, List.append_assoc, readQuotation_escapeChar, ih (by simpa using hfuel)]
    rfl

/-- No string is longer than what is written of it. -/
theorem length_lt_length_writeString (s : String) : s.toList.length + 1 < (writeString s).length := by
  -- every character takes at least one of the text
  have hescaped : ∀ cs : List Char, cs.length ≤ (cs.flatMap escapeChar).length := by
    intro cs
    induction cs with
    | nil => simp
    | cons c cs ih =>
      have hpos : 1 ≤ (escapeChar c).length := by
        rcases escapeChar_cases c with ⟨letter, hc, -⟩ | ⟨-, hc⟩ | ⟨-, -, -, hc⟩ <;> simp [hc]
      rw [List.flatMap_cons, List.length_append, List.length_cons]
      omega
  have hle := hescaped s.toList
  simp only [writeString, List.length_cons, List.length_append, List.length_nil]
  omega

/-! ### Parts of a document -/

section

variable {fuel : Nat} {cs rest : List Char} {c : Char} {d : Document}

/-- White space is skipped up to the first character that is none. -/
theorem skipSpace_cons (h : isSpace c = false) (cs : List Char) : skipSpace (c :: cs) = c :: cs :=
  List.dropWhile_cons_of_neg (by simp [h])

/-- A string with text behind it is an opening quote and what is read after that. -/
theorem readQuotation_writeString {s : String} (hfuel : s.toList.length < fuel) (rest : List Char) :
    ∃ cs, writeString s ++ rest = '"' :: cs ∧ readQuotation fuel cs = ⟨.ok s.toList, .ok rest⟩ :=
  ⟨_, by simp [writeString], readQuotation_escaped hfuel rest⟩

/-- A string is read as a document. -/
theorem readDocument_writeString {s : String} (hfuel : s.toList.length < fuel) (rest : List Char) :
    readDocument (fuel + 1) (writeString s ++ rest) = (.string s, some rest) := by
  obtain ⟨cs, htext, hread⟩ := readQuotation_writeString hfuel rest
  have hskip : skipSpace ('"' :: cs) = '"' :: cs := skipSpace_cons (by decide) cs
  simp [htext, readDocument, hskip, stringReading, hread, Quotation.text, Except.map]

/-- A number is read as a document if no part of a number follows it. -/
theorem readDocument_writeNumber {n : Number} (h : n.Legible) (hrest : Numeral.Ends rest) :
    readDocument (fuel + 1) (writeNumber n ++ rest) = (.number n, some rest) := by
  obtain ⟨c, cs, htext, hc⟩ := h.exists_head
  have hread := h.numeralReading_append hrest
  rw [htext, List.cons_append] at hread ⊢
  -- no other part of a document begins like a number
  have hother : ∀ x ∈ [' ', '\n', '\t', '\r', '"', '[', '\x7b', 'n', 't', 'f'], c ≠ x := by
    have hnone : ∀ x ∈ [' ', '\n', '\t', '\r', '"', '[', '\x7b', 'n', 't', 'f'],
        ¬(x = '-' ∨ x.isDigit = true) := by
      simp only [List.forall_mem_cons, List.not_mem_nil, false_imp_iff, implies_true, and_true]
      decide
    exact fun x hx heq => hnone x hx (heq ▸ hc)
  simp only [List.forall_mem_cons, List.not_mem_nil, false_imp_iff, implies_true, and_true] at hother
  have hspace : isSpace c = false := by simp [isSpace, hother]
  have hnumber : (c == '-' || c.isDigit) = true := by simpa using hc
  simp [readDocument, skipSpace_cons hspace, hother, hnumber, hread]

/-- An array with items is read item by item. -/
theorem readDocument_array (hspace : isSpace c = false) (hclose : c ≠ ']') :
    readDocument (fuel + 1) ('[' :: c :: cs) =
      (.array (readItems fuel (c :: cs)).items (readItems fuel (c :: cs)).ending,
        (readItems fuel (c :: cs)).rest) := by
  have hskip : skipSpace ('[' :: c :: cs) = '[' :: c :: cs := skipSpace_cons (by decide) _
  simp [readDocument, hskip, skipSpace_cons hspace, hclose]

/-- The last item of an array. -/
theorem readItems_last (h : readDocument fuel cs = (d, some (']' :: rest))) :
    readItems (fuel + 1) cs = ⟨[d], none, some rest⟩ := by
  have hskip : skipSpace (']' :: rest) = ']' :: rest := skipSpace_cons (by decide) _
  simp [readItems, h, hskip]

/-- An item of an array before another one. -/
theorem readItems_comma (h : readDocument fuel cs = (d, some (',' :: c :: rest))) (hspace : isSpace c = false)
    (hclose : c ≠ ']') :
    readItems (fuel + 1) cs =
      { readItems fuel (c :: rest) with items := d :: (readItems fuel (c :: rest)).items } := by
  have hskip : skipSpace (',' :: c :: rest) = ',' :: c :: rest := skipSpace_cons (by decide) _
  simp [readItems, h, hskip, skipSpace_cons hspace, hclose]

/-- An object with members is read member by member. -/
theorem readDocument_object :
    readDocument (fuel + 1) ('\x7b' :: '"' :: cs) =
      (.object (readEntries fuel ('"' :: cs)).members (readEntries fuel ('"' :: cs)).ending,
        (readEntries fuel ('"' :: cs)).rest) := by
  have hskip : skipSpace ('\x7b' :: '"' :: cs) = '\x7b' :: '"' :: cs := skipSpace_cons (by decide) _
  have hquote : skipSpace ('"' :: cs) = '"' :: cs := skipSpace_cons (by decide) _
  simp [readDocument, hskip, hquote]

/-- The last member of an object. -/
theorem readEntries_last {key : String} (hkey : key.toList.length < fuel)
    (h : readDocument fuel cs = (d, some ('\x7d' :: rest))) :
    readEntries (fuel + 1) (writeString key ++ ':' :: cs) = ⟨[(.ok key, d)], none, some rest⟩ := by
  obtain ⟨cs', htext, hread⟩ := readQuotation_writeString hkey (':' :: cs)
  have hcolon : skipSpace (':' :: cs) = ':' :: cs := skipSpace_cons (by decide) _
  have hskip : skipSpace ('\x7d' :: rest) = '\x7d' :: rest := skipSpace_cons (by decide) _
  simp [htext, readEntries, hread, hcolon, h, hskip, Quotation.text, Except.map]

/-- A member of an object before another one. -/
theorem readEntries_comma {key : String} (hkey : key.toList.length < fuel)
    (h : readDocument fuel cs = (d, some (',' :: '"' :: rest))) :
    readEntries (fuel + 1) (writeString key ++ ':' :: cs) =
      { readEntries fuel ('"' :: rest) with
        members := (.ok key, d) :: (readEntries fuel ('"' :: rest)).members } := by
  obtain ⟨cs', htext, hread⟩ := readQuotation_writeString hkey (':' :: cs)
  have hcolon : skipSpace (':' :: cs) = ':' :: cs := skipSpace_cons (by decide) _
  have hskip : skipSpace (',' :: '"' :: rest) = ',' :: '"' :: rest := skipSpace_cons (by decide) _
  have hquote : skipSpace ('"' :: rest) = '"' :: rest := skipSpace_cons (by decide) _
  simp [htext, readEntries, hread, hcolon, h, hskip, hquote, Quotation.text, Except.map]

end

end Source

/-- All numbers in the value are legible. -/
inductive Value.Legible : Value → Prop
  | null : Legible .null
  | bool (b : Bool) : Legible (.bool b)
  | number {n : Number} (h : n.Legible) : Legible (.number n)
  | string (s : String) : Legible (.string s)
  | array {items : List Value} (h : ∀ v ∈ items, Legible v) : Legible (.array items)
  | object {members : Members} (h : ∀ m ∈ members, Legible m.2) : Legible (.object members)

/-- Between two parts stands the separator. -/
theorem joinWith_cons_cons (sep p q : List Char) (ps : List (List Char)) :
    joinWith sep (p :: q :: ps) = p ++ sep ++ joinWith sep (q :: ps) := rfl

/-- A part that is not empty begins with its first character. -/
theorem joinWith_cons_of_eq_cons (sep : List Char) {p cs : List Char} {c : Char} (h : p = c :: cs)
    (ps : List (List Char)) : ∃ cs', joinWith sep (p :: ps) = c :: cs' := by
  cases ps <;> simp [joinWith, h]

namespace Source

/-! ### Values -/

/-- A value begins neither with white space nor with a closing bracket. -/
theorem exists_head_compact {v : Value} (h : v.Legible) :
    ∃ c cs, v.compact = c :: cs ∧ isSpace c = false ∧ c ≠ ']' := by
  cases h with
  | null => exact ⟨'n', _, rfl, by decide⟩
  | bool b =>
    cases b with
    | true => exact ⟨'t', _, rfl, by decide⟩
    | false => exact ⟨'f', _, rfl, by decide⟩
  | number h =>
    obtain ⟨c, cs, htext, hc⟩ := h.exists_head
    -- a number begins with a sign or a digit, which is neither white space nor a bracket
    have hnone : ∀ x ∈ [' ', '\n', '\t', '\r', ']'], ¬(x = '-' ∨ x.isDigit = true) := by
      simp only [List.forall_mem_cons, List.not_mem_nil, false_imp_iff, implies_true, and_true]
      decide
    have hother : ∀ x ∈ [' ', '\n', '\t', '\r', ']'], c ≠ x := fun x hx heq => hnone x hx (heq ▸ hc)
    simp only [List.forall_mem_cons, List.not_mem_nil, false_imp_iff, implies_true, and_true] at hother
    exact ⟨c, cs, htext, by simp [isSpace, hother], hother.2.2.2.2⟩
  | string s => exact ⟨'"', _, rfl, by decide⟩
  | array h => exact ⟨'[', _, rfl, by decide⟩
  | object h => exact ⟨'\x7b', _, rfl, by decide⟩

/-- What follows a part of a container ends a number. -/
theorem ends_cons {c : Char} (h : c ∈ [',', ']', '\x7d']) (rest : List Char) : Numeral.Ends (c :: rest) := by
  have hnone : ∀ x ∈ [',', ']', '\x7d'], x.isDigit = false ∧ x ≠ '.' ∧ x ≠ 'e' ∧ x ≠ 'E' := by
    simp only [List.forall_mem_cons, List.not_mem_nil, false_imp_iff, implies_true, and_true]
    decide
  intro x hx
  obtain rfl : c = x := by simpa using hx
  exact hnone c h

mutual

/-- A value is read back before other text. -/
theorem readDocument_compact : (v : Value) → v.Legible → ∀ {fuel : Nat} {rest : List Char},
    2 * v.compact.length ≤ fuel → Numeral.Ends rest →
    readDocument fuel (v.compact ++ rest) = (.ofValue v, some rest)
  | .null, _, 0, _, hfuel, _ => by simp [Value.compact] at hfuel
  | .null, _, fuel + 1, _, _, _ => rfl
  | .bool b, _, 0, _, hfuel, _ => by cases b <;> simp [Value.compact] at hfuel
  | .bool true, _, fuel + 1, _, _, _ => rfl
  | .bool false, _, fuel + 1, _, _, _ => rfl
  | .number n, h, fuel, rest, hfuel, hrest => by
    cases h with | number h =>
    obtain ⟨c, cs, htext, -⟩ := h.exists_head
    have hlength : (Value.number n).compact.length = cs.length + 1 := congrArg List.length htext
    obtain ⟨fuel, rfl⟩ : ∃ m, fuel = m + 1 := ⟨fuel - 1, by omega⟩
    exact readDocument_writeNumber h hrest
  | .string s, _, fuel, rest, hfuel, _ => by
    have hlength : s.toList.length + 1 < (Value.string s).compact.length := length_lt_length_writeString s
    obtain ⟨fuel, rfl⟩ : ∃ m, fuel = m + 1 := ⟨fuel - 1, by omega⟩
    exact readDocument_writeString (by omega) rest
  | .array [], _, 0, _, hfuel, _ => by simp [Value.compact] at hfuel
  | .array [], _, fuel + 1, _, _, _ => rfl
  | .array (v :: vs), h, fuel, rest, hfuel, _ => by
    cases h with | array h =>
    -- the items begin as the first of them does
    obtain ⟨c, cs, hhead, hspace, hclose⟩ := exists_head_compact (h v List.mem_cons_self)
    obtain ⟨cs', hitems⟩ := joinWith_cons_of_eq_cons [','] hhead (compactItems vs)
    have htext : (Value.array (v :: vs)).compact ++ rest =
        '[' :: (joinWith [','] (compactItems (v :: vs)) ++ ']' :: rest) := by simp [Value.compact]
    have hlength : (Value.array (v :: vs)).compact.length =
        (joinWith [','] (compactItems (v :: vs))).length + 2 := by simp [Value.compact]
    -- the brackets pay for the step into the items
    obtain ⟨fuel, rfl⟩ : ∃ m, fuel = m + 1 := ⟨fuel - 1, by omega⟩
    have hread := @readItems_compactItems (v :: vs) (List.cons_ne_nil v vs) h fuel rest (by omega)
    rw [htext]
    rw [compactItems, hitems, List.cons_append] at hread ⊢
    rw [readDocument_array hspace hclose, hread]
    rfl
  | .object [], _, 0, _, hfuel, _ => by simp [Value.compact] at hfuel
  | .object [], _, fuel + 1, _, _, _ => rfl
  | .object ((key, v) :: ms), h, fuel, rest, hfuel, _ => by
    cases h with | object h =>
    obtain ⟨cs', hmembers⟩ : ∃ cs, joinWith [','] (compactMembers ((key, v) :: ms)) = '"' :: cs :=
      joinWith_cons_of_eq_cons [','] rfl (compactMembers ms)
    have htext : (Value.object ((key, v) :: ms)).compact ++ rest =
        '\x7b' :: (joinWith [','] (compactMembers ((key, v) :: ms)) ++ '\x7d' :: rest) := by
      simp [Value.compact]
    have hlength : (Value.object ((key, v) :: ms)).compact.length =
        (joinWith [','] (compactMembers ((key, v) :: ms))).length + 2 := by simp [Value.compact]
    obtain ⟨fuel, rfl⟩ : ∃ m, fuel = m + 1 := ⟨fuel - 1, by omega⟩
    have hread := @readEntries_compactMembers ((key, v) :: ms) (List.cons_ne_nil _ ms) h fuel rest (by omega)
    rw [htext]
    rw [hmembers, List.cons_append] at hread ⊢
    rw [readDocument_object, hread]
    rfl

/-- Items are read back up to the closing bracket. -/
theorem readItems_compactItems : (vs : List Value) → vs ≠ [] → (∀ v ∈ vs, v.Legible) →
    ∀ {fuel : Nat} {rest : List Char}, 2 * (joinWith [','] (compactItems vs)).length < fuel →
    readItems fuel (joinWith [','] (compactItems vs) ++ ']' :: rest) = ⟨documentsOf vs, none, some rest⟩
  | [v], _, h, fuel, rest, hfuel => by
    obtain ⟨fuel, rfl⟩ : ∃ m, fuel = m + 1 := ⟨fuel - 1, by omega⟩
    have hlength : 2 * v.compact.length ≤ fuel := by simpa [compactItems, joinWith, Nat.lt_succ_iff] using hfuel
    exact readItems_last (readDocument_compact v (h v List.mem_cons_self) hlength (ends_cons (by simp) rest))
  | v :: w :: ws, _, h, fuel, rest, hfuel => by
    obtain ⟨hv, hws⟩ := List.forall_mem_cons.mp h
    obtain ⟨c, cs, hhead, hspace, hclose⟩ := exists_head_compact (hws w List.mem_cons_self)
    obtain ⟨cs', hitems⟩ := joinWith_cons_of_eq_cons [','] hhead (compactItems ws)
    -- behind the comma the next item begins, with neither white space nor a bracket
    obtain ⟨fuel, rfl⟩ : ∃ m, fuel = m + 1 := ⟨fuel - 1, by omega⟩
    rw [compactItems, compactItems, joinWith_cons_cons, ← compactItems] at hfuel ⊢
    simp only [List.length_append, List.length_singleton] at hfuel
    have hread := @readItems_compactItems (w :: ws) (List.cons_ne_nil w ws) hws fuel rest (by omega)
    have hfirst := @readDocument_compact v hv fuel
      (',' :: (joinWith [','] (compactItems (w :: ws)) ++ ']' :: rest)) (by omega) (ends_cons (by simp) _)
    simp only [List.append_assoc, List.cons_append, List.nil_append]
    rw [compactItems, hitems, List.cons_append] at hread hfirst ⊢
    rw [readItems_comma hfirst hspace hclose, hread]
    rfl

/-- Members are read back up to the closing brace. -/
theorem readEntries_compactMembers : (ms : Members) → ms ≠ [] → (∀ m ∈ ms, m.2.Legible) →
    ∀ {fuel : Nat} {rest : List Char}, 2 * (joinWith [','] (compactMembers ms)).length < fuel →
    readEntries fuel (joinWith [','] (compactMembers ms) ++ '\x7d' :: rest) =
      ⟨memberDocumentsOf ms, none, some rest⟩
  | [(key, v)], _, h, fuel, rest, hfuel => by
    have hkey := length_lt_length_writeString key
    have htext : joinWith [','] (compactMembers [(key, v)]) ++ '\x7d' :: rest =
        writeString key ++ ':' :: (v.compact ++ '\x7d' :: rest) := by simp [compactMembers, joinWith]
    simp only [compactMembers, joinWith, List.length_append, List.length_cons] at hfuel
    obtain ⟨fuel, rfl⟩ : ∃ m, fuel = m + 1 := ⟨fuel - 1, by omega⟩
    have hread := @readDocument_compact v (h _ List.mem_cons_self) fuel ('\x7d' :: rest) (by omega)
      (ends_cons (by simp) rest)
    rw [htext, readEntries_last (by omega) hread]
    rfl
  | (key, v) :: (key', w) :: ms, _, h, fuel, rest, hfuel => by
    obtain ⟨hv, hms⟩ := List.forall_mem_cons.mp h
    have hkey := length_lt_length_writeString key
    -- behind the comma the next name begins, with its quote
    obtain ⟨cs', hmembers⟩ : ∃ cs, joinWith [','] (compactMembers ((key', w) :: ms)) = '"' :: cs :=
      joinWith_cons_of_eq_cons [','] rfl (compactMembers ms)
    have htext : joinWith [','] (compactMembers ((key, v) :: (key', w) :: ms)) =
        writeString key ++ ':' :: (v.compact ++ ',' :: joinWith [','] (compactMembers ((key', w) :: ms))) := by
      simp [compactMembers, joinWith_cons_cons]
    rw [htext] at hfuel ⊢
    simp only [List.length_append, List.length_cons] at hfuel
    obtain ⟨fuel, rfl⟩ : ∃ m, fuel = m + 1 := ⟨fuel - 1, by omega⟩
    have hread := @readEntries_compactMembers ((key', w) :: ms) (List.cons_ne_nil _ ms) hms fuel rest (by omega)
    have hfirst := @readDocument_compact v hv fuel
      (',' :: (joinWith [','] (compactMembers ((key', w) :: ms)) ++ '\x7d' :: rest)) (by omega)
      (ends_cons (by simp) _)
    simp only [List.append_assoc, List.cons_append]
    rw [hmembers, List.cons_append] at hread hfirst ⊢
    rw [readEntries_comma (by omega) hfirst, hread]
    rfl

end

/-- The text of a value is read back. -/
theorem read_toText {v : Value} (h : v.Legible) : Source.read v.toText = ⟨.ofValue v, none⟩ := by
  -- two units of fuel for each character are enough
  have hread := @readDocument_compact v h (2 * v.compact.length + 2) [] (by omega) (fun c hc => nomatch hc)
  rw [List.append_nil] at hread
  simp [Source.read, Value.toText, hread, skipSpace]

end Source

/-! ### Lines -/

/-- A string stands on one line. -/
theorem newline_not_mem_writeString (s : String) : '\n' ∉ writeString s := by
  have hchar : ∀ c, '\n' ∉ escapeChar c := by
    intro c hmem
    -- an escape has letters and digits only, and a plain character is no control character
    rcases Source.escapeChar_cases c with ⟨letter, hc, hne, -⟩ | ⟨hcontrol, hc⟩ | ⟨hplain, -, -, hc⟩
    · simp [hc, hne.symm] at hmem
    · have hdigit : ∀ d < 16, '\n' ≠ hexDigit d := by decide
      simp [hc, hdigit (c.toNat / 16) (by omega), hdigit (c.toNat % 16) (by omega)] at hmem
    · simp only [hc, List.mem_singleton] at hmem
      rw [← hmem] at hplain
      exact absurd hplain (by decide)
  simpa [writeString] using fun c _ => hchar c

/-- Parts on one line are on one line together. -/
theorem newline_not_mem_joinWith {ps : List (List Char)} (h : ∀ p ∈ ps, '\n' ∉ p) :
    '\n' ∉ joinWith [','] ps := by
  induction ps with
  | nil => simp [joinWith]
  | cons p ps ih =>
    obtain ⟨hp, hps⟩ := List.forall_mem_cons.mp h
    cases ps with
    | nil => exact hp
    | cons q ps => simpa [joinWith_cons_cons, hp] using ih hps

mutual

/-- A value stands on one line. -/
theorem newline_not_mem_compact : (v : Value) → '\n' ∉ v.compact
  | .null => by decide
  | .bool true => by decide
  | .bool false => by decide
  | .number n => newline_not_mem_writeNumber n
  | .string s => newline_not_mem_writeString s
  | .array items => by
    simpa [Value.compact] using newline_not_mem_joinWith (newline_not_mem_compactItems items)
  | .object members => by
    simpa [Value.compact] using newline_not_mem_joinWith (newline_not_mem_compactMembers members)

/-- Items stand on one line. -/
theorem newline_not_mem_compactItems : (items : List Value) → ∀ p ∈ compactItems items, '\n' ∉ p
  | [] => by simp [compactItems]
  | v :: vs => List.forall_mem_cons.mpr ⟨newline_not_mem_compact v, newline_not_mem_compactItems vs⟩

/-- Members stand on one line. -/
theorem newline_not_mem_compactMembers : (members : Members) → ∀ p ∈ compactMembers members, '\n' ∉ p
  | [] => by simp [compactMembers]
  | (key, v) :: ms => by
    have hmember : '\n' ∉ writeString key ++ ':' :: v.compact := by
      simp [newline_not_mem_writeString key, newline_not_mem_compact v]
    exact List.forall_mem_cons.mpr ⟨hmember, newline_not_mem_compactMembers ms⟩

end

end EventLog.Json
