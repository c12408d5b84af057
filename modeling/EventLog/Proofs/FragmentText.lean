import EventLog.Sql.Fragment

/-!
# Numbers of placeholders

A statement is a list of fragments, and its text numbers the placeholders by a counter that runs through
the fragments. Here the numbers are read back from the text. They are 1, 2, … in turn, one for each bound
value, if no literal holds a dollar sign and no digit follows a placeholder.

## Key results

- `renderFrom_append`, `renderFrom_joinWith`: the counter goes on with the number of values bound before
- `placeholders_renderFrom`: the numbers in a text
-/

namespace EventLog.Sql

/-! ### Text and values of fragments put together -/

/-- The values of fragments are those of its parts, in order. -/
@[simp] theorem binds_append (fs gs : List Fragment) : binds (fs ++ gs) = binds fs ++ binds gs := by
  induction fs with
  | nil => rfl
  | cons f fs ih => cases f <;> simp [binds, ih]

/-- Separators bind nothing. -/
theorem binds_joinWith (sep : String) (ps : List (List Fragment)) :
    binds (joinWith sep ps) = ps.flatMap binds := by
  induction ps with
  | nil => rfl
  -- no separator stands behind the last part, so one part is a case of its own
  | cons p ps ih =>
    cases ps with
    | nil => simp [joinWith]
    | cons p' ps => simp [joinWith, binds, ih]

/-- What follows is numbered after the values that are bound before it. -/
theorem renderFrom_append (fs gs : List Fragment) (n : Nat) :
    renderFrom n (fs ++ gs) = renderFrom n fs ++ renderFrom (n + (binds fs).length) gs := by
  induction fs generalizing n with
  | nil => simp [renderFrom, binds]
  | cons f fs ih =>
    cases f with
    | text s => simp [renderFrom, binds, ih, String.append_assoc]
    | bind b =>
      -- a bound value moves the counter by one, and is one of the values
      have hcount : n + 1 + (binds fs).length = n + ((binds fs).length + 1) := by omega
      simp [renderFrom, binds, ih, String.append_assoc, hcount]

/-- The texts of several parts whose first placeholder has the number `n`. -/
def renderEach (n : Nat) : List (List Fragment) → List String
  | [] => []
  | p :: ps => renderFrom n p :: renderEach (n + (binds p).length) ps

/-- Parts that are joined are rendered in turn. -/
theorem renderFrom_joinWith (sep : String) (ps : List (List Fragment)) (n : Nat) :
    renderFrom n (joinWith sep ps) = sep.intercalate (renderEach n ps) := by
  induction ps generalizing n with
  | nil => rfl
  | cons p ps ih =>
    cases ps with
    | nil => simp [joinWith, renderEach]
    | cons p' ps =>
      have hjoin : joinWith sep (p :: p' :: ps) = p ++ .text sep :: joinWith sep (p' :: ps) := rfl
      rw [hjoin, renderFrom_append, renderFrom, ih]
      simp [renderEach, String.append_assoc]

/-! ### Reading the numbers -/

/-- The numbers of the placeholders of a text: of every dollar sign the digits that follow it. -/
def placeholders : List Char → List Nat
  | [] => []
  | c :: cs =>
    if c = '$' then Nat.ofDigitChars 10 (cs.takeWhile Char.isDigit) 0 :: placeholders cs
    else placeholders cs

/-- A text without a dollar sign has no placeholders. -/
theorem placeholders_append_of_not_mem {cs : List Char} (h : '$' ∉ cs) (ds : List Char) :
    placeholders (cs ++ ds) = placeholders ds := by
  induction cs with
  | nil => rfl
  | cons c cs ih =>
    simp only [List.mem_cons, not_or] at h
    have hc : c ≠ '$' := fun hc => h.1 hc.symm
    simp [placeholders, hc, ih h.2]

/-- The number of a placeholder is read back if no digit follows it. -/
theorem placeholders_number_append (n : Nat) {ds : List Char}
    (h : ∀ c ∈ ds.head?, c.isDigit = false) :
    placeholders (("$" ++ toString n).toList ++ ds) = n :: placeholders ds := by
  -- digits are neither dollar signs nor what ends a number
  have hdigits : ∀ c ∈ Nat.toDigits 10 n, c.isDigit = true := fun c hc =>
    Nat.isDigit_of_mem_toDigits (by decide) (by decide) hc
  have hdollar : '$' ∉ Nat.toDigits 10 n := fun hmem => by
    have := hdigits _ hmem
    simp at this
  -- the digits are read to the last one and not beyond
  have hstop : ds.takeWhile Char.isDigit = [] := by
    cases ds with
    | nil => rfl
    | cons d ds => simp [h d rfl]
  have hnumber : (Nat.toDigits 10 n ++ ds).takeWhile Char.isDigit = Nat.toDigits 10 n := by
    rw [List.takeWhile_append_of_pos hdigits, hstop, List.append_nil]
  have htext : ("$" ++ toString n).toList ++ ds = '$' :: (Nat.toDigits 10 n ++ ds) := by
    simp
  rw [htext, placeholders, if_pos rfl, hnumber, Nat.ofDigitChars_ten_toDigits,
    placeholders_append_of_not_mem hdollar]

/-! ### Numbers of a statement -/

/-- The text of the fragments does not begin with a digit, whatever the first number is. -/
def StartsPlain (fs : List Fragment) : Prop :=
  ∀ n, ∀ c ∈ (renderFrom n fs).toList.head?, c.isDigit = false

/-- No literal holds a dollar sign, and no digit follows a placeholder. -/
def Separated : List Fragment → Prop
  | [] => True
  | .text s :: fs => '$' ∉ s.toList ∧ Separated fs
  | .bind _ :: fs => StartsPlain fs ∧ Separated fs

/-- Fragments that begin with a literal begin as it does. -/
theorem startsPlain_text {s : String} {c : Char} (hs : s.toList.head? = some c)
    (hc : c.isDigit = false) (fs : List Fragment) : StartsPlain (.text s :: fs) := by
  intro n d hd
  rw [renderFrom, String.toList_append, List.head?_append, hs] at hd
  obtain rfl : c = d := by simpa using hd
  exact hc

/-- No text begins with no digit. -/
theorem startsPlain_nil : StartsPlain [] := fun n c hc => by simp [renderFrom] at hc

/-- The first part begins the text unless it is empty. -/
theorem StartsPlain.append {fs gs : List Fragment} (hfs : StartsPlain fs) (hgs : StartsPlain gs) :
    StartsPlain (fs ++ gs) := by
  intro n c hc
  rw [renderFrom_append, String.toList_append, List.head?_append] at hc
  cases hhead : (renderFrom n fs).toList.head? with
  -- the first part has no text, so the second one begins it
  | none =>
    rw [hhead] at hc
    exact hgs _ c (by simpa using hc)
  | some d =>
    rw [hhead] at hc
    obtain rfl : d = c := by simpa using hc
    exact hfs n d hhead

/-- Parts are separated if the second one begins with no digit. -/
theorem Separated.append {fs gs : List Fragment} (hfs : Separated fs) (hgs : Separated gs)
    (hstart : StartsPlain gs) : Separated (fs ++ gs) := by
  induction fs with
  | nil => exact hgs
  | cons f fs ih =>
    -- only behind a placeholder does it matter what follows
    cases f with
    | text s => exact ⟨hfs.1, ih hfs.2⟩
    | bind b => exact ⟨hfs.1.append hstart, ih hfs.2⟩

/-- Parts stay separated when they are joined by a text that begins with no digit. -/
theorem Separated.joinWith {sep : String} {c : Char} (hsep : '$' ∉ sep.toList)
    (hhead : sep.toList.head? = some c) (hc : c.isDigit = false) {ps : List (List Fragment)}
    (hps : ∀ p ∈ ps, Separated p) : Separated (joinWith sep ps) := by
  induction ps with
  | nil => exact trivial
  | cons p ps ih =>
    cases ps with
    | nil => exact hps p List.mem_cons_self
    | cons p' ps =>
      have hrest := ih fun q hq => hps q (List.mem_cons_of_mem _ hq)
      exact (hps p List.mem_cons_self).append ⟨hsep, hrest⟩ (startsPlain_text hhead hc _)

/-- Parentheses around fragments keep them separated. -/
theorem Separated.enclosed {fs : List Fragment} (h : Separated fs) :
    Separated (.text "(" :: fs ++ [.text ")"]) := by
  have hopened : Separated (.text "(" :: fs) := ⟨by simp, h⟩
  -- the closing parenthesis is what may follow a placeholder
  exact hopened.append ⟨by simp, trivial⟩ (startsPlain_text (c := ')') (by simp) (by decide) [])

/-- The placeholders are numbered in turn, one for each bound value. -/
theorem placeholders_renderFrom {fs : List Fragment} (h : Separated fs) (n : Nat) :
    placeholders (renderFrom n fs).toList = List.range' n (binds fs).length := by
  induction fs generalizing n with
  | nil => rfl
  | cons f fs ih =>
    cases f with
    | text s =>
      rw [renderFrom, String.toList_append, placeholders_append_of_not_mem h.1, ih h.2]
      rfl
    -- the number of a placeholder is the counter, and no digit follows it
    | bind b =>
      rw [renderFrom, String.toList_append, placeholders_number_append n (h.1 (n + 1)), ih h.2]
      simp [binds, List.range'_succ]

end EventLog.Sql
