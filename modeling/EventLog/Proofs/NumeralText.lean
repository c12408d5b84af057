import EventLog.Json.Document
import EventLog.Json.Writer

/-!
# The text of a number

A number is legible if it is read back from its text. Every integer of 64 bits is; of the other numbers it is
not shown here. In a longer text a legible number is read back as well, if what follows cannot be a part of it.

## Key results

- `Numeral.Local`: readers that what follows does not affect
- `Number.Legible.numeralReading_append`: a legible number is read back before other text
- `Number.legible_int`: integers are legible
- `newline_not_mem_writeNumber`: a number stands on one line
-/

namespace EventLog.Json

/-- The number is read back from its text. -/
def Number.Legible (n : Number) : Prop := Source.numeralReading (writeNumber n) = (.number n, some [])

namespace Numeral

/-! ### What follows a numeral -/

/-- A text that does not go on with a numeral. -/
def Ends (rest : List Char) : Prop :=
  ∀ c ∈ rest.head?, c.isDigit = false ∧ c ≠ '.' ∧ c ≠ 'e' ∧ c ≠ 'E'

/-- What a reader gives is not affected by what follows. -/
def Local {α : Type} (f : List Char → Except Defect (α × List Char)) : Prop :=
  ∀ cs x r rest, Ends rest → f cs = .ok (x, r) → f (cs ++ rest) = .ok (x, r ++ rest)

section

variable {α β : Type}

/-- A reader that takes nothing is not affected. -/
theorem Local.pure (x : α) : Local fun cs => .ok (x, cs) := by
  intro cs y r rest _ h
  obtain ⟨rfl, rfl⟩ := Prod.mk.inj (Except.ok.inj h)
  rfl

/-- Readers one after the other are not affected if none of them is. -/
theorem Local.bind {f : List Char → Except Defect (α × List Char)}
    {g : α → List Char → Except Defect (β × List Char)} (hf : Local f) (hg : ∀ x, Local (g x)) :
    Local fun cs => f cs >>= fun p => g p.1 p.2 := by
  intro cs y r rest hrest h
  -- the first reader succeeded, so what follows is first left to the second one
  cases hx : f cs with
  | error e => simp [hx, Bind.bind, Except.bind] at h
  | ok p =>
    obtain ⟨x, r'⟩ := p
    simp only [hx, Bind.bind, Except.bind] at h
    simp only [hf _ _ _ _ hrest hx, Bind.bind, Except.bind, hg x _ _ _ _ hrest h]

end

/-- Digits are taken up to the same place, whatever follows them. -/
theorem digits_append {rest : List Char} (hrest : Ends rest) (cs : List Char) :
    digits (cs ++ rest) = ((digits cs).1, (digits cs).2 ++ rest) := by
  -- no digit follows
  have hnone : rest.takeWhile Char.isDigit = [] ∧ rest.dropWhile Char.isDigit = rest := by
    cases rest with
    | nil => exact ⟨rfl, rfl⟩
    | cons c rest => simp [(hrest c rfl).1]
  induction cs with
  | nil => simp [digits, hnone]
  | cons c cs ih =>
    simp only [digits, Prod.mk.injEq] at ih
    by_cases hc : c.isDigit <;> simp [digits, hc, ih]

/-- A run of digits is taken as a whole. -/
theorem someDigits_eq_ok_iff {cs ds r : List Char} :
    someDigits cs = .ok (ds, r) ↔ digits cs = (ds, r) ∧ ds ≠ [] := by
  unfold someDigits
  generalize digits cs = parts
  obtain ⟨ds', r'⟩ := parts
  rcases ds' with _ | ⟨d, ds'⟩
  · rcases r' with _ | ⟨c, r'⟩ <;> simp +contextual
  · simp only [Except.ok.injEq, Prod.mk.injEq, iff_self_and]
    rintro ⟨rfl, -⟩
    exact List.cons_ne_nil d ds'

/-- Taking at least one digit is not affected by what follows. -/
theorem local_someDigits : Local someDigits := by
  intro cs ds r rest hrest h
  obtain ⟨hdigits, hne⟩ := someDigits_eq_ok_iff.mp h
  exact someDigits_eq_ok_iff.mpr ⟨by rw [digits_append hrest, hdigits], hne⟩

/-- Reading the digits before the point is not affected by what follows. -/
theorem local_readWhole : Local readWhole := by
  intro cs ds r rest hrest h
  rcases cs with _ | ⟨c, cs⟩
  · cases h
  by_cases hc : c = '0'
  · subst hc
    rcases cs with _ | ⟨d, cs⟩
    · -- a zero alone, and what follows is no digit
      obtain ⟨rfl, rfl⟩ : ['0'] = ds ∧ [] = r := by simpa [readWhole] using h
      rcases rest with _ | ⟨d, rest⟩
      · rfl
      · simp [readWhole, (hrest d rfl).1]
    · by_cases hd : d.isDigit
      · simp [readWhole, hd] at h
      · obtain ⟨rfl, rfl⟩ : ['0'] = ds ∧ d :: cs = r := by simpa [readWhole, hd] using h
        simp [readWhole, hd]
  · -- without a leading zero it is a run of digits like others
    have hsome : ∀ cs, readWhole (c :: cs) = someDigits (c :: cs) := by
      intro cs
      unfold readWhole
      split <;> simp_all
    rw [hsome] at h
    rw [List.cons_append, hsome, ← List.cons_append]
    exact local_someDigits _ _ _ _ hrest h

/-- Reading a fraction is not affected by what follows, which begins with no point. -/
theorem local_readFraction : Local readFraction := by
  intro cs ds r rest hrest h
  rcases cs with _ | ⟨c, cs⟩
  · obtain ⟨rfl, rfl⟩ : [] = ds ∧ [] = r := by simpa [readFraction] using h
    rcases rest with _ | ⟨c, rest⟩
    · rfl
    · simp [readFraction, (hrest c rfl).2.1]
  by_cases hc : c = '.'
  · subst hc
    exact local_someDigits cs ds r rest hrest h
  · obtain ⟨rfl, rfl⟩ : [] = ds ∧ c :: cs = r := by simpa [readFraction, hc] using h
    simp [readFraction, hc]

/-- Reading the digits of a power is not affected by what follows. -/
theorem local_readPower (negative : Bool) : Local (readPower negative) :=
  local_someDigits.bind fun ds => .pure (some (negative, ds))

/-- Reading a power with a sign is not affected by what follows. -/
theorem local_readSignedPower : Local readSignedPower := by
  intro cs x r rest hrest h
  rcases cs with _ | ⟨c, cs⟩
  · cases h
  by_cases hplus : c = '+'
  · subst hplus
    exact local_readPower false cs x r rest hrest h
  by_cases hminus : c = '-'
  · subst hminus
    exact local_readPower true cs x r rest hrest h
  · -- without a sign the digits begin at once
    have hnone : ∀ cs, readSignedPower (c :: cs) = readPower false (c :: cs) := by
      intro cs
      simp [readSignedPower, hplus, hminus]
    rw [hnone] at h
    rw [List.cons_append, hnone]
    exact local_readPower false (c :: cs) x r rest hrest h

/-- Reading an exponent is not affected by what follows, which begins with no letter for one. -/
theorem local_readExponent : Local readExponent := by
  intro cs x r rest hrest h
  rcases cs with _ | ⟨c, cs⟩
  · obtain ⟨rfl, rfl⟩ : none = x ∧ [] = r := by simpa [readExponent] using h
    rcases rest with _ | ⟨c, rest⟩
    · rfl
    · simp [readExponent, (hrest c rfl).2.2.1, (hrest c rfl).2.2.2]
  by_cases he : c = 'e' ∨ c = 'E'
  · rcases he with rfl | rfl
    · exact local_readSignedPower cs x r rest hrest h
    · exact local_readSignedPower cs x r rest hrest h
  · rw [not_or] at he
    obtain ⟨rfl, rfl⟩ : none = x ∧ c :: cs = r := by simpa [readExponent, he] using h
    simp [readExponent, he]

/-- Reading a numeral without its sign is not affected by what follows. -/
theorem local_readUnsigned (negative : Bool) : Local (readUnsigned negative) := by
  have hexponent : ∀ whole fraction, Local fun cs =>
      readExponent cs >>= fun p => .ok (Numeral.mk negative whole fraction p.1, p.2) := by
    intro whole fraction
    exact local_readExponent.bind fun exponent => .pure (Numeral.mk negative whole fraction exponent)
  -- three readers, each of which starts where the one before stopped
  exact local_readWhole.bind fun whole => local_readFraction.bind (hexponent whole)

/-- Reading a numeral is not affected by what follows. -/
theorem local_read : Local read := by
  intro cs t r rest hrest h
  rcases cs with _ | ⟨c, cs⟩
  · cases h
  by_cases hminus : c = '-'
  · subst hminus
    exact local_readUnsigned true cs t r rest hrest h
  · have hnone : ∀ cs, read (c :: cs) = readUnsigned false (c :: cs) := by
      intro cs
      simp [read, hminus]
    rw [hnone] at h
    rw [List.cons_append, hnone]
    exact local_readUnsigned false (c :: cs) t r rest hrest h

/-! ### The first character -/

/-- What stands before the point begins with a digit. -/
theorem isDigit_of_readWhole {c : Char} {cs : List Char} {p : List Char × List Char}
    (h : readWhole (c :: cs) = .ok p) : c.isDigit = true := by
  by_cases hc : c = '0'
  · rw [hc]
    decide
  · have hsome : someDigits (c :: cs) = .ok (p.1, p.2) := by
      rw [← h]
      unfold readWhole
      split <;> simp_all
    obtain ⟨hdigits, hne⟩ := someDigits_eq_ok_iff.mp hsome
    rw [← (Prod.mk.inj hdigits).1] at hne
    cases hdigit : c.isDigit with
    | true => rfl
    | false => simp [hdigit] at hne

/-- A numeral without its sign has digits before the point. -/
theorem exists_readWhole {negative : Bool} {cs r : List Char} {t : Numeral}
    (h : readUnsigned negative cs = .ok (t, r)) : ∃ p, readWhole cs = .ok p := by
  cases hwhole : readWhole cs with
  | error e => simp [readUnsigned, hwhole, Bind.bind, Except.bind] at h
  | ok p => exact ⟨p, rfl⟩

/-- A numeral begins with a minus sign or a digit. -/
theorem exists_head_of_read {cs r : List Char} {t : Numeral} (h : read cs = .ok (t, r)) :
    ∃ c cs', cs = c :: cs' ∧ (c = '-' ∨ c.isDigit = true) := by
  rcases cs with _ | ⟨c, cs⟩
  · cases h
  refine ⟨c, cs, rfl, ?_⟩
  by_cases hminus : c = '-'
  · exact .inl hminus
  · have hunsigned : readUnsigned false (c :: cs) = .ok (t, r) := by simpa [read, hminus] using h
    obtain ⟨p, hwhole⟩ := exists_readWhole hunsigned
    exact .inr (isDigit_of_readWhole hwhole)

/-! ### Natural numbers -/

/-- The digits of a number do not begin with a zero, unless it is zero. -/
theorem head?_toDigits {n : Nat} (h : 0 < n) : (Nat.toDigits 10 n).head? ≠ some '0' := by
  -- the first digit is that of the quotient, unless there is only one
  induction n using Nat.strongRecOn with
  | ind n ih =>
    by_cases hlt : n < 10
    · have hdigit : ∀ d < 10, 0 < d → d.digitChar ≠ '0' := by decide
      simpa [Nat.toDigits_of_lt_base hlt] using hdigit n hlt h
    · rw [Nat.toDigits_of_base_le (by omega) (by omega), List.head?_append]
      have hrest := ih (n / 10) (by omega) (by omega)
      cases hhead : (Nat.toDigits 10 (n / 10)).head? with
      | none => exact absurd (List.head?_eq_none_iff.mp hhead) Nat.toDigits_ne_nil
      | some c => rwa [Option.some_or, ← hhead]

/-- The digits of a natural number are read back. -/
theorem readWhole_toDigits (n : Nat) : readWhole (Nat.toDigits 10 n) = .ok (Nat.toDigits 10 n, []) := by
  by_cases hzero : n = 0
  · rw [hzero]
    rfl
  · have hdigits : digits (Nat.toDigits 10 n) = (Nat.toDigits 10 n, []) := by
      have hall : ∀ c ∈ Nat.toDigits 10 n, c.isDigit = true := fun c hc =>
        Nat.isDigit_of_mem_toDigits (by decide) (by decide) hc
      have htake := @List.takeWhile_append_of_pos _ _ _ [] hall
      have hdrop := @List.dropWhile_append_of_pos _ _ _ [] hall
      simp only [List.append_nil] at htake hdrop
      simp [digits, htake, hdrop]
    have hsome : someDigits (Nat.toDigits 10 n) = .ok (Nat.toDigits 10 n, []) :=
      someDigits_eq_ok_iff.mpr ⟨hdigits, Nat.toDigits_ne_nil⟩
    have hhead := head?_toDigits (Nat.pos_of_ne_zero hzero)
    generalize Nat.toDigits 10 n = ds at hsome hhead
    unfold readWhole
    split
    · exact absurd rfl hhead
    · exact hsome

/-- They are read back as a numeral without fraction and exponent. -/
theorem readUnsigned_toDigits (negative : Bool) (n : Nat) :
    readUnsigned negative (Nat.toDigits 10 n) = .ok (⟨negative, Nat.toDigits 10 n, [], none⟩, []) := by
  simp only [readUnsigned, readWhole_toDigits]
  rfl

end Numeral

/-! ### Legible numbers -/

section

variable {n : Number}

/-- A legible number is written as a numeral that denotes it. -/
theorem Number.legible_iff :
    n.Legible ↔ ∃ t, Numeral.read (writeNumber n) = .ok (t, []) ∧ t.value? = some n := by
  unfold Legible Source.numeralReading
  cases h : Numeral.read (writeNumber n) with
  | error e => simp
  | ok p =>
    obtain ⟨t, r⟩ := p
    cases hvalue : t.value? with
    -- the numeral has no value, so the number was not read from it
    | none => simp +contextual [hvalue, Document.meaningless]
    | some m =>
      simp only [hvalue, Prod.mk.injEq, Document.number.injEq, Option.some.injEq, Except.ok.injEq]
      constructor
      · rintro ⟨rfl, rfl⟩
        exact ⟨t, ⟨rfl, rfl⟩, hvalue⟩
      · rintro ⟨t', ⟨rfl, rfl⟩, hvalue'⟩
        exact ⟨Option.some.inj (hvalue.symm.trans hvalue'), rfl⟩

namespace Number.Legible

/-- A legible number is read back before other text. -/
theorem numeralReading_append (h : n.Legible) {rest : List Char} (hrest : Numeral.Ends rest) :
    Source.numeralReading (writeNumber n ++ rest) = (.number n, some rest) := by
  obtain ⟨t, hread, hvalue⟩ := legible_iff.mp h
  simp [Source.numeralReading, Numeral.local_read _ _ _ _ hrest hread, hvalue]

/-- A legible number is written with a sign or a digit first. -/
theorem exists_head (h : n.Legible) : ∃ c cs, writeNumber n = c :: cs ∧ (c = '-' ∨ c.isDigit = true) := by
  obtain ⟨t, hread, -⟩ := legible_iff.mp h
  exact Numeral.exists_head_of_read hread

end Number.Legible

end

/-- A number that is not negative is written as its digits. -/
theorem writeNumber_ofNat (n : Nat) : writeNumber (.int n) = Nat.toDigits 10 n := by
  show (Nat.repr n).toList = _
  simp

theorem writeNumber_negSucc (n : Nat) : writeNumber (.int (.negSucc n)) = '-' :: Nat.toDigits 10 (n + 1) := by
  show ("-" ++ Nat.repr (n + 1)).toList = _
  simp

theorem valueOf_toDigits (n : Nat) : Numeral.valueOf (Nat.toDigits 10 n) = n :=
  Nat.ofDigitChars_ten_toDigits

/-- Integers of 64 bits are legible. -/
theorem Number.legible_int {n : Int} (hmin : Number.minInt ≤ n) (hmax : n ≤ Number.maxInt) :
    (Number.int n).Legible := by
  rw [legible_iff]
  -- a negative number has its sign before the digits of its magnitude
  cases n with
  | ofNat n =>
    refine ⟨⟨false, Nat.toDigits 10 n, [], none⟩, ?_, ?_⟩
    · have hminus : '-' ∉ Nat.toDigits 10 n := fun hmem => by
        have hdigit := Nat.isDigit_of_mem_toDigits (by decide) (by decide) hmem
        exact absurd hdigit (by decide)
      have hunsigned := Numeral.readUnsigned_toDigits false n
      rw [Int.ofNat_eq_natCast, writeNumber_ofNat]
      generalize Nat.toDigits 10 n = ds at hminus hunsigned
      unfold Numeral.read
      split
      · exact absurd List.mem_cons_self hminus
      · exact hunsigned
    · have hle : (n : Int) ≤ Number.maxInt := hmax
      simp [Numeral.value?, valueOf_toDigits, hle]
  | negSucc n =>
    refine ⟨⟨true, Nat.toDigits 10 (n + 1), [], none⟩, ?_, ?_⟩
    · rw [writeNumber_negSucc, Numeral.read]
      exact Numeral.readUnsigned_toDigits true (n + 1)
    · -- the magnitude is not zero, so the sign is kept
      have hge : Number.minInt ≤ -((n + 1 : Nat) : Int) := hmin
      have hne : (((n + 1 : Nat) : Int) == 0) = false := by
        simp
        omega
      simp only [Numeral.value?, valueOf_toDigits, List.isEmpty_nil, Option.isNone_none, Bool.and_self, hne,
        if_true, hge, Bool.false_eq_true, if_false]
      rfl

/-! ### Characters -/

/-- The characters that numbers are written with. -/
def Numeral.isPart (c : Char) : Bool :=
  c.isDigit || c == '.' || c == 'e' || c == '+' || c == '-'

theorem Numeral.isPart_of_mem_toDigits {n : Nat} : ∀ c ∈ Nat.toDigits 10 n, isPart c = true := by
  intro c hc
  simp [isPart, Nat.isDigit_of_mem_toDigits (by decide) (by decide) hc]

/-- A layout adds nothing else to the digits. -/
theorem Numeral.isPart_of_mem_render (l : Binary64.Layout) {ds : List Char} (hds : ∀ c ∈ ds, isPart c = true)
    (e : Int) : ∀ c ∈ l.render ds e, isPart c = true := by
  -- the layouts are put together from a part of the digits, zeros, a point and a power
  have htake : ∀ n, ∀ c ∈ ds.take n, isPart c = true := fun n c hc => hds c (List.mem_of_mem_take hc)
  have hdrop : ∀ n, ∀ c ∈ ds.drop n, isPart c = true := fun n c hc => hds c (List.mem_of_mem_drop hc)
  have hzeros : ∀ n, ∀ c ∈ List.replicate n '0', isPart c = true := by
    intro n c hc
    rw [List.eq_of_mem_replicate hc]
    decide
  have hpower : ∀ n : Nat, ∀ c ∈ (toString n).toList, isPart c = true := by
    intro n c hc
    exact isPart_of_mem_toDigits c (by simpa using hc)
  have hdot : isPart '.' = true := by decide
  have hzero : isPart '0' = true := by decide
  unfold Binary64.Layout.render
  dsimp only
  split
  · split
    · simp only [List.forall_mem_append, List.forall_mem_cons]
      exact ⟨⟨hds, hzeros _⟩, hdot, hzero, by simp⟩
    · split
      · simp only [List.forall_mem_append, List.forall_mem_cons]
        exact ⟨htake _, hdot, hdrop _⟩
      · simp only [List.forall_mem_append, List.forall_mem_cons]
        exact ⟨⟨⟨hzero, hdot, by simp⟩, hzeros _⟩, hds⟩
  · -- the point stands behind the first digit, if there are more
    have hsign : isPart (if 0 ≤ e + (ds.length : Int) - 1 then '+' else '-') = true := by
      split <;> decide
    simp only [List.forall_mem_append, List.forall_mem_cons]
    refine ⟨?_, by decide, hsign, hpower _⟩
    split
    · rename_i d r
      obtain ⟨hd, hr⟩ := List.forall_mem_cons.mp hds
      exact List.forall_mem_cons.mpr ⟨hd, List.forall_mem_cons.mpr ⟨hdot, hr⟩⟩
    · exact hds

/-- A number is written with such characters only. -/
theorem isPart_of_mem_writeNumber (n : Number) : ∀ c ∈ writeNumber n, Numeral.isPart c = true := by
  cases n with
  | int n =>
    cases n with
    | ofNat n =>
      rw [Int.ofNat_eq_natCast, writeNumber_ofNat]
      exact Numeral.isPart_of_mem_toDigits
    | negSucc n =>
      rw [writeNumber_negSucc, List.forall_mem_cons]
      exact ⟨by decide, Numeral.isPart_of_mem_toDigits⟩
  | real x =>
    -- a zero is written by itself, any other number by its shortest digits
    have hbody : ∀ c ∈ (if x.magnitude.mantissa == 0 then ['0', '.', '0']
        else Binary64.layout.render (toString x.magnitude.shortest.digits).toList x.magnitude.shortest.exponent),
        Numeral.isPart c = true := by
      split
      · exact List.all_eq_true.mp (by decide)
      · refine Numeral.isPart_of_mem_render _ ?_ _
        simpa using fun c => Numeral.isPart_of_mem_toDigits c
    show ∀ c ∈ x.chars, Numeral.isPart c = true
    unfold Binary64.chars
    dsimp only
    split
    · exact List.forall_mem_cons.mpr ⟨by decide, hbody⟩
    · exact hbody

/-- A number stands on one line. -/
theorem newline_not_mem_writeNumber (n : Number) : '\n' ∉ writeNumber n := fun hmem =>
  absurd (isPart_of_mem_writeNumber n _ hmem) (by decide)

end EventLog.Json
