import EventLog.EventId

/-!
# The text of an identifier

An identifier is written as 32 hexadecimal digits with four hyphens, and read back from them.

## Key results

- `EventId.ofHex?_hexChars`: the digits of a number denote it
- `EventId.parse?_toText`: reading undoes writing
-/

namespace EventLog.EventId

/-- As many digits are written as were asked for. -/
theorem length_hexChars (count n : Nat) : (hexChars count n).length = count := by
  -- by induction on the number of digits, the last of which is written last
  induction count generalizing n with
  | zero => rfl
  | succ count ih => rw [hexChars, List.length_append, ih, List.length_singleton]

/-- Hexadecimal digits in lower case are read back. -/
theorem hexValue?_hexDigit : ∀ d < 16, Json.Source.hexValue? (Json.hexDigit d) = some d := by decide

/-- The digits of a number that is not too large for them denote it. -/
theorem ofHex?_hexChars {count n : Nat} (h : n < Nat.pow 16 count) : ofHex? (hexChars count n) = some n := by
  induction count generalizing n with
  | zero =>
    -- without digits there is only the number zero
    obtain rfl : n = 0 := by simpa using h
    rfl
  | succ count ih =>
    -- the digits before the last one denote the quotient, and the last one the remainder
    have hhigh : ofHex? (hexChars count (n / 16)) = some (n / 16) :=
      ih (Nat.div_lt_of_lt_mul (Nat.lt_of_lt_of_eq h (Nat.mul_comm _ 16)))
    rw [ofHex?] at hhigh ⊢
    rw [hexChars, List.foldlM_append, hhigh]
    simp [hexValue?_hexDigit (n % 16) (Nat.mod_lt n (by decide)), Nat.div_add_mod]

/-- Hyphens at their places are taken out again. -/
theorem unhyphenate?_of_parts {a b c d e : List Char} (ha : a.length = 8) (hb : b.length = 4)
    (hc : c.length = 4) (hd : d.length = 4) (he : e.length = 12) :
    unhyphenate? (a ++ '-' :: b ++ '-' :: c ++ '-' :: d ++ '-' :: e) = some (a ++ b ++ c ++ d ++ e) := by
  -- only a text of 36 characters with hyphens at the four places is looked at
  rw [unhyphenate?, if_pos (by simp [ha, hb, hc, hd, he])]
  simp (disch := omega) [List.drop_append, List.drop_of_length_le, ha, hb, hc, hd]

/-- Reading an identifier undoes writing it. -/
theorem parse?_toText (id : EventId) : parse? id.toText = some id := by
  -- the text is the digits in groups of 8, 4, 4, 4 and 12
  let ds := hexChars 32 id.toNat
  have hlength : ds.length = 32 := length_hexChars 32 _
  have hchars : id.chars = ds.take 8 ++ '-' :: (ds.drop 8).take 4 ++ '-' :: (ds.drop 12).take 4 ++
    '-' :: (ds.drop 16).take 4 ++ '-' :: ds.drop 20 := rfl
  -- put together again the groups are the digits
  have hdigits : ds.take 8 ++ (ds.drop 8).take 4 ++ (ds.drop 12).take 4 ++ (ds.drop 16).take 4 ++ ds.drop 20 =
      ds := by
    have hstep : ∀ n m, (ds.drop n).take m ++ ds.drop (n + m) = ds.drop n := fun n m => by
      rw [← List.drop_drop, List.take_append_drop]
    simp only [List.append_assoc]
    rw [hstep 16 4, hstep 12 4, hstep 8 4, List.take_append_drop]
  have hparts : unhyphenate? id.chars = some ds := by
    rw [hchars, unhyphenate?_of_parts (by simp [hlength]) (by simp [hlength]) (by simp [hlength])
      (by simp [hlength]) (by simp [hlength]), hdigits]
  have hvalue : ofHex? ds = some id.toNat := ofHex?_hexChars id.bits.isLt
  have hlong : id.chars.length = 36 := by simp [hchars, hlength]
  rw [parse?, toText, String.toList_ofList, ofChars?, hlong]
  simp [ofHyphenated?, hparts, ofDigits?, hlength, hvalue, ofNat, toNat]

end EventLog.EventId
