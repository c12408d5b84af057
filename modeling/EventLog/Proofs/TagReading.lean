import EventLog.Proofs.TagText
import Mathlib.Data.List.DropRight

/-!
# Which texts are tags

The texts that are read as tags are the written forms of valid tags, and each valid tag has one written
form. Any other text is refused for the first of three reasons: it holds no separator; what stands before
the first separator is empty or padded; what stands after it is.

## Key results

- `Text.isPadded_iff`: a text changes by trimming exactly if white space stands at one of its ends
- `parse_eq_error_iff`: which texts are refused, and why
- `written_form_is_bijective`: reading and writing are inverse between valid tags and their texts
-/

namespace EventLog

/-! ### White space at the ends -/

namespace Text

/-- White space stands at an end of the text. -/
def HasBlankEnd (s : String) : Prop :=
  (∃ c ∈ s.toList.head?, isBlank c = true) ∨ ∃ c ∈ s.toList.getLast?, isBlank c = true

/-- Trimming leaves a list of characters as it is if it has nothing to drop at either end. -/
theorem trimChars_eq_self_iff (cs : List Char) :
    trimChars cs = cs ↔ cs.dropWhile isBlank = cs ∧ cs.rdropWhile isBlank = cs := by
  have htrim : trimChars cs = (cs.dropWhile isBlank).rdropWhile isBlank := rfl
  constructor
  · intro h
    -- what is dropped in front cannot come back when the end is dropped
    have hlen : cs.length ≤ (cs.dropWhile isBlank).length := by
      have hle := (List.rdropWhile_prefix isBlank (l := cs.dropWhile isBlank)).length_le
      rwa [← htrim, h] at hle
    have hfront : cs.dropWhile isBlank = cs :=
      (List.dropWhile_suffix isBlank).eq_of_length_le hlen
    exact ⟨hfront, by rw [htrim, hfront] at h; exact h⟩
  · rintro ⟨hfront, hback⟩
    rw [htrim, hfront, hback]

/-- A text is padded exactly if white space stands at one of its ends. -/
theorem isPadded_iff (s : String) : isPadded s = true ↔ HasBlankEnd s := by
  have htrim : trim s = s ↔ trimChars s.toList = s.toList := by
    rw [trim, ← String.toList_inj, String.toList_ofList]
  -- the ends are judged one by one: at each, a character is dropped exactly if it is white space
  have hfront : s.toList.dropWhile isBlank = s.toList ↔
      ¬∃ c ∈ s.toList.head?, isBlank c = true := by
    cases s.toList with
    | nil => simp
    | cons c cs => simp [List.dropWhile_eq_self_iff]
  have hback : s.toList.rdropWhile isBlank = s.toList ↔
      ¬∃ c ∈ s.toList.getLast?, isBlank c = true := by
    rcases List.eq_nil_or_concat s.toList with h | ⟨cs, c, h⟩
    · simp [h]
    · simp [h, List.rdropWhile_eq_self_iff]
  rw [isPadded, bne_iff_ne, ne_eq, htrim, trimChars_eq_self_iff, hfront, hback, HasBlankEnd,
    ← not_or, Classical.not_not]

end Text

namespace Tag

/-! ### The two parts -/

/-- The parts of a text before and after its first separator. -/
def Splits (s key value : String) : Prop :=
  s = encode ⟨key, value⟩ ∧ separator ∉ key.toList

/-- A part of a tag that is refused in either place: it is empty or padded. -/
def IsBadPart (part : String) : Prop := part = "" ∨ Text.HasBlankEnd part

/-- A key is accepted if it is not bad as a part and holds no separator. -/
theorem isValidKey_eq_true_iff (key : String) :
    isValidKey key = true ↔ ¬IsBadPart key ∧ separator ∉ key.toList := by
  simp [isValidKey, IsBadPart, ← Text.isPadded_iff, not_or, and_assoc]

theorem isValidValue_eq_true_iff (value : String) :
    isValidValue value = true ↔ ¬IsBadPart value := by
  simp [isValidValue, IsBadPart, ← Text.isPadded_iff, not_or]

/-- A text that holds a separator has parts. -/
theorem exists_splits {s : String} (h : separator ∈ s.toList) : ∃ key value, Splits s key value := by
  -- the text is cut where the separator comes first
  obtain ⟨k, v, hs, hk⟩ := List.eq_append_cons_of_mem h
  refine ⟨String.ofList k, String.ofList v, ?_, by rwa [String.toList_ofList]⟩
  rw [encode, ← String.toList_inj, String.toList_ofList, String.toList_ofList, String.toList_ofList,
    hs]

/-- The parts of a text are read as its key and its value. -/
theorem Splits.parse_eq {s key value : String} (h : Splits s key value) :
    parse s = (validate ⟨key, value⟩).map fun _ => ⟨key, value⟩ := by
  obtain ⟨rfl, hkey⟩ := h
  simp only [parse, encode, String.toList_ofList, split?_append_separator _ _ hkey,
    String.ofList_toList]
  rfl

/-- A text without a separator is malformed. -/
theorem parse_of_separator_not_mem {s : String} (h : separator ∉ s.toList) :
    parse s = .error (.malformedTag s) := by
  have hsplit : split? s.toList = none := by
    have hdrop : s.toList.dropWhile (· != separator) = [] := by
      rw [List.dropWhile_eq_nil_iff]
      intro c hc
      have : c ≠ separator := fun hcs => h (hcs ▸ hc)
      simpa using this
    simp [split?, hdrop]
  simp [parse, hsplit]

/-! ### Refusals -/

/-- A key that is refused: it is empty, padded, or holds the separator. -/
def IsBadKey (key : String) : Prop := IsBadPart key ∨ separator ∈ key.toList

theorem isValidKey_iff_not_isBadKey {key : String} : isValidKey key = true ↔ ¬IsBadKey key := by
  rw [isValidKey_eq_true_iff, IsBadKey, not_or]

/-- A tag with a bad key is refused for its key. -/
theorem validate_of_badKey {t : Tag} (h : IsBadKey t.key) :
    t.validate = .error (.invalidTagKey t.key) := by
  have hkey : isValidKey t.key = false := by
    rw [← Bool.not_eq_true, isValidKey_iff_not_isBadKey, Classical.not_not]
    exact h
  simp [validate, hkey]

/-- A tag with a good key and a bad value is refused for its value. -/
theorem validate_of_badValue {t : Tag} (hkey : ¬IsBadKey t.key) (h : IsBadPart t.value) :
    t.validate = .error (.invalidTagValue t.key t.value) := by
  have hvalue : isValidValue t.value = false := by
    rw [← Bool.not_eq_true, isValidValue_eq_true_iff, Classical.not_not]
    exact h
  simp [validate, isValidKey_iff_not_isBadKey.mpr hkey, hvalue]

/-- A text is refused as a tag for a reason. -/
def Refuses (s : String) : ValidationError → Prop
  | .malformedTag text => text = s ∧ separator ∉ s.toList
  | .invalidTagKey key => ∃ value, Splits s key value ∧ IsBadPart key
  | .invalidTagValue key value => Splits s key value ∧ ¬IsBadPart key ∧ IsBadPart value
  | _ => False

namespace Splits

variable {s key value : String}

/-- The key is judged first. -/
theorem parse_of_badKey (h : Splits s key value) (hkey : IsBadPart key) :
    parse s = .error (.invalidTagKey key) := by
  rw [h.parse_eq, validate_of_badKey (.inl hkey)]
  rfl

/-- The value is judged if the key is accepted. -/
theorem parse_of_badValue (h : Splits s key value) (hkey : ¬IsBadPart key)
    (hvalue : IsBadPart value) : parse s = .error (.invalidTagValue key value) := by
  rw [h.parse_eq, validate_of_badValue (not_or.mpr ⟨hkey, h.2⟩) hvalue]
  rfl

/-- A text with two good parts is a tag. -/
theorem parse_of_good (h : Splits s key value) (hkey : ¬IsBadPart key)
    (hvalue : ¬IsBadPart value) : parse s = .ok ⟨key, value⟩ := by
  -- the key holds no separator, as it ends before the first one
  have hvalid : validate ⟨key, value⟩ = .ok () :=
    (validate_eq_ok_iff _).mpr
      ⟨(isValidKey_eq_true_iff key).mpr ⟨hkey, h.2⟩, (isValidValue_eq_true_iff value).mpr hvalue⟩
  rw [h.parse_eq, hvalid]
  rfl

end Splits

/-- A text is refused for the first reason that applies. -/
theorem parse_eq_error_iff (s : String) (e : ValidationError) :
    parse s = .error e ↔ Refuses s e := by
  constructor
  · intro h
    -- the checks in their order; each settles the error that `h` names
    by_cases hsep : separator ∈ s.toList
    · obtain ⟨key, value, hs⟩ := exists_splits hsep
      by_cases hkey : IsBadPart key
      · obtain rfl := Except.error.inj ((hs.parse_of_badKey hkey).symm.trans h)
        exact ⟨value, hs, hkey⟩
      · by_cases hvalue : IsBadPart value
        · obtain rfl := Except.error.inj ((hs.parse_of_badValue hkey hvalue).symm.trans h)
          exact ⟨hs, hkey, hvalue⟩
        · -- two good parts are not refused at all
          rw [hs.parse_of_good hkey hvalue] at h
          cases h
    · obtain rfl := Except.error.inj ((parse_of_separator_not_mem hsep).symm.trans h)
      exact ⟨rfl, hsep⟩
  · intro h
    -- one case for each reason; the other errors are none of a tag
    cases e with
    | malformedTag text =>
      obtain ⟨rfl, hsep⟩ := h
      exact parse_of_separator_not_mem hsep
    | invalidTagKey key =>
      obtain ⟨value, hs, hkey⟩ := h
      exact hs.parse_of_badKey hkey
    | invalidTagValue key value =>
      obtain ⟨hs, hkey, hvalue⟩ := h
      exact hs.parse_of_badValue hkey hvalue
    | _ => exact h.elim

/-- A valid tag is read back from its written form, and a text that is read is the written form of the
valid tag that is read. So the texts that are read are the written forms of valid tags, which differ for
different tags. Any other text is refused: for lack of a separator, else for the part before the first
one, else for the part after it. -/
theorem written_form_is_bijective :
    (∀ t : Tag, t.validate = .ok () → parse t.encode = .ok t) ∧
      (∀ s t, parse s = .ok t → t.validate = .ok () ∧ t.encode = s) ∧
      (∀ s, (∃ t, parse s = .ok t) ↔ ∃ t : Tag, t.validate = .ok () ∧ t.encode = s) ∧
      (∀ t u : Tag, t.validate = .ok () → u.validate = .ok () → t.encode = u.encode → t = u) ∧
      ∀ s e, parse s = .error e ↔ Refuses s e := by
  refine ⟨fun t => parse_encode, fun s t h => (encode_of_parse h).symm, fun s => ?_,
    fun t u => encode_inj, parse_eq_error_iff⟩
  -- being read and being written are two sides of one text
  constructor
  · rintro ⟨t, h⟩
    exact ⟨t, (encode_of_parse h).symm⟩
  · rintro ⟨t, hvalid, rfl⟩
    exact ⟨t, parse_encode hvalid⟩

/-- The value of a tag may hold separators: an address is read back and nothing else is written so. A
padded key is refused before an empty value. -/
theorem written_form_is_bijective_on_address :
    let address : Tag := ⟨"url", "https://example.com"⟩
    (address.validate = .ok () ∧ parse address.encode = .ok address ∧
        ∀ t : Tag, t.validate = .ok () → t.encode = address.encode → t = address) ∧
      parse " url:" = .error (.invalidTagKey " url") := by
  intro address
  obtain ⟨hread, -, -, hinj, hrefused⟩ := written_form_is_bijective
  have hvalid : address.validate = .ok () := by decide +kernel
  refine ⟨⟨hvalid, hread _ hvalid, fun t ht h => hinj t address ht hvalid h⟩, ?_⟩
  -- the key is the text before the separator, with a blank in front
  refine (hrefused _ _).mpr ⟨"", ⟨by decide +kernel, by decide +kernel⟩, .inr (.inl ⟨' ', ?_⟩)⟩
  decide +kernel

end Tag

end EventLog
