import EventLog.Tag

/-!
# Tags and their written form

A valid tag is read back from its written form, and a text that is read as a tag is the written form
of that tag. So two valid tags with one written form are equal, which is what lets tags be compared
as text.
-/

namespace EventLog.Tag

/-- A tag is accepted exactly if its key and its value are. -/
theorem validate_eq_ok_iff (t : Tag) :
    t.validate = .ok () ↔ isValidKey t.key = true ∧ isValidValue t.value = true := by
  unfold validate
  split
  · rename_i hk
    -- a bad key is refused, so both sides are false
    simp only [reduceCtorEq, false_iff, not_and]
    intro hkey
    simp [hkey] at hk
  · rename_i hk
    -- the key is good, and the value decides
    split
    · rename_i hv
      simp only [reduceCtorEq, false_iff, not_and]
      intro _ hval
      simp [hval] at hv
    · rename_i hv
      simpa using And.intro (by simpa using hk) (by simpa using hv)

/-- A valid key holds no separator. -/
theorem separator_not_mem_of_isValidKey {k : String} (h : isValidKey k = true) :
    separator ∉ k.toList := by
  simp only [isValidKey, Bool.and_eq_true, Bool.not_eq_true', List.contains_eq_mem,
    decide_eq_false_iff_not] at h
  exact h.2

/-! ### Splitting at the first separator -/

/-- A text whose first part holds no separator is split after that part. -/
theorem split?_append_separator (k v : List Char) (hk : separator ∉ k) :
    split? (k ++ separator :: v) = some (k, v) := by
  -- `dropWhile` and `takeWhile` go through the whole key and stop at the separator
  have hne : ∀ c ∈ k, (c != separator) = true := by
    intro c hc
    have : c ≠ separator := fun h => hk (h ▸ hc)
    simpa using this
  have hdrop : (k ++ separator :: v).dropWhile (· != separator) = separator :: v := by
    rw [List.dropWhile_append_of_pos hne]
    simp [List.dropWhile]
  have htake : (k ++ separator :: v).takeWhile (· != separator) = k := by
    rw [List.takeWhile_append_of_pos hne]
    simp [List.takeWhile]
  simp only [split?, hdrop, htake]

/-- What is split is put together again by a separator. -/
theorem eq_append_of_split? {cs k v : List Char} (h : split? cs = some (k, v)) :
    cs = k ++ separator :: v := by
  unfold split? at h
  split at h
  · exact nomatch h
  · rename_i c rest hdrop
    obtain ⟨rfl, rfl⟩ := Prod.mk.inj (Option.some.inj h)
    -- the character at which `dropWhile` stops is the separator
    have hc : c = separator := by
      have hhead := List.head?_dropWhile_not (· != separator) cs
      rw [hdrop] at hhead
      simpa using hhead
    have hsep : separator :: rest = cs.dropWhile (· != separator) := by rw [hdrop, hc]
    rw [hsep, List.takeWhile_append_dropWhile]

/-! ### Reading and writing -/

/-- A valid tag is read back from its written form. -/
theorem parse_encode {t : Tag} (h : t.validate = .ok ()) : parse t.encode = .ok t := by
  -- the key holds no separator, so the text is split where the key ended
  have hk := separator_not_mem_of_isValidKey ((validate_eq_ok_iff t).mp h).1
  simp only [parse, encode, String.toList_ofList, split?_append_separator _ _ hk,
    String.ofList_toList, h]
  rfl

/-- A text that is read as a tag is the written form of a valid tag. -/
theorem encode_of_parse {s : String} {t : Tag} (h : parse s = .ok t) :
    t.encode = s ∧ t.validate = .ok () := by
  simp only [parse] at h
  split at h
  · exact nomatch h
  · rename_i k v hsplit
    -- what was split is judged before it is a tag
    cases hval : validate ⟨String.ofList k, String.ofList v⟩ with
    | error e => rw [hval] at h; exact nomatch h
    | ok u =>
      rw [hval] at h
      obtain rfl := Except.ok.inj h
      refine ⟨?_, hval⟩
      simp only [encode, String.toList_ofList]
      rw [← eq_append_of_split? hsplit, String.ofList_toList]

/-- Valid tags with one written form are equal. -/
theorem encode_inj {t u : Tag} (ht : t.validate = .ok ()) (hu : u.validate = .ok ())
    (h : t.encode = u.encode) : t = u := by
  -- the common text is read as one tag only
  have hp : parse t.encode = parse u.encode := by rw [h]
  rw [parse_encode ht, parse_encode hu] at hp
  exact Except.ok.inj hp

/-- The tags of a list are accepted exactly if each of them is. -/
theorem validateAll_eq_ok_iff (ts : List Tag) :
    validateAll ts = .ok () ↔ ∀ t ∈ ts, t.validate = .ok () := by
  -- by induction on the tags, whose first bad one refuses the list
  induction ts with
  | nil => simp [validateAll]
  | cons t ts ih =>
    simp only [validateAll, bind, Except.bind, List.forall_mem_cons]
    cases ht : t.validate with
    | error e => simp
    | ok u => simpa using ih

end EventLog.Tag
