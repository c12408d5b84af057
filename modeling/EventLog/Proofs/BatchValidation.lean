import EventLog.Proofs.TagReading
import EventLog.Store.Append

/-!
# Which batches are valid

A batch is valid if it has an event, not too many, and each of them is well formed. Any other batch is
refused for the first reason that applies: the batch before its events, the events in order, and in an event
its type before its tags and the data last.

## Key results

- `FirstFault`: the first item of a list that is not good, and what is wrong with it
- `Tag.Fault`, `InputEvent.Fault`: what is wrong with a tag and with an event
- `validateBatch_names_first_fault`: which batches are valid, and how the others are refused
-/

namespace EventLog

/-! ### The first fault of a list -/

/-- The items before the `i`-th are good, and that one has a fault. -/
def FirstFault {α ε : Type} (good : α → Prop) (fault : α → ε → Prop) (xs : List α) (i : Nat) (e : ε) :
    Prop :=
  (∀ x ∈ xs.take i, good x) ∧ ∃ x, xs[i]? = some x ∧ fault x e

section

variable {α ε : Type} {good : α → Prop} {fault : α → ε → Prop}

/-- An empty list has no fault. -/
theorem not_firstFault_nil {i : Nat} {e : ε} : ¬FirstFault good fault [] i e := by
  simp [FirstFault]

/-- The first item is the first fault if it has one. -/
theorem firstFault_cons_zero {x : α} {xs : List α} {e : ε} :
    FirstFault good fault (x :: xs) 0 e ↔ fault x e := by
  simp [FirstFault]

/-- A fault behind the first item is the first one only if that item is good. -/
theorem firstFault_cons_succ {x : α} {xs : List α} {i : Nat} {e : ε} :
    FirstFault good fault (x :: xs) (i + 1) e ↔ good x ∧ FirstFault good fault xs i e := by
  simp [FirstFault, and_assoc]

/-- A check with another one after it fails if it fails itself, or else if the other one does. -/
theorem andThen_eq_error_iff {x y : Except ε Unit} {e : ε} :
    (do x; y) = .error e ↔ x = .error e ∨ x = .ok () ∧ y = .error e := by
  cases x <;> simp [bind, Except.bind]

/-- A check with another one after it succeeds if both do. -/
theorem andThen_eq_ok_iff {x y : Except ε Unit} :
    (do x; y) = .ok () ↔ x = .ok () ∧ y = .ok () := by
  cases x <;> simp [bind, Except.bind]

end

/-! ### Tags -/

namespace Tag

/-- A tag that can be written down and read back. -/
structure WellFormed (t : Tag) : Prop where
  key : ¬IsBadKey t.key
  value : ¬IsBadPart t.value

/-- What is wrong with a tag: its key, or else its value. -/
inductive Fault (t : Tag) : ValidationError → Prop
  | key (h : IsBadKey t.key) : Fault t (.invalidTagKey t.key)
  | value (hkey : ¬IsBadKey t.key) (h : IsBadPart t.value) : Fault t (.invalidTagValue t.key t.value)

/-- A tag is accepted exactly if it is well formed. -/
theorem validate_eq_ok_iff_wellFormed {t : Tag} : t.validate = .ok () ↔ t.WellFormed := by
  rw [validate_eq_ok_iff, isValidKey_iff_not_isBadKey, isValidValue_eq_true_iff]
  exact ⟨fun h => ⟨h.1, h.2⟩, fun h => ⟨h.key, h.value⟩⟩

/-- A tag is refused exactly for what is wrong with it. -/
theorem validate_eq_error_iff {t : Tag} {e : ValidationError} : t.validate = .error e ↔ t.Fault e := by
  constructor
  · -- the key is judged first, so its faults shadow those of the value
    intro h
    by_cases hkey : IsBadKey t.key
    · obtain rfl := Except.error.inj ((validate_of_badKey hkey).symm.trans h)
      exact .key hkey
    · by_cases hvalue : IsBadPart t.value
      · obtain rfl := Except.error.inj ((validate_of_badValue hkey hvalue).symm.trans h)
        exact .value hkey hvalue
      · rw [validate_eq_ok_iff_wellFormed.mpr ⟨hkey, hvalue⟩] at h
        cases h
  · intro h
    cases h with
    | key hkey => exact validate_of_badKey hkey
    | value hkey hvalue => exact validate_of_badValue hkey hvalue

/-- Tags are judged in order, so that the first one with a fault is named. -/
theorem validateAll_eq_error_iff {ts : List Tag} {e : ValidationError} :
    validateAll ts = .error e ↔ ∃ i, FirstFault WellFormed Fault ts i e := by
  induction ts with
  | nil => simp [validateAll, not_firstFault_nil]
  | cons t ts ih =>
    rw [validateAll, andThen_eq_error_iff, validate_eq_error_iff, validate_eq_ok_iff_wellFormed, ih]
    -- the index is that of the head, or one more than an index in the rest
    refine Iff.trans ?_ Nat.or_exists_add_one
    simp only [firstFault_cons_zero, firstFault_cons_succ, exists_and_left]

/-- Tags are accepted exactly if all are well formed. -/
theorem validateAll_eq_ok_iff_wellFormed {ts : List Tag} :
    validateAll ts = .ok () ↔ ∀ t ∈ ts, t.WellFormed := by
  simp only [validateAll_eq_ok_iff, validate_eq_ok_iff_wellFormed]

end Tag

/-! ### Events -/

namespace InputEvent

/-- The type of an event is more than white space. -/
def IsNamed (e : InputEvent) : Prop := ∃ c ∈ e.eventType.toList, Text.isBlank c = false

/-- The data of an event is an object or an array. -/
def HasContainer (e : InputEvent) : Prop :=
  (∃ members, e.data = .object members) ∨ ∃ items, e.data = .array items

/-- An event that the log can hold. -/
structure WellFormed (e : InputEvent) : Prop where
  named : e.IsNamed
  length : e.eventType.length ≤ 64
  tags : ∀ t ∈ e.tags, t.WellFormed
  data : e.HasContainer

/-- What is wrong with an event: its type is blank, or else too long, or else a tag has a fault, the first one
that has, or else its data is neither an object nor an array. -/
inductive Fault (e : InputEvent) : ValidationError → Prop
  | blankType (h : ¬e.IsNamed) : Fault e .emptyEventType
  | longType (hnamed : e.IsNamed) (h : 64 < e.eventType.length) :
    Fault e (.eventTypeTooLong e.eventType 64)
  | tag (hnamed : e.IsNamed) (hlength : e.eventType.length ≤ 64) {i : Nat} {err : ValidationError}
    (h : FirstFault Tag.WellFormed Tag.Fault e.tags i err) : Fault e err
  | data (hnamed : e.IsNamed) (hlength : e.eventType.length ≤ 64) (htags : ∀ t ∈ e.tags, t.WellFormed)
    (h : ¬e.HasContainer) : Fault e (.invalidData e.eventType)

/-- A type that is not all blank is one by which the event is named. -/
theorem allBlank_eq_false_iff {e : InputEvent} : Text.allBlank e.eventType = false ↔ e.IsNamed := by
  simp [Text.allBlank, IsNamed, List.all_eq_false]

theorem isContainer_iff {e : InputEvent} : e.data.isContainer = true ↔ e.HasContainer := by
  rw [HasContainer]
  cases e.data <;> simp [Json.Value.isContainer]

/-- A blank type is refused before anything else. -/
theorem validate_of_blank {e : InputEvent} (h : ¬e.IsNamed) : e.validate = .error .emptyEventType := by
  have hblank : Text.allBlank e.eventType = true := by
    rw [← Bool.not_eq_false, allBlank_eq_false_iff]
    exact h
  rw [validate, if_pos hblank]

/-- A long type is refused next. -/
theorem validate_of_long {e : InputEvent} (hnamed : e.IsNamed) (h : 64 < e.eventType.length) :
    e.validate = .error (.eventTypeTooLong e.eventType 64) := by
  rw [validate, allBlank_eq_false_iff.mpr hnamed, if_neg Bool.false_ne_true]
  exact if_pos h

/-- If its type is accepted, an event is judged by its tags and then by its data. -/
theorem validate_of_type {e : InputEvent} (hnamed : e.IsNamed) (hlength : e.eventType.length ≤ 64) :
    e.validate = (do
      Tag.validateAll e.tags
      if e.data.isContainer then .ok () else .error (.invalidData e.eventType)) := by
  rw [validate, allBlank_eq_false_iff.mpr hnamed, if_neg Bool.false_ne_true]
  exact if_neg (Nat.not_lt.mpr hlength)

/-- An event is refused exactly for what is wrong with it. -/
theorem validate_eq_error_iff {e : InputEvent} {err : ValidationError} :
    e.validate = .error err ↔ e.Fault err := by
  constructor
  · -- the cases follow the order of the checks: each assumes that those before it passed
    intro h
    by_cases hnamed : e.IsNamed
    · rcases Nat.lt_or_ge 64 e.eventType.length with hlong | hlength
      · obtain rfl := Except.error.inj ((validate_of_long hnamed hlong).symm.trans h)
        exact .longType hnamed hlong
      · rw [validate_of_type hnamed hlength, andThen_eq_error_iff] at h
        rcases h with htags | ⟨htags, hdata⟩
        · obtain ⟨i, hfirst⟩ := Tag.validateAll_eq_error_iff.mp htags
          exact .tag hnamed hlength hfirst
        · split at hdata
          · cases hdata
          · rename_i hcontainer
            obtain rfl := Except.error.inj hdata
            rw [isContainer_iff] at hcontainer
            exact .data hnamed hlength (Tag.validateAll_eq_ok_iff_wellFormed.mp htags) hcontainer
    · obtain rfl := Except.error.inj ((validate_of_blank hnamed).symm.trans h)
      exact .blankType hnamed
  · intro h
    cases h with
    | blankType hblank => exact validate_of_blank hblank
    | longType hnamed hlong => exact validate_of_long hnamed hlong
    | tag hnamed hlength hfirst =>
      rw [validate_of_type hnamed hlength, andThen_eq_error_iff]
      exact .inl (Tag.validateAll_eq_error_iff.mpr ⟨_, hfirst⟩)
    | data hnamed hlength htags hdata =>
      rw [validate_of_type hnamed hlength, andThen_eq_error_iff]
      refine .inr ⟨Tag.validateAll_eq_ok_iff_wellFormed.mpr htags, ?_⟩
      exact if_neg (mt isContainer_iff.mp hdata)

/-- An event is accepted exactly if it is well formed. -/
theorem validate_eq_ok_iff_wellFormed {e : InputEvent} : e.validate = .ok () ↔ e.WellFormed := by
  constructor
  · intro h
    have hnamed : e.IsNamed := by
      by_contra hblank
      rw [validate_of_blank hblank] at h
      cases h
    have hlength : e.eventType.length ≤ 64 := by
      by_contra hlong
      rw [validate_of_long hnamed (Nat.lt_of_not_le hlong)] at h
      cases h
    rw [validate_of_type hnamed hlength, andThen_eq_ok_iff] at h
    refine ⟨hnamed, hlength, Tag.validateAll_eq_ok_iff_wellFormed.mp h.1, ?_⟩
    by_contra hdata
    rw [if_neg (mt isContainer_iff.mp hdata)] at h
    cases h.2
  · rintro ⟨hnamed, hlength, htags, hdata⟩
    rw [validate_of_type hnamed hlength, andThen_eq_ok_iff]
    exact ⟨Tag.validateAll_eq_ok_iff_wellFormed.mpr htags, if_pos (isContainer_iff.mpr hdata)⟩

/-- An event has a fault exactly if it is not well formed. -/
theorem exists_fault_iff {e : InputEvent} : (∃ err, e.Fault err) ↔ ¬e.WellFormed := by
  rw [← validate_eq_ok_iff_wellFormed]
  simp only [← validate_eq_error_iff]
  cases e.validate <;> simp

end InputEvent

/-! ### Batches -/

/-- That an event is accepted does not depend on its place in the batch. -/
theorem mapError_eq_ok_iff {index : Nat} {e : InputEvent} :
    e.validate.mapError (ValidationError.inBatch index) = .ok () ↔ e.WellFormed := by
  rw [← InputEvent.validate_eq_ok_iff_wellFormed]
  cases e.validate <;> simp [Except.mapError]

/-- The events of a batch are judged to be valid exactly if each of them is. -/
theorem validateEach_eq_ok_iff {index : Nat} {es : List InputEvent} :
    validateEach index es = .ok () ↔ ∀ e ∈ es, e.WellFormed := by
  induction es generalizing index with
  | nil => simp [validateEach]
  | cons e es ih =>
    rw [validateEach, andThen_eq_ok_iff, mapError_eq_ok_iff, ih, List.forall_mem_cons]

/-- The events of a batch are judged in order, so that the first one with a fault is named. -/
theorem validateEach_eq_error_iff {index : Nat} {es : List InputEvent} {err : ValidationError} :
    validateEach index es = .error err ↔
      ∃ i source, FirstFault InputEvent.WellFormed InputEvent.Fault es i source ∧
        err = .inBatch (index + i) source := by
  induction es generalizing index with
  | nil => simp [validateEach, not_firstFault_nil]
  -- the index counts from that of the head, so it is shifted for the rest
  | cons e es ih =>
    have hhead : e.validate.mapError (.inBatch index) = .error err ↔
        ∃ source, e.Fault source ∧ err = .inBatch index source := by
      simp only [← InputEvent.validate_eq_error_iff]
      cases e.validate <;> simp [Except.mapError, eq_comm]
    rw [validateEach, andThen_eq_error_iff, hhead, mapError_eq_ok_iff, ih]
    refine Iff.trans ?_ Nat.or_exists_add_one
    simp only [firstFault_cons_zero, firstFault_cons_succ, and_assoc, exists_and_left, Nat.add_zero,
      Nat.add_assoc, Nat.add_comm 1]

/-- A batch that is too large is refused whatever its events are. -/
theorem validateBatch_of_large {events : List InputEvent} {max : Nat} (hne : events ≠ [])
    (h : max < events.length) : validateBatch events max = .error (.batchTooLarge events.length max) := by
  rw [validateBatch, if_neg (mt List.isEmpty_iff.mp hne), if_pos h]

/-- A batch of a size that is accepted is judged by its events. -/
theorem validateBatch_of_le {events : List InputEvent} {max : Nat} (hne : events ≠ [])
    (h : events.length ≤ max) : validateBatch events max = validateEach 0 events := by
  rw [validateBatch, if_neg (mt List.isEmpty_iff.mp hne), if_neg (Nat.not_lt.mpr h)]

/-- A batch is valid exactly if it has an event, not too many, and all of them are well formed. -/
theorem validateBatch_eq_ok_iff {events : List InputEvent} {max : Nat} :
    validateBatch events max = .ok () ↔
      1 ≤ events.length ∧ events.length ≤ max ∧ ∀ e ∈ events, e.WellFormed := by
  by_cases hne : events = []
  · -- no event, too many, or a number that is accepted
    subst hne
    simp [validateBatch]
  · have hpos := List.length_pos_iff.mpr hne
    rcases Nat.lt_or_ge max events.length with hlarge | hfits
    · rw [validateBatch_of_large hne hlarge]
      simp [Nat.not_le.mpr hlarge]
    · rw [validateBatch_of_le hne hfits, validateEach_eq_ok_iff]
      exact ⟨fun h => ⟨hpos, hfits, h⟩, fun h => h.2.2⟩

/-- Which batches are valid, and what is said of the others, whatever the batch and the most events that it
may have.
* A batch is valid exactly if it has an event, not too many, and all of them are well formed: the type of
  each is not blank and not too long, the key and the value of each tag are not empty and not padded, the key
  holds no separator, and the data is an object or an array.
* A batch that is not valid is refused because it is empty, or else because it is too large, whatever its
  events are, or else for its first event that is not well formed, by what is first wrong with that one. -/
theorem validateBatch_names_first_fault (events : List InputEvent) (max : Nat) :
    (validateBatch events max = .ok () ↔
      1 ≤ events.length ∧ events.length ≤ max ∧ ∀ e ∈ events, e.WellFormed) ∧
    (∀ err, validateBatch events max = .error err ↔
      events = [] ∧ err = .emptyBatch ∨
      events ≠ [] ∧ max < events.length ∧ err = .batchTooLarge events.length max ∨
      events ≠ [] ∧ events.length ≤ max ∧ ∃ i source,
        FirstFault InputEvent.WellFormed InputEvent.Fault events i source ∧ err = .inBatch i source) ∧
    ∀ e : InputEvent, (∃ err, e.Fault err) ↔ ¬e.WellFormed := by
  refine ⟨validateBatch_eq_ok_iff, fun err => ?_, fun e => InputEvent.exists_fault_iff⟩
  by_cases hne : events = []
  · subst hne
    simp [validateBatch, eq_comm]
  · rcases Nat.lt_or_ge max events.length with hlarge | hfits
    · rw [validateBatch_of_large hne hlarge]
      simp [hne, hlarge, Nat.not_le.mpr hlarge, eq_comm]
    · rw [validateBatch_of_le hne hfits, validateEach_eq_error_iff]
      simp [hne, hfits, Nat.not_lt.mpr hfits]

/-- Of three events the first is well formed; the second has a padded value, a key with a separator after it
and data that is no container; the third has no name. The padded value is named, unless three events are too
many. -/
theorem validateBatch_names_first_fault_of_several :
    let opened := InputEvent.new "Opened" [⟨"account", "17"⟩] (.object [])
    let padded := InputEvent.new "Opened" [⟨"account", "17"⟩, ⟨"iban", " x"⟩, ⟨"a:b", "1"⟩] .null
    let unnamed := InputEvent.new " " [⟨"", ""⟩] .null
    validateBatch [opened] 1 = .ok () ∧
      validateBatch [opened, padded, unnamed] 3 =
        .error (.inBatch 1 (.invalidTagValue "iban" " x")) ∧
      validateBatch [opened, padded, unnamed] 2 = .error (.batchTooLarge 3 2) := by
  intro opened padded unnamed
  have hopened : opened.WellFormed :=
    InputEvent.validate_eq_ok_iff_wellFormed.mp (by decide +kernel)
  have hpadded : padded.Fault (.invalidTagValue "iban" " x") :=
    InputEvent.validate_eq_error_iff.mp (by decide +kernel)
  obtain ⟨hone, -, -⟩ := validateBatch_names_first_fault [opened] 1
  obtain ⟨-, hthree, -⟩ := validateBatch_names_first_fault [opened, padded, unnamed] 3
  obtain ⟨-, htwo, -⟩ := validateBatch_names_first_fault [opened, padded, unnamed] 2
  -- the third event is at fault as well, but it stands behind
  have hfirst : FirstFault InputEvent.WellFormed InputEvent.Fault [opened, padded, unnamed] 1
      (.invalidTagValue "iban" " x") := ⟨by simpa using hopened, padded, rfl, hpadded⟩
  refine ⟨hone.mpr ⟨Nat.le_refl 1, Nat.le_refl 1, by simpa using hopened⟩, ?_, ?_⟩
  · exact (hthree _).mpr (.inr (.inr ⟨List.cons_ne_nil _ _, Nat.le_refl 3, 1, _, hfirst, rfl⟩))
  · exact (htwo _).mpr (.inr (.inl ⟨List.cons_ne_nil _ _, Nat.lt_succ_self 2, rfl⟩))

end EventLog
