import EventLog.Proofs.TagText
import EventLog.Row

/-!
# Decoding rows

A row is decodable if each of its tags parses; then `Row.event` is the event that is read from it, and
a list of such rows is read as the list of their events. Of other lists the rows before the first corrupt
one are read. Carrying a valid tag is the same for a row, where tags are texts, as for its event, where
they are pairs.
-/

namespace EventLog.Row

/-- Every tag of the row parses. -/
def Decodable (r : Row) : Prop := ∀ s ∈ r.tags, ∃ t, Tag.parse s = .ok t

/-- The event of a row, with those of its tags that parse. -/
def event (r : Row) : Event where
  id := r.id
  eventType := r.eventType
  tags := r.tags.filterMap fun s => (Tag.parse s).toOption
  data := r.data
  position := r.position
  causationId := r.causationId
  correlationId := r.correlationId
  createdAt := r.createdAt

@[simp] theorem event_eventType (r : Row) : r.event.eventType = r.eventType := rfl

/-! ### One row -/

/-- Tags that all parse are read in order. -/
theorem parseTags_eq_ok {ss : List String} (h : ∀ s ∈ ss, ∃ t, Tag.parse s = .ok t) :
    parseTags ss = .ok (ss.filterMap fun s => (Tag.parse s).toOption) := by
  induction ss with
  | nil => rfl
  | cons s ss ih =>
    obtain ⟨t, ht⟩ := h s List.mem_cons_self
    have hrest := ih fun x hx => h x (List.mem_cons_of_mem _ hx)
    simp only [parseTags, ht, hrest, List.filterMap_cons, Except.toOption, bind, Except.bind, pure,
      Except.pure]

/-- If the tags of a list are read then each of them parses. -/
theorem parse_of_parseTags {ss : List String} {ts : List Tag} (h : parseTags ss = .ok ts) :
    ∀ s ∈ ss, ∃ t, Tag.parse s = .ok t := by
  induction ss generalizing ts with
  | nil => simp
  | cons s ss ih =>
    simp only [parseTags, bind, Except.bind] at h
    cases hs : Tag.parse s with
    | error e => rw [hs] at h; exact nomatch h
    | ok t =>
      -- the first tag parses, but a later one may still refuse the list
      cases hss : parseTags ss with
      | error e => rw [hs, hss] at h; exact nomatch h
      | ok us => exact List.forall_mem_cons.mpr ⟨⟨t, hs⟩, ih hss⟩

/-- A decodable row is read as its event. -/
theorem toEvent_eq_ok {r : Row} (h : r.Decodable) : r.toEvent = .ok r.event := by
  simp only [toEvent, parseTags_eq_ok h]
  rfl

/-- A row that is read is decodable. -/
theorem decodable_of_toEvent {r : Row} {e : Event} (h : r.toEvent = .ok e) : r.Decodable := by
  unfold toEvent at h
  split at h
  · exact nomatch h
  · rename_i ts hts
    exact parse_of_parseTags hts

/-! ### Lists of rows -/

/-- Decodable rows are read one by one as their events. -/
theorem map_toEvent {rs : List Row} (h : ∀ r ∈ rs, r.Decodable) :
    rs.map toEvent = (rs.map event).map .ok := by
  rw [List.map_map]
  exact List.map_congr_left fun r hr => toEvent_eq_ok (h r hr)

/-- Rows that are read one by one are read before those that come after them. -/
theorem toEventsUntil_of_map {rs : List Row} {es : List Event} (h : rs.map toEvent = es.map .ok)
    (more : List Row) :
    toEventsUntil (rs ++ more) = (es ++ (toEventsUntil more).1, (toEventsUntil more).2) := by
  -- by induction on the rows, of which each gives one event
  induction rs generalizing es with
  | nil =>
    obtain rfl : es = [] := by simpa using h
    rfl
  | cons r rs ih =>
    cases es with
    | nil => exact nomatch h
    | cons e es =>
      -- the first row gives the first event, and the others give the rest
      obtain ⟨hr, hrest⟩ := List.cons.inj h
      simp only [List.cons_append, toEventsUntil, hr, ih hrest]

/-- Decodable rows are read before those that come after them. -/
theorem toEventsUntil_append {rs : List Row} (h : ∀ r ∈ rs, r.Decodable) (more : List Row) :
    toEventsUntil (rs ++ more) =
      (rs.map event ++ (toEventsUntil more).1, (toEventsUntil more).2) :=
  toEventsUntil_of_map (map_toEvent h) more

/-- Decodable rows are read up to their end. -/
theorem toEventsUntil_eq {rs : List Row} (h : ∀ r ∈ rs, r.Decodable) :
    toEventsUntil rs = (rs.map event, none) := by
  have hall := toEventsUntil_append h []
  rwa [List.append_nil, toEventsUntil, List.append_nil] at hall

/-- Rows are read up to the first one that is corrupt. -/
theorem toEventsUntil_of_corrupt {rs : List Row} (h : ∀ r ∈ rs, r.Decodable) {r : Row} {c : CorruptRow}
    (hr : r.toEvent = .error c) (more : List Row) :
    toEventsUntil (rs ++ r :: more) = (rs.map event, some c) := by
  have hfirst : toEventsUntil (r :: more) = ([], some c) := by simp only [toEventsUntil, hr]
  rw [toEventsUntil_append h, hfirst, List.append_nil]

/-- The first row that is corrupt refuses all of them. -/
theorem toEvents_of_corrupt {rs : List Row} (h : ∀ r ∈ rs, r.Decodable) {r : Row} {c : CorruptRow}
    (hr : r.toEvent = .error c) (more : List Row) : toEvents (rs ++ r :: more) = .error c := by
  simp only [toEvents, toEventsUntil_of_corrupt h hr]

/-- Either all rows are decodable, or one of them is the first that is corrupt. -/
theorem decodable_or_corrupt (rs : List Row) :
    (∀ r ∈ rs, r.Decodable) ∨
      ∃ before r c more, rs = before ++ r :: more ∧ (∀ x ∈ before, x.Decodable) ∧
        r.toEvent = .error c := by
  -- by induction on the rows: the first one is corrupt itself, or is read before the one that is
  induction rs with
  | nil => exact .inl (by simp)
  | cons r rs ih =>
    cases hr : r.toEvent with
    | error c => exact .inr ⟨[], r, c, rs, rfl, by simp, hr⟩
    | ok e =>
      have hdec := decodable_of_toEvent hr
      rcases ih with hall | ⟨before, x, c, more, rfl, hbefore, hx⟩
      · exact .inl (List.forall_mem_cons.mpr ⟨hdec, hall⟩)
      · exact .inr ⟨r :: before, x, c, more, rfl, List.forall_mem_cons.mpr ⟨hdec, hbefore⟩, hx⟩

/-- Decodable rows are read as their events. -/
theorem toEvents_eq_ok {rs : List Row} (h : ∀ r ∈ rs, r.Decodable) :
    toEvents rs = .ok (rs.map event) := by
  simp only [toEvents, toEventsUntil_eq h]

/-! ### Tags as texts and as pairs -/

/-- The tags of the event of a row are valid, and the row carries them in their written form. -/
theorem encode_mem_and_validate_of_mem {r : Row} {t : Tag} (h : t ∈ r.event.tags) :
    t.encode ∈ r.tags ∧ t.validate = .ok () := by
  obtain ⟨s, hs, hst⟩ := List.mem_filterMap.mp h
  cases hp : Tag.parse s with
  | error e => rw [hp] at hst; exact nomatch hst
  | ok u =>
    rw [hp] at hst
    obtain rfl := Option.some.inj hst
    -- the text that parses is the written form of the tag, not just some text for it
    obtain ⟨henc, hval⟩ := Tag.encode_of_parse hp
    exact ⟨henc ▸ hs, hval⟩

/-- A row carries the written form of a valid tag exactly if its event carries the tag. -/
theorem encode_mem_tags_iff (r : Row) {t : Tag} (ht : t.validate = .ok ()) :
    t.encode ∈ r.tags ↔ t ∈ r.event.tags := by
  constructor
  · intro h
    refine List.mem_filterMap.mpr ⟨t.encode, h, ?_⟩
    rw [Tag.parse_encode ht]
    rfl
  · intro h
    exact (encode_mem_and_validate_of_mem h).1

end EventLog.Row
