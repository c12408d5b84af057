import EventLog.Proofs.EventIdText
import EventLog.Proofs.RecordReading
import EventLog.Wire

/-!
# Reading back the vocabulary

For each type of the vocabulary: its fields are read independently of each other, a value is read back from
what it is written as, and a partial record cannot be completed without the fields that must be there.

## Key results

- `Event.read?_toValue` and its like: reading undoes writing
- `Event.of_complete?` and its like: what a completed record was made of
-/

namespace EventLog

open Json

/-! ### Identifiers and instants -/

/-- An identifier is read back from its text. -/
theorem EventId.read_toText (id : EventId) : read none (.string id.toText) = .ok id := by
  simp only [read, Document.readString, bind, Except.bind, parse?_toText]
  rfl

/-- An identifier is read back from its value. -/
theorem EventId.read?_toValue (id : EventId) : id.toValue.sorted.read? read = some id := by
  change (read none (.string id.toText)).toOption = some id
  rw [read_toText]
  rfl

/-- An identifier that may be missing is read back, missing or not. -/
theorem EventId.read?_optionToValue (id : Option EventId) :
    (optionToValue id).sorted.read? (Document.readOption read) = some id := by
  -- a missing identifier is written as null
  cases id with
  | none => rfl
  | some id =>
    change ((read none (.string id.toText)).map some).toOption = some (some id)
    rw [read_toText]
    rfl

/-- An instant is read back from its value, if it is from its text. -/
theorem Instant.read?_toValue {t : Instant} (h : parse? t.toText = some t) :
    t.toValue.sorted.read? read = some t := by
  have hread : read none (.string t.toText) = .ok t := by
    simp only [read, Document.readString, bind, Except.bind, h]
    rfl
  change (read none (.string t.toText)).toOption = some t
  rw [hread]
  rfl

/-! ### Positions -/

/-- The positions that a signed 64 bit number can be. -/
def Position.Held (p : Position) : Prop := Position.min ≤ p ∧ p ≤ Position.max

/-- A position is read back if a signed 64 bit number can hold it. -/
theorem Position.read?_int {p : Position} (h : p.Held) : (Value.int p).sorted.read? read = some p :=
  Value.read?_int h.1 h.2

/-! ### Records -/

namespace Tag

/-- Key and value of a tag are read in any order. -/
theorem lawful_shape : shape.Lawful where
  independent := List.pairwise_pair.mpr <|
    Field.independent_option (by decide) (fun _ _ => rfl) (fun _ _ => rfl) fun _ _ _ => rfl
  unset := by simp [shape, Field.option]

/-- A tag that is complete has both of its parts. -/
theorem of_complete? {d : Draft} {t : Tag} (h : shape.complete? d = some t) :
    d = ⟨some t.key, some t.value⟩ := by
  obtain ⟨key, value⟩ := d
  obtain ⟨key, rfl, h⟩ := of_required_bind h
  obtain ⟨value, rfl, h⟩ := of_required_bind h
  obtain rfl := Option.some.inj h
  rfl

theorem read?_toValue (t : Tag) : t.toValue.sorted.read? read = some t := by
  rw [toValue, Value.sorted, read, lawful_shape.read?_object (Members.nodup_sortedMembers _), shape,
    readFields_sortedMembers (by simp) rfl (Value.read?_string _),
    readFields_sortedMembers (by simp) rfl (Value.read?_string _)]
  rfl

theorem read?_listToValue (ts : List Tag) :
    (listToValue ts).sorted.read? (Document.readList read) = some ts :=
  Value.read?_sorted_map fun t _ => t.read?_toValue

end Tag

namespace QueryItem

theorem lawful_shape : shape.Lawful where
  independent := List.pairwise_pair.mpr <|
    Field.independent_option (by decide) (fun _ _ => rfl) (fun _ _ => rfl) fun _ _ _ => rfl
  unset := by simp [shape, Field.option]

theorem read?_toValue (i : QueryItem) : i.toValue.sorted.read? read = some i := by
  -- both lists are read back by reading back their items
  have htypes : (Value.array (i.eventTypes.map .string)).sorted.read? (Document.readList Document.readString) =
      some i.eventTypes := Value.read?_sorted_map fun s _ => Value.read?_string s
  rw [toValue, Value.sorted, read, lawful_shape.read?_object (Members.nodup_sortedMembers _), shape,
    readFields_sortedMembers (by simp) rfl htypes,
    readFields_sortedMembers (by simp) rfl (Tag.read?_listToValue _)]
  rfl

end QueryItem

namespace Query

theorem lawful_shape : shape.Lawful where
  independent := List.pairwise_singleton _ _
  unset := by simp [shape, Field.option]

theorem read?_toValue (q : Query) : q.toValue.sorted.read? read = some q := by
  have hitems : (Value.array (q.items.map QueryItem.toValue)).sorted.read? (Document.readList QueryItem.read) =
      some q.items := Value.read?_sorted_map fun i _ => i.read?_toValue
  rw [toValue, Value.sorted, read, lawful_shape.read?_object (Members.nodup_sortedMembers _), shape,
    readFields_sortedMembers (by simp) rfl hitems]
  rfl

end Query

namespace AppendCondition

theorem lawful_shape : shape.Lawful where
  independent := List.pairwise_pair.mpr <|
    Field.independent_option (by decide) (fun _ _ => rfl) (fun _ _ => rfl) fun _ _ _ => rfl
  unset := by simp [shape, Field.option]

/-- A condition that is complete has a query. -/
theorem of_complete? {d : Draft} {c : AppendCondition} (h : shape.complete? d = some c) :
    d.failIfEventsMatch = some c.failIfEventsMatch := by
  obtain ⟨query, hquery, h⟩ := of_required_bind h
  obtain rfl := Option.some.inj h
  exact hquery

/-- A condition is read back, at any position that can be held. -/
theorem read?_toValue {c : AppendCondition} (h : Position.Held c.afterPosition) :
    c.toValue.sorted.read? read = some c := by
  rw [toValue, Value.sorted, read, lawful_shape.read?_object (Members.nodup_sortedMembers _), shape,
    readFields_sortedMembers (by simp) rfl (Query.read?_toValue _),
    readFields_sortedMembers (by simp) rfl (Position.read?_int h)]
  rfl

end AppendCondition

namespace InputEvent

theorem lawful_shape : shape.Lawful where
  independent := by
    -- any two of the five fields are in different places
    simp only [shape, List.pairwise_cons, List.forall_mem_cons, List.not_mem_nil, false_imp_iff, implies_true,
      and_true, List.Pairwise.nil]
    and_intros <;>
      exact Field.independent_option (by decide) (fun _ _ => rfl) (fun _ _ => rfl) fun _ _ _ => rfl
  unset := by simp [shape, Field.option]

/-- A proposed event that is complete has a type and a payload. -/
theorem of_complete? {d : Draft} {e : InputEvent} (h : shape.complete? d = some e) :
    d.eventType = some e.eventType ∧ d.data = some e.data := by
  obtain ⟨eventType, htype, h⟩ := of_required_bind h
  obtain ⟨data, hdata, h⟩ := of_required_bind h
  obtain rfl := Option.some.inj h
  exact ⟨htype, hdata⟩

/-- A proposed event is read back, if the members of its payload are in order. -/
theorem read?_toValue {e : InputEvent} (h : e.data.Ordered) : e.toValue.sorted.read? read = some e := by
  rw [toValue, Value.sorted, read, lawful_shape.read?_object (Members.nodup_sortedMembers _), shape,
    readFields_sortedMembers (by simp) rfl (Value.read?_string _),
    readFields_sortedMembers (by simp) rfl (Tag.read?_listToValue _),
    readFields_sortedMembers (by simp) rfl h.read?_sorted,
    readFields_sortedMembers (by simp) rfl (EventId.read?_optionToValue _),
    readFields_sortedMembers (by simp) rfl (EventId.read?_optionToValue _)]
  rfl

end InputEvent

namespace Event

theorem lawful_shape : shape.Lawful where
  independent := by
    -- any two of the eight fields are in different places
    simp only [shape, List.pairwise_cons, List.forall_mem_cons, List.not_mem_nil, false_imp_iff, implies_true,
      and_true, List.Pairwise.nil]
    and_intros <;>
      exact Field.independent_option (by decide) (fun _ _ => rfl) (fun _ _ => rfl) fun _ _ _ => rfl
  unset := by simp [shape, Field.option]

/-- A stored event that is complete has all of its fields. -/
theorem of_complete? {d : Draft} {e : Event} (h : shape.complete? d = some e) :
    d = ⟨some e.id, some e.eventType, some e.tags, some e.data, some e.position, some e.causationId,
      some e.correlationId, some e.createdAt⟩ := by
  obtain ⟨id, eventType, tags, data, position, causationId, correlationId, createdAt⟩ := d
  -- in the order in which the fields are asked for
  obtain ⟨id, rfl, h⟩ := of_required_bind h
  obtain ⟨eventType, rfl, h⟩ := of_required_bind h
  obtain ⟨tags, rfl, h⟩ := of_required_bind h
  obtain ⟨data, rfl, h⟩ := of_required_bind h
  obtain ⟨position, rfl, h⟩ := of_required_bind h
  obtain ⟨causationId, rfl, h⟩ := of_required_bind h
  obtain ⟨correlationId, rfl, h⟩ := of_required_bind h
  obtain ⟨createdAt, rfl, h⟩ := of_required_bind h
  obtain rfl := Option.some.inj h
  rfl

/-- A stored event is read back, if its payload, its position and its instant are. -/
theorem read?_toValue {e : Event} (hdata : e.data.Ordered) (hpos : Position.Held e.position)
    (htime : Instant.parse? e.createdAt.toText = some e.createdAt) : e.toValue.sorted.read? read = some e := by
  -- field by field, each of which is found among the sorted members
  rw [toValue, Value.sorted, read, lawful_shape.read?_object (Members.nodup_sortedMembers _), shape,
    readFields_sortedMembers (by simp) rfl (EventId.read?_toValue _),
    readFields_sortedMembers (by simp) rfl (Value.read?_string _),
    readFields_sortedMembers (by simp) rfl (Tag.read?_listToValue _),
    readFields_sortedMembers (by simp) rfl hdata.read?_sorted,
    readFields_sortedMembers (by simp) rfl (Position.read?_int hpos),
    readFields_sortedMembers (by simp) rfl (EventId.read?_toValue _),
    readFields_sortedMembers (by simp) rfl (EventId.read?_toValue _),
    readFields_sortedMembers (by simp) rfl (Instant.read?_toValue htime)]
  rfl

end Event

end EventLog
