import EventLog.AppendCondition

/-!
# The JSON form of the vocabulary

Tags, queries, conditions and events as JSON. A record is written as an object with its members in
order of declaration. It is read from an object or an array; lists, anchors and lineage may be left
out where they have a default.
-/

namespace EventLog

open Json

namespace Position

/-- Reads a position from JSON. -/
def read : Reader Position := fun depth d => d.readInt Position.min Position.max depth

end Position

namespace Tag

/-- A tag as JSON. -/
def toValue (t : Tag) : Value :=
  .object [("key", .string t.key), ("value", .string t.value)]

/-- What has been read of a tag. -/
structure Draft where
  key : Option String := none
  value : Option String := none

/-- The JSON form of a tag. -/
def shape : Shape Draft Tag where
  fields := [
    .option "key" Draft.key (fun d x => { d with key := some x }) Document.readString,
    .option "value" Draft.value (fun d x => { d with value := some x }) Document.readString]
  blank := {}
  complete d := return ⟨← required d.key, ← required d.value⟩

/-- Reads a tag from JSON; it need not be valid. -/
def read : Reader Tag := shape.read

/-- Tags as JSON. -/
def listToValue (ts : List Tag) : Value := .array (ts.map toValue)

end Tag

namespace QueryItem

/-- A query item as JSON. -/
def toValue (i : QueryItem) : Value :=
  .object [("event_types", .array (i.eventTypes.map .string)), ("tags", Tag.listToValue i.tags)]

/-- What has been read of a query item. -/
structure Draft where
  eventTypes : Option (List String) := none
  tags : Option (List Tag) := none

/-- The JSON form of a query item; both lists may be left out. -/
def shape : Shape Draft QueryItem where
  fields := [
    .option "event_types" Draft.eventTypes (fun d x => { d with eventTypes := some x })
      (Document.readList Document.readString),
    .option "tags" Draft.tags (fun d x => { d with tags := some x }) (Document.readList Tag.read)]
  blank := {}
  complete d := return ⟨d.eventTypes.getD [], d.tags.getD []⟩

/-- Reads a query item from JSON. -/
def read : Reader QueryItem := shape.read

end QueryItem

namespace Query

/-- A query as JSON. -/
def toValue (q : Query) : Value :=
  .object [("items", .array (q.items.map QueryItem.toValue))]

/-- What has been read of a query. -/
structure Draft where
  items : Option (List QueryItem) := none

/-- The JSON form of a query; the items may be left out. -/
def shape : Shape Draft Query where
  fields := [
    .option "items" Draft.items (fun d x => { d with items := some x })
      (Document.readList QueryItem.read)]
  blank := {}
  complete d := return ⟨d.items.getD []⟩

/-- Reads a query from JSON. -/
def read : Reader Query := shape.read

end Query

namespace AppendCondition

/-- A condition as JSON. -/
def toValue (c : AppendCondition) : Value :=
  .object [("fail_if_events_match", c.failIfEventsMatch.toValue),
    ("after_position", .int c.afterPosition)]

/-- What has been read of a condition. -/
structure Draft where
  failIfEventsMatch : Option Query := none
  afterPosition : Option Position := none

/-- The JSON form of a condition; the position is 0 when it is left out. -/
def shape : Shape Draft AppendCondition where
  fields := [
    .option "fail_if_events_match" Draft.failIfEventsMatch
      (fun d x => { d with failIfEventsMatch := some x }) Query.read,
    .option "after_position" Draft.afterPosition (fun d x => { d with afterPosition := some x })
      Position.read]
  blank := {}
  complete d := return ⟨← required d.failIfEventsMatch, d.afterPosition.getD 0⟩

/-- Reads a condition from JSON. -/
def read : Reader AppendCondition := shape.read

end AppendCondition

/-- An identifier or `null`. -/
def EventId.optionToValue : Option EventId → Value
  | none => .null
  | some id => id.toValue

namespace InputEvent

/-- A proposed event as JSON. -/
def toValue (e : InputEvent) : Value :=
  .object [("event_type", .string e.eventType), ("tags", Tag.listToValue e.tags), ("data", e.data),
    ("causation_id", EventId.optionToValue e.causationId),
    ("correlation_id", EventId.optionToValue e.correlationId)]

/-- What has been read of a proposed event. -/
structure Draft where
  eventType : Option String := none
  tags : Option (List Tag) := none
  data : Option Value := none
  causationId : Option (Option EventId) := none
  correlationId : Option (Option EventId) := none

/-- The JSON form of a proposed event; only type and data have to be there. -/
def shape : Shape Draft InputEvent where
  fields := [
    .option "event_type" Draft.eventType (fun d x => { d with eventType := some x })
      Document.readString,
    .option "tags" Draft.tags (fun d x => { d with tags := some x }) (Document.readList Tag.read),
    .option "data" Draft.data (fun d x => { d with data := some x }) Document.readValue,
    .option "causation_id" Draft.causationId (fun d x => { d with causationId := some x })
      (Document.readOption EventId.read),
    .option "correlation_id" Draft.correlationId (fun d x => { d with correlationId := some x })
      (Document.readOption EventId.read)]
  blank := {}
  complete d := return {
    eventType := ← required d.eventType
    tags := d.tags.getD []
    data := ← required d.data
    causationId := d.causationId.getD none
    correlationId := d.correlationId.getD none }

/-- Reads a proposed event from JSON; it need not be valid. -/
def read : Reader InputEvent := shape.read

end InputEvent

namespace Event

/-- An event as JSON. -/
def toValue (e : Event) : Value :=
  .object [("id", e.id.toValue), ("event_type", .string e.eventType),
    ("tags", Tag.listToValue e.tags), ("data", e.data), ("position", .int e.position),
    ("causation_id", e.causationId.toValue), ("correlation_id", e.correlationId.toValue),
    ("created_at", e.createdAt.toValue)]

/-- What has been read of an event. -/
structure Draft where
  id : Option EventId := none
  eventType : Option String := none
  tags : Option (List Tag) := none
  data : Option Value := none
  position : Option Position := none
  causationId : Option EventId := none
  correlationId : Option EventId := none
  createdAt : Option Instant := none

/-- The JSON form of an event; nothing may be left out. -/
def shape : Shape Draft Event where
  fields := [
    .option "id" Draft.id (fun d x => { d with id := some x }) EventId.read,
    .option "event_type" Draft.eventType (fun d x => { d with eventType := some x })
      Document.readString,
    .option "tags" Draft.tags (fun d x => { d with tags := some x }) (Document.readList Tag.read),
    .option "data" Draft.data (fun d x => { d with data := some x }) Document.readValue,
    .option "position" Draft.position (fun d x => { d with position := some x }) Position.read,
    .option "causation_id" Draft.causationId (fun d x => { d with causationId := some x })
      EventId.read,
    .option "correlation_id" Draft.correlationId (fun d x => { d with correlationId := some x })
      EventId.read,
    .option "created_at" Draft.createdAt (fun d x => { d with createdAt := some x }) Instant.read]
  blank := {}
  complete d := return {
    id := ← required d.id
    eventType := ← required d.eventType
    tags := ← required d.tags
    data := ← required d.data
    position := ← required d.position
    causationId := ← required d.causationId
    correlationId := ← required d.correlationId
    createdAt := ← required d.createdAt }

/-- Reads an event from JSON. -/
def read : Reader Event := shape.read

end Event

end EventLog
