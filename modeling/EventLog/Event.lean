import EventLog.EventId
import EventLog.Instant
import EventLog.Tag

/-!
# Events

An event that is proposed for the log, and an event that stands in it. Positions are signed 64 bit
numbers; the log counts from one.
-/

namespace EventLog

/-- A place in the log. -/
abbrev Position := Int

namespace Position

/-- The least position that can be held. -/
def min : Position := -0x8000000000000000

/-- The largest position that can be held. -/
def max : Position := 0x7FFFFFFFFFFFFFFF

/-- The position after `p`; the largest one is followed by itself. -/
def next (p : Position) : Position := if p < max then p + 1 else max

end Position

/-- An event proposed for the log. -/
structure InputEvent where
  eventType : String
  tags : List Tag
  data : Json.Value
  /-- The event that caused this one, where the batch says otherwise. -/
  causationId : Option EventId
  /-- The group of related events, where the batch says otherwise. -/
  correlationId : Option EventId
deriving Repr, Inhabited

/-- An event in the log. -/
structure Event where
  id : EventId
  eventType : String
  tags : List Tag
  data : Json.Value
  position : Position
  /-- The event that caused this one; it may be this one. -/
  causationId : EventId
  /-- The event that begins the group this one belongs to. -/
  correlationId : EventId
  createdAt : Instant
deriving Repr, Inhabited

namespace InputEvent

/-- An event that names neither its cause nor its group. -/
def new (eventType : String) (tags : List Tag) (data : Json.Value) : InputEvent :=
  { eventType, tags, data, causationId := none, correlationId := none }

/-- Names the cause of an event. -/
def causedBy (e : InputEvent) (id : EventId) : InputEvent := { e with causationId := some id }

/-- Names the group of an event. -/
def correlatedWith (e : InputEvent) (id : EventId) : InputEvent :=
  { e with correlationId := some id }

/-- Refuses an event that the log cannot hold: its type is judged first, then its tags in turn, and
its data last. -/
def validate (e : InputEvent) : Except ValidationError Unit :=
  if Text.allBlank e.eventType then .error .emptyEventType
  else if maxEventTypeLength < e.eventType.length then
    .error (.eventTypeTooLong e.eventType maxEventTypeLength)
  else do
    Tag.validateAll e.tags
    if e.data.isContainer then .ok () else .error (.invalidData e.eventType)

end InputEvent

namespace Event

/-- The event carries a tag. -/
def hasTag (e : Event) (t : Tag) : Bool := e.tags.contains t

/-- The event carries every one of the tags. -/
def hasTags (e : Event) (ts : List Tag) : Bool := ts.all e.hasTag

/-- The value of the first tag with a key. -/
def tagValue? (e : Event) (key : String) : Option String :=
  (e.tags.find? (·.key == key)).map (·.value)

end Event

end EventLog
