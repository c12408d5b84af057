import EventLog.Lineage

/-!
# Rows

An event as the table of events holds it, its tags in their written form. A row is read back by
parsing its tags; one that does not parse makes the row corrupt.
-/

namespace EventLog

/-- A row of the table of events. -/
structure Row where
  id : EventId
  eventType : String
  tags : List String
  data : Json.Value
  position : Position
  causationId : EventId
  correlationId : EventId
  createdAt : Instant
deriving Repr, Inhabited

/-- A row that cannot be read back, and why. -/
structure CorruptRow where
  position : Position
  reason : String
deriving DecidableEq, Repr, Inhabited

namespace Row

/-- Reads tags in turn. -/
def parseTags : List String → Except ValidationError (List Tag)
  | [] => .ok []
  | s :: ss => do
    let t ← Tag.parse s
    let ts ← parseTags ss
    return t :: ts

/-- The event of a row. Only its tags are parsed: the payload is a value, however deep it nests. -/
def toEvent (r : Row) : Except CorruptRow Event :=
  match parseTags r.tags with
  | .error e => .error ⟨r.position, e.message⟩
  | .ok tags => .ok {
      id := r.id, eventType := r.eventType, tags, data := r.data, position := r.position,
      causationId := r.causationId, correlationId := r.correlationId, createdAt := r.createdAt }

/-- The events of rows in order, up to the first row that is corrupt, and that row. -/
def toEventsUntil : List Row → List Event × Option CorruptRow
  | [] => ([], none)
  | r :: rs =>
    match r.toEvent with
    | .error c => ([], some c)
    | .ok e =>
      let (es, c) := toEventsUntil rs
      (e :: es, c)

/-- The events of rows; the first corrupt row refuses them all. -/
def toEvents (rs : List Row) : Except CorruptRow (List Event) :=
  match toEventsUntil rs with
  | (es, none) => .ok es
  | (_, some c) => .error c

/-- The row of a prepared event at a position. -/
def ofPrepared (e : PreparedEvent) (position : Position) : Row where
  id := e.id
  eventType := e.eventType
  tags := e.tags
  data := e.data
  position := position
  causationId := e.causationId
  correlationId := e.correlationId
  createdAt := e.createdAt

/-- The rows of prepared events at the positions after `head`. -/
def place (head : Position) : List PreparedEvent → List Row
  | [] => []
  | e :: es => ofPrepared e head.next :: place head.next es

end Row

end EventLog
