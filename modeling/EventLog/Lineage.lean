import EventLog.Event

/-!
# Lineage

Every event of the log names its cause and the group it belongs to. An event proposed for the log may
name them itself; otherwise the batch does; otherwise the event causes itself, and the group is that
of the first event of the batch, which falls back to the event itself.
-/

namespace EventLog

/-- Cause and group for the events of a batch that name none. -/
structure Lineage where
  causationId : Option EventId
  correlationId : Option EventId
deriving DecidableEq, Repr, Inhabited

/-- An event of a batch with its identifier and lineage, ready to be written. -/
structure PreparedEvent where
  id : EventId
  eventType : String
  /-- The tags in their written form. -/
  tags : List String
  data : Json.Value
  causationId : EventId
  correlationId : EventId
  createdAt : Instant
deriving Repr, Inhabited

namespace Lineage

/-- The batch begins a group. -/
def new : Lineage := ⟨none, none⟩

/-- The batch is caused by an event and belongs to its group. -/
def following (e : Event) : Lineage := ⟨some e.id, some e.correlationId⟩

/-- Names the cause of a batch. -/
def withCausation (l : Lineage) (id : EventId) : Lineage := { l with causationId := some id }

/-- Names the group of a batch. -/
def withCorrelation (l : Lineage) (id : EventId) : Lineage := { l with correlationId := some id }

/-- Resolves the events of a batch in order. `mint` gives the identifier of the `n`-th event that is
ever prepared, and `group` is the group that the batch has by now. -/
def resolveFrom (l : Lineage) (mint : Nat → EventId) (now : Instant) (n : Nat)
    (group : Option EventId) : List InputEvent → List PreparedEvent
  | [] => []
  | e :: es =>
    let id := mint n
    let causation := (e.causationId.or l.causationId).getD id
    let correlation := ((e.correlationId.or l.correlationId).or group).getD id
    { id := id, eventType := e.eventType, tags := e.tags.map Tag.encode, data := e.data,
      causationId := causation, correlationId := correlation, createdAt := now } ::
      -- the first event settles the group of those after it
      l.resolveFrom mint now (n + 1) (group.or (some correlation)) es

/-- Resolves a batch whose first event is the `n`-th that is prepared. -/
def resolve (l : Lineage) (mint : Nat → EventId) (now : Instant) (n : Nat)
    (events : List InputEvent) : List PreparedEvent :=
  l.resolveFrom mint now n l.correlationId events

end Lineage

end EventLog
