import EventLog.Event

/-!
# Queries

A query is a list of items, and it selects an event that one of them selects. An item restricts the
type of an event to a list and asks for tags; an empty list restricts nothing. A query without items
selects every event.
-/

namespace EventLog

/-- Events of one of the types that carry all of the tags. -/
structure QueryItem where
  eventTypes : List String
  tags : List Tag
deriving DecidableEq, Repr, Inhabited

/-- Events that one of the items selects; every event if there are none. -/
structure Query where
  items : List QueryItem
deriving DecidableEq, Repr, Inhabited

namespace QueryItem

/-- The item restricts nothing. -/
def isMatchAll (i : QueryItem) : Bool := i.eventTypes.isEmpty && i.tags.isEmpty

theorem isMatchAll_eq_false_iff (i : QueryItem) :
    i.isMatchAll = false ↔ i.eventTypes ≠ [] ∨ i.tags ≠ [] := by
  simp only [isMatchAll, Bool.and_eq_false_iff, List.isEmpty_eq_false_iff]

/-- The item selects the event. -/
def selects (i : QueryItem) (e : Event) : Bool :=
  (i.eventTypes.isEmpty || i.eventTypes.contains e.eventType) && e.hasTags i.tags

/-- Refuses a blank event type or an invalid tag; types are judged before tags. -/
def validate (i : QueryItem) : Except ValidationError Unit :=
  if i.eventTypes.any Text.allBlank then .error .emptyEventType
  else Tag.validateAll i.tags

end QueryItem

namespace Query

/-- The query that selects every event. -/
def all : Query := ⟨[]⟩

/-- The query of one item. -/
def single (i : QueryItem) : Query := ⟨[i]⟩

/-- The query restricts nothing. -/
def isMatchAll (q : Query) : Bool := q.items.isEmpty || q.items.any QueryItem.isMatchAll

theorem isMatchAll_eq_false_iff (q : Query) :
    q.isMatchAll = false ↔ q.items ≠ [] ∧ ∀ i ∈ q.items, i.isMatchAll = false := by
  simp only [isMatchAll, Bool.or_eq_false_iff, List.isEmpty_eq_false_iff, List.any_eq_false,
    Bool.not_eq_true]

/-- The query selects the event. -/
def selects (q : Query) (e : Event) : Bool := q.items.isEmpty || q.items.any (·.selects e)

/-- The first item of a list that is refused, if one is. -/
def validateItems : List QueryItem → Except ValidationError Unit
  | [] => .ok ()
  | i :: is => do
    i.validate
    validateItems is

/-- Refuses a query with an item that is refused. -/
def validate (q : Query) : Except ValidationError Unit := validateItems q.items

/-- Adds the items that the list does not hold yet, in order. -/
def addItems (acc : List QueryItem) : List QueryItem → List QueryItem
  | [] => acc
  | i :: is => addItems (if acc.contains i then acc else acc ++ [i]) is

/-- The query that selects what one of the queries selects: each item once, in order of its first
appearance, unless a query restricts nothing. -/
def union (qs : List Query) : Query :=
  if qs.any isMatchAll then all else ⟨addItems [] (qs.flatMap (·.items))⟩

end Query

end EventLog
