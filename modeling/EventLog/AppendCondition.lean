import EventLog.Query

/-!
# Append conditions

A condition guards an append: it is violated by an event after a position that a query selects.
-/

namespace EventLog

/-- An append fails if an event after the position matches the query. -/
structure AppendCondition where
  failIfEventsMatch : Query
  afterPosition : Position
deriving DecidableEq, Repr, Inhabited

namespace AppendCondition

/-- No event of the whole log may match. -/
def noneMatching (q : Query) : AppendCondition := ⟨q, 0⟩

/-- The event violates the condition. -/
def isViolatedBy (c : AppendCondition) (e : Event) : Bool :=
  decide (c.afterPosition < e.position) && c.failIfEventsMatch.selects e

end AppendCondition

end EventLog
