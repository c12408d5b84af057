import EventLog.Sql.Statement

/-!
# The table of events

The committed rows, what is asked of them, and what the table refuses: two rows with one position or
one identifier, and at the commit a row that names an event which is not there.
-/

namespace EventLog

/-- The committed rows in the order of their commits. -/
abbrev Table := List Row

namespace Table

open Sql

/-- The highest position, and 0 if there is none above it. -/
def head (t : Table) : Position := t.foldl (fun p r => max p r.position) 0

/-- The rows that name an event, in order of position. -/
def linked (t : Table) (link : Link) (id : EventId) : List Row :=
  Selection.inOrder (t.filter fun r =>
    match link with
    | .causation => r.causationId == id
    | .correlation => r.correlationId == id)

/-- A value of the list occurs twice in it, or in `taken`. -/
def collides {α : Type} [BEq α] (taken : List α) : List α → Bool
  | [] => false
  | x :: xs => taken.contains x || collides (x :: taken) xs

/-- Why the rows cannot be inserted. -/
def insertRefusal? (t : Table) (rows : List Row) : Option String :=
  if collides (t.map (·.id)) (rows.map (·.id)) then
    some "duplicate key value violates unique constraint \"events_pkey\""
  else if collides (t.map (·.position)) (rows.map (·.position)) then
    some "duplicate key value violates unique constraint \"events_position_idx\""
  else none

/-- A row has the identifier. -/
def holds (t : Table) (id : EventId) : Bool := t.any (·.id == id)

/-- The name of the rule that a row breaks if it names an event that the table does not hold. -/
def danglingRule? (t : Table) (r : Row) : Option String :=
  if !t.holds r.causationId then some "events_causation_fk"
  else if !t.holds r.correlationId then some "events_correlation_fk"
  else none

/-- Why the inserted rows cannot be committed. -/
def commitRefusal? (t : Table) (inserted : List Row) : Option String :=
  (inserted.findSome? (danglingRule? (t ++ inserted))).map fun rule =>
    "insert or update on table \"events\" violates foreign key constraint \"" ++ rule ++ "\""

end Table

end EventLog
