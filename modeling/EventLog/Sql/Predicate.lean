import EventLog.AppendCondition
import EventLog.Sql.Fragment

/-!
# Predicates on rows

What a query asks of a row: nothing, or one of several groups of conditions. A group asks the type of
the row to be one of a list and its tags to contain a list, both compared as text.

* `Predicate.holds` is the meaning of a predicate on a row.
* `Predicate.fragments` is its text, with a side that restricts nothing left out.
-/

namespace EventLog.Sql

/-- Conditions that a row has to meet together; an empty list asks nothing. -/
structure Group where
  types : List String
  tags : List String
deriving DecidableEq, Repr, Inhabited

/-- What a query asks of a row. -/
inductive Predicate
  | everything
  | anyOf (groups : List Group)
deriving DecidableEq, Repr, Inhabited

namespace Group

/-- The group of a query item. -/
def ofItem (i : QueryItem) : Group := ⟨i.eventTypes, i.tags.map Tag.encode⟩

/-- The row meets the conditions. -/
def holds (g : Group) (r : Row) : Bool :=
  (g.types.isEmpty || g.types.contains r.eventType) && g.tags.all r.tags.contains

/-- The text of the condition on the type. -/
def typeFragments (g : Group) : List Fragment :=
  [.text "type = ANY(", .bind (.texts g.types), .text "::TEXT[])"]

/-- The text of the condition on the tags. -/
def tagFragments (g : Group) : List Fragment :=
  [.text "tags @> ", .bind (.texts g.tags), .text "::TEXT[]"]

/-- The text of the group. -/
def fragments (g : Group) : List Fragment :=
  -- a query that is not match-all has no group without a side
  let sides := (if g.types.isEmpty then [] else [g.typeFragments]) ++
    (if g.tags.isEmpty then [] else [g.tagFragments])
  .text "(" :: joinWith " AND " sides ++ [.text ")"]

end Group

namespace Predicate

/-- The predicate of a query. -/
def ofQuery (q : Query) : Predicate :=
  if q.isMatchAll then .everything else .anyOf (q.items.map Group.ofItem)

theorem ofQuery_eq_everything {q : Query} (h : q.isMatchAll = true) : ofQuery q = .everything :=
  if_pos h

theorem ofQuery_eq_anyOf {q : Query} (h : q.isMatchAll = false) :
    ofQuery q = .anyOf (q.items.map Group.ofItem) :=
  if_neg (Bool.eq_false_iff.mp h)

/-- The row meets the predicate. -/
def holds : Predicate → Row → Bool
  | .everything, _ => true
  | .anyOf gs, r => gs.any (·.holds r)

/-- The text of the predicate. -/
def fragments : Predicate → List Fragment
  | .everything => [.text "TRUE"]
  | .anyOf gs => .text "(" :: joinWith " OR " (gs.map Group.fragments) ++ [.text ")"]

end Predicate

/-- Which rows are read: those after a position that meet the predicate of a query, in order of
position, up to a number of rows. -/
structure Selection where
  query : Query
  after : Position
  limit : Option Int
deriving DecidableEq, Repr, Inhabited

namespace Selection

/-- The row is one of those that are read, the limit apart. -/
def includes (s : Selection) (r : Row) : Bool :=
  decide (s.after < r.position) && (Predicate.ofQuery s.query).holds r

/-- Rows in order of position. -/
def inOrder (rows : List Row) : List Row :=
  rows.mergeSort fun a b => a.position ≤ b.position

/-- The rows of a table that are read. -/
def rows (s : Selection) (table : List Row) : List Row :=
  let found := inOrder (table.filter s.includes)
  match s.limit with
  | none => found
  | some n => found.take n.toNat

/-- The columns of the table of events. -/
def columns : String :=
  "id, type, tags, data, position, causation_id, correlation_id, created_at"

/-- The text that reads the rows. -/
def fragments (s : Selection) : List Fragment :=
  .text ("SELECT " ++ columns ++ " FROM events WHERE position > ") :: .bind (.number s.after) ::
    .text " AND " :: (Predicate.ofQuery s.query).fragments ++ .text " ORDER BY position ASC" ::
    (match s.limit with
      | none => []
      | some n => [.text " LIMIT ", .bind (.number n)])

end Selection

/-- A row of the table violates the condition. -/
def conflicts (c : AppendCondition) (table : List Row) : Bool :=
  table.any (Selection.includes ⟨c.failIfEventsMatch, c.afterPosition, none⟩)

/-- The text that asks for a row that violates a condition. -/
def conflictFragments (c : AppendCondition) : List Fragment :=
  .text "SELECT EXISTS (SELECT 1 FROM events WHERE position > " :: .bind (.number c.afterPosition) ::
    .text " AND " :: (Predicate.ofQuery c.failIfEventsMatch).fragments ++ [.text ")"]

end EventLog.Sql
