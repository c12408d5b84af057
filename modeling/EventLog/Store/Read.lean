import EventLog.Store

/-!
# Reading

Reads the events after a position that a query selects, in order of position, within one transaction.
The events that name another as their cause or group are read without one.

* `Store.read` reads all of them at once.
* `Store.causedBy` and `Store.correlatedWith` follow the lineage.
-/

namespace EventLog

open Database Sql

/-- What is read and how. -/
structure ReadOptions where
  /-- Only events after this position. -/
  after : Position := 0
  /-- The most events. -/
  limit : Option Nat := none
  /-- The most events of a batch; 0 leaves it to the settings. -/
  batchSize : Option Nat := none
  isolation : Option Isolation := none
deriving DecidableEq, Repr, Inhabited

namespace ReadOptions

/-- The limit as a number of the database. -/
def rowLimit (o : ReadOptions) : Option Int :=
  o.limit.map fun n => min (n : Int) Position.max

/-- The rows that a query asks for. -/
def selection (o : ReadOptions) (q : Query) : Selection := ⟨q, o.after, o.rowLimit⟩

end ReadOptions

namespace StoreSettings

/-- The isolation of a read. -/
def isolationOf (s : StoreSettings) (o : ReadOptions) : Isolation :=
  o.isolation.getD s.readIsolation

/-- The size of the batches of a read. -/
def batchSizeOf (s : StoreSettings) (o : ReadOptions) : Nat :=
  match o.batchSize with
  | some (n + 1) => n + 1
  | _ => s.fetchBatchSize

end StoreSettings

/-- Refuses a query that is not valid. -/
def Query.check (q : Query) : Except StoreError Unit := q.validate.mapError .invalidEvent

namespace Database.Db

/-- Reads rows in a transaction of their own. -/
def readRows (level : Isolation) (s : Selection) : Db (List Row) := do
  begin
  orRollBack do
    send (.setIsolation level)
    let rows ← select s
    commit []
    return rows

end Database.Db

namespace Store

/-- Reads the events that a query selects. -/
def read (s : Store) (q : Query) (o : ReadOptions) : Except StoreError (List Event) × Store :=
  match q.check with
  | .error e => (.error e, s)
  | .ok () => s.run do
    Db.within .read s.settings.queryTimeout do
      let rows ← Db.readRows (s.settings.isolationOf o) (o.selection q)
      Db.ofExcept .corruptRow (Row.toEvents rows)

/-- Reads the events that name an event. -/
def linked (s : Store) (link : Link) (id : EventId) : Except StoreError (List Event) × Store :=
  s.run do
    let rows ← Db.inSession (Db.lookup link id)
    Db.ofExcept .corruptRow (Row.toEvents rows)

/-- Reads the events that an event caused; an event that causes itself is one of them. -/
def causedBy (s : Store) (id : EventId) : Except StoreError (List Event) × Store :=
  s.linked .causation id

/-- Reads the events of a group. -/
def correlatedWith (s : Store) (id : EventId) : Except StoreError (List Event) × Store :=
  s.linked .correlation id

end Store

end EventLog
