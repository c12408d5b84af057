import EventLog.Store.Read

/-!
# Reading in batches

The events that a query selects, batch after batch, from a cursor that stays open in between. Nothing
is sent before the first batch is asked for. A batch that is not full is the last one and closes the
cursor; a failure ends the reading.

* `Batches.next` gives the next batch.
* `Store.readBatches` gives a number of them, or all.
-/

namespace EventLog

open Database Sql

/-- A reading in batches. -/
inductive Batches
  | unopened (q : Query) (o : ReadOptions)
  | opened (cursor : Cursor) (batchSize : Nat)
  | finished
deriving Repr, Inhabited

namespace Database.Cursor

/-- Begins a transaction and declares a cursor in it. -/
def openFor (level : Isolation) (s : Selection) : Db Cursor := do
  Db.begin
  Db.orRollBack do
    Db.send (.setIsolation level)
    declare s

/-- Takes a batch, and closes the cursor when the batch is not full. Without a batch the cursor had
nothing left. -/
def nextBatch (cursor : Cursor) (batchSize timeout : Nat) : Db (Option (List Event) × Batches) :=
  Db.orRollBack do
    let (events, cursor) ← cursor.fetch batchSize timeout
    if events.isEmpty then
      close
      return (none, .finished)
    else if events.length < batchSize then
      -- the table had no more rows when the cursor was declared
      close
      return (some events, .finished)
    else
      return (some events, .opened cursor batchSize)

end Database.Cursor

namespace Batches

/-- Opens the cursor of a reading if it has none. -/
def openCursor (settings : StoreSettings) : Batches → Db (Option (Cursor × Nat))
  | .unopened q o => do
    Db.ofExcept id q.check
    let cursor ← Cursor.openFor (settings.isolationOf o) (o.selection q)
    return some (cursor, settings.batchSizeOf o)
  | .opened cursor batchSize => return some (cursor, batchSize)
  | .finished => return none

/-- Takes the next batch; there is none at the end. -/
def take (settings : StoreSettings) (b : Batches) : Db (Option (List Event) × Batches) := do
  match ← b.openCursor settings with
  | none => return (none, .finished)
  | some (cursor, batchSize) => cursor.nextBatch batchSize settings.queryTimeout

/-- Gives the next batch. After a failure there is none. -/
def next (b : Batches) (s : Store) : Except StoreError (Option (List Event)) × Batches × Store :=
  match s.run (b.take s.settings) with
  | (.ok (batch, b), s) => (.ok batch, b, s)
  | (.error e, s) => (.error e, .finished, s)

/-- Ends a reading; an open cursor is given up. -/
def drop (b : Batches) (s : Store) : Store :=
  match b with
  | .opened _ _ => (s.run Db.abandon).2
  | _ => s

/-- The most batches that are left. -/
def bound (s : Store) : Batches → Nat
  | .unopened _ _ => s.table.length + 1
  | .opened cursor _ => cursor.pending.length + 1
  | .finished => 1

/-- Gives up to `count` batches and the failure that ends them, and ends the reading. -/
def collect (count : Nat) (b : Batches) (s : Store) :
    List (List Event) × Option StoreError × Store :=
  match count with
  | 0 => ([], none, b.drop s)
  | count + 1 =>
    match b.next s with
    | (.error e, _, s) => ([], some e, s)
    | (.ok none, _, s) => ([], none, s)
    | (.ok (some batch), b, s) =>
      let (batches, e, s) := collect count b s
      (batch :: batches, e, s)

end Batches

namespace Store

/-- Reads the events that a query selects in batches, at most `count` of them if it is given. -/
def readBatches (s : Store) (q : Query) (o : ReadOptions) (count : Option Nat) :
    List (List Event) × Option StoreError × Store :=
  let b := Batches.unopened q o
  b.collect (count.getD (b.bound s)) s

end Store

end EventLog
