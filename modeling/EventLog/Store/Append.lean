import EventLog.Store

/-!
# Appending

A batch of events is written in one transaction, all of it or nothing. The log is locked first, so
that nothing is written between the check of the condition and the commit. The events stand at the
positions after the head.

* `validateBatch` judges a batch.
* `Store.append` writes a batch under a condition, if there is one, and a lineage.
-/

namespace EventLog

open Database Sql

/-- Judges the events of a batch in order, counting from `index`. -/
def validateEach (index : Nat) : List InputEvent → Except ValidationError Unit
  | [] => .ok ()
  | e :: es => do
    e.validate.mapError (.inBatch index)
    validateEach (index + 1) es

/-- Refuses a batch that is empty, too large, or has an event that is refused. -/
def validateBatch (events : List InputEvent) (max : Nat) : Except ValidationError Unit :=
  if events.isEmpty then .error .emptyBatch
  else if max < events.length then .error (.batchTooLarge events.length max)
  else validateEach 0 events

/-- The outcome of an append. -/
structure Appended where
  firstPosition : Position
  lastPosition : Position
  /-- The identifiers of the events in order. -/
  ids : List EventId
deriving DecidableEq, Repr, Inhabited

/-- The position after `n` steps from `p`. -/
def Position.after (p : Position) : Nat → Position
  | 0 => p
  | n + 1 => Position.after p.next n

namespace Appended

/-- The outcome for a batch that was put after `head`. -/
def ofBatch (head : Position) (batch : List PreparedEvent) : Appended where
  firstPosition := head.next
  lastPosition := head.after batch.length
  ids := batch.map (·.id)

/-- The condition, if there is one and it is violated. -/
def violated? : Option AppendCondition → Db (Option AppendCondition)
  | none => return none
  | some c => do
    if ← Db.conflictCheck c then return some c else return none

/-- Writes a batch at the positions after the head and commits. -/
def write (batch : List PreparedEvent) : Db Appended := do
  let head ← Db.head
  let rows := Row.place head batch
  Db.insert rows
  Db.commit rows
  return ofBatch head batch

/-- Writes a batch in a transaction, or gives the condition that is violated. -/
def transaction (settings : StoreSettings) (batch : List PreparedEvent)
    (condition : Option AppendCondition) : Db (Except AppendCondition Appended) := do
  Db.begin
  Db.orRollBack do
    Db.send (.setIsolation settings.appendIsolation)
    -- events of one batch may name each other, so references are checked at the commit
    Db.send .deferConstraints
    Db.send (.lockTimeout settings.lockTimeout)
    -- until the commit there are no other appends
    Db.send .lockEvents
    match ← violated? condition with
    | some c =>
      Db.rollBack
      return .error c
    | none => return .ok (← write batch)

/-- Writes a batch; a violated condition is a conflict. -/
def guarded (settings : StoreSettings) (batch : List PreparedEvent)
    (condition : Option AppendCondition) : Db Appended := do
  match ← transaction settings batch condition with
  | .ok a => return a
  | .error c => Db.fail (.conflict c.afterPosition)

end Appended

namespace Store

/-- Refuses an append whose batch, or else the query of its condition, is not valid. -/
def validateAppend (s : Store) (events : List InputEvent) (condition : Option AppendCondition) :
    Except ValidationError Unit := do
  validateBatch events s.settings.maxBatchSize
  match condition with
  | none => return ()
  | some c => c.failIfEventsMatch.validate

/-- The events of a batch ready to be written. -/
def prepare (s : Store) (events : List InputEvent) (lineage : Lineage) : List PreparedEvent :=
  lineage.resolve s.mint s.now s.minted events

/-- Writes a batch. -/
def append (s : Store) (events : List InputEvent) (condition : Option AppendCondition)
    (lineage : Lineage) : Except StoreError Appended × Store :=
  match s.validateAppend events condition with
  | .error e => (.error (.invalidEvent e), s)
  | .ok () =>
    let batch := s.prepare events lineage
    -- identifiers are used up even if the batch is not written
    { s with minted := s.minted + events.length }.run
      (Db.within .append s.settings.appendTimeout (Appended.guarded s.settings batch condition))

end Store

end EventLog
