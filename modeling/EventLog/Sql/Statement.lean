import EventLog.Isolation
import EventLog.Sql.Predicate

/-!
# Statements

Everything that is asked of the database, as data. The meaning of a statement is given where it is
sent; here is its text, with the values that are bound to its placeholders.

* `Statement.fragments` is a statement written down, `Statement.text` and `Statement.binds` are its two
  halves.
* `Upkeep` are the statements that bring the schema up to date.
-/

namespace EventLog.Sql

/-- How an event names a related one. -/
inductive Link
  | causation
  | correlation
deriving DecidableEq, Repr, Inhabited

/-- The column of a link. -/
def Link.column : Link → String
  | .causation => "causation_id"
  | .correlation => "correlation_id"

/-- The statements that bring the schema up to date. -/
inductive Upkeep
  | databaseName
  | lock
  | createLedger
  /-- Asks for a version that was begun and not finished. -/
  | unfinished
  /-- Asks for the versions that were applied. -/
  | applied
  | begin
  /-- The script of the events table. -/
  | script
  | record
  | commit
  | rollback
  | recordTime
  | unlock
deriving DecidableEq, Repr, Inhabited

/-- The text of an upkeep statement. -/
def Upkeep.text : Upkeep → String
  | .databaseName => "SELECT current_database()"
  | .lock => "SELECT pg_advisory_lock($1)"
  | .createLedger =>
    "CREATE TABLE IF NOT EXISTS _sqlx_migrations ( version BIGINT PRIMARY KEY, " ++
    "description TEXT NOT NULL, installed_on TIMESTAMPTZ NOT NULL DEFAULT now(), " ++
    "success BOOLEAN NOT NULL, checksum BYTEA NOT NULL, execution_time BIGINT NOT NULL );"
  | .unfinished => "SELECT version FROM _sqlx_migrations WHERE success = false ORDER BY version LIMIT 1"
  | .applied => "SELECT version, checksum FROM _sqlx_migrations ORDER BY version"
  | .begin => "BEGIN"
  | .script =>
    "-- Append-only DCB event log. " ++
    "-- " ++
    "-- Positions are assigned by the append engine while it holds an EXCLUSIVE " ++
    "-- lock on this table, so they are gapless and commit in order. " ++
    "-- causation_id / correlation_id reference other rows and are checked at " ++
    "-- commit, which lets the first event of a chain point at itself. " ++
    "CREATE TABLE IF NOT EXISTS events ( " ++
    "id UUID PRIMARY KEY, " ++
    "type TEXT NOT NULL, " ++
    "tags TEXT[] NOT NULL DEFAULT '\x7b\x7d', " ++
    "data JSONB NOT NULL, " ++
    "position BIGINT NOT NULL, " ++
    "causation_id UUID NOT NULL, " ++
    "correlation_id UUID NOT NULL, " ++
    "created_at TIMESTAMPTZ NOT NULL DEFAULT now(), " ++
    "CONSTRAINT events_position_positive CHECK (position > 0), " ++
    "CONSTRAINT events_causation_fk FOREIGN KEY (causation_id) " ++
    "REFERENCES events (id) DEFERRABLE INITIALLY DEFERRED, " ++
    "CONSTRAINT events_correlation_fk FOREIGN KEY (correlation_id) " ++
    "REFERENCES events (id) DEFERRABLE INITIALLY DEFERRED ); " ++
    "CREATE UNIQUE INDEX IF NOT EXISTS events_position_idx ON events (position); " ++
    "CREATE INDEX IF NOT EXISTS events_tags_gin_idx ON events USING GIN (tags); " ++
    "CREATE INDEX IF NOT EXISTS events_type_position_idx ON events (type, position); " ++
    "CREATE INDEX IF NOT EXISTS events_causation_idx ON events (causation_id); " ++
    "CREATE INDEX IF NOT EXISTS events_correlation_idx ON events (correlation_id);"
  | .record =>
    "INSERT INTO _sqlx_migrations ( version, description, success, checksum, execution_time ) " ++
    "VALUES ( $1, $2, TRUE, $3, -1 )"
  | .commit => "COMMIT"
  | .rollback => "ROLLBACK"
  | .recordTime => "UPDATE _sqlx_migrations SET execution_time = $1 WHERE version = $2"
  | .unlock => "SELECT pg_advisory_unlock($1)"

/-- A statement that is sent to the database. -/
inductive Statement
  | begin
  | commit
  | rollback
  | setIsolation (level : Isolation)
  /-- References between rows are checked at the commit. -/
  | deferConstraints
  /-- The longest wait for a lock. -/
  | lockTimeout (millis : Nat)
  /-- Keeps other writers out until the transaction ends. -/
  | lockEvents
  /-- Asks for the highest position. -/
  | head
  | conflictCheck (condition : AppendCondition)
  | insert (rows : List Row)
  | select (selection : Selection)
  | lookup (link : Link) (id : EventId)
  | declareCursor (selection : Selection)
  | fetch (count : Nat)
  | closeCursor
  | upkeep (u : Upkeep)
deriving Repr, Inhabited

namespace Statement

/-- The name of the cursor. -/
def cursorName : String := "dcb_event_cursor"

/-- The text that inserts rows, a list for each column. -/
def insertText : String :=
  "INSERT INTO events (id, type, tags, data, position, causation_id, correlation_id, created_at) " ++
  "SELECT u.id, u.type, " ++
  "ARRAY(SELECT t.tag FROM jsonb_array_elements_text(u.tags) WITH ORDINALITY AS t(tag, ord) " ++
  "ORDER BY t.ord), " ++
  "u.data, u.position, u.causation_id, u.correlation_id, u.created_at FROM UNNEST("

/-- The columns of an insertion: the values of each and the type of its list. -/
def insertColumns (rows : List Row) : List (Bind × String) :=
  [(.ids (rows.map (·.id)), "UUID"), (.texts (rows.map (·.eventType)), "TEXT"),
    (.textLists (rows.map (·.tags)), "JSONB"), (.documents (rows.map (·.data)), "JSONB"),
    (.numbers (rows.map (·.position)), "BIGINT"), (.ids (rows.map (·.causationId)), "UUID"),
    (.ids (rows.map (·.correlationId)), "UUID"), (.instants (rows.map (·.createdAt)), "TIMESTAMPTZ")]

/-- An insertion written down. -/
def insertFragments (rows : List Row) : List Fragment :=
  .text insertText ::
    joinWith ", " ((insertColumns rows).map fun c => [.bind c.1, .text ("::" ++ c.2 ++ "[]")]) ++
    [.text ") AS u(id, type, tags, data, position, causation_id, correlation_id, created_at)"]

/-- A statement written down. -/
def fragments : Statement → List Fragment
  | .begin => [.text "BEGIN"]
  | .commit => [.text "COMMIT"]
  | .rollback => [.text "ROLLBACK"]
  | .setIsolation level => [.text level.statement]
  | .deferConstraints => [.text "SET CONSTRAINTS ALL DEFERRED"]
  | .lockTimeout millis => [.text ("SET LOCAL lock_timeout = '" ++ toString millis ++ "ms'")]
  | .lockEvents => [.text "LOCK TABLE events IN EXCLUSIVE MODE"]
  | .head => [.text "SELECT COALESCE(MAX(position), 0)::BIGINT FROM events"]
  | .conflictCheck c => conflictFragments c
  | .insert rows => insertFragments rows
  | .select s => s.fragments
  | .lookup link id => [
      .text ("SELECT " ++ Selection.columns ++ " FROM events WHERE " ++ link.column ++ " = "),
      .bind (.id id), .text " ORDER BY position ASC"]
  | .declareCursor s =>
    .text ("DECLARE " ++ cursorName ++ " NO SCROLL CURSOR FOR ") :: s.fragments
  | .fetch count => [.text ("FETCH FORWARD " ++ toString count ++ " FROM " ++ cursorName)]
  | .closeCursor => [.text ("CLOSE " ++ cursorName)]
  | .upkeep u => [.text u.text]

/-- The text of a statement. -/
def text (s : Statement) : String := render s.fragments

/-- The values bound to the placeholders of a statement. -/
def binds (s : Statement) : List Bind := Sql.binds s.fragments

end Statement

end EventLog.Sql
