import EventLog.Projector
import EventLog.Row

/-!
# Errors

What can go wrong between a call on the log and its answer. Every error is a cause with its data; the
texts are in the `message` functions, and `causes` are the texts of the errors behind one.
-/

namespace EventLog

/-- Settings that cannot be used. -/
inductive SettingsError
  /-- The file cannot be read. -/
  | unreadable (reason : String)
  /-- The document has no meaning as settings. -/
  | malformed
  | invalid (field reason : String)
deriving DecidableEq, Repr, Inhabited

/-- The text of a settings error. -/
def SettingsError.message : SettingsError → String
  | .unreadable reason => "failed to read config file: " ++ reason
  | .malformed => "failed to parse config YAML"
  | .invalid field reason => "invalid config value for `" ++ field ++ "`: " ++ reason

/-- The texts of the errors behind a settings error. -/
def SettingsError.causes : SettingsError → List String
  | .unreadable reason => [reason]
  | _ => []

/-- A failure of the database behind the log. -/
inductive DatabaseError
  /-- The database refused a statement. -/
  | refused (reason : String)
  /-- No connection became free in time. -/
  | poolTimedOut
deriving DecidableEq, Repr, Inhabited

namespace DatabaseError

/-- The text of a database error. -/
def message : DatabaseError → String
  | .refused reason => "error returned from database: " ++ reason
  | .poolTimedOut => "pool timed out while waiting for an open connection"

/-- The texts of the errors behind a database error. -/
def causes : DatabaseError → List String
  | .refused reason => [reason]
  | .poolTimedOut => []

end DatabaseError

/-- A failure to bring the schema up to date. -/
inductive MigrationError
  /-- A version was begun and not finished. -/
  | unfinished (version : Int)
  /-- A version was applied that is not known. -/
  | unknown (version : Int)
  /-- A version was applied with another text. -/
  | altered (version : Int)
  /-- The script of a version failed. -/
  | script (version : Int) (source : DatabaseError)
  /-- A statement of the bookkeeping failed. -/
  | bookkeeping (source : DatabaseError)
deriving DecidableEq, Repr, Inhabited

namespace MigrationError

/-- The text of a migration error. -/
def message : MigrationError → String
  | .unfinished v => "migration " ++ toString v ++
    " is partially applied; fix and remove row from `_sqlx_migrations` table"
  | .unknown v => "migration " ++ toString v ++
    " was previously applied but is missing in the resolved migrations"
  | .altered v => "migration " ++ toString v ++ " was previously applied but has been modified"
  | .script v source => "while executing migration " ++ toString v ++ ": " ++ source.message
  | .bookkeeping source => "while executing migrations: " ++ source.message

/-- The texts of the errors behind a migration error. -/
def causes : MigrationError → List String
  | .script _ source => source.message :: source.causes
  | .bookkeeping source => source.message :: source.causes
  | _ => []

end MigrationError

/-- What a deadline is set for. -/
inductive Operation
  | append
  | read
  | fetch
  | stream
  | projection
deriving DecidableEq, Repr, Inhabited

/-- The name of an operation. -/
def Operation.name : Operation → String
  | .append => "append"
  | .read => "read"
  | .fetch => "fetch"
  | .stream => "stream"
  | .projection => "projection"

/-- Why a call on the log failed. -/
inductive StoreError
  /-- An event after the position violates the condition of an append. -/
  | conflict (afterPosition : Position)
  | tooManyProjections (max current : Nat)
  | invalidEvent (source : ValidationError)
  | invalidProjectors (reason : String)
  | projection (source : ProjectionError)
  | timeout (operation : Operation) (millis : Nat)
  | corruptRow (source : CorruptRow)
  | database (source : DatabaseError)
  | migration (source : MigrationError)
  | settings (source : SettingsError)
  | worker (reason : String)
deriving DecidableEq, Repr, Inhabited

namespace StoreError

/-- The text of an error. -/
def message : StoreError → String
  | .conflict p =>
    "append condition violated: matching event found after position " ++ toString p
  | .tooManyProjections max current =>
    "too many concurrent projections (" ++ toString current ++ "/" ++ toString max ++ ")"
  | .invalidEvent e => "invalid event: " ++ e.message
  | .invalidProjectors reason => "invalid projector set: " ++ reason
  | .projection e => "projection failed: " ++ e.message
  | .timeout operation millis =>
    operation.name ++ " timed out after " ++ toString millis ++ "ms"
  | .corruptRow c => "corrupt event row at position " ++ toString c.position ++ ": " ++ c.reason
  | .database e => "PostgreSQL error: " ++ e.message
  | .migration e => "PostgreSQL migration error: " ++ e.message
  | .settings e => "Configuration error: " ++ e.message
  | .worker reason => "projection worker failed: " ++ reason

/-- The texts of the errors behind an error, outermost first. -/
def causes : StoreError → List String
  | .invalidEvent e => e.message :: e.causes.map (·.message)
  | .projection (.decode t p source) => [ProjectionError.message (.decode t p source), source]
  | .projection e => [e.message]
  | .database e => e.message :: e.causes
  | .migration e => e.message :: e.causes
  | .settings e => e.message :: e.causes
  | _ => []

/-- The append lost against another; the decision has to be made again. -/
def isConflict : StoreError → Bool
  | .conflict _ => true
  | _ => false

/-- The same call may succeed later. -/
def isTransient : StoreError → Bool
  | .tooManyProjections _ _ => true
  | .timeout _ _ => true
  | _ => false

end StoreError

end EventLog
