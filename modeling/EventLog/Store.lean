import EventLog.Database.Schema
import EventLog.Limiter
import EventLog.Settings.Store

/-!
# The event store

A store is the handle through which an event log is used: its settings, the gate of its projections,
and a client of the database. New events get identifiers from an endless supply.

* `Store.start` opens a store if its settings can be used.
* `Store.run` does an action of the client.
-/

namespace EventLog

open Database

/-- A handle to an event log. -/
structure Store where
  settings : StoreSettings
  limiter : Limiter
  client : Client
  /-- The identifier of the `n`-th event that is prepared. -/
  mint : Nat → EventId
  /-- How many events have been prepared. -/
  minted : Nat
  /-- The time of new events. -/
  now : Instant

namespace Store

variable {α : Type}

/-- Opens a store. Settings that are not valid are refused; there is no store if its gate cannot have
as many places as the settings ask. -/
def start (settings : StoreSettings) (client : Client) (mint : Nat → EventId) (now : Instant) :
    Except StoreError (Option Store) := do
  settings.validate.mapError .settings
  return (Limiter.new? settings.maxProjections).map fun limiter =>
    { settings, limiter, client, mint, minted := 0, now }

/-- The committed rows of the log. -/
def table (s : Store) : Table := s.client.server.table

/-- Does an action of the client. -/
def run (s : Store) (action : Db α) : Except StoreError α × Store :=
  let (r, client) := action.runOn s.client
  (r, { s with client })

/-- The highest position of the log, 0 if it is empty. -/
def headPosition (s : Store) : Except StoreError Position × Store :=
  s.run (Db.inSession Db.head)

/-- Brings the schema up to date. -/
def migrate (s : Store) : Except StoreError Unit × Store :=
  s.run Schema.migrate

/-- Takes a place at the gate. -/
def hold (s : Store) : Except StoreError Unit × Store :=
  match s.limiter.tryAdmit with
  | .error e => (.error e, s)
  | .ok limiter => (.ok (), { s with limiter })

/-- Gives a place at the gate back. -/
def release (s : Store) : Store := { s with limiter := s.limiter.release }

end Store

end EventLog
