import EventLog.Store.Read

/-!
# Reading as a stream

The events that a query selects, one after the other, from one statement. A stream that is read to its
end commits its transaction; one that is given up before, or that meets a row it cannot decode, rolls
it back.
-/

namespace EventLog

open Database Sql

/-- What a stream gave: its events and the failure that ended it. -/
structure Streamed where
  events : List Event
  failure : Option StoreError
deriving Repr, Inhabited

namespace Streamed

/-- Sends the statement of a stream. -/
def start (settings : StoreSettings) (q : Query) (o : ReadOptions) : Db (List Row) := do
  Db.ofExcept id q.check
  Db.begin
  Db.orRollBack do
    Db.send (.setIsolation (settings.isolationOf o))
    Db.within .stream settings.queryTimeout (Db.select (o.selection q))

/-- Gives the events of rows, at most `count` of them if it is given, and ends the transaction. -/
def deliver (count : Option Nat) (rows : List Row) : Db Streamed := do
  let (events, corrupt) := Row.toEventsUntil rows
  match count.filter (· ≤ events.length), corrupt with
  | some n, _ =>
    Db.abandon
    return ⟨events.take n, none⟩
  | none, some c =>
    Db.abandon
    return ⟨events, some (.corruptRow c)⟩
  | none, none =>
    match ← Db.attempt (Db.orRollBack (Db.commit [])) with
    | .ok () => return ⟨events, none⟩
    | .error e => return ⟨events, some e⟩

end Streamed

namespace Store

/-- Reads the events that a query selects as a stream, at most `count` of them if it is given. There
is no stream if it cannot hold as many events ready as the settings ask. -/
def stream (s : Store) (q : Query) (o : ReadOptions) (count : Option Nat) :
    Option (Streamed × Store) :=
  if Limiter.maxPlaces < s.settings.streamBuffer then none
  else if count = some 0 then some (⟨[], none⟩, s)
  else
    some (match s.run (do Streamed.deliver count (← Streamed.start s.settings q o)) with
      | (.ok streamed, s) => (streamed, s)
      | (.error e, s) => (⟨[], some e⟩, s))

end Store

end EventLog
