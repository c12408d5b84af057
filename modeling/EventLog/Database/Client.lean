import EventLog.Database.Server

/-!
# The client of the database

A client has a pool of sessions, each opened when it is first needed. An action sends statements, may
fail, and stands under deadlines. Time passes while a statement is delayed or a session is awaited;
of several deadlines that have passed by then the outermost counts.

* `Db` is the type of actions.
* `begin`, `commit`, `rollBack` and `orRollBack` bound a transaction: every `begin` that succeeds is
  followed by exactly one of the others that takes effect, and each gives the session back.
-/

namespace EventLog.Database

open Sql

/-- A limit on the time that an operation takes. -/
structure Deadline where
  operation : Operation
  limit : Nat
  elapsed : Nat
deriving DecidableEq, Repr, Inhabited

/-- The time of a deadline is used up. -/
def Deadline.hasPassed (d : Deadline) : Bool := decide (d.limit ≤ d.elapsed)

/-- A client with its pool. -/
structure Client where
  server : Server
  startup : Startup
  /-- The most sessions that the pool opens. -/
  maxConnections : Nat
  /-- The longest wait for a session in milliseconds. -/
  acquireTimeout : Nat
  /-- The sessions in use. -/
  busy : Nat
  /-- The deadlines in force, outermost first. -/
  deadlines : List Deadline
deriving Repr, Inhabited

/-- An action on the database. -/
abbrev Db (α : Type) := ExceptT StoreError (StateM Client) α

/-- Runs an action on a client. -/
def Db.runOn {α : Type} (action : Db α) (c : Client) : Except StoreError α × Client :=
  Id.run (StateT.run (ExceptT.run action) c)

namespace Db

variable {α : Type}

/-- An action given by what it does to a client. -/
def ofFunction (f : Client → Except StoreError α × Client) : Db α :=
  ExceptT.mk fun c => pure (f c)

/-- A failure. -/
def fail (e : StoreError) : Db α := ofFunction fun c => (.error e, c)

/-- The outcome of an action that may have failed. -/
def attempt (action : Db α) : Db (Except StoreError α) :=
  ofFunction fun c =>
    let (r, c) := action.runOn c
    (.ok r, c)

/-- A value that may be an error of another kind. -/
def ofExcept {ε : Type} (wrap : ε → StoreError) (r : Except ε α) : Db α :=
  match r with
  | .ok x => pure x
  | .error e => fail (wrap e)

/-- Looks at the table. -/
def table : Db Table := ofFunction fun c => (.ok c.server.table, c)

/-- Changes the server. -/
def update (f : Server → Server) : Db Unit :=
  ofFunction fun c => (.ok (), { c with server := f c.server })

/-- Lets time pass. -/
def pass (millis : Nat) : Db Unit :=
  ofFunction fun c =>
    let deadlines := c.deadlines.map fun d => { d with elapsed := d.elapsed + millis }
    let c := { c with deadlines }
    match deadlines.find? Deadline.hasPassed with
    | some d => (.error (.timeout d.operation d.limit), c)
    | none => (.ok (), c)

/-- Runs an action under a deadline. -/
def within (operation : Operation) (limit : Nat) (action : Db α) : Db α :=
  ofFunction fun c =>
    let outer := c.deadlines.length
    let (r, c) := action.runOn { c with deadlines := c.deadlines ++ [⟨operation, limit, 0⟩] }
    (r, { c with deadlines := c.deadlines.take outer })

/-- Takes a session of the pool; when all are in use, waits in vain. -/
def acquire : Db Unit := do
  let c ← get
  if c.busy < c.maxConnections then
    set { c with busy := c.busy + 1, server := c.server.greet c.startup }
  else
    -- nobody gives a session back while this action waits
    pass c.acquireTimeout
    fail (.database .poolTimedOut)

/-- Gives a session back. -/
def release : Db Unit := ofFunction fun c => (.ok (), { c with busy := c.busy - 1 })

/-- What a fault does to a statement that meets it. -/
def suffer (fault : Option Fault) : Db Unit :=
  match fault with
  | none => pure ()
  | some f => do
    if 0 < f.stall then pass f.stall
    match f.refusal with
    | none => pure ()
    | some reason => fail (.database (.refused reason))

/-- Sends a statement. -/
def send (stmt : Statement) : Db Unit := do
  let c ← get
  let (server, fault) := c.server.receive stmt
  set { c with server }
  suffer fault

/-- Fails if there is a reason. -/
def refuse (reason : Option String) : Db Unit :=
  match reason with
  | none => pure ()
  | some r => fail (.database (.refused r))

/-- Runs an action in a session of its own. -/
def inSession (action : Db α) : Db α := do
  acquire
  let r ← attempt action
  release
  ofExcept id r

/-- Ends a transaction that has failed or is given up; nothing can go wrong any more. -/
def abandon : Db Unit := do
  let _ ← attempt (send .rollback)
  release

/-- Runs an action inside a transaction; if it fails the transaction is given up. -/
def orRollBack (action : Db α) : Db α := do
  match ← attempt action with
  | .ok x => pure x
  | .error e =>
    abandon
    fail e

/-- Begins a transaction. -/
def begin : Db Unit := do
  acquire
  match ← attempt (send .begin) with
  | .ok () => pure ()
  | .error e =>
    release
    fail e

/-- Commits a transaction that has inserted rows. -/
def commit (inserted : List Row) : Db Unit := do
  send .commit
  -- deferred references are checked only now
  refuse ((← table).commitRefusal? inserted)
  update fun s => { s with table := s.table ++ inserted }
  release

/-- Rolls a transaction back. -/
def rollBack : Db Unit := do
  send .rollback
  release

/-- Asks for the highest position. -/
def head : Db Position := do
  send .head
  return (← table).head

/-- Reads rows. Their payloads come as values: no text of a payload is parsed here, so none is refused because
it nests too deep. -/
def select (s : Selection) : Db (List Row) := do
  send (.select s)
  return s.rows (← table)

/-- Reads the rows that name an event. -/
def lookup (link : Link) (id : EventId) : Db (List Row) := do
  send (.lookup link id)
  return (← table).linked link id

/-- Asks whether a row violates a condition. -/
def conflictCheck (condition : AppendCondition) : Db Bool := do
  send (.conflictCheck condition)
  return conflicts condition (← table)

/-- Inserts rows, to be kept at the commit. Texts and payloads are kept whatever their characters are; that the
server's texts have no `U+0000` is left out. -/
def insert (rows : List Row) : Db Unit := do
  send (.insert rows)
  refuse ((← table).insertRefusal? rows)

end Db

/-- An open cursor: the rows that it has not handed out. They are fixed when it is declared. -/
structure Cursor where
  pending : List Row
deriving Repr, Inhabited

namespace Cursor

open Db

/-- Declares a cursor. -/
def declare (s : Selection) : Db Cursor := do
  send (.declareCursor s)
  return ⟨s.rows (← table)⟩

/-- Takes up to `count` rows from a cursor and decodes them. Any count will do; that the server's counts are
signed numbers of 32 bits is left out. -/
def fetch (cursor : Cursor) (count timeout : Nat) : Db (List Event × Cursor) := do
  within .fetch timeout (send (.fetch count))
  let events ← ofExcept .corruptRow (Row.toEvents (cursor.pending.take count))
  return (events, ⟨cursor.pending.drop count⟩)

/-- Closes a cursor and ends its transaction. -/
def close : Db Unit := do
  send .closeCursor
  commit []

end Cursor

end EventLog.Database
