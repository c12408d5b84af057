import EventLog.Error
import EventLog.Table

/-!
# The database server

The server holds the table of events, the ledger of schema versions and a transcript of all that was
sent to it. It can be told to be slow or to fail: a fault waits for the `nth` statement whose text
contains a needle, delays it, and may refuse it.

Apart from faults, a statement is refused only for what is already in the table. This is an ideal server.
A real one also has limits that depend on a statement alone: on the number of a `FETCH`, on the characters of
a text, on the length of a statement. Where the client meets one of them, its doc comment says so; to take
such a limit into account is to set up a fault.
-/

namespace EventLog.Database

open Sql

/-- A delay or a refusal that is set up for a statement. It happens once. -/
structure Fault where
  needle : String
  nth : Nat
  /-- The reason of the refusal; without one the statement is only delayed. -/
  refusal : Option String
  /-- The delay in milliseconds. -/
  stall : Nat
  /-- The statements with the needle that were sent so far. -/
  seen : Nat
  spent : Bool
deriving DecidableEq, Repr, Inhabited

/-- How a session introduces itself. -/
structure Startup where
  user : String
  database : Option String
  applicationName : String
  options : Option String
deriving DecidableEq, Repr, Inhabited

/-- A schema version in the ledger. -/
structure LedgerEntry where
  version : Int
  /-- The text of the version was the one that is known. -/
  genuine : Bool
  finished : Bool
deriving DecidableEq, Repr, Inhabited

/-- The state of the database. -/
structure Server where
  table : Table
  faults : List Fault
  /-- All statements in the order in which they were sent. -/
  transcript : List Statement
  /-- The introductions of the sessions that were opened, each once. -/
  startups : List Startup
  ledger : List LedgerEntry
  /-- How often the script of the schema was executed. -/
  schemaRuns : Nat
deriving Repr, Inhabited

/-- `needle` occurs in the list. -/
def occursIn (needle : List Char) : List Char → Bool
  | [] => needle.isEmpty
  | c :: cs => needle.isPrefixOf (c :: cs) || occursIn needle cs

/-- Counts a statement at the first unspent fault whose needle occurs in it. The second result is that
fault if it happens now. -/
def Fault.trigger (text : List Char) : List Fault → List Fault × Option Fault
  | [] => ([], none)
  | f :: fs =>
    if !f.spent && occursIn f.needle.toList text then
      let seen := f.seen + 1
      if seen == f.nth then ({ f with seen, spent := true } :: fs, some f)
      else ({ f with seen } :: fs, none)
    else
      let (fs, hit) := trigger text fs
      (f :: fs, hit)

namespace Server

/-- A server with a table and nothing else. -/
def ofTable (table : Table) : Server :=
  { table, faults := [], transcript := [], startups := [], ledger := [], schemaRuns := 0 }

/-- Takes note of a statement. The second result is the fault that it meets. -/
def receive (s : Server) (stmt : Statement) : Server × Option Fault :=
  let s := { s with transcript := s.transcript ++ [stmt] }
  if s.faults.isEmpty then (s, none)
  else
    let (faults, hit) := Fault.trigger stmt.text.toList s.faults
    ({ s with faults }, hit)

/-- Takes note of a session. -/
def greet (s : Server) (startup : Startup) : Server :=
  if s.startups.contains startup then s else { s with startups := s.startups ++ [startup] }

end Server

end EventLog.Database
