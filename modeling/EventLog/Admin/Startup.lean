import EventLog.Admin.Command
import EventLog.Connection
import EventLog.Settings

/-!
# Starting the program

The command line is read first, then the settings, then the database is opened and its schema brought
up to date, and at last the command is run. The first failure ends the program.

* `Client.ofSettings` opens the database as the settings say.
* `run` runs the program and gives what it prints and its exit code.
-/

namespace EventLog

open Database

namespace Database.Client

/-- How the sessions of a connection introduce themselves. -/
def startupOf (c : Connection) (applicationName : String) : Startup :=
  { user := c.user, database := c.database, applicationName, options := c.options }

/-- A client of a server, without a session. -/
def ofSettings (s : DatabaseSettings) (server : Server) : Except StoreError Client := do
  s.validate.mapError .settings
  let connection ← (Connection.ofSettings s).mapError .settings
  return { server, startup := startupOf connection s.applicationName,
           maxConnections := s.maxConnections, acquireTimeout := s.connectTimeout, busy := 0,
           deadlines := [] }

/-- Opens the first session. -/
def connect (c : Client) : Client := { c with server := c.server.greet c.startup }

end Database.Client

namespace Admin

/-- Why the program ended before its time. -/
inductive Failure
  | settings (e : SettingsError)
  | store (e : StoreError)
  /-- A gate or a stream cannot have as many places as the settings ask. -/
  | overflow
deriving DecidableEq, Repr, Inhabited

/-- How the program ended. -/
structure Ending where
  output : String
  exitCode : Nat
  failure : Option Failure
deriving Repr, Inhabited

namespace Failure

/-- A failure with the failures behind it. -/
def report (message : String) (causes : List String) : String :=
  "Error: " ++ message ++
    match causes with
    | [] => ""
    | [cause] => "\n\nCaused by:\n    " ++ cause
    | causes => "\n\nCaused by:" ++
      String.join (causes.zipIdx.map fun (cause, i) => "\n    " ++ toString i ++ ": " ++ cause)

/-- What the program says of a failure. -/
def text? : Failure → Option String
  | .settings e => some (report e.message e.causes)
  | .store e => some (report e.message e.causes)
  | .overflow => none

/-- The exit code of a failure. -/
def exitCode : Failure → Nat
  | .overflow => 101
  | _ => 1

end Failure

/-- The program and its version. -/
def versionLine : String := "dcb-admin 0.1.0\n"

namespace Ending

/-- The program ended with a failure. -/
def failed (f : Failure) : Ending := ⟨"", f.exitCode, some f⟩

/-- The program ended with its command line. -/
def ofUsage (e : UsageError) : Ending :=
  ⟨if e = .displayVersion then versionLine else "", e.exitCode, none⟩

/-- The program ended with its command. -/
def ofOutcome (o : Command.Outcome) : Ending :=
  match o.failure with
  | none => ⟨o.output, 0, none⟩
  | some e => ⟨o.output, 1, some (.store e)⟩

end Ending

/-- Runs a command under settings. -/
def runCommand (c : Command) (settings : Settings) (server : Server) : Ending × Server :=
  match Client.ofSettings settings.database server with
  | .error e => (.failed (.store e), server)
  | .ok client =>
    match Schema.migrate.runOn client.connect with
    | (.error e, client) => (.failed (.store e), client.server)
    | (.ok (), client) =>
      match Store.start settings.store client EventId.ofNat ⟨0, 0⟩ with
      | .error e => (.failed (.store e), client.server)
      | .ok none => (.failed .overflow, client.server)
      | .ok (some store) =>
        match c.run store with
        | none => (.failed .overflow, client.server)
        | some (outcome, store) => (.ofOutcome outcome, store.client.server)

/-- Runs the program. `file` holds the settings if there are any, and `url` is the address from the
environment. -/
def run (args : List String) (file : Option ByteArray) (url : Option String) (server : Server) :
    Ending × Server :=
  match Command.parse args with
  | .error e => (.ofUsage e, server)
  | .ok c =>
    match Settings.load file url with
    | .error e => (.failed (.settings e), server)
    | .ok settings => runCommand c settings server

end Admin

end EventLog
