import EventLog.Database.Client

/-!
# The schema

The script of the events table is version 1 of the schema. The ledger of the database tells which
versions were applied. The schema is brought up to date only if every version of the ledger is
finished, known and unaltered, judged in this order and in order of version.
-/

namespace EventLog.Database.Schema

open Sql Db

/-- The version of the schema. -/
def version : Int := 1

/-- The ledger in order of version. -/
def inOrder (ledger : List LedgerEntry) : List LedgerEntry :=
  ledger.mergeSort fun a b => a.version ≤ b.version

/-- Why the schema cannot be brought up to date. -/
def refusal? (ledger : List LedgerEntry) : Option MigrationError :=
  let entries := inOrder ledger
  match entries.find? (!·.finished) with
  | some e => some (.unfinished e.version)
  | none =>
    match entries.find? (·.version != version) with
    | some e => some (.unknown e.version)
    | none =>
      match entries.find? (!·.genuine) with
      | some e => some (.altered e.version)
      | none => none

/-- The schema has been applied. -/
def isApplied (ledger : List LedgerEntry) : Bool := ledger.any (·.version == version)

/-- Says what went wrong with the bookkeeping. -/
def bookkeeping {α : Type} (action : Db α) : Db α := do
  match ← attempt action with
  | .ok x => pure x
  | .error (.database e) => fail (.migration (.bookkeeping e))
  | .error e => fail e

/-- Runs the script of the schema. -/
def runScript : Db Unit := do
  match ← attempt (send (.upkeep .script)) with
  | .ok () => update fun s => { s with schemaRuns := s.schemaRuns + 1 }
  | .error (.database e) => fail (.migration (.script version e))
  | .error e => fail e

/-- Enters the schema into the ledger. -/
def enter : Db Unit :=
  update fun s => { s with ledger := s.ledger ++ [⟨version, true, true⟩] }

/-- Gives the transaction of the script up if a part of it fails. -/
def orGiveUp (action : Db Unit) : Db Unit := do
  match ← attempt action with
  | .ok () => pure ()
  | .error e =>
    let _ ← attempt (send (.upkeep .rollback))
    fail e

/-- Runs the script and enters it into the ledger, in one transaction. -/
def apply : Db Unit := do
  send (.upkeep .begin)
  orGiveUp do
    runScript
    send (.upkeep .record)
    send (.upkeep .commit)
    enter
  send (.upkeep .recordTime)

/-- Brings the schema up to date. -/
def migrate : Db Unit := bookkeeping <| inSession do
  send (.upkeep .databaseName)
  send (.upkeep .lock)
  send (.upkeep .createLedger)
  send (.upkeep .unfinished)
  let ledger := (← get).server.ledger
  match refusal? ledger with
  | some (.unfinished v) => fail (.migration (.unfinished v))
  | refusal =>
    send (.upkeep .applied)
    match refusal with
    | some e => fail (.migration e)
    | none =>
      if !isApplied ledger then apply
      send (.upkeep .databaseName)
      send (.upkeep .unlock)

end EventLog.Database.Schema
