import EventLog.Isolation
import EventLog.Settings.Database

/-!
# Store settings

The limits, deadlines and isolation levels of the event log. Every setting has a default.
-/

namespace EventLog

/-- Limits, deadlines in milliseconds, and isolation levels. -/
structure StoreSettings where
  /-- The most events of one append. -/
  maxBatchSize : Nat := 1000
  /-- The longest wait of an append for the log. -/
  lockTimeout : Nat := 5000
  /-- The deadline of reads and projections. -/
  queryTimeout : Nat := 15000
  /-- The deadline of appends. -/
  appendTimeout : Nat := 10000
  /-- The most events that a stream holds ready. -/
  streamBuffer : Nat := 1000
  /-- The rows that are fetched at once. -/
  fetchBatchSize : Nat := 1000
  readIsolation : Isolation := .repeatableRead
  appendIsolation : Isolation := .readCommitted
  /-- The most projections that run at once. -/
  maxProjections : Nat := 50
  /-- The most workers of one projection. -/
  maxWorkers : Nat := 4
deriving DecidableEq, Repr, Inhabited

/-- Reads the name of an isolation level. -/
def Isolation.readNode : Yaml.Reader Isolation := fun n => do
  let s ← n.readText
  ofName? s

/-- Reads an isolation level from JSON: its name, or an object whose only member has that name and
the value `null`. -/
def Isolation.read : Json.Reader Isolation := fun _ d =>
  let found := match d with
    | .string s => ofName? s
    | .object [(.ok k, .null)] none => ofName? k
    | _ => none
  match found with
  | some i => .ok i
  | none => .error d.refusal

namespace StoreSettings

/-- The settings that a document names. -/
structure Draft where
  maxBatchSize : Option Nat := none
  lockTimeout : Option Nat := none
  queryTimeout : Option Nat := none
  appendTimeout : Option Nat := none
  streamBuffer : Option Nat := none
  fetchBatchSize : Option Nat := none
  readIsolation : Option Isolation := none
  appendIsolation : Option Isolation := none
  maxProjections : Option Nat := none
  maxWorkers : Option Nat := none
deriving DecidableEq, Repr, Inhabited

/-- The settings of a draft over others. -/
def Draft.over (d : Draft) (base : StoreSettings) : StoreSettings where
  maxBatchSize := d.maxBatchSize.getD base.maxBatchSize
  lockTimeout := d.lockTimeout.getD base.lockTimeout
  queryTimeout := d.queryTimeout.getD base.queryTimeout
  appendTimeout := d.appendTimeout.getD base.appendTimeout
  streamBuffer := d.streamBuffer.getD base.streamBuffer
  fetchBatchSize := d.fetchBatchSize.getD base.fetchBatchSize
  readIsolation := d.readIsolation.getD base.readIsolation
  appendIsolation := d.appendIsolation.getD base.appendIsolation
  maxProjections := d.maxProjections.getD base.maxProjections
  maxWorkers := d.maxWorkers.getD base.maxWorkers

/-- A setting that is a number: its name, its bound, and its place in a draft. -/
structure NumberField where
  name : String
  bound : Nat
  get : Draft → Option Nat
  put : Draft → Nat → Draft

/-- A setting that is an isolation level. -/
structure LevelField where
  name : String
  get : Draft → Option Isolation
  put : Draft → Isolation → Draft

/-- The numbers before the isolation levels. -/
def leadingNumbers : List NumberField := [
  ⟨"max_batch_size", maxNat64, Draft.maxBatchSize, fun d x => { d with maxBatchSize := some x }⟩,
  ⟨"lock_timeout_ms", maxNat64, Draft.lockTimeout, fun d x => { d with lockTimeout := some x }⟩,
  ⟨"query_timeout_ms", maxNat64, Draft.queryTimeout, fun d x => { d with queryTimeout := some x }⟩,
  ⟨"append_timeout_ms", maxNat64, Draft.appendTimeout,
    fun d x => { d with appendTimeout := some x }⟩,
  ⟨"stream_buffer", maxNat64, Draft.streamBuffer, fun d x => { d with streamBuffer := some x }⟩,
  ⟨"fetch_batch_size", maxNat32, Draft.fetchBatchSize,
    fun d x => { d with fetchBatchSize := some x }⟩]

/-- The isolation levels. -/
def levels : List LevelField := [
  ⟨"default_read_isolation", Draft.readIsolation, fun d x => { d with readIsolation := some x }⟩,
  ⟨"default_append_isolation", Draft.appendIsolation,
    fun d x => { d with appendIsolation := some x }⟩]

/-- The numbers after the isolation levels. -/
def trailingNumbers : List NumberField := [
  ⟨"max_concurrent_projections", maxNat64, Draft.maxProjections,
    fun d x => { d with maxProjections := some x }⟩,
  ⟨"max_projection_workers", maxNat64, Draft.maxWorkers,
    fun d x => { d with maxWorkers := some x }⟩]

/-- A number in a document. -/
def NumberField.inDocument (f : NumberField) : Yaml.Field Draft :=
  .option f.name f.get f.put (Yaml.Node.readNat f.bound)

/-- An isolation level in a document. -/
def LevelField.inDocument (f : LevelField) : Yaml.Field Draft :=
  .option f.name f.get f.put Isolation.readNode

/-- A number in JSON. -/
def NumberField.inJson (f : NumberField) : Json.Field Draft :=
  .option f.name f.get f.put (Json.Document.readNat f.bound)

/-- An isolation level in JSON. -/
def LevelField.inJson (f : LevelField) : Json.Field Draft :=
  .option f.name f.get f.put Isolation.read

/-- The fields of the section in a document. -/
def fields : List (Yaml.Field Draft) :=
  leadingNumbers.map (·.inDocument) ++ levels.map (·.inDocument) ++
    trailingNumbers.map (·.inDocument)

/-- The JSON form of the settings; every one of them may be left out. -/
def shape : Json.Shape Draft StoreSettings where
  fields := leadingNumbers.map (·.inJson) ++ levels.map (·.inJson) ++ trailingNumbers.map (·.inJson)
  blank := {}
  complete d := return d.over {}

/-- Reads settings from JSON; they need not be valid. -/
def read : Json.Reader StoreSettings := shape.read

/-- The capacities of the settings in the order in which they are judged. -/
def capacities (s : StoreSettings) : List (String × Nat) :=
  [("store.max_batch_size", s.maxBatchSize), ("store.stream_buffer", s.streamBuffer),
    ("store.fetch_batch_size", s.fetchBatchSize),
    ("store.max_concurrent_projections", s.maxProjections),
    ("store.max_projection_workers", s.maxWorkers)]

/-- Refuses a capacity of zero. -/
def validate (s : StoreSettings) : Except SettingsError Unit :=
  match s.capacities.find? (·.2 == 0) with
  | some (field, _) => .error (.invalid field "must be greater than zero")
  | none => .ok ()

end StoreSettings

end EventLog
