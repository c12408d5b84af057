import EventLog.Admin.Arguments
import EventLog.Store.Stream
import EventLog.Wire

/-!
# Commands

What an operator can ask of an event log: to bring its schema up to date, to tell its highest
position, to trace an event, and to print events.

* `Command.parse` reads a command line.
* `Command.run` runs a command on a store and gives what it prints.
-/

namespace EventLog.Admin

/-- Which events are printed: of one of the types and with all of the tags. -/
structure ReadArgs where
  types : List String := []
  tags : List Tag := []
  after : Position := 0
  limit : Option Nat := none
deriving DecidableEq, Repr, Inhabited

/-- A command. -/
inductive Command
  | migrate
  | head
  | trace (id : EventId)
  | read (args : ReadArgs)
deriving DecidableEq, Repr, Inhabited

namespace ReadArgs

/-- The query of the arguments; without types and tags it is that of every event. -/
def query (a : ReadArgs) : Query :=
  let item : QueryItem := ⟨a.types, a.tags⟩
  if item.isMatchAll then .all else .single item

/-- How the events are read. -/
def options (a : ReadArgs) : ReadOptions := { after := a.after, limit := a.limit }

/-- The arguments read so far. -/
structure Draft where
  types : List String := []
  tags : List Tag := []
  after : Option Position := none
  limit : Option Nat := none

/-- Takes a value for an option that is given once. -/
def single {α : Type} (get : Draft → Option α) (put : Draft → α → Draft) (item : String → Option α) :
    Taker Draft := fun s d =>
  if (get d).isSome then .error .argumentConflict
  else
    match item s with
    | some x => .ok (put d x)
    | none => .error .valueValidation

/-- Takes a tag. -/
def takeTag : Taker Draft := fun s d =>
  match Tag.parse s with
  | .ok t => .ok { d with tags := d.tags ++ [t] }
  | .error _ => .error .valueValidation

/-- A position from 0 on. -/
def position? (s : String) : Option Position :=
  (readInteger? s).filter fun n => decide (0 ≤ n) && decide (n ≤ Position.max)

/-- A number of events. -/
def count? (s : String) : Option Nat :=
  if s.toList.head? == some '-' then none
  else ((readInteger? s).map Int.toNat).filter (· ≤ maxNat64)

/-- What the command takes. -/
def form : Form Draft where
  option? name :=
    match name with
    | "type" => some fun s d => .ok { d with types := d.types ++ [s] }
    | "tag" => some takeTag
    | "after" => some (single Draft.after (fun d x => { d with after := some x }) position?)
    | "limit" => some (single Draft.limit (fun d x => { d with limit := some x }) count?)
    | _ => none
  positional? := none

/-- Reads the arguments. -/
def parse (args : List String) : Except UsageError ReadArgs :=
  (form.read {} args).map fun d => ⟨d.types, d.tags, d.after.getD 0, d.limit⟩

end ReadArgs

namespace Command

/-- The names of the commands; `help` shows the help text of one. -/
def names : List String := ["migrate", "head", "trace", "read", "help"]

/-- A command without arguments. -/
def bare (c : Command) (args : List String) : Except UsageError Command :=
  ({ option? := fun _ => none, positional? := none } : Form Unit).read () args |>.map fun _ => c

/-- Takes an identifier. -/
def takeId : Taker (Option EventId) := fun s _ =>
  match EventId.parse? s with
  | some id => .ok (some id)
  | none => .error .valueValidation

/-- Reads the event that is traced. -/
def parseTrace (args : List String) : Except UsageError Command := do
  let form : Form (Option EventId) := { option? := fun _ => none, positional? := some takeId }
  match ← form.read none args with
  | some id => return .trace id
  | none => throw .missingRequiredArgument

/-- Shows the help text of a command. -/
def parseHelp : List String → Except UsageError Command
  | [] => .error .displayHelp
  | [name] => .error (if names.contains name then .displayHelp else .invalidSubcommand)
  | _ => .error .invalidSubcommand

/-- Reads what follows `--` instead of a command. -/
def parseEscaped : List String → Except UsageError Command
  | [] => .error .displayHelpOnMissing
  | name :: _ => .error (if names.contains name then .unknownArgument else .invalidSubcommand)

/-- Reads an option in the place of a command. -/
def parseOption : Argument → Except UsageError Command
  | .long "help" none => .error .displayHelp
  | .long "version" none => .error .displayVersion
  | .long "help" (some _) => .error .tooManyValues
  | .long "version" (some _) => .error .tooManyValues
  | .short ('h' :: _) => .error .displayHelp
  | .short ('V' :: _) => .error .displayVersion
  | _ => .error .unknownArgument

/-- Reads a command line without the name of the program. -/
def parse : List String → Except UsageError Command
  | [] => .error .displayHelpOnMissing
  | a :: args =>
    match Argument.of a with
    | .escape => parseEscaped args
    | .word "migrate" => bare .migrate args
    | .word "head" => bare .head args
    | .word "trace" => parseTrace args
    | .word "read" => (ReadArgs.parse args).map .read
    | .word "help" => parseHelp args
    | .word _ => .error .invalidSubcommand
    | option => parseOption option

/-- A line of output. -/
def line (s : String) : String := s ++ "\n"

/-- What is printed of a traced event: the events it caused and those of the group it began. -/
def traceReport (id : EventId) (caused correlated : List Event) : Json.Value :=
  Json.Value.sorted (.object [("event_id", id.toValue), ("caused", .array (caused.map Event.toValue)),
    ("correlated", .array (correlated.map Event.toValue))])

/-- What a command did: its output and the failure that ended it. -/
structure Outcome where
  output : String
  failure : Option StoreError
deriving Repr, Inhabited

/-- Traces an event. -/
def runTrace (id : EventId) (s : Store) : Outcome × Store :=
  match s.causedBy id with
  | (.error e, s) => (⟨"", some e⟩, s)
  | (.ok caused, s) =>
    match s.correlatedWith id with
    | (.error e, s) => (⟨"", some e⟩, s)
    | (.ok correlated, s) => (⟨line (traceReport id caused correlated).toIndentedText, none⟩, s)

/-- Prints the events of a stream, one on a line. -/
def printed (streamed : Streamed) : Outcome :=
  ⟨String.join (streamed.events.map fun e => line e.toValue.toText), streamed.failure⟩

/-- Runs a command. It does not run if it needs a stream that there cannot be. -/
def run (c : Command) (s : Store) : Option (Outcome × Store) :=
  match c with
  | .migrate => some (⟨"", none⟩, s)
  | .head =>
    match s.headPosition with
    | (.ok p, s) => some (⟨line (toString p), none⟩, s)
    | (.error e, s) => some (⟨"", some e⟩, s)
  | .trace id => some (runTrace id s)
  | .read args =>
    (s.stream args.query args.options none).map fun (streamed, s) => (printed streamed, s)

end Command

end EventLog.Admin
