import EventLog.Query

/-!
# Arguments

How a command line is read. An argument is an option, which takes a value, or a positional one; after
`--` all are positional. The value of an option stands after `=` and is judged at once, or is the next
argument and is judged when the next known argument or the end comes. An argument that is not known is
refused at once, whatever is still to be judged.

* `Form` says what a command takes, and `Form.read` reads its arguments.
-/

namespace EventLog.Admin

/-- Why a command line is not run. -/
inductive UsageError
  | invalidSubcommand
  | unknownArgument
  | missingRequiredArgument
  /-- A value was refused. -/
  | valueValidation
  /-- An option has no value. -/
  | invalidValue
  /-- An option that takes one value was given twice. -/
  | argumentConflict
  /-- An option that takes no value was given one. -/
  | tooManyValues
  /-- The help text was asked for. -/
  | displayHelp
  /-- The version was asked for. -/
  | displayVersion
  /-- Nothing was asked for. -/
  | displayHelpOnMissing
deriving DecidableEq, Repr, Inhabited

namespace UsageError

/-- The exit code of the program. -/
def exitCode : UsageError → Nat
  | .displayHelp => 0
  | .displayVersion => 0
  | _ => 2

end UsageError

/-- How an argument is written. -/
inductive Argument
  /-- The mark `--`. -/
  | escape
  /-- A word after `--`, and what stands after its `=`. -/
  | long (name : String) (value : Option String)
  /-- Letters after `-`. -/
  | short (letters : List Char)
  | word (text : String)
deriving DecidableEq, Repr, Inhabited

/-- The form of an argument. -/
def Argument.of (s : String) : Argument :=
  match s.toList with
  | ['-', '-'] => .escape
  | '-' :: '-' :: cs =>
    .long (String.ofList (cs.takeWhile (· != '=')))
      (match cs.dropWhile (· != '=') with
        | [] => none
        | _ :: value => some (String.ofList value))
  | '-' :: c :: cs => .short (c :: cs)
  | cs => .word (String.ofList cs)

/-- What is done with a value. -/
abbrev Taker (σ : Type) := String → σ → Except UsageError σ

/-- What a command takes: options by name, and at most one positional argument. -/
structure Form (σ : Type) where
  option? : String → Option (Taker σ)
  positional? : Option (Taker σ)

/-- An argument that is still to be judged. -/
inductive Pending (σ : Type)
  | nothing
  /-- An option whose value may be the next argument. -/
  | awaiting (take : Taker σ)
  | given (take : Taker σ) (value : String)

/-- Judges what is pending. -/
def Pending.settle {σ : Type} (p : Pending σ) (x : σ) : Except UsageError σ :=
  match p with
  | .nothing => .ok x
  | .awaiting _ => .error .invalidValue
  | .given take value => take value x

namespace Form

variable {σ : Type}

/-- Reads positional arguments. -/
def readWords (f : Form σ) (x : σ) (pending : Pending σ) : List String → Except UsageError σ
  | [] => pending.settle x
  | a :: rest =>
    match f.positional? with
    | none => .error .unknownArgument
    | some take => do
      let x ← pending.settle x
      readWords { f with positional? := none } x (.given take a) rest

/-- Reads arguments. -/
def readFrom (f : Form σ) (x : σ) (pending : Pending σ) : List String → Except UsageError σ
  | [] => pending.settle x
  | a :: rest =>
    match Argument.of a with
    | .escape => f.readWords x pending rest
    | .short letters =>
      if letters.head? == some 'h' then do
        let _ ← pending.settle x
        throw .displayHelp
      else .error .unknownArgument
    | .long name value =>
      if name == "help" then
        match value with
        | some _ => .error .tooManyValues
        | none => do
          let _ ← pending.settle x
          throw .displayHelp
      else
        match f.option? name with
        | none => .error .unknownArgument
        | some take => do
          let x ← pending.settle x
          match value with
          | some v =>
            let x ← take v x
            readFrom f x .nothing rest
          | none => readFrom f x (.awaiting take) rest
    | .word text =>
      match pending, f.positional? with
      | .awaiting take, _ => readFrom f x (.given take text) rest
      | _, none => .error .unknownArgument
      | _, some take => do
        let x ← pending.settle x
        readFrom { f with positional? := none } x (.given take text) rest

/-- Reads the arguments of a command. -/
def read (f : Form σ) (blank : σ) (args : List String) : Except UsageError σ :=
  f.readFrom blank .nothing args

end Form

/-- Reads a decimal integer; a sign may stand before it. -/
def readInteger? (s : String) : Option Int :=
  let natural (ds : List Char) : Option Nat :=
    if ds.isEmpty || !ds.all Char.isDigit then none
    else some (ds.foldl (fun n c => 10 * n + (c.toNat - '0'.toNat)) 0)
  match s.toList with
  | '-' :: ds => (natural ds).map fun n => -(n : Int)
  | '+' :: ds => (natural ds).map Int.ofNat
  | ds => (natural ds).map Int.ofNat

end EventLog.Admin
