import EventLog.Settings.Database
import EventLog.Text.Quoted
import EventLog.Url

/-!
# Connections

How a session is opened: the address of the database settings, read as host, port, user, database and
options. Parameters of the query override what stands before it. The application name always comes
from the settings, and a statement timeout is one more option.

* `Connection.ofSettings` reads the settings.
-/

namespace EventLog

/-- How a session is opened. -/
structure Connection where
  host : String := "localhost"
  port : Nat := 5432
  user : String := "postgres"
  database : Option String := none
  applicationName : Option String := none
  options : Option String := none
deriving DecidableEq, Repr, Inhabited

namespace Connection

/-- Why an address does not describe a connection. -/
inductive Fault
  | address (fault : Url.UrlFault)
  | encoding (fault : Text.Utf8Fault)
  | emptyNumber
  | invalidDigit
  | numberTooLarge
  | invalidAddress
  | unknownMode (text : String)
deriving DecidableEq, Repr, Inhabited

/-- The text of a fault. -/
def Fault.message (fault : Fault) : String :=
  "error with configuration: " ++
    match fault with
    | .address f => f.message
    | .encoding f => f.message
    | .emptyNumber => "cannot parse integer from empty string"
    | .invalidDigit => "invalid digit found in string"
    | .numberTooLarge => "number too large to fit in target type"
    | .invalidAddress => "invalid IP address syntax"
    | .unknownMode s =>
      "error with configuration: unknown value " ++ Text.quoted s ++ " for `ssl_mode`"

/-- Reads a decimal number up to `hi`; a plus may stand before it. -/
def readNumber (hi : Nat) (s : String) : Except Fault Nat :=
  if s == "" then .error .emptyNumber
  else
    let ds := match s.toList with
      | '+' :: ds => ds
      | ds => ds
    match Url.ofDecimal? ds with
    | none => .error .invalidDigit
    | some n => if n ≤ hi then .ok n else .error .numberTooLarge

/-- The names of the ways to secure a session. -/
def modes : List String := ["disable", "allow", "prefer", "require", "verify-ca", "verify-full"]

/-- Adds to the options of a session. -/
def addOptions (c : Connection) (text : String) : Connection :=
  { c with options := some (match c.options with
      | none => text
      | some "" => text
      | some before => before ++ " " ++ text) }

/-- A setting of a session as an option. Blanks and backslashes are kept from parting it. -/
def setting (name value : String) : String :=
  "-c " ++ String.ofList ((name ++ "=" ++ value).toList.flatMap fun c =>
    if c == ' ' || c == '\\' then ['\\', c] else [c])

/-- The name of a setting in a parameter such as `options[name]`. -/
def settingName? (parameter : String) : Option String :=
  let cs := parameter.toList
  let opening := "options[".toList
  if opening.isPrefixOf cs && (cs.drop opening.length).getLast? == some ']' then
    some (String.ofList (cs.drop opening.length).dropLast)
  else none

/-- The value is the directory of a socket; the host is then left as it is. -/
def isSocket (s : String) : Bool := s.toList.head? == some '/'

/-- The text is an IPv4 or IPv6 address. -/
def isIpAddress (s : String) : Bool :=
  (Url.octets? s.toList).isSome || (Url.ipv6? s.toList).isSome

/-- Takes a parameter of the query into account; unknown ones are passed over. -/
def addParameter (c : Connection) (name value : String) : Except Fault Connection :=
  match name with
  | "sslmode" | "ssl-mode" =>
    if modes.contains (String.ofList (value.toList.map Char.toLower)) then .ok c
    else .error (.unknownMode value)
  | "statement-cache-capacity" => (readNumber maxNat64 value).map fun _ => c
  | "host" => .ok (if isSocket value then c else { c with host := value })
  | "hostaddr" => if isIpAddress value then .ok { c with host := value } else .error .invalidAddress
  | "port" => (readNumber 0xFFFF value).map fun n => { c with port := n }
  | "dbname" => .ok { c with database := some value }
  | "user" => .ok { c with user := value }
  | "options" =>
    .ok { c with options := some (match c.options with
      | none => value
      | some before => before ++ " " ++ value) }
  | _ =>
    match settingName? name with
    | some key => .ok (c.addOptions (setting key value))
    | none => .ok c

/-- Takes the parameters of the query into account in order. -/
def addParameters (c : Connection) : List (String × String) → Except Fault Connection
  | [] => .ok c
  | (name, value) :: rest => do
    let c ← c.addParameter name value
    c.addParameters rest

/-- Decodes a part of an address. -/
def decode (s : String) : Except Fault String :=
  (Text.decode (Url.percentDecode s)).mapError .encoding

/-- The host of an address, unless it is the directory of a socket. -/
def withHost (c : Connection) (host : String) : Except Fault Connection :=
  if (Url.percentDecode host).head? == some 0x2F then (decode host).map fun _ => c
  else .ok { c with host }

/-- The connection of an address. -/
def ofUrl (url : Url) : Except Fault Connection := do
  let c ← match url.host with
    | none => pure {}
    | some host => ({} : Connection).withHost host
  let c := { c with port := url.port.getD c.port }
  let user ← decode url.user
  let c := if user == "" then c else { c with user }
  let _ ← decode (url.password.getD "")
  let path := String.ofList (url.path.toList.dropWhile (· == '/'))
  let database ← decode path
  let c := if path == "" then c else { c with database := some database }
  c.addParameters ((url.query.map fun q => Url.queryPairs q.toList).getD [])

/-- The connection of database settings; whether they are valid is another question. -/
def ofSettings (s : DatabaseSettings) : Except SettingsError Connection :=
  match (Url.parse s.url).mapError Fault.address >>= ofUrl with
  | .error fault => .error (.invalid "database.url" fault.message)
  | .ok c =>
    let c := { c with applicationName := some s.applicationName }
    .ok (match s.statementTimeout with
      | none => c
      | some ms => c.addOptions (setting "statement_timeout" (toString ms ++ "ms")))

end Connection

end EventLog
