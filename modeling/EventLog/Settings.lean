import EventLog.Settings.Store

/-!
# Settings

The settings of the database and of the event log, as a YAML document with a section for each. A
setting that is left out has its default, and an address from the environment takes the place of the
one in the document.

* `Settings.ofText` reads a document, puts the address in, and judges the result.
-/

namespace EventLog

/-- All settings. -/
structure Settings where
  database : DatabaseSettings := {}
  store : StoreSettings := {}
deriving DecidableEq, Repr, Inhabited

namespace Settings

/-- The sections that a document holds. -/
structure Draft where
  database : Option DatabaseSettings.Draft := none
  store : Option StoreSettings.Draft := none
deriving DecidableEq, Repr, Inhabited

/-- The settings of a draft over the defaults. -/
def Draft.settings (d : Draft) : Settings where
  database := (d.database.getD {}).over {}
  store := (d.store.getD {}).over {}

/-- The sections of a document. -/
def fields : List (Yaml.Field Draft) := [
  .option "database" Draft.database (fun d x => { d with database := some x })
    (Yaml.Node.readSection DatabaseSettings.fields {}),
  .option "store" Draft.store (fun d x => { d with store := some x })
    (Yaml.Node.readSection StoreSettings.fields {})]

/-- The settings of a document. -/
def ofNode? (n : Yaml.Node) : Option Settings :=
  (n.readSection fields {}).map (·.settings)

/-- The settings of a text; a text of white space holds none. -/
def ofDocument? (text : String) : Option Settings :=
  if Text.allBlank text then some {} else (Yaml.read text).bind ofNode?

/-- Puts an address from the environment in the place of the one in the document. -/
def withUrl (s : Settings) (url : Option String) : Settings :=
  { s with database := { s.database with url := url.getD s.database.url } }

/-- Refuses settings that cannot be used; the database is judged first. -/
def validate (s : Settings) : Except SettingsError Unit := do
  s.database.validate
  s.store.validate

/-- Reads settings. -/
def ofText (text : String) (url : Option String) : Except SettingsError Settings :=
  match ofDocument? text with
  | none => .error .malformed
  | some s => do
    let s := s.withUrl url
    s.validate
    return s

/-- Reads settings from the bytes of a file. -/
def ofBytes (bytes : ByteArray) (url : Option String) : Except SettingsError Settings :=
  match String.fromUTF8? bytes with
  | none => .error (.unreadable "stream did not contain valid UTF-8")
  | some text => ofText text url

/-- Reads settings from a file that has to be there. -/
def ofFile (file : Option ByteArray) (url : Option String) : Except SettingsError Settings :=
  match file with
  | none => .error (.unreadable "No such file or directory (os error 2)")
  | some bytes => ofBytes bytes url

/-- Reads settings from a file that may be missing. -/
def load (file : Option ByteArray) (url : Option String) : Except SettingsError Settings :=
  match file with
  | none => ofText "" url
  | some bytes => ofBytes bytes url

end Settings

end EventLog
