import EventLog.Admin.Startup

/-!
# The program

Operates on an event log that lives as long as the program. The settings are read from the file that
`DCB_CONFIG` names, or else from `dcb-config.yaml`, and `DATABASE_URL` takes the place of the address in
them.
-/

namespace EventLog.Admin

/-- The bytes of a file, if there is one. -/
def settingsFile (name : String) : IO (Option ByteArray) := do
  try
    return some (← IO.FS.readBinFile name)
  catch
    | .noFileOrDirectory .. => return none
    | e => throw e

end EventLog.Admin

/-- Runs the program on an empty log. -/
def main (args : List String) : IO UInt32 := do
  let name := (← IO.getEnv "DCB_CONFIG").getD "dcb-config.yaml"
  let file ← EventLog.Admin.settingsFile name
  let url ← IO.getEnv "DATABASE_URL"
  let (ending, _) := EventLog.Admin.run args file url (EventLog.Database.Server.ofTable [])
  IO.print ending.output
  match ending.failure.bind EventLog.Admin.Failure.text? with
  | some text => IO.eprintln text
  | none => pure ()
  return UInt32.ofNat ending.exitCode
