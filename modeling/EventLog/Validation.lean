/-!
# Validation errors

Why a tag, an event, a query or a batch of events is refused.
-/

namespace EventLog

/-- The most characters that an event type may have. -/
def maxEventTypeLength : Nat := 64

/-- Why something was refused before it reached the log. -/
inductive ValidationError
  | emptyEventType
  | eventTypeTooLong (eventType : String) (max : Nat)
  | invalidTagKey (key : String)
  | invalidTagValue (key value : String)
  | malformedTag (text : String)
  | invalidData (eventType : String)
  | emptyBatch
  | batchTooLarge (size max : Nat)
  | inBatch (index : Nat) (source : ValidationError)
deriving DecidableEq, Repr, Inhabited

/-- The text of a validation error. -/
def ValidationError.message : ValidationError → String
  | .emptyEventType => "event type must not be empty"
  | .eventTypeTooLong t max => "event type `" ++ t ++ "` exceeds " ++ toString max ++ " characters"
  | .invalidTagKey k => "invalid tag key `" ++ k ++ "`"
  | .invalidTagValue k v => "invalid value `" ++ v ++ "` for tag `" ++ k ++ "`"
  | .malformedTag t => "malformed tag `" ++ t ++ "`, expected `key:value`"
  | .invalidData t => "event data for `" ++ t ++ "` must be a JSON object or array"
  | .emptyBatch => "append batch is empty"
  | .batchTooLarge size max =>
    "append batch of " ++ toString size ++ " events exceeds the maximum of " ++ toString max
  | .inBatch i e => "event " ++ toString i ++ " in batch: " ++ e.message

/-- The errors behind an error, outermost first. -/
def ValidationError.causes : ValidationError → List ValidationError
  | .inBatch _ e => e :: e.causes
  | _ => []

end EventLog
