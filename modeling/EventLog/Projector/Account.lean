import EventLog.Projector
import EventLog.Payload.Account

/-!
# Account projectors

Projectors over account events: how many there are, the balance they leave, the latest amount, and
where they stand. Sums stay within 64 bits; a sum beyond them is the nearest bound.
-/

namespace EventLog

/-- The payload of an event, read in a form. -/
def Event.decode {α : Type} (e : Event) (reader : Payload.Reader α) : Except ProjectionError α :=
  (reader e.data).mapError fun fault => .decode e.eventType e.position fault.message

/-- What an account projector keeps. -/
inductive Tally
  | number (n : Int)
  | positions (ps : List Position)
deriving DecidableEq, Repr, Inhabited

namespace Tally

/-- The nearest number within 64 bits. -/
def clamp (n : Int) : Int := max (-0x8000000000000000) (min n 0x7FFFFFFFFFFFFFFF)

/-- A tally as JSON. -/
def toValue : Tally → Json.Value
  | .number n => .int n
  | .positions ps => .array (ps.map .int)

end Tally

/-- What an account projector counts. -/
inductive AccountRule
  | count
  | balance
  | latest
  | positions
deriving DecidableEq, Repr, Inhabited

namespace AccountRule

/-- The balance after an event. -/
def balanceAfter (n : Int) (e : Event) : Except ProjectionError Int := do
  let a ← e.decode Payload.Amount.record.read
  if e.eventType == "Deposited" then return Tally.clamp (n + a.amount)
  else if e.eventType == "Withdrawn" then return Tally.clamp (n - a.amount)
  else throw (e.rejected "not a balance event")

/-- The amount that an event names. -/
def amountOf (e : Event) : Except ProjectionError Int :=
  match e.data.get? "amount" with
  | some (.number (.int n)) =>
    if Position.min ≤ n && n ≤ Position.max then .ok n else .error (e.rejected "missing amount")
  | _ => .error (e.rejected "missing amount")

/-- One step of a rule. A list of positions grows by the position of the event under every rule. -/
def step (rule : AccountRule) (s : Tally) (e : Event) : Except ProjectionError Tally :=
  match s, rule with
  | .positions ps, _ => .ok (.positions (ps ++ [e.position]))
  | .number n, .count => .ok (.number (Tally.clamp (n + 1)))
  | .number n, .balance => (balanceAfter n e).map .number
  | .number _, .latest => (amountOf e).map .number
  | .number n, .positions => .ok (.number n)

/-- The projector of a rule. -/
def projector (rule : AccountRule) (query : Query) (initial : Tally) : Projector Tally :=
  { query, initial, transition := rule.step }

end AccountRule

end EventLog
