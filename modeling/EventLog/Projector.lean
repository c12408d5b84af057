import EventLog.Query

/-!
# Projectors

A projector folds the events that its query selects, in order of position, into a state. A transition
may refuse an event, and then there is no state.
-/

namespace EventLog

/-- Why a transition refused an event. -/
inductive ProjectionError
  /-- The data of the event has another form than the projector asks. -/
  | decode (eventType : String) (position : Position) (source : String)
  | rejected (eventType : String) (position : Position) (reason : String)
deriving DecidableEq, Repr, Inhabited

/-- The text of a projection error. -/
def ProjectionError.message : ProjectionError → String
  | .decode t p source => "cannot decode `" ++ t ++ "` at position " ++ toString p ++ ": " ++ source
  | .rejected t p reason =>
    "projector rejected `" ++ t ++ "` at position " ++ toString p ++ ": " ++ reason

/-- A refusal of an event for a reason. -/
def Event.rejected (e : Event) (reason : String) : ProjectionError :=
  .rejected e.eventType e.position reason

/-- A fold over the events that a query selects. -/
structure Projector (σ : Type) where
  query : Query
  initial : σ
  transition : σ → Event → Except ProjectionError σ

/-- A projector that takes part in a decision under a name. -/
structure NamedProjector (σ : Type) where
  id : String
  projector : Projector σ

namespace Projector

variable {σ : Type}

/-- Applies an event if the query selects it. -/
def apply (p : Projector σ) (s : σ) (e : Event) : Except ProjectionError σ :=
  if p.query.selects e then p.transition s e else .ok s

/-- Folds events from a state on; the first refusal ends the fold. -/
def foldFrom (p : Projector σ) (s : σ) : List Event → Except ProjectionError σ
  | [] => .ok s
  | e :: es => do
    let s ← p.apply s e
    p.foldFrom s es

/-- Folds events from the initial state on. -/
def fold (p : Projector σ) (es : List Event) : Except ProjectionError σ :=
  p.foldFrom p.initial es

end Projector

end EventLog
