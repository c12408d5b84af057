import EventLog.Projector

/-!
# Projecting with several projectors

Every projector has a slot with its running state. An event goes to the slots whose queries select
it, in their order, until one refuses it. The slot that refuses loses its state; the slots before it
keep what they have absorbed and the slots after it do not see the event.

* `ProjectionSet.apply` applies one event, `ProjectionSet.applyBatch` several.
* `ProjectionSet.states` is what the slots hold in the end.
-/

namespace EventLog

/-- A projector and its running state. -/
structure Slot (σ : Type) where
  index : Nat
  id : String
  projector : Projector σ
  /-- No state after the transition refused an event. -/
  state : Option σ

/-- Slots, and the highest position that was applied to one of them. -/
structure ProjectionSet (σ : Type) where
  slots : List (Slot σ)
  observed : Position

namespace Slot

variable {σ : Type}

/-- The slot of a projector before any event. -/
def ofProjector (index : Nat) (p : NamedProjector σ) : Slot σ :=
  ⟨index, p.id, p.projector, some p.projector.initial⟩

/-- The slots of projectors in order, numbered from `start`. -/
def ofProjectors (start : Nat) : List (NamedProjector σ) → List (Slot σ)
  | [] => []
  | p :: ps => ofProjector start p :: ofProjectors (start + 1) ps

/-- The refusal of an event by a slot without a state. -/
def lost (s : Slot σ) (e : Event) : ProjectionError :=
  e.rejected ("state of projector `" ++ s.id ++ "` lost after an earlier failure")

/-- Applies an event that the query of the slot selects. -/
def absorb (s : Slot σ) (e : Event) : Slot σ × Except ProjectionError Unit :=
  match s.state with
  | none => (s, .error (s.lost e))
  | some x =>
    match s.projector.transition x e with
    | .ok y => ({ s with state := some y }, .ok ())
    | .error err => ({ s with state := none }, .error err)

/-- Applies an event to slots in order and says whether a query selected it. -/
def advance (e : Event) : List (Slot σ) → List (Slot σ) × Except ProjectionError Bool
  | [] => ([], .ok false)
  | s :: rest =>
    if s.projector.query.selects e then
      match s.absorb e with
      -- the slots after this one do not see the event
      | (s, .error err) => (s :: rest, .error err)
      | (s, .ok ()) =>
        let (rest, r) := advance e rest
        (s :: rest, r.map fun _ => true)
    else
      let (rest, r) := advance e rest
      (s :: rest, r)

/-- The name and state of a slot that has a state. -/
def result? (s : Slot σ) : Option (String × σ) := s.state.map fun x => (s.id, x)

end Slot

namespace ProjectionSet

variable {σ : Type}

/-- Slots that have seen no event. -/
def ofSlots (slots : List (Slot σ)) : ProjectionSet σ := ⟨slots, 0⟩

/-- The set of projectors before any event. -/
def ofProjectors (ps : List (NamedProjector σ)) : ProjectionSet σ :=
  ofSlots (Slot.ofProjectors 0 ps)

/-- Applies one event. -/
def apply (p : ProjectionSet σ) (e : Event) : ProjectionSet σ × Except ProjectionError Unit :=
  match Slot.advance e p.slots with
  | (slots, .error err) => ({ p with slots }, .error err)
  | (slots, .ok selected) =>
    (⟨slots, if selected then max p.observed e.position else p.observed⟩, .ok ())

/-- Applies events in order; the first refusal is the last event applied. -/
def applyBatch (p : ProjectionSet σ) : List Event → ProjectionSet σ × Except ProjectionError Unit
  | [] => (p, .ok ())
  | e :: es =>
    match p.apply e with
    | (p, .error err) => (p, .error err)
    | (p, .ok ()) => p.applyBatch es

/-- The names and states of the slots in order of their projectors; a lost state is left out. -/
def states (p : ProjectionSet σ) : List (String × σ) :=
  (p.slots.mergeSort fun a b => a.index ≤ b.index).filterMap Slot.result?

end ProjectionSet

end EventLog
