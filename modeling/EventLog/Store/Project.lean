import EventLog.Projection.FanOut
import EventLog.Store.Batches

/-!
# Projecting

Several projectors read the log once, through a cursor, and every event goes to those whose queries
select it. A decision model is their states with the condition that guards a decision made on them: it
fails an append if an event that one of them would have seen was written since.

* `Store.project` folds the log with one projector.
* `Store.decide` folds it with several and gives a decision model.
-/

namespace EventLog

open Database Sql

/-- The states of projectors and the condition under which they still hold. -/
structure DecisionModel (σ : Type) where
  /-- The states in order of the names of their projectors. -/
  states : List (String × σ)
  condition : AppendCondition

/-- What a projection read: the states, the highest position that a projector observed, and the head
of the log. -/
structure Projected (σ : Type) where
  states : List (String × σ)
  observed : Position
  head : Position

/-- Refuses projectors without a name, with a name that came before, or with a query that is not
valid. -/
def validateNames {σ : Type} (seen : List String) : List (NamedProjector σ) → Except StoreError Unit
  | [] => .ok ()
  | p :: ps =>
    if p.id == "" then .error (.invalidProjectors "projector ID must not be empty")
    else if seen.contains p.id then
      .error (.invalidProjectors ("duplicate projector ID `" ++ p.id ++ "`"))
    else do
      p.projector.query.check
      validateNames (p.id :: seen) ps

/-- Refuses a set of projectors that is empty or holds one that is refused. -/
def validateProjectors {σ : Type} (ps : List (NamedProjector σ)) : Except StoreError Unit :=
  if ps.isEmpty then .error (.invalidProjectors "at least one projector is required")
  else validateNames [] ps

namespace Projected

variable {σ : Type}

/-- Feeds the rows of a cursor to a fold until they end or the fold wants no more. A batch that is not
full is the last one. -/
def feedAll (fuel batchSize timeout : Nat) (cursor : Cursor) (folder : Folder σ) : Db (Folder σ) :=
  match fuel with
  | 0 => return folder
  | fuel + 1 => do
    let (events, cursor) ← cursor.fetch batchSize timeout
    let (folder, more) ←
      if events.isEmpty then pure (folder, true)
      else Db.ofExcept .projection (folder.feed events)
    if more && !decide (events.length < batchSize) then
      feedAll fuel batchSize timeout cursor folder
    else return folder

/-- Reads what `query` selects in one transaction and feeds it to a fold. -/
def fold (settings : StoreSettings) (query : Query) (start : Folder σ) : Db (Folder σ × Position) := do
  Db.begin
  Db.orRollBack do
    Db.send (.setIsolation settings.readIsolation)
    -- asked for before the cursor is declared, so that the cursor misses nothing up to it
    let head ← Db.head
    let cursor ← Cursor.declare ⟨query, 0, none⟩
    -- a fetch that is followed by another one takes a row, so these are enough
    let folder ← feedAll (cursor.pending.length + 1) settings.fetchBatchSize settings.queryTimeout
      cursor start
    Cursor.close
    return (folder, head)

/-- Runs projectors over what `query` selects. -/
def ofLog (settings : StoreSettings) (ps : List (NamedProjector σ)) (query : Query) :
    Db (Projected σ) :=
  Db.within .projection settings.queryTimeout do
    let (folder, head) ← fold settings query (Folder.start ps settings.maxWorkers)
    let (states, observed) ← Db.ofExcept .projection folder.finish
    return ⟨states, observed, head⟩

/-- The position after which nothing was observed: the highest observed one, or else the head. -/
def anchor (p : Projected σ) : Position := if 0 < p.observed then p.observed else p.head

end Projected

/-- Sets the state of a name: in its place in the order of names, or over the one that has it. -/
def insertState {σ : Type} (id : String) (x : σ) : List (String × σ) → List (String × σ)
  | [] => [(id, x)]
  | (k, y) :: rest =>
    if id < k then (id, x) :: (k, y) :: rest
    else if id = k then (id, x) :: rest
    else (k, y) :: insertState id x rest

/-- States in order of names. -/
def sortStates {σ : Type} (states : List (String × σ)) : List (String × σ) :=
  states.foldl (fun acc (id, x) => insertState id x acc) []

namespace Store

variable {σ : Type}

/-- Runs projectors under admission: a place at the gate is taken before anything else and given back
whatever happens. -/
def runProjection (s : Store) (ps : List (NamedProjector σ)) (query : Query) :
    Except StoreError (Projected σ) × Store :=
  match s.limiter.tryAdmit with
  | .error e => (.error e, s)
  | .ok limiter =>
    let s := { s with limiter }
    let (r, s) : Except StoreError (Projected σ) × Store := match validateProjectors ps with
      | .error e => (.error e, s)
      | .ok () => s.run (Projected.ofLog s.settings ps query)
    (r, { s with limiter := s.limiter.release })

/-- Folds the log with one projector. Gives the state and the highest position observed. -/
def project (s : Store) (p : Projector σ) : Except StoreError (σ × Position) × Store :=
  let (r, s) := s.runProjection [⟨"projector", p⟩] p.query
  (r.bind fun out =>
    match out.states with
    | (_, x) :: _ => .ok (x, out.observed)
    | [] => .error (.worker "projector produced no state"), s)

/-- Folds the log with several projectors into a decision model. -/
def decide (s : Store) (ps : List (NamedProjector σ)) :
    Except StoreError (DecisionModel σ) × Store :=
  let union := Query.union (ps.map (·.projector.query))
  let (r, s) := s.runProjection ps union
  (r.map fun out => ⟨sortStates out.states, ⟨union, out.anchor⟩⟩, s)

end Store

end EventLog
