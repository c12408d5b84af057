import EventLog.Projection.Slots

/-!
# Dealing a projection to workers

The slots of a projection can be dealt to several workers, one slot at a time and in turn. Every batch
of events goes to every worker. A worker that refuses an event stops, and the batch after that ends
the reading: it reaches the workers before the stopped one and no other. In the end the first stopped
worker decides the error, or the slots of all workers are put together again.
-/

namespace EventLog

/-- Hands one item to each bucket in turn while there are items; the second result is what is
left. -/
def dealRound {α : Type} : List (List α) → List α → List (List α) × List α
  | b :: bs, x :: xs =>
    let (bs, rest) := dealRound bs xs
    ((b ++ [x]) :: bs, rest)
  | bs, xs => (bs, xs)

/-- Deals items to buckets in rounds until none are left. -/
def dealRounds {α : Type} (buckets : List (List α)) (items : List α) : List (List α) :=
  let r := dealRound buckets items
  -- without buckets a round hands out nothing, and another one would not either
  if r.2.length < items.length then dealRounds r.1 r.2 else buckets
termination_by items.length

/-- Deals items to `count` empty buckets. -/
def deal {α : Type} (count : Nat) (items : List α) : List (List α) :=
  dealRounds (List.replicate count []) items

/-- A worker folds the slots it was dealt until one refuses an event. -/
structure Worker (σ : Type) where
  set : ProjectionSet σ
  failure : Option ProjectionError

/-- The workers of a projection in order. -/
structure FanOut (σ : Type) where
  workers : List (Worker σ)

namespace Worker

variable {σ : Type}

/-- A worker that has seen no event. -/
def ofSlots (slots : List (Slot σ)) : Worker σ := ⟨.ofSlots slots, none⟩

/-- The worker after a batch. -/
def feed (w : Worker σ) (batch : List Event) : Worker σ :=
  match w.failure with
  | some _ => w
  | none =>
    match w.set.applyBatch batch with
    | (set, .ok ()) => ⟨set, none⟩
    | (set, .error err) => ⟨set, some err⟩

/-- Feeds workers in order up to the first that has stopped, and says whether none had. -/
def feedAll (batch : List Event) : List (Worker σ) → List (Worker σ) × Bool
  | [] => ([], true)
  | w :: ws =>
    -- the batch does not get to the workers after a stopped one
    if w.failure.isSome then (w :: ws, false)
    else
      let (ws, open?) := feedAll batch ws
      (w.feed batch :: ws, open?)

/-- The slots and highest positions of workers put together, unless one has stopped. -/
def gather : List (Worker σ) → Except ProjectionError (List (Slot σ) × Position)
  | [] => .ok ([], 0)
  | w :: ws =>
    match w.failure with
    | some err => .error err
    | none => do
      let (slots, observed) ← gather ws
      return (w.set.slots ++ slots, max w.set.observed observed)

end Worker

namespace FanOut

variable {σ : Type}

/-- Deals the slots of projectors to `count` workers; a worker without slots is not needed. -/
def start (ps : List (NamedProjector σ)) (count : Nat) : FanOut σ :=
  ⟨((deal count (Slot.ofProjectors 0 ps)).filter (!·.isEmpty)).map Worker.ofSlots⟩

/-- Gives a batch to the workers. The second result is false when one has stopped before. -/
def feed (f : FanOut σ) (batch : List Event) : FanOut σ × Bool :=
  let (workers, open?) := Worker.feedAll batch f.workers
  (⟨workers⟩, open?)

/-- The states in order of their projectors and the highest position applied. -/
def finish (f : FanOut σ) : Except ProjectionError (List (String × σ) × Position) := do
  let (slots, observed) ← Worker.gather f.workers
  return ((ProjectionSet.ofSlots slots).states, observed)

end FanOut

/-- A projection in progress: folded in place or dealt to workers. -/
inductive Folder (σ : Type)
  | inPlace (set : ProjectionSet σ)
  | dealt (workers : FanOut σ)

namespace Folder

variable {σ : Type}

/-- Starts a projection with at most `maxWorkers` workers, and no more than projectors. A single
worker folds in place. -/
def start (ps : List (NamedProjector σ)) (maxWorkers : Nat) : Folder σ :=
  let count := min maxWorkers ps.length
  if 1 < count then .dealt (.start ps count) else .inPlace (.ofProjectors ps)

/-- Folds a batch. The second result is false when no further batch is wanted. A refusal shows at
once in place; the refusal of a worker shows in the end. -/
def feed (f : Folder σ) (batch : List Event) : Except ProjectionError (Folder σ × Bool) :=
  match f with
  | .inPlace set =>
    match set.applyBatch batch with
    | (set, .ok ()) => .ok (.inPlace set, true)
    | (_, .error err) => .error err
  | .dealt workers =>
    let (workers, open?) := workers.feed batch
    .ok (.dealt workers, open?)

/-- The states in order of their projectors and the highest position applied. -/
def finish (f : Folder σ) : Except ProjectionError (List (String × σ) × Position) :=
  match f with
  | .inPlace set => .ok (set.states, set.observed)
  | .dealt workers => workers.finish

end Folder

end EventLog
