import Mathlib.Data.List.Nodup
import EventLog.Lineage

/-!
# What lineage resolves to

A batch is resolved event by event, and the group that it has by then is carried along. What comes of it
does not depend on that: every event is resolved by itself, with what it names, what the batch names, and
one fallback for the whole batch.

## Key results

- `Lineage.resolveFrom_settled`: once a batch has a group, it keeps it
- `Lineage.resolve_eq`: a batch resolved event by event, without anything carried along
- `Lineage.resolved_by_precedence`: what each event is resolved to, and what does not matter to it
-/

namespace EventLog.Lineage

/-- An event with its identifier and lineage: it counts first what the event names, then what the batch
names. An event is its own cause otherwise, and belongs to `group`. -/
def prepared (l : Lineage) (now : Instant) (group id : EventId) (e : InputEvent) : PreparedEvent where
  id := id
  eventType := e.eventType
  tags := e.tags.map Tag.encode
  data := e.data
  causationId := (e.causationId.or l.causationId).getD id
  correlationId := (e.correlationId.or l.correlationId).getD group
  createdAt := now

/-- The group that the first event of a batch names, or else that event itself. -/
def groupOfFirst (mint : Nat → EventId) (n : Nat) (events : List InputEvent) : EventId :=
  (events.head?.bind (·.correlationId)).getD (mint n)

/-! ### The closed form -/

section

variable (l : Lineage) (mint : Nat → EventId) (now : Instant) (n : Nat) (events : List InputEvent)

/-- The identifiers of the events after the first are counted from the next one. -/
theorem mapIdx_prepared_cons (group : EventId) (e : InputEvent) (es : List InputEvent) :
    ((e :: es).mapIdx fun i e => l.prepared now group (mint (n + i)) e) =
      l.prepared now group (mint n) e ::
        es.mapIdx fun i e => l.prepared now group (mint (n + 1 + i)) e := by
  have hsucc : ∀ i, n + 1 + i = n + (i + 1) := fun i => by rw [Nat.add_assoc, Nat.add_comm 1]
  rw [List.mapIdx_cons]
  simp only [hsucc, Nat.add_zero]

/-- A group that is settled stays settled, so the events of the batch do not depend on each other. -/
theorem resolveFrom_settled (group : EventId) :
    l.resolveFrom mint now n (some group) events =
      events.mapIdx fun i e => l.prepared now group (mint (n + i)) e := by
  induction events generalizing n with
  | nil => rfl
  | cons e es ih =>
    -- an event without a group of its own falls back on the settled one
    have hgroup : ((e.correlationId.or l.correlationId).or (some group)).getD (mint n) =
        (e.correlationId.or l.correlationId).getD group := by
      cases e.correlationId.or l.correlationId <;> rfl
    rw [mapIdx_prepared_cons, resolveFrom, Option.some_or, ih, hgroup]
    rfl

/-- The events of a batch are resolved one by one. -/
theorem resolve_eq :
    l.resolve mint now n events =
      events.mapIdx fun i e => l.prepared now (groupOfFirst mint n events) (mint (n + i)) e := by
  rw [resolve]
  cases hdefault : l.correlationId with
  | some group =>
    -- no event of the batch comes to need a group beyond the one that the batch names
    rw [resolveFrom_settled]
    simp only [prepared, hdefault, Option.or_some, Option.getD_some]
  | none =>
    cases events with
    | nil => rfl
    | cons e es =>
      -- the first event settles the group, for itself as for the others
      have hfirst : ((e.correlationId.or l.correlationId).or none).getD (mint n) =
          groupOfFirst mint n (e :: es) := by
        rw [hdefault, Option.or_none, Option.or_none]
        rfl
      have hself : (e.correlationId.or l.correlationId).getD (groupOfFirst mint n (e :: es)) =
          groupOfFirst mint n (e :: es) := by
        rw [hdefault, Option.or_none, groupOfFirst, List.head?_cons, Option.bind_some]
        cases e.correlationId <;> rfl
      rw [mapIdx_prepared_cons, resolveFrom, Option.none_or, resolveFrom_settled, hfirst, prepared,
        hself]

/-- Every event is resolved to one. -/
theorem length_resolve : (l.resolve mint now n events).length = events.length := by
  rw [resolve_eq, List.length_mapIdx]

/-- The event at a place is resolved with the identifier of that place. -/
theorem getElem?_resolve (i : Nat) :
    (l.resolve mint now n events)[i]? =
      events[i]?.map (l.prepared now (groupOfFirst mint n events) (mint (n + i))) := by
  rw [resolve_eq, List.getElem?_mapIdx]

/-- A prepared event comes from an event of the batch. -/
theorem exists_prepared_of_mem_resolve {p : PreparedEvent} (hp : p ∈ l.resolve mint now n events) :
    ∃ i, ∃ e ∈ events, p = l.prepared now (groupOfFirst mint n events) (mint (n + i)) e := by
  rw [resolve_eq, List.mem_mapIdx] at hp
  obtain ⟨i, hi, rfl⟩ := hp
  exact ⟨i, _, List.getElem_mem hi, rfl⟩

/-- Events are prepared with their types and data, and with their tags written down. -/
theorem map_resolve :
    (l.resolve mint now n events).map (fun p => (p.eventType, p.tags, p.data)) =
      events.map fun e => (e.eventType, e.tags.map Tag.encode, e.data) := by
  refine List.ext_getElem? fun i => ?_
  rw [List.getElem?_map, getElem?_resolve, List.getElem?_map, Option.map_map]
  rfl

/-! ### Identifiers -/

/-- The events of a batch get the next identifiers in order. -/
theorem map_id_resolve :
    (l.resolve mint now n events).map (·.id) = (List.range' n events.length).map mint := by
  refine List.ext_getElem? fun i => ?_
  rw [List.getElem?_map, getElem?_resolve, List.getElem?_map]
  -- a place in the batch has its number counted from `n`, and the others have none
  rcases Nat.lt_or_ge i events.length with hi | hi
  · rw [List.getElem?_eq_getElem hi, List.getElem?_range' hi, Nat.one_mul]
    rfl
  · rw [List.getElem?_eq_none hi, List.getElem?_eq_none (by simpa using hi)]
    rfl

/-- If no identifier is given twice, the events of a batch have identifiers that differ from each other and
from those that were given before. -/
theorem ids_fresh
    (hmint : ∀ i < n + events.length, ∀ j < n + events.length, mint i = mint j → i = j) :
    ((l.resolve mint now n events).map (·.id)).Nodup ∧
      ∀ k < n, mint k ∉ (l.resolve mint now n events).map (·.id) := by
  rw [map_id_resolve]
  -- those of the batch differ from each other, and from those of before
  constructor
  · refine List.Nodup.map_on (fun i hi j hj => ?_) List.nodup_range'
    rw [List.mem_range'_1] at hi hj
    exact hmint i hi.2 j hj.2
  · intro k hk hmem
    obtain ⟨i, hi, heq⟩ := List.mem_map.mp hmem
    rw [List.mem_range'_1] at hi
    have := hmint i hi.2 k (by omega) heq
    omega

/-! ### What does not matter -/

/-- Another event in the place of one that is not the first changes nothing for the others. -/
theorem getElem?_resolve_set {i j : Nat} (hj : j ≠ 0) (hij : i ≠ j) (e : InputEvent) :
    (l.resolve mint now n (events.set j e))[i]? = (l.resolve mint now n events)[i]? := by
  -- of all events only the first one counts for the others, and it stays
  have hfirst : groupOfFirst mint n (events.set j e) = groupOfFirst mint n events := by
    rw [groupOfFirst, groupOfFirst, List.head?_eq_getElem?, List.head?_eq_getElem?,
      List.getElem?_set_ne hj]
  rw [getElem?_resolve, getElem?_resolve, hfirst, List.getElem?_set_ne hij.symm]

/-- A batch whose events name no group is of one group. -/
theorem correlationId_of_mem_resolve (hnone : ∀ e ∈ events, e.correlationId = none) {p : PreparedEvent}
    (hp : p ∈ l.resolve mint now n events) : p.correlationId = l.correlationId.getD (mint n) := by
  -- the first event names no group, so the fallback is that event
  have hfirst : groupOfFirst mint n events = mint n := by
    cases events with
    | nil => rfl
    | cons e es =>
      rw [groupOfFirst, List.head?_cons, Option.bind_some, hnone e List.mem_cons_self]
      rfl
  obtain ⟨i, e, he, rfl⟩ := exists_prepared_of_mem_resolve l mint now n events hp
  rw [prepared, hfirst, hnone e he, Option.none_or]

end

/-! ### Resolving a batch -/

/-- What a batch is resolved to, whatever it holds and whatever lineage it has.
* Each event is prepared once and in order, with its type, its data, its tags written down and the next
  identifier.
* Its cause is the one that it names, else the one that the batch names, else itself. Its group is the one
  that it names, else the one that the batch names, else the one that the first event names, else the first
  event.
* Another event in the place of one that is not the first changes nothing for the others.
* If no event names a group then all are of one, which is that of the batch or else named for the first.
* If no identifier is given twice, those of the batch differ from each other and from all that were given
  before. -/
theorem resolved_by_precedence (l : Lineage) (mint : Nat → EventId) (now : Instant) (n : Nat)
    (events : List InputEvent) :
    let batch := l.resolve mint now n events
    batch.length = events.length ∧
    (∀ i e, events[i]? = some e → ∃ p, batch[i]? = some p ∧ p.id = mint (n + i) ∧
      p.eventType = e.eventType ∧ p.tags = e.tags.map Tag.encode ∧ p.data = e.data ∧
      p.causationId = (e.causationId.or l.causationId).getD (mint (n + i)) ∧
      p.correlationId = (e.correlationId.or l.correlationId).getD
        ((events.head?.bind (·.correlationId)).getD (mint n))) ∧
    (∀ i j, j ≠ 0 → i ≠ j → ∀ e, (l.resolve mint now n (events.set j e))[i]? = batch[i]?) ∧
    ((∀ e ∈ events, e.correlationId = none) →
      ∀ p ∈ batch, p.correlationId = l.correlationId.getD (mint n)) ∧
    ((∀ i < n + events.length, ∀ j < n + events.length, mint i = mint j → i = j) →
      (batch.map (·.id)).Nodup ∧ ∀ k < n, mint k ∉ batch.map (·.id)) := by
  intro batch
  refine ⟨length_resolve l mint now n events, fun i e he => ?_, fun i j hj hij e => ?_,
    fun hnone p hp => correlationId_of_mem_resolve l mint now n events hnone hp,
    ids_fresh l mint now n events⟩
  · have hp : batch[i]? = some (l.prepared now (groupOfFirst mint n events) (mint (n + i)) e) := by
      rw [getElem?_resolve, he]
      rfl
    exact ⟨_, hp, rfl, rfl, rfl, rfl, rfl, rfl⟩
  · exact getElem?_resolve_set l mint now n events hj hij e

/-- Three events of a batch that names a cause: the second names a group, which is its own only, and the
third a cause. Without the group that the second names, all are of the group of the first. -/
theorem resolved_by_precedence_of_three :
    let l := Lineage.new.withCausation (.ofNat 9)
    let opened := InputEvent.new "Opened" [⟨"account", "17"⟩] (.object [])
    let events := [opened, opened.correlatedWith (.ofNat 7), opened.causedBy (.ofNat 8)]
    let batch := l.resolve .ofNat default 1 events
    let plain := l.resolve .ofNat default 1 (events.set 1 opened)
    (∃ p, batch[1]? = some p ∧ p.causationId = .ofNat 9 ∧ p.correlationId = .ofNat 7) ∧
      (∃ p, batch[2]? = some p ∧ p.causationId = .ofNat 8 ∧ p.correlationId = .ofNat 1) ∧
      plain[2]? = batch[2]? ∧ (∀ p ∈ plain, p.correlationId = .ofNat 1) ∧
      (batch.map (·.id)).Nodup ∧ EventId.ofNat 0 ∉ batch.map (·.id) := by
  intro l opened events batch plain
  obtain ⟨-, heach, hothers, -, hids⟩ := resolved_by_precedence l .ofNat default 1 events
  obtain ⟨-, -, -, hgroup, -⟩ := resolved_by_precedence l .ofNat default 1 (events.set 1 opened)
  -- the second event has the group that it names, the third that of the first
  obtain ⟨second, hsecond, -, -, -, -, hcause, hown⟩ := heach 1 _ rfl
  obtain ⟨third, hthird, -, -, -, -, hnamed, hfirst⟩ := heach 2 _ rfl
  obtain ⟨hnodup, hfresh⟩ := hids (by decide)
  refine ⟨⟨second, hsecond, hcause, hown⟩, ⟨third, hthird, hnamed, hfirst⟩,
    hothers 2 1 (by decide) (by decide) opened, hgroup ?_, hnodup, hfresh 0 (by decide)⟩
  simp [events, opened, InputEvent.new, InputEvent.causedBy]

end EventLog.Lineage
