import EventLog.Proofs.LogInvariant
import EventLog.Proofs.SelectionCorrect

/-!
# How an append is decided

An append is judged in a fixed order: the batch and the query of its condition first, then the condition
itself, and what the table refuses last. Whatever the judgment, the table has all rows of the batch
afterwards or none of them.

## Key results

- `Table.Dangles`, `Table.Clashes`: what the table refuses
- `Table.append_eq_ok_iff`, `Table.append_eq_database_iff`: when the rows of a batch are written
- `Store.append_all_or_nothing`: the outcome of an append and the table after it
-/

namespace EventLog

open Database Sql

/-! ### What the table refuses -/

/-- Placed rows name the events that the events of their batch name. -/
theorem Row.forall_mem_place {P : EventId → EventId → Prop} {head : Position}
    {batch : List PreparedEvent} :
    (∀ r ∈ place head batch, P r.causationId r.correlationId) ↔
      ∀ e ∈ batch, P e.causationId e.correlationId := by
  -- by induction on the batch, with the head left free: it moves on with each row
  induction batch generalizing head with
  | nil => simp [place]
  | cons e es ih => rw [place, List.forall_mem_cons, List.forall_mem_cons, ih]; rfl

namespace Table

/-- An event of the batch names an event that is neither in the table nor in the batch. -/
def Dangles (t : Table) (batch : List PreparedEvent) : Prop :=
  ∃ e ∈ batch, ∃ id, (id = e.causationId ∨ id = e.correlationId) ∧
    id ∉ t.map (·.id) ∧ id ∉ batch.map (·.id)

/-- One of the values is repeated, or taken. -/
def Repeats {α : Type} (taken values : List α) : Prop :=
  ¬values.Nodup ∨ ∃ x ∈ values, x ∈ taken

/-- There would be two rows with one identifier or with one position. -/
def Clashes (t : Table) (rows : List Row) : Prop :=
  Repeats (t.map (·.id)) (rows.map (·.id)) ∨ Repeats (t.map (·.position)) (rows.map (·.position))

/-- The table finds a collision exactly if a value is repeated or taken. -/
theorem collides_eq_false_iff_not_repeats {α : Type} [BEq α] [LawfulBEq α] {taken xs : List α} :
    collides taken xs = false ↔ ¬Repeats taken xs := by
  rw [collides_eq_false_iff, Repeats, not_or, Classical.not_not]
  refine and_congr_right fun _ => ?_
  constructor
  · rintro h ⟨x, hx, htaken⟩
    exact h x hx htaken
  · exact fun h x hx htaken => h ⟨x, hx, htaken⟩

/-- Rows are inserted exactly if they do not clash. -/
theorem insertRefusal?_eq_none_iff_not_clashes {t : Table} {rows : List Row} :
    t.insertRefusal? rows = none ↔ ¬t.Clashes rows := by
  rw [insertRefusal?_eq_none_iff, collides_eq_false_iff_not_repeats, collides_eq_false_iff_not_repeats,
    Clashes, not_or]

/-- Placed rows are committed exactly if their batch does not dangle. -/
theorem commitRefusal?_place_eq_none_iff {t : Table} {head : Position} {batch : List PreparedEvent} :
    t.commitRefusal? (Row.place head batch) = none ↔ ¬t.Dangles batch := by
  -- the table is asked when the whole batch is in it
  have hholds : ∀ id, (t ++ Row.place head batch).holds id = true ↔
      id ∈ t.map (·.id) ∨ id ∈ batch.map (·.id) := by
    intro id
    have hmem : (t ++ Row.place head batch).holds id = true ↔
        id ∈ (t ++ Row.place head batch).map (·.id) := by
      rw [holds_iff, List.mem_map]
    rw [hmem, List.map_append, List.mem_append, Row.map_id_place]
  rw [commitRefusal?_eq_none_iff]
  simp only [hholds]
  rw [Row.forall_mem_place (P := fun cause group =>
    (cause ∈ t.map (·.id) ∨ cause ∈ batch.map (·.id)) ∧
      (group ∈ t.map (·.id) ∨ group ∈ batch.map (·.id)))]
  constructor
  · -- a dangling event would be a reference that is not held
    rintro h ⟨e, he, id, rfl | rfl, hnot, hnot'⟩
    · exact (h e he).1.elim hnot hnot'
    · exact (h e he).2.elim hnot hnot'
  · intro h e he
    -- conversely every reference is held, or its event dangles
    have hin : ∀ id, id = e.causationId ∨ id = e.correlationId →
        id ∈ t.map (·.id) ∨ id ∈ batch.map (·.id) := by
      intro id hid
      by_cases hmem : id ∈ t.map (·.id)
      · exact .inl hmem
      · by_cases hmem' : id ∈ batch.map (·.id)
        · exact .inr hmem'
        · exact absurd ⟨e, he, id, hid, hmem, hmem'⟩ h
    exact ⟨hin _ (.inl rfl), hin _ (.inr rfl)⟩

/-! ### One step -/

section

variable {t : Table} {batch : List PreparedEvent} {condition : Option AppendCondition}

/-- Neither check refuses the rows exactly if they neither clash nor dangle. -/
private theorem refusals_eq_none_iff :
    (t.insertRefusal? (Row.place t.head batch)).or (t.commitRefusal? (Row.place t.head batch)) = none ↔
      ¬(t.Dangles batch ∨ t.Clashes (Row.place t.head batch)) := by
  rw [Option.or_eq_none_iff, insertRefusal?_eq_none_iff_not_clashes, commitRefusal?_place_eq_none_iff,
    not_or, and_comm]

/-- A batch is written exactly if its condition holds and the table refuses nothing. -/
theorem append_eq_ok_iff {a : Appended} :
    (t.append batch condition).1 = .ok a ↔ condition.filter (conflicts · t) = none ∧
      ¬(t.Dangles batch ∨ t.Clashes (Row.place t.head batch)) ∧ a = .ofBatch t.head batch := by
  -- the three judgments stand in this order, and each has one outcome of its own
  rw [← refusals_eq_none_iff, append]
  cases condition.filter (conflicts · t) with
  | some c => simp
  | none =>
    dsimp only
    cases (t.insertRefusal? (Row.place t.head batch)).or (t.commitRefusal? (Row.place t.head batch)) with
    | some why => simp
    | none => exact ⟨fun h => ⟨rfl, rfl, (Except.ok.inj h).symm⟩, fun h => congrArg Except.ok h.2.2.symm⟩

/-- An append is an error of the database exactly if its condition holds and the table refuses
something. -/
theorem append_eq_database_iff :
    (∃ e, (t.append batch condition).1 = .error (.database e)) ↔
      condition.filter (conflicts · t) = none ∧
        (t.Dangles batch ∨ t.Clashes (Row.place t.head batch)) := by
  have hnot : (t.Dangles batch ∨ t.Clashes (Row.place t.head batch)) ↔
      (t.insertRefusal? (Row.place t.head batch)).or (t.commitRefusal? (Row.place t.head batch)) ≠
        none := by
    rw [Ne, refusals_eq_none_iff, Classical.not_not]
  rw [hnot, append]
  cases condition.filter (conflicts · t) with
  | some c => simp
  | none =>
    dsimp only
    cases (t.insertRefusal? (Row.place t.head batch)).or (t.commitRefusal? (Row.place t.head batch)) with
    | some why => simp
    | none => simp

/-- An append is a conflict exactly if its condition conflicts with the table. -/
theorem append_eq_conflict_iff_filter {p : Position} :
    (t.append batch condition).1 = .error (.conflict p) ↔
      ∃ c, condition.filter (conflicts · t) = some c ∧ p = c.afterPosition := by
  cases condition with
  | none =>
    -- without a condition the append goes on to the checks of the table
    simp only [append, Option.filter_none]
    split <;> simp
  | some c =>
    rw [append_eq_conflict_iff, Option.filter_some]
    -- the filter keeps the condition exactly if it conflicts
    cases conflicts c t with
    | true =>
      constructor
      · exact fun h => ⟨c, rfl, h.2⟩
      · rintro ⟨c', h, hp⟩
        obtain rfl := Option.some.inj h
        exact ⟨rfl, hp⟩
    | false => simp

/-- An append in one step fails with a conflict or an error of the database. -/
theorem conflict_or_isDisturbance_of_append {e : StoreError}
    (h : (t.append batch condition).1 = .error e) : (∃ p, e = .conflict p) ∨ e.isDisturbance = true := by
  unfold append at h
  split at h
  · obtain rfl := Except.error.inj h
    exact .inl ⟨_, rfl⟩
  · dsimp only at h
    split at h
    · obtain rfl := Except.error.inj h
      exact .inr rfl
    · exact nomatch h

end

end Table

/-! ### Conditions -/

/-- A valid condition conflicts with a table exactly if an event of the table violates it. -/
theorem AppendCondition.filter_conflicts_eq_some_iff {t : Table} {condition : Option AppendCondition}
    (hvalid : ∀ c ∈ condition, c.failIfEventsMatch.validate = .ok ()) {c : AppendCondition} :
    condition.filter (conflicts · t) = some c ↔
      c ∈ condition ∧ ∃ r ∈ t, c.isViolatedBy r.event = true := by
  rw [Option.filter_eq_some_iff]
  exact and_congr_right fun hc => conflicts_iff (hvalid c hc) t

/-- A valid condition holds of a table exactly if no event of the table violates it. -/
theorem AppendCondition.filter_conflicts_eq_none_iff {t : Table} {condition : Option AppendCondition}
    (hvalid : ∀ c ∈ condition, c.failIfEventsMatch.validate = .ok ()) :
    condition.filter (conflicts · t) = none ↔
      ∀ c ∈ condition, ∀ r ∈ t, c.isViolatedBy r.event = false := by
  rw [Option.eq_none_iff_forall_ne_some]
  constructor
  · intro h c hc r hr
    refine Bool.eq_false_iff.mpr fun hviolated => ?_
    exact h c ((filter_conflicts_eq_some_iff hvalid).mpr ⟨hc, r, hr, hviolated⟩)
  · intro h c hc
    obtain ⟨hmem, r, hr, hviolated⟩ := (filter_conflicts_eq_some_iff hvalid).mp hc
    rw [h c hmem r hr] at hviolated
    exact nomatch hviolated

/-! ### Appends -/

namespace Store

variable {s : Store} {events : List InputEvent} {condition : Option AppendCondition}

theorem length_prepare (s : Store) (events : List InputEvent) (lineage : Lineage) :
    (s.prepare events lineage).length = events.length :=
  Lineage.length_resolve lineage s.mint s.now s.minted events

/-- The batch is judged before the query of the condition. -/
theorem validateAppend_eq_error_iff {e : ValidationError} :
    s.validateAppend events condition = .error e ↔
      validateBatch events s.settings.maxBatchSize = .error e ∨
        validateBatch events s.settings.maxBatchSize = .ok () ∧
          ∃ c ∈ condition, c.failIfEventsMatch.validate = .error e := by
  unfold validateAppend
  -- the query is judged behind the batch, and only if there is a condition
  rw [andThen_eq_error_iff]
  cases condition <;> simp [pure, Except.pure]

/-- Whatever the lineage, the limiter of a store has no part in an append. -/
theorem limiter_append (s : Store) (events : List InputEvent) (condition : Option AppendCondition)
    (lineage : Lineage) : (s.append events condition lineage).2.limiter = s.limiter := by
  unfold append
  split <;> rfl

/-- An append writes all rows of its batch, or it fails and writes none. -/
theorem table_append (s : Store) (events : List InputEvent) (condition : Option AppendCondition)
    (lineage : Lineage) :
    (∃ a, (s.append events condition lineage).1 = .ok a ∧
      (s.append events condition lineage).2.table =
        s.table ++ Row.place s.table.head (s.prepare events lineage)) ∨
    ∃ e, (s.append events condition lineage).1 = .error e ∧
      (s.append events condition lineage).2.table = s.table := by
  -- an append that succeeds was one step, which puts the rows behind the others
  cases hout : (s.append events condition lineage).1 with
  | ok a =>
    have hstep := (append_eq_ok hout).2
    have htable := (Table.append_eq_ok (congrArg Prod.fst hstep)).2.2.1
    exact .inl ⟨a, rfl, (congrArg Prod.snd hstep).symm.trans htable⟩
  | error e => exact .inr ⟨e, rfl, table_append_of_error hout⟩

/-- An append is refused as not valid exactly if its judgment refuses it. -/
theorem append_eq_invalidEvent_iff {lineage : Lineage} {e : ValidationError} :
    (s.append events condition lineage).1 = .error (.invalidEvent e) ↔
      s.validateAppend events condition = .error e := by
  constructor
  · intro h
    cases hvalid : s.validateAppend events condition with
    | error e' =>
      rw [append_of_invalid hvalid] at h
      injection h with h
      injection h with h
      rw [h]
    -- a valid append fails by a conflict or by a disturbance, and neither is a judgment
    | ok u =>
      rcases (append_of_valid hvalid lineage).1 with hstep | ⟨⟨e', he, hdist⟩, -⟩
      · have hfail := (congrArg Prod.fst hstep).symm.trans h
        rcases Table.conflict_or_isDisturbance_of_append hfail with ⟨p, hp⟩ | hdist
        · exact nomatch hp
        · exact nomatch hdist
      · -- a disturbance is no judgment
        rw [he] at h
        obtain rfl := Except.error.inj h
        exact nomatch hdist
  · intro h
    rw [append_of_invalid h]

/-- An append is decided in a fixed order, and writes all rows of its batch or none of them. Let `batch` be
the events prepared with their identifiers and lineage, and `rows` their rows after the head.
* Either it succeeds and puts `rows`, one for each event, after the others, or it fails and the table is
  the same. The gate is the same in any case.
* It is refused as not valid exactly if the batch is not valid or else the query of the condition.
* Otherwise, if nothing disturbs it: it is a conflict at the position of its condition exactly if an event
  of the table violates the condition. If none does, it is an error of the database exactly if an event
  names one that is neither in the table nor in the batch, or an identifier or a position is repeated; and
  if nothing of this is the case it succeeds.
* Whatever disturbs it, it succeeds or is a conflict only in these cases, and fails in no other way than
  by a disturbance. -/
theorem append_all_or_nothing (s : Store) (events : List InputEvent)
    (condition : Option AppendCondition) (lineage : Lineage) :
    let batch := s.prepare events lineage
    let rows := Row.place s.table.head batch
    let refused := s.table.Dangles batch ∨ s.table.Clashes rows
    let outcome := (s.append events condition lineage).1
    let table := (s.append events condition lineage).2.table
    ((∃ a, outcome = .ok a ∧ table = s.table ++ rows ∧ rows.length = events.length) ∨
      ∃ e, outcome = .error e ∧ table = s.table) ∧
    (s.append events condition lineage).2.limiter = s.limiter ∧
    (∀ e, outcome = .error (.invalidEvent e) ↔
      validateBatch events s.settings.maxBatchSize = .error e ∨
        validateBatch events s.settings.maxBatchSize = .ok () ∧
          ∃ c ∈ condition, c.failIfEventsMatch.validate = .error e) ∧
    (validateBatch events s.settings.maxBatchSize = .ok () →
      (∀ c ∈ condition, c.failIfEventsMatch.validate = .ok ()) →
      (s.client.Ready →
        (∀ p, outcome = .error (.conflict p) ↔ ∃ c ∈ condition, p = c.afterPosition ∧
          ∃ r ∈ s.table, c.isViolatedBy r.event = true) ∧
        ((∀ c ∈ condition, ∀ r ∈ s.table, c.isViolatedBy r.event = false) →
          ((∃ e, outcome = .error (.database e)) ↔ refused) ∧ (¬refused → ∃ a, outcome = .ok a))) ∧
      (∀ p, outcome = .error (.conflict p) → ∃ c ∈ condition, p = c.afterPosition ∧
        ∃ r ∈ s.table, c.isViolatedBy r.event = true) ∧
      (∀ a, outcome = .ok a →
        (∀ c ∈ condition, ∀ r ∈ s.table, c.isViolatedBy r.event = false) ∧ ¬refused) ∧
      ∀ e, outcome = .error e → (∃ p, e = .conflict p) ∨ e.isDisturbance = true) := by
  intro batch rows refused outcome table
  refine ⟨?_, limiter_append s events condition lineage, ?_, ?_⟩
  · have hlength : rows.length = events.length :=
      (Row.length_place _ _).trans (length_prepare s events lineage)
    rcases table_append s events condition lineage with ⟨a, ha, ht⟩ | hfail
    · exact .inl ⟨a, ha, ht, hlength⟩
    · exact .inr hfail
  · intro e
    exact append_eq_invalidEvent_iff.trans validateAppend_eq_error_iff
  · intro hbatch hquery
    obtain ⟨hany, hcalm⟩ := append_of_valid (validateAppend_eq_ok_iff.mpr ⟨hbatch, hquery⟩) lineage
    -- the `SELECT` of the condition finds what the condition forbids, as its query is valid
    have hconflict : ∀ p, (s.table.append batch condition).1 = .error (.conflict p) ↔
        ∃ c ∈ condition, p = c.afterPosition ∧ ∃ r ∈ s.table, c.isViolatedBy r.event = true := by
      intro p
      rw [Table.append_eq_conflict_iff_filter]
      simp only [AppendCondition.filter_conflicts_eq_some_iff hquery]
      constructor
      · rintro ⟨c, ⟨hc, hviolated⟩, hp⟩
        exact ⟨c, hc, hp, hviolated⟩
      · rintro ⟨c, hc, hp, hviolated⟩
        exact ⟨c, ⟨hc, hviolated⟩, hp⟩
    refine ⟨fun hready => ?_, fun p hp => ?_, fun a ha => ?_, fun e he => ?_⟩
    · -- undisturbed, the append is one step of the table
      have hstep : outcome = (s.table.append batch condition).1 := congrArg Prod.fst (hcalm hready)
      rw [hstep]
      refine ⟨hconflict, fun hholds => ?_⟩
      have hnone := (AppendCondition.filter_conflicts_eq_none_iff hquery).mpr hholds
      refine ⟨?_, fun hrefused => ?_⟩
      · rw [Table.append_eq_database_iff]
        exact and_iff_right hnone
      · exact ⟨_, Table.append_eq_ok_iff.mpr ⟨hnone, hrefused, rfl⟩⟩
    · -- otherwise it is that step or a disturbance, and a disturbance is no conflict and no success
      rcases hany with hstep | ⟨⟨e, he, hdist⟩, -⟩
      · exact (hconflict p).mp ((congrArg Prod.fst hstep).symm.trans hp)
      · obtain rfl := Except.error.inj (hp.symm.trans he)
        exact nomatch hdist
    · -- a success was one step, whatever the client
      obtain ⟨hnone, hrefused, -⟩ :=
        Table.append_eq_ok_iff.mp (congrArg Prod.fst (append_eq_ok ha).2)
      exact ⟨(AppendCondition.filter_conflicts_eq_none_iff hquery).mp hnone, hrefused⟩
    · rcases hany with hstep | ⟨⟨e', he', hdist⟩, -⟩
      · exact Table.conflict_or_isDisturbance_of_append ((congrArg Prod.fst hstep).symm.trans he)
      · obtain rfl := Except.error.inj (he.symm.trans he')
        exact .inr hdist

/-- An event that names an unknown cause, after a valid one, is refused by the database with its whole
batch. Under a condition that a deposit of the log violates the same batch is a conflict. -/
theorem append_all_or_nothing_on_unknown_cause :
    let s := Store.facing twoRows
    let events : List InputEvent := [.new "Deposited" [] (.object []),
      (InputEvent.new "Deposited" [] (.object [])).causedBy (.ofNat 99)]
    let noDeposit := AppendCondition.noneMatching ⟨[⟨["Deposited"], []⟩]⟩
    ((∃ e, (s.append events none .new).1 = .error (.database e)) ∧
      (s.append events none .new).2.table = s.table) ∧
    (s.append events (some noDeposit) .new).1 = .error (.conflict 0) := by
  intro s events noDeposit
  -- the events of the batch have the numbers 0 and 1, and the log those of its rows
  have hready : s.client.Ready := ready_facing _
  have hdangles : s.table.Dangles (s.prepare events .new) :=
    ⟨_, List.mem_cons_of_mem _ List.mem_cons_self, .ofNat 99, .inl rfl, by decide, by decide⟩
  constructor
  · obtain ⟨htable, -, -, hvalid⟩ := append_all_or_nothing s events none .new
    obtain ⟨hcalm, -⟩ := hvalid rfl (by simp)
    obtain ⟨e, he⟩ := (((hcalm hready).2 (by simp)).1).mpr (.inl hdangles)
    refine ⟨⟨e, he⟩, ?_⟩
    rcases htable with ⟨a, ha, -⟩ | ⟨-, -, hsame⟩
    · exact nomatch ha.symm.trans he
    · exact hsame
  · obtain ⟨-, -, -, hvalid⟩ := append_all_or_nothing s events (some noDeposit) .new
    obtain ⟨hcalm, -⟩ := hvalid rfl (by rintro c ⟨⟩; rfl)
    refine ((hcalm hready).1 0).mpr ⟨noDeposit, rfl, rfl, _, List.mem_cons_self, ?_⟩
    decide +kernel

end Store

end EventLog
