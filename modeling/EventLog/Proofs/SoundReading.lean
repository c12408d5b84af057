import EventLog.Proofs.AdmissionGate
import EventLog.Proofs.ProjectionRead
import EventLog.Proofs.ReadPaths

/-!
# Reading a sound table

The rows of a sound table stand in order of position and can all be read back. So a query selects rows
in the order in which they stand, and no way to read a log ever meets a corrupt row, not even a reading in
batches that was begun before the last appends.

## Key results

- `Table.Sound.rows_after_eq`: the rows that a query selects from a sound table
- `Store.read_of_sound`: the events that are read from a sound table
- `Store.linked_of_sound`: the events that name an event
- `Batches.readable_of_log`: a reading of the log has only rows that can be read back
- `Store.ReadFails.ne_corruptRow`: nothing that reads a log fails with a corrupt row
-/

namespace EventLog

open Database Sql

/-- The rows of a sound table can be read back. -/
theorem Table.Sound.decodable {t : Table} (ht : t.Sound) : ∀ r ∈ t, r.Decodable :=
  fun r hr => (ht.wellFormed r hr).parses

/-- The rows of a sound table stand in order, so what is picked out of them need not be sorted. -/
theorem Table.Sound.inOrder_filter {t : Table} (ht : t.Sound) (p : Row → Bool) :
    Selection.inOrder (t.filter p) = t.filter p :=
  List.mergeSort_of_pairwise ((ht.pairwise.filter p).imp fun h => decide_eq_true (Int.le_of_lt h))

/-- The rows that a query selects from a sound table, in the order in which they stand there. -/
theorem Table.Sound.rows_after_eq {t : Table} (ht : t.Sound) {q : Query} (hq : q.validate = .ok ())
    (after : Position) (limit : Option Int) :
    Selection.rows ⟨q, after, limit⟩ t =
      let found := t.filter fun r => decide (after < r.position) && q.selects r.event
      limit.elim found fun n => found.take n.toNat := by
  -- the database compares rows as the query compares their events
  have hfilter : t.filter (Selection.includes ⟨q, after, limit⟩) =
      t.filter fun r => decide (after < r.position) && q.selects r.event :=
    List.filter_congr fun r _ => Selection.includes_eq (s := ⟨q, after, limit⟩) hq r
  simp only [Selection.rows, hfilter, ht.inOrder_filter]
  cases limit <;> rfl

/-- Positions count from one, so reading after 0 leaves nothing out. -/
theorem Table.Sound.rows_eq {t : Table} (ht : t.Sound) {q : Query} (hq : q.validate = .ok ()) :
    Selection.rows ⟨q, 0, none⟩ t = t.filter fun r => q.selects r.event := by
  rw [ht.rows_after_eq hq]
  refine List.filter_congr fun r hr => ?_
  have hpos : (0 : Position) < r.position :=
    Int.lt_of_lt_of_le (by decide) (ht.position_bounds hr).1
  rw [decide_eq_true hpos, Bool.true_and]

/-- The events after a position that a query selects, as they stand in a table. -/
def Table.eventsAfter (t : Table) (q : Query) (after : Position) : List Event :=
  (t.map Row.event).filter fun e => decide (after < e.position) && q.selects e

/-- The events of the rows that a query selects from a sound table after a position, up to a limit. -/
theorem Table.Sound.map_event_rows_after {t : Table} (ht : t.Sound) {q : Query}
    (hq : q.validate = .ok ()) (after : Position) (limit : Option Int) :
    (Selection.rows ⟨q, after, limit⟩ t).map Row.event =
      limit.elim (t.eventsAfter q after) fun n => (t.eventsAfter q after).take n.toNat := by
  -- selecting rows and reading them is reading all and selecting events
  have hfound : (t.filter fun r => decide (after < r.position) && q.selects r.event).map Row.event =
      t.eventsAfter q after := by
    rw [eventsAfter, List.filter_map]
    rfl
  rw [ht.rows_after_eq hq, ← hfound]
  cases limit with
  | none => rfl
  | some n => exact List.map_take

/-- The events that a query selects from a sound table. -/
theorem Table.Sound.map_event_rows {t : Table} (ht : t.Sound) {q : Query} (hq : q.validate = .ok ()) :
    (Selection.rows ⟨q, 0, none⟩ t).map Row.event = (t.map Row.event).filter q.selects := by
  rw [ht.rows_eq hq, List.filter_map]
  rfl

/-- The event names another one as its cause or as its group. -/
def Event.names (e : Event) : Link → EventId → Bool
  | .causation, id => e.causationId == id
  | .correlation, id => e.correlationId == id

/-- The events of a sound table that name an event. -/
theorem Table.Sound.map_event_linked {t : Table} (ht : t.Sound) (link : Link) (id : EventId) :
    (t.linked link id).map Row.event = (t.map Row.event).filter (·.names link id) := by
  rw [linked, ht.inOrder_filter, List.filter_map]
  cases link <;> rfl

/-! ### Disturbances and other failures -/

/-- An action on a store has its own result, or it is disturbed. -/
theorem Store.run_eq_or_disturbed {α : Type} {s : Store} {P : Client → Prop} {x : Db α}
    {r : Except StoreError α} {t' : Table} (h : Db.Computes P x s.table r t') :
    (s.run x).1 = r ∨ Db.Disturbed (s.run x).1 := by
  obtain ⟨r', c, hrun, ⟨rfl, -⟩ | ⟨hdist, -⟩⟩ := h.any s.client rfl
  · exact .inl (congrArg Prod.fst hrun)
  · exact .inr ((congrArg Prod.fst hrun).symm ▸ hdist)

/-- A disturbance is not a corrupt row. -/
theorem Database.Db.Disturbed.ne_corruptRow {α : Type} {r : Except StoreError α} (h : Disturbed r)
    (c : CorruptRow) : r ≠ .error (.corruptRow c) := by
  obtain ⟨e, rfl, he⟩ := h
  rintro ⟨⟩
  exact nomatch he

/-- Projectors are refused for what they are: as a set, or for the query of one of them. -/
theorem validateProjectors_eq_error {σ : Type} {ps : List (NamedProjector σ)} {e : StoreError}
    (h : validateProjectors ps = .error e) :
    (∃ reason, e = .invalidProjectors reason) ∨ ∃ v, e = .invalidEvent v := by
  -- the names seen so far change along the list
  have hnames : ∀ (ps : List (NamedProjector σ)) (seen : List String), validateNames seen ps = .error e →
      (∃ reason, e = .invalidProjectors reason) ∨ ∃ v, e = .invalidEvent v := by
    intro ps
    induction ps with
    | nil => exact fun _ h => nomatch h
    | cons p ps ih =>
      intro seen h
      unfold validateNames at h
      split at h
      · exact .inl ⟨_, (Except.error.inj h).symm⟩
      · split at h
        · exact .inl ⟨_, (Except.error.inj h).symm⟩
        · cases hq : p.projector.query.validate with
          | error v =>
            rw [Query.check_eq_error hq] at h
            exact .inr ⟨v, (Except.error.inj h).symm⟩
          | ok u =>
            rw [Query.check_eq_ok hq] at h
            exact ih _ h
  unfold validateProjectors at h
  split at h
  · exact .inl ⟨_, (Except.error.inj h).symm⟩
  · exact hnames ps [] h

/-! ### Readings that go on while the log grows -/

namespace Batches

/-- The rows that are left to read can be read back. -/
def Readable : Batches → Prop
  | .opened cursor size => 0 < size ∧ ∀ r ∈ cursor.pending, r.Decodable
  | _ => True

/-- A reading that stores of the log have taken batches of, in between of which the log may have grown. -/
inductive OfLog : Batches → Prop
  | unopened (q : Query) (o : ReadOptions) : OfLog (.unopened q o)
  | next {b : Batches} {s : Store} : OfLog b → Table.Reaches [] s.table →
    s.settings.validate = .ok () → OfLog (b.next s).2.1

/-- What is left after a batch of rows that can be read back can be read back. -/
theorem readable_of_ofRows {size : Nat} (hsize : 0 < size) {rows : List Row}
    (h : ∀ r ∈ rows, r.Decodable) {batch : Option (List Event)} {b : Batches}
    (hb : ofRows size rows = .ok (batch, b)) : b.Readable := by
  -- the events of the batch were read, so what is left are the rows after it
  rw [ofRows_of_events (Row.toEvents_eq_ok fun r hr => h r (List.mem_of_mem_take hr))] at hb
  obtain ⟨-, rfl⟩ := Prod.mk.inj (Except.ok.inj hb)
  split
  · trivial
  · exact ⟨hsize, fun r hr => h r (List.mem_of_mem_drop hr)⟩

/-- One step of a reading of a sound table: the rows that are left can still be read back, and no row was
corrupt. -/
theorem Readable.next {b : Batches} (hb : b.Readable) {s : Store} (ht : s.table.Sound)
    (hsettings : s.settings.validate = .ok ()) :
    (b.next s).2.1.Readable ∧ ∀ c, (b.next s).1 ≠ .error (.corruptRow c) := by
  -- a reading that is not open yet selects its rows now, another one has the rows of its cursor
  have hstep : ∀ {size : Nat} {rows : List Row}, 0 < size → b.Left s.settings s.table size rows →
      (∀ r ∈ rows, r.Decodable) →
      (b.next s).2.1.Readable ∧ ∀ c, (b.next s).1 ≠ .error (.corruptRow c) := by
    intro size rows hsize hleft hdec
    have hevents : Row.toEvents (rows.take size) = .ok ((rows.take size).map Row.event) :=
      Row.toEvents_eq_ok fun r hr => hdec r (List.mem_of_mem_take hr)
    have hrows := ofRows_of_events hevents
    obtain ⟨r, c, hrun, ⟨rfl, -⟩ | ⟨hdist, -⟩⟩ := (computes_take hsize hleft).any s.client rfl
    · simp only [Batches.next, Store.run, hrun, hrows]
      exact ⟨readable_of_ofRows hsize hdec hrows, fun c => by simp⟩
    · -- the session failed, which is no matter of the rows
      obtain ⟨e, rfl, he⟩ := hdist
      simp only [Batches.next, Store.run, hrun]
      refine ⟨trivial, ?_⟩
      rintro c ⟨⟩
      cases he
  cases b with
  -- the rows are selected in the table as it is now
  | unopened q o =>
    cases hq : q.validate with
    | error e =>
      rw [Store.next_of_invalid hq]
      exact ⟨trivial, fun c => by simp⟩
    | ok u =>
      refine hstep (StoreSettings.batchSizeOf_pos hsettings o) (.unopened hq rfl) fun r hr => ?_
      exact ht.decodable r (Selection.mem_of_mem_rows hr)
  | opened cursor size => exact hstep hb.1 (.opened cursor.pending) hb.2
  | finished => exact ⟨trivial, fun c h => by cases h⟩

/-- A reading of the log has only rows that can be read back, however the log has grown since it began. -/
theorem readable_of_log {b : Batches} (h : b.OfLog) : b.Readable := by
  induction h with
  | unopened q o => trivial
  | next _ hreach hsettings ih => exact (ih.next (Table.sound_nil.reaches hreach) hsettings).1

/-- A whole reading of a sound table meets no corrupt row. -/
theorem Readable.collect {b : Batches} (hb : b.Readable) (count : Nat) {s : Store}
    (ht : s.table.Sound) (hsettings : s.settings.validate = .ok ()) (c : CorruptRow) :
    (b.collect count s).2.1 ≠ some (.corruptRow c) := by
  -- each batch may leave another store, but one with the same table and settings
  induction count generalizing b s with
  | zero => simp [Batches.collect]
  | succ count ih =>
    obtain ⟨hrest, hne⟩ := hb.next ht hsettings
    have htable := table_next b s
    have hsettings' : (b.next s).2.2.settings = s.settings := by
      unfold Batches.next
      split <;> rename_i hrun <;> exact congrArg (·.2.settings) hrun.symm
    rcases hnext : b.next s with ⟨_ | _ | batch, b', s'⟩
    all_goals rw [hnext] at hrest hne htable hsettings'
    · -- the reading failed, but not for a corrupt row
      simp only [Batches.collect, hnext]
      rintro ⟨⟩
      exact hne c rfl
    · simp only [Batches.collect, hnext]
      simp
    · simp only [Batches.collect, hnext]
      exact ih hrest (htable ▸ ht) (hsettings' ▸ hsettings)

end Batches

/-! ### Everything that reads -/

namespace Store

/-- A call that reads the log fails with an error. -/
inductive ReadFails (s : Store) : StoreError → Prop
  | read {q : Query} {o : ReadOptions} {e : StoreError} : (s.read q o).1 = .error e → ReadFails s e
  | linked {link : Link} {id : EventId} {e : StoreError} : (s.linked link id).1 = .error e →
    ReadFails s e
  | readBatches {q : Query} {o : ReadOptions} {count : Option Nat} {e : StoreError} :
    (s.readBatches q o count).2.1 = some e → ReadFails s e
  | nextBatch {b : Batches} {e : StoreError} : b.OfLog → (b.next s).1 = .error e → ReadFails s e
  | stream {q : Query} {o : ReadOptions} {count : Option Nat} {streamed : Streamed} {s' : Store}
    {e : StoreError} : s.stream q o count = some (streamed, s') → streamed.failure = some e →
    ReadFails s e
  | project {σ : Type} {p : Projector σ} {e : StoreError} : (s.project p).1 = .error e → ReadFails s e
  | decide {σ : Type} {ps : List (NamedProjector σ)} {e : StoreError} : (s.decide ps).1 = .error e →
    ReadFails s e

section

variable {s : Store} (ht : s.table.Sound)

include ht

/-- Rows that a sound table selects are read as events. -/
private theorem read_ne_corruptRow (q : Query) (o : ReadOptions) (c : CorruptRow) :
    (s.read q o).1 ≠ .error (.corruptRow c) := by
  cases hq : q.validate with
  -- an invalid query is refused before anything is read
  | error e =>
    rw [read_of_invalid hq]
    simp
  | ok u =>
    have hevents := Row.toEvents_eq_ok fun r hr =>
      ht.decodable r (Selection.mem_of_mem_rows (s := o.selection q) hr)
    have hrun := run_eq_or_disturbed (s := s) (Db.computes_readEvents s.settings q o)
    rw [hevents] at hrun
    simp only [read, Query.check_eq_ok hq]
    rcases hrun with hrun | hdist
    · rw [hrun]
      intro h
      cases h
    · exact hdist.ne_corruptRow c

/-- What is read after a position: the events that the query selects, up to the limit. -/
theorem read_of_sound (hready : s.client.Ready) {q : Query} (hq : q.validate = .ok ()) (o : ReadOptions) :
    (s.read q o).1 = .ok (o.rowLimit.elim (s.table.eventsAfter q o.after)
      fun n => (s.table.eventsAfter q o.after).take n.toNat) := by
  have hdec : ∀ r ∈ (o.selection q).rows s.table, r.Decodable :=
    fun r hr => ht.decodable r (Selection.mem_of_mem_rows hr)
  rw [read_of_ready hready hq, Row.toEvents_eq_ok hdec]
  exact congrArg Except.ok (ht.map_event_rows_after hq o.after o.rowLimit)

/-- What names an event is found, unless the reading is disturbed. -/
theorem linked_of_sound (link : Link) (id : EventId) :
    ((s.linked link id).1 = .ok ((s.table.map Row.event).filter (·.names link id)) ∨
      Db.Disturbed (s.linked link id).1) ∧
    (s.client.Ready →
      (s.linked link id).1 = .ok ((s.table.map Row.event).filter (·.names link id))) := by
  have hevents : Row.toEvents (s.table.linked link id) =
      .ok ((s.table.map Row.event).filter (·.names link id)) := by
    rw [← ht.map_event_linked]
    refine Row.toEvents_eq_ok fun r hr => ?_
    exact ht.decodable r (List.mem_filter.mp ((Selection.inOrder_perm _).mem_iff.mp hr)).1
  have hspec := (Db.Computes.lookup (t := s.table) link id).inSession.bind
    (f := fun rows => Db.ofExcept .corruptRow (Row.toEvents rows)) (.ofExcept _ _)
  rw [hevents] at hspec
  refine ⟨run_eq_or_disturbed hspec, fun hready => ?_⟩
  obtain ⟨c, hrun, -, -⟩ := hspec.calm s.client rfl hready
  exact congrArg Prod.fst hrun

/-- What names an event is read as events. -/
private theorem linked_ne_corruptRow (link : Link) (id : EventId) (c : CorruptRow) :
    (s.linked link id).1 ≠ .error (.corruptRow c) := by
  rcases (linked_of_sound ht link id).1 with hrun | hdist
  · exact fun h => nomatch hrun.symm.trans h
  · exact hdist.ne_corruptRow c

/-- A stream of a sound table ends without a corrupt row, however much of it is taken. -/
private theorem stream_ne_corruptRow {q : Query} {o : ReadOptions} {count : Option Nat}
    {streamed : Streamed} {s' : Store} (h : s.stream q o count = some (streamed, s')) (c : CorruptRow) :
    streamed.failure ≠ some (.corruptRow c) := by
  -- a buffer that is too large gives no stream at all
  by_cases hbuffer : s.settings.streamBuffer ≤ Limiter.maxPlaces
  · cases hq : q.validate with
    | error e =>
      rw [stream_of_invalid hq hbuffer] at h
      obtain ⟨rfl, -⟩ := Prod.mk.inj (Option.some.inj h)
      dsimp only
      split <;> simp
    | ok u =>
      have hevents := Row.toEventsUntil_eq fun r hr =>
        ht.decodable r (Selection.mem_of_mem_rows (s := o.selection q) hr)
      -- what rows that can be read back give has no failure, wherever it is cut off
      have hnone : ((Streamed.ofRows ((o.selection q).rows s.table)).upTo count).failure = none := by
        simp only [Streamed.ofRows, hevents, Option.map_none]
        cases count with
        | none => rfl
        | some n =>
          rw [Streamed.upTo_some]
          exact ite_self _
      -- a stream of which nothing is taken reads nothing
      by_cases hcount : count = some 0
      · simp only [stream, if_neg (Nat.not_lt.mpr hbuffer), if_pos hcount] at h
        obtain ⟨rfl, -⟩ := Prod.mk.inj (Option.some.inj h)
        simp
      · simp only [stream, if_neg (Nat.not_lt.mpr hbuffer), if_neg hcount, run] at h
        obtain ⟨r, client, hrun, ⟨rfl, -⟩ | ⟨⟨e, rfl, he⟩, -⟩⟩ :=
          (Streamed.computes_start (t := s.table) s.settings hq o).any s.client rfl
        · -- the stream was opened: events come until the rows or the count end
          obtain ⟨streamed', client', hrun', -, -, hstreamed⟩ :=
            Streamed.exists_runOn_deliver count ((o.selection q).rows s.table) client
          rw [Db.runOn_bind_ok hrun, hrun'] at h
          obtain ⟨rfl, -⟩ := Prod.mk.inj (Option.some.inj h)
          -- the commit can fail after the last event, but that is a disturbance
          rcases hstreamed with rfl | ⟨-, -, e, hfail, he⟩
          · rw [hnone]
            simp
          · rw [hfail]
            rintro ⟨⟩
            cases he
        · rw [Db.runOn_bind_error hrun] at h
          obtain ⟨rfl, -⟩ := Prod.mk.inj (Option.some.inj h)
          rintro ⟨⟩
          cases he
  · simp only [stream, if_pos (Nat.lt_of_not_le hbuffer)] at h
    cases h

variable (hsettings : s.settings.validate = .ok ())

include hsettings

/-- A projection of a sound table meets no corrupt row, whether or not there was a place for it. -/
private theorem runProjection_ne_corruptRow {σ : Type} (ps : List (NamedProjector σ)) (query : Query)
    (c : CorruptRow) : (s.runProjection ps query).1 ≠ .error (.corruptRow c) := by
  cases hplace : s.limiter.tryAdmit with
  | error e =>
    -- without a place nothing is read
    simp only [runProjection, hplace]
    obtain ⟨-, rfl⟩ := Limiter.tryAdmit_eq_error_iff.mp hplace
    simp
  | ok limiter =>
    cases hvalid : validateProjectors ps with
    | error e =>
      simp only [runProjection, hplace, hvalid]
      intro h
      obtain rfl := Except.error.inj h
      -- projectors are not refused with a corrupt row
      rcases validateProjectors_eq_error hvalid with ⟨reason, h⟩ | ⟨v, h⟩ <;> cases h
    | ok u =>
      obtain ⟨cut, -, -, hspec⟩ := Projected.computes_ofLog (t := s.table)
        (StoreSettings.fetchBatchSize_pos hsettings) ps query ht.decodable
      have hrun := run_eq_or_disturbed (s := { s with limiter }) hspec
      simp only [runProjection, hplace, hvalid]
      rcases hrun with hrun | hdist
      · -- the outcome is that of the folder: states, or the refusal of a projector
        rw [hrun]
        intro h
        cases hout : (Folder.start ps s.settings.maxWorkers).outcome cut with
        | error err => rw [hout] at h; cases h
        | ok out => rw [hout] at h; cases h
      · exact hdist.ne_corruptRow c

/-- Nothing that reads a sound table meets a corrupt row. -/
theorem ReadFails.ne_corruptRow {e : StoreError} (h : s.ReadFails e) (c : CorruptRow) :
    e ≠ .corruptRow c := by
  rintro rfl
  -- one case for each way to read
  cases h with
  | read h => exact read_ne_corruptRow ht _ _ c h
  | linked h => exact linked_ne_corruptRow ht _ _ c h
  | readBatches h => exact Batches.Readable.collect (b := .unopened _ _) trivial _ ht hsettings c h
  | nextBatch hb h => exact ((Batches.readable_of_log hb).next ht hsettings).2 c h
  | stream h hfail => exact stream_ne_corruptRow ht h c hfail
  -- a projector by itself is a set of one
  | @project σ p e h =>
    have hne := runProjection_ne_corruptRow ht hsettings [⟨"projector", p⟩] p.query c
    simp only [Store.project] at h
    rcases hrun : (s.runProjection [⟨"projector", p⟩] p.query).1 with e | out
    · rw [hrun] at h hne
      obtain rfl := Except.error.inj h
      exact hne rfl
    · rw [hrun] at h
      simp only [Except.bind] at h
      split at h <;> cases h
  | @decide σ ps e h =>
    have hne := runProjection_ne_corruptRow ht hsettings ps (Query.union (ps.map (·.projector.query))) c
    simp only [Store.decide] at h
    rcases hrun : (s.runProjection ps (Query.union (ps.map (·.projector.query)))).1 with e | out
    · rw [hrun] at h hne
      obtain rfl := Except.error.inj h
      exact hne rfl
    · rw [hrun] at h
      cases h

end

end Store

end EventLog
