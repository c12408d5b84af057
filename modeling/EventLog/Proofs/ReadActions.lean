import EventLog.Proofs.RowDecode
import EventLog.Proofs.Transaction
import EventLog.Store.Batches
import EventLog.Store.Stream

/-!
# What the actions of a reading give

All actions that read ask for the same rows, those of a selection, and decode them; they differ in how
many rows they decode at once. A disturbance is all else that can happen.

## Key results

- `Db.computes_readRows`, `Cursor.computes_openFor`: the rows of a selection
- `Cursor.computes_nextBatch`: a batch, and what is left after it
- `Streamed.computes_start`, `Streamed.exists_runOn_deliver`: the rows of a stream and its events
-/

namespace EventLog

open Database Sql

variable {t : Table}

/-! ### Queries -/

/-- The query of a reading passes its check if it is valid. -/
theorem Query.check_eq_ok {q : Query} (h : q.validate = .ok ()) : q.check = .ok () := by
  rw [check, h]
  rfl

/-- A query that is not valid is refused for what is wrong with it. -/
theorem Query.check_eq_error {q : Query} {e : ValidationError} (h : q.validate = .error e) :
    q.check = .error (.invalidEvent e) := by
  rw [check, h]
  rfl

/-! ### Rows -/

namespace Database.Db

variable {α : Type}

/-- A selection gives the rows that it selects. -/
protected theorem Computes.select (s : Selection) :
    Computes Client.Quiet (select s) t (.ok (s.rows t)) t :=
  (Computes.send _).bind (Computes.table.bind (.pure _))

/-- A lookup gives the rows that are linked. -/
protected theorem Computes.lookup (link : Link) (id : EventId) :
    Computes Client.Quiet (lookup link id) t (.ok (t.linked link id)) t :=
  (Computes.send _).bind (Computes.table.bind (.pure _))

/-- Rows that are read in a transaction of their own. -/
theorem computes_readRows (level : Isolation) (s : Selection) :
    Computes Client.Ready (readRows level s) t (.ok (s.rows t)) t := by
  refine Computes.begin.bind (Computes.orRollBack ?_)
  exact (Computes.send _).bind <| (Computes.select s).bind <| Computes.commit_nil.bind (.pure _)

/-- The events of rows that are read in a transaction of their own, under a deadline. -/
theorem computes_readEvents (settings : StoreSettings) (q : Query) (o : ReadOptions) :
    Computes Client.Ready
      (within .read settings.queryTimeout do
        let rows ← readRows (settings.isolationOf o) (o.selection q)
        ofExcept .corruptRow (Row.toEvents rows)) t
      ((Row.toEvents ((o.selection q).rows t)).mapError .corruptRow) t :=
  ((computes_readRows _ _).bind (Computes.ofExcept _ _)).within (fun _ _ hc => hc) _ _

/-- A session of its own can be refused, and is given back in any case. -/
theorem Computes.inSession {x : Db α} {r : Except StoreError α} (hx : Computes Client.Quiet x t r t) :
    Computes Client.Ready (inSession x) t r t := by
  -- the session is given back whether the action fails or not
  have hrest : ∀ {c c' : Client} {r' : Except StoreError α}, x.runOn c = (r', c') →
      (do let r ← attempt x; release; ofExcept id r : Db α).runOn c =
        (r', { c' with busy := c'.busy - 1 }) := by
    intro c c' r' h
    rw [runOn_bind_ok (runOn_attempt x c), h]
    cases r' <;> rfl
  refine Computes.acquire.bind ⟨?_, ?_⟩
  · -- on a client that is ready the action comes to its outcome, and with it the session
    intro c ht hc
    obtain ⟨c', hrun, ht', hc'⟩ := hx.calm c ht hc
    exact ⟨_, hrest hrun, ht', hc'⟩
  · intro c ht
    obtain ⟨r', c', hrun, hr⟩ := hx.any c ht
    exact ⟨_, _, hrest hrun, hr⟩

end Database.Db

/-! ### Batch sizes -/

namespace StoreSettings

/-- Settings are accepted if none of their capacities is zero. -/
theorem validate_eq_ok_iff {s : StoreSettings} : s.validate = .ok () ↔ ∀ c ∈ s.capacities, c.2 ≠ 0 := by
  unfold validate
  split
  · -- the check names the first capacity that is zero
    rename_i field n hfind
    have hmem := List.mem_of_find?_eq_some hfind
    have hzero : n = 0 := by simpa using List.find?_some hfind
    simp only [reduceCtorEq, false_iff]
    exact fun hne => hne _ hmem hzero
  · rename_i hfind
    simpa using hfind

/-- Settings that are accepted ask for at least one row of a cursor. -/
theorem fetchBatchSize_pos {s : StoreSettings} (h : s.validate = .ok ()) :
    0 < s.fetchBatchSize := by
  have hne := validate_eq_ok_iff.mp h ("store.fetch_batch_size", s.fetchBatchSize) (by simp [capacities])
  exact Nat.pos_of_ne_zero hne

/-- A reading that asks for batches of no events has those of the settings. -/
theorem batchSizeOf_eq (s : StoreSettings) (o : ReadOptions) :
    s.batchSizeOf o = (o.batchSize.filter (0 < ·)).getD s.fetchBatchSize := by
  unfold batchSizeOf
  rcases o.batchSize with _ | _ | n <;> rfl

theorem batchSizeOf_pos {s : StoreSettings} (h : s.validate = .ok ()) (o : ReadOptions) :
    0 < s.batchSizeOf o := by
  unfold batchSizeOf
  split
  · exact Nat.zero_lt_succ _
  · exact fetchBatchSize_pos h

end StoreSettings

/-! ### Cursors -/

/-- A batch of rows and what is left to read after it. A batch that is not full is the last one, and an
empty one is none. -/
def Batches.ofRows (size : Nat) (rows : List Row) : Except StoreError (Option (List Event) × Batches) :=
  ((Row.toEvents (rows.take size)).mapError .corruptRow).map fun events =>
    (if events.isEmpty then none else some events,
      if events.length < size then .finished else .opened ⟨rows.drop size⟩ size)

namespace Batches

/-- A batch with a corrupt row fails. -/
theorem ofRows_of_corrupt {size : Nat} {rows : List Row} {c : CorruptRow}
    (h : Row.toEvents (rows.take size) = .error c) : ofRows size rows = .error (.corruptRow c) := by
  rw [ofRows, h]
  rfl

theorem ofRows_of_events {size : Nat} {rows : List Row} {events : List Event}
    (h : Row.toEvents (rows.take size) = .ok events) :
    ofRows size rows = .ok (if events.isEmpty then none else some events,
      if events.length < size then .finished else .opened ⟨rows.drop size⟩ size) := by
  rw [ofRows, h]
  rfl

end Batches

namespace Database.Cursor

/-- A cursor is declared for the rows that are selected then. -/
theorem computes_declare (s : Selection) :
    Db.Computes Client.Quiet (declare s) t (.ok ⟨s.rows t⟩) t :=
  (Db.Computes.send _).bind (Db.Computes.table.bind (.pure _))

/-- Rows are taken from a cursor and decoded. -/
theorem computes_take (pending : List Row) (count timeout : Nat) :
    Db.Computes Client.Quiet (fetch ⟨pending⟩ count timeout) t
      (((Row.toEvents (pending.take count)).mapError .corruptRow).map fun events =>
        (events, ⟨pending.drop count⟩)) t := by
  refine ((Db.Computes.send (.fetch count)).within (fun _ _ hc => hc) .fetch timeout).bind ?_
  exact (Db.Computes.ofExcept StoreError.corruptRow _).map fun _ _ => rfl

/-- Rows that parse are fetched as events. -/
theorem computes_fetch {pending : List Row} (h : ∀ r ∈ pending, r.Decodable) (count timeout : Nat) :
    Db.Computes Client.Quiet (fetch ⟨pending⟩ count timeout) t
      (.ok ((pending.take count).map Row.event, ⟨pending.drop count⟩)) t := by
  have hevents : Row.toEvents (pending.take count) = .ok ((pending.take count).map Row.event) :=
    Row.toEvents_eq_ok fun r hr => h r (List.mem_of_mem_take hr)
  have hfetch := computes_take (t := t) pending count timeout
  rw [hevents] at hfetch
  exact hfetch

theorem computes_close : Db.Computes Client.Quiet close t (.ok ()) t :=
  (Db.Computes.send _).bind .commit_nil

theorem computes_openFor (level : Isolation) (s : Selection) :
    Db.Computes Client.Ready (openFor level s) t (.ok ⟨s.rows t⟩) t := by
  refine Db.Computes.begin.bind (Db.Computes.orRollBack ?_)
  exact (Db.Computes.send _).bind (computes_declare s)

/-- A cursor gives a batch of its rows. -/
theorem computes_nextBatch {batchSize : Nat} (hsize : 0 < batchSize) (pending : List Row)
    (timeout : Nat) :
    Db.Computes Client.Quiet (nextBatch ⟨pending⟩ batchSize timeout) t
      (Batches.ofRows batchSize pending) t := by
  refine Db.Computes.orRollBack ?_
  have hfetch := computes_take (t := t) pending batchSize timeout
  cases hrows : Row.toEvents (pending.take batchSize) with
  -- a corrupt row ends the reading, with the transaction given up
  | error c =>
    rw [hrows] at hfetch
    rw [Batches.ofRows_of_corrupt hrows]
    exact hfetch.bind_error
  | ok events =>
    rw [hrows] at hfetch
    rw [Batches.ofRows_of_events hrows]
    refine hfetch.bind ?_
    by_cases hempty : events.isEmpty = true
    · -- an empty batch is not full either
      have hlast : events.length < batchSize := by
        rw [List.isEmpty_iff] at hempty
        simpa [hempty] using hsize
      simp only [if_pos hempty, if_pos hlast]
      exact computes_close.bind (.pure _)
    · by_cases hlast : events.length < batchSize
      · simp only [if_neg hempty, if_pos hlast]
        exact computes_close.bind (.pure _)
      · simp only [if_neg hempty, if_neg hlast]
        -- a full batch leaves the cursor open for the rows behind it
        exact .pure _

end Database.Cursor

namespace Batches

/-! ### Batches -/

/-- No batch is empty or too large, and all but the last one are full. -/
structure OfSize (size : Nat) (batches : List (List Event)) : Prop where
  bounds : ∀ b ∈ batches, b ≠ [] ∧ b.length ≤ size
  full : ∀ b ∈ batches.dropLast, b.length = size

namespace OfSize

variable {size : Nat} {b : List Event} {batches : List (List Event)}

theorem nil : OfSize size [] := ⟨by simp, by simp⟩

theorem singleton (hne : b ≠ []) (hle : b.length ≤ size) : OfSize size [b] :=
  ⟨by simpa using ⟨hne, hle⟩, by simp⟩

/-- A full batch can stand before any batches. -/
theorem cons (hsize : 0 < size) (hb : b.length = size) (h : OfSize size batches) :
    OfSize size (b :: batches) := by
  refine ⟨List.forall_mem_cons.mpr ⟨⟨?_, Nat.le_of_eq hb⟩, h.bounds⟩, ?_⟩
  · exact List.ne_nil_of_length_pos (hb.symm ▸ hsize)
  · cases batches with
    | nil => simp
    | cons b' rest => exact List.forall_mem_cons.mpr ⟨hb, h.full⟩

theorem tail (h : OfSize size (b :: batches)) : OfSize size batches := by
  refine ⟨(List.forall_mem_cons.mp h.bounds).2, fun d hd => h.full d ?_⟩
  -- leaving out the first batch leaves the last one what it is
  cases batches with
  | nil => exact absurd hd List.not_mem_nil
  | cons b' rest => exact List.mem_cons_of_mem _ hd

/-- A batch that others follow is as long as it can be, so no batch of the same events is longer. -/
theorem length_le_of_append (h : OfSize size (b :: batches)) {c more : List Event} (hc : c.length ≤ size)
    (happend : c ++ more = b ++ batches.flatten) : c.length ≤ b.length := by
  cases batches with
  | nil =>
    have hlen := congrArg List.length happend
    simp only [List.length_append, List.flatten_nil, List.length_nil] at hlen
    omega
  | cons b' rest =>
    rw [h.full b List.mem_cons_self]
    exact hc

/-- There is one way to cut events into batches of a size. -/
theorem unique {batches' : List (List Event)} (h : OfSize size batches) (h' : OfSize size batches')
    (hflat : batches.flatten = batches'.flatten) : batches = batches' := by
  -- by induction on one of the two lists; each step takes the same first batch off both
  induction batches generalizing batches' with
  | nil =>
    cases batches' with
    | nil => rfl
    | cons b rest =>
      have hb := (h'.bounds b List.mem_cons_self).1
      exact absurd (List.append_eq_nil_iff.mp hflat.symm).1 hb
  | cons b rest ih =>
    cases batches' with
    | nil =>
      have hb := (h.bounds b List.mem_cons_self).1
      exact absurd (List.append_eq_nil_iff.mp hflat).1 hb
    | cons b' rest' =>
      rw [List.flatten_cons, List.flatten_cons] at hflat
      -- neither of the first batches is longer than the other
      have hle := h'.length_le_of_append (h.bounds b List.mem_cons_self).2 hflat
      have hge := h.length_le_of_append (h'.bounds b' List.mem_cons_self).2 hflat.symm
      obtain ⟨rfl, hrest⟩ := List.append_inj hflat (Nat.le_antisymm hle hge)
      rw [ih h.tail h'.tail hrest]

end OfSize

/-- A reading of a table has rows to give, in batches of a size. -/
inductive Left (settings : StoreSettings) (t : Table) (size : Nat) : Batches → List Row → Prop
  | unopened {q : Query} {o : ReadOptions} : q.validate = .ok () → settings.batchSizeOf o = size →
    Left settings t size (.unopened q o) ((o.selection q).rows t)
  | opened (rows : List Row) : Left settings t size (.opened ⟨rows⟩ size) rows
  | finished : Left settings t size .finished []

/-- Nothing disturbs the client at the next batch: a reading that has yet to be opened needs a session,
another one has it. -/
def Undisturbed : Batches → Client → Prop
  | .unopened _ _ => Client.Ready
  | _ => Client.Quiet

/-- A reading gives a batch of the rows that it has left. -/
theorem computes_take {settings : StoreSettings} {size : Nat} (hsize : 0 < size) {b : Batches}
    {rows : List Row} (h : b.Left settings t size rows) :
    Db.Computes b.Undisturbed (b.take settings) t (ofRows size rows) t := by
  cases h with
  | @unopened q o hq hbatch =>
    -- the cursor is opened first, and the batch is taken from it
    have hopen : Db.Computes Client.Ready (openCursor settings (.unopened q o)) t
        (.ok (some (⟨(o.selection q).rows t⟩, size))) t := by
      simp only [openCursor, Query.check_eq_ok hq, hbatch]
      exact (Cursor.computes_openFor _ _).bind (.pure _)
    exact hopen.bind (Cursor.computes_nextBatch hsize _ _)
  | opened => exact Cursor.computes_nextBatch hsize _ _
  | finished =>
    have hnone : Row.toEvents (([] : List Row).take size) = .ok [] := by
      rw [List.take_nil]
      rfl
    rw [ofRows_of_events hnone, List.isEmpty_nil, if_pos rfl, List.length_nil, if_pos hsize]
    exact .pure _

end Batches

/-! ### Streams -/

namespace Streamed

/-- What a stream gives of rows. -/
def ofRows (rows : List Row) : Streamed :=
  ⟨(Row.toEventsUntil rows).1, (Row.toEventsUntil rows).2.map .corruptRow⟩

/-- What a stream gives if it is given up after `count` events. -/
def upTo (streamed : Streamed) : Option Nat → Streamed
  | none => streamed
  | some n => if n ≤ streamed.events.length then ⟨streamed.events.take n, none⟩ else streamed

/-- Who asks for some events gets the first ones, and learns of a failure only after the last one. -/
theorem upTo_some (streamed : Streamed) (n : Nat) :
    streamed.upTo (some n) = ⟨streamed.events.take n,
      if n ≤ streamed.events.length then none else streamed.failure⟩ := by
  by_cases hn : n ≤ streamed.events.length
  · simp only [upTo, if_pos hn]
  · have hall : streamed.events.take n = streamed.events :=
      List.take_of_length_le (Nat.le_of_not_le hn)
    simp only [upTo, if_neg hn, hall]

/-- The statement of a stream of a valid query gives the rows that it selects. -/
theorem computes_start (settings : StoreSettings) {q : Query} (hq : q.validate = .ok ())
    (o : ReadOptions) :
    Db.Computes Client.Ready (start settings q o) t (.ok ((o.selection q).rows t)) t := by
  rw [start, Query.check_eq_ok hq]
  -- a query that is valid is not noticed
  show Db.Computes Client.Ready (do
    Db.begin
    Db.orRollBack do
      Db.send (.setIsolation (settings.isolationOf o))
      Db.within .stream settings.queryTimeout (Db.select (o.selection q))) t _ t
  refine Db.Computes.begin.bind (Db.Computes.orRollBack ?_)
  exact (Db.Computes.send _).bind ((Db.Computes.select _).within (fun _ _ hc => hc) _ _)

/-- A stream is given up after a number of its events, or it has not so many and is read to its end. -/
private theorem upTo_cases (count : Option Nat) (streamed : Streamed) :
    (∃ n, count.filter (· ≤ streamed.events.length) = some n ∧
      streamed.upTo count = ⟨streamed.events.take n, none⟩) ∨
    (count.filter (· ≤ streamed.events.length) = none ∧ streamed.upTo count = streamed) := by
  cases count with
  | none => exact .inr ⟨rfl, rfl⟩
  | some n =>
    by_cases hn : n ≤ streamed.events.length
    · refine .inl ⟨n, ?_, if_pos hn⟩
      rw [Option.filter_some, decide_eq_true hn]
      rfl
    · refine .inr ⟨?_, if_neg hn⟩
      rw [Option.filter_some, decide_eq_false hn]
      rfl

/-- A stream gives the events of its rows. Only the commit at the end of all of them can be disturbed, and
then they were given all the same. -/
theorem exists_runOn_deliver (count : Option Nat) (rows : List Row) (c : Client) :
    ∃ streamed c', (deliver count rows).runOn c = (.ok streamed, c') ∧
      c'.server.table = c.server.table ∧ (c.Quiet → c'.Quiet) ∧
      (streamed = (ofRows rows).upTo count ∨
        ¬c.Quiet ∧ streamed.events = ((ofRows rows).upTo count).events ∧
          ∃ e, streamed.failure = some e ∧ e.isDisturbance = true) := by
  -- an end without a commit: the transaction is given up, which disturbs nothing
  have habandon : ∀ streamed : Streamed, ∃ c', (do Db.abandon; return streamed : Db Streamed).runOn c =
      (.ok streamed, c') ∧ c'.server.table = c.server.table ∧ (c.Quiet → c'.Quiet) := by
    intro streamed
    obtain ⟨c', hrun, ht, hquiet⟩ := Db.Computes.exists_runOn_abandon c
    exact ⟨c', Db.runOn_bind_ok hrun, ht, hquiet⟩
  simp only [deliver]
  -- the stream decides before its end whether to commit: only one that is read to its end does
  rcases upTo_cases count (ofRows rows) with ⟨n, hfilter, hupTo⟩ | ⟨hfilter, hupTo⟩
  · change count.filter (· ≤ (Row.toEventsUntil rows).1.length) = some n at hfilter
    rw [hupTo]
    obtain ⟨c', hrun, ht, hquiet⟩ := habandon ⟨(Row.toEventsUntil rows).1.take n, none⟩
    refine ⟨_, c', ?_, ht, hquiet, .inl rfl⟩
    rw [hfilter]
    exact hrun
  · change count.filter (· ≤ (Row.toEventsUntil rows).1.length) = none at hfilter
    rw [hupTo]
    simp only [hfilter, ofRows]
    cases (Row.toEventsUntil rows).2 with
    | some corrupt =>
      -- a corrupt row is an end without a commit
      obtain ⟨c', hrun, ht, hquiet⟩ := habandon ⟨(Row.toEventsUntil rows).1, some (.corruptRow corrupt)⟩
      exact ⟨_, c', hrun, ht, hquiet, .inl rfl⟩
    | none =>
      have hcommit := (Db.Computes.commit_nil (t := c.server.table)).orRollBack
      -- undisturbed, the commit goes well and nothing is reported after the events
      by_cases hc : c.Quiet
      · obtain ⟨c', hrun, ht, hquiet⟩ := hcommit.calm c rfl hc
        refine ⟨⟨(Row.toEventsUntil rows).1, none⟩, c', ?_, ht, fun _ => hquiet, .inl rfl⟩
        rw [Db.runOn_bind_ok (Db.runOn_attempt _ c), hrun]
        rfl
      · -- a commit that fails is reported after the events
        obtain ⟨r, c', hrun, hr⟩ := hcommit.any c rfl
        rw [Db.runOn_bind_ok (Db.runOn_attempt _ c), hrun]
        rcases hr with ⟨rfl, ht⟩ | ⟨⟨e, rfl, he⟩, ht⟩
        · exact ⟨_, c', rfl, ht, fun h => absurd h hc, .inl rfl⟩
        · exact ⟨_, c', rfl, ht, fun h => absurd h hc, .inr ⟨hc, rfl, e, rfl, he⟩⟩

end Streamed

end EventLog
