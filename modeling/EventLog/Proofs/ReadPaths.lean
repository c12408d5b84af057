import EventLog.Proofs.LogInvariant
import EventLog.Proofs.ReadActions
import EventLog.Proofs.SelectionCorrect

/-!
# Three ways to read

A selection can be read at once, in batches and as a stream. All three decode the same rows in the same
order, so they give the same events; and where a row is corrupt they fail in the same way, though only the
last two have given events by then.

## Key results

- `Batches.collect_eq_cut`: a reading in batches cuts its rows until one is corrupt
- `Batches.decodings_agree`: rows decoded at once, in batches or one by one
- `Store.read_paths_agree`: the three ways to read agree
-/

namespace EventLog

open Database Sql

namespace Row

/-- As many events are read as there are rows. -/
theorem length_of_toEvents {rs : List Row} {es : List Event} (h : toEvents rs = .ok es) :
    es.length = rs.length := by
  -- all rows parse, or none of them is read
  rcases decodable_or_corrupt rs with hdec | ⟨before, r, c, more, rfl, hbefore, hr⟩
  · rw [toEvents_eq_ok hdec] at h
    obtain rfl := Except.ok.inj h
    exact List.length_map _
  · rw [toEvents_of_corrupt hbefore hr] at h
    exact nomatch h

end Row

namespace Batches

/-! ### Cutting rows into batches -/

/-- The batches that are cut from rows, at most `count`, and the corrupt row that ends them. -/
def cut (size : Nat) : Nat → List Row → List (List Event) × Option CorruptRow
  | 0, _ => ([], none)
  | count + 1, rows =>
    match Row.toEvents (rows.take size) with
    | .error c => ([], some c)
    | .ok events =>
      if events.isEmpty then ([], none)
      else
        let (batches, c) := cut size count (rows.drop size)
        (events :: batches, c)

section

variable {size : Nat}

/-- A corrupt row in the next batch ends the cutting. -/
theorem cut_of_error {rows : List Row} {c : CorruptRow}
    (h : Row.toEvents (rows.take size) = .error c) (count : Nat) :
    cut size (count + 1) rows = ([], some c) := by
  simp only [cut, h]

/-- No rows are left, and no batch is cut. -/
theorem cut_of_nil {rows : List Row} (h : Row.toEvents (rows.take size) = .ok []) (count : Nat) :
    cut size (count + 1) rows = ([], none) := by
  simp only [cut, h, List.isEmpty_nil, if_true]

theorem cut_of_events {rows : List Row} {events : List Event}
    (h : Row.toEvents (rows.take size) = .ok events) (hne : events ≠ []) (count : Nat) :
    cut size (count + 1) rows =
      (events :: (cut size count (rows.drop size)).1, (cut size count (rows.drop size)).2) := by
  have hempty : ¬events.isEmpty = true := by simpa using hne
  simp only [cut, h, if_neg hempty]

/-- A first batch that is not empty has taken rows. -/
private theorem length_drop_lt {rows : List Row} {events : List Event}
    (h : Row.toEvents (rows.take size) = .ok events) (hne : events ≠ []) :
    (rows.drop size).length < rows.length := by
  have hlen := Row.length_of_toEvents h
  have hpos := List.length_pos_iff.mpr hne
  rw [List.length_take] at hlen
  rw [List.length_drop]
  omega

/-- There are no more batches than rows. -/
theorem length_cut_le (count : Nat) (rows : List Row) :
    (cut size count rows).1.length ≤ rows.length := by
  -- by induction on the number of batches, each of which takes at least one row
  induction count generalizing rows with
  | zero => exact Nat.zero_le _
  | succ count ih =>
    cases h : Row.toEvents (rows.take size) with
    | error c =>
      rw [cut_of_error h]
      exact Nat.zero_le _
    | ok events =>
      by_cases hne : events = []
      · subst hne
        rw [cut_of_nil h]
        exact Nat.zero_le _
      · have hdrop := length_drop_lt h hne
        have hrest := ih (rows.drop size)
        rw [cut_of_events h hne, List.length_cons]
        omega

/-- Who asks for fewer batches gets the first ones of them, and learns of a corrupt row only after the
last one. -/
theorem cut_of_le {count more : Nat} (hle : count ≤ more) (rows : List Row) :
    cut size count rows = ((cut size more rows).1.take count,
      if count ≤ (cut size more rows).1.length then none else (cut size more rows).2) := by
  -- by induction on the smaller number; an end by a corrupt row is an end for both
  induction count generalizing more rows with
  | zero => simp [cut]
  | succ count ih =>
    obtain ⟨more, rfl⟩ := Nat.exists_eq_add_of_le' (Nat.le_trans (Nat.le_add_left 1 count) hle)
    cases h : Row.toEvents (rows.take size) with
    | error c => simp [cut_of_error h]
    | ok events =>
      by_cases hne : events = []
      · subst hne
        simp [cut_of_nil h]
      · have hrest := ih (Nat.le_of_succ_le_succ hle) (rows.drop size)
        simp [cut_of_events h hne, hrest]

/-- There are never more batches than rows, so it is the same how many more of them are asked for. -/
theorem cut_of_lt {m n : Nat} {rows : List Row} (hm : rows.length < m) (hn : rows.length < n) :
    cut size m rows = cut size n rows := by
  have hall : ∀ {m n : Nat}, rows.length < m → m ≤ n → cut size m rows = cut size n rows := by
    intro m n hm hmn
    -- all batches are there already when fewer are asked for
    have hlen : (cut size n rows).1.length ≤ rows.length := length_cut_le n rows
    rw [cut_of_le hmn, List.take_of_length_le (by omega), if_neg (by omega)]
  rcases Nat.le_total m n with h | h
  · exact hall hm h
  · exact (hall hn h).symm

/-! ### What the batches hold -/

/-- The batches of decodable rows hold all events of the rows. -/
theorem cut_of_decodable (hsize : 0 < size) {count : Nat} {rows : List Row}
    (hcount : rows.length < count) (h : ∀ r ∈ rows, r.Decodable) :
    (cut size count rows).1.flatten = rows.map Row.event ∧ OfSize size (cut size count rows).1 ∧
      (cut size count rows).2 = none := by
  -- by induction on the bound, which is beyond the rows and gets smaller with them
  induction count generalizing rows with
  | zero => omega
  | succ count ih =>
    have hevents : Row.toEvents (rows.take size) = .ok ((rows.take size).map Row.event) :=
      Row.toEvents_eq_ok fun r hr => h r (List.mem_of_mem_take hr)
    by_cases hrows : rows = []
    · subst hrows
      rw [List.take_nil, List.map_nil] at hevents
      rw [cut_of_nil (by rw [List.take_nil, hevents])]
      exact ⟨rfl, ⟨by simp, by simp⟩, rfl⟩
    · have hne : (rows.take size).map Row.event ≠ [] := by
        simpa [List.take_eq_nil_iff, hrows] using Nat.pos_iff_ne_zero.mp hsize
      have hlen := length_drop_lt hevents hne
      have hrest : (rows.drop size).length < count := by omega
      obtain ⟨hflat, hof, hend⟩ := ih hrest fun r hr => h r (List.mem_of_mem_drop hr)
      rw [cut_of_events hevents hne]
      refine ⟨?_, ⟨?_, ?_⟩, hend⟩
      · rw [List.flatten_cons, hflat, ← List.map_append, List.take_append_drop]
      · refine List.forall_mem_cons.mpr ⟨⟨hne, ?_⟩, hof.bounds⟩
        rw [List.length_map]
        exact List.length_take_le _ _
      · -- a batch that another one comes after has left rows to it
        rcases hcut : (cut size count (rows.drop size)).1 with _ | ⟨b, batches⟩
        · simp
        · rw [hcut] at hof hflat
          have hfull : size ≤ rows.length := by
            refine Nat.le_of_not_lt fun hlt => ?_
            rw [List.drop_of_length_le (by omega)] at hflat
            exact (hof.bounds b List.mem_cons_self).1 (List.append_eq_nil_iff.mp hflat).1
          refine List.forall_mem_cons.mpr ⟨?_, hof.full⟩
          rw [List.length_map, List.length_take, Nat.min_eq_left hfull]

/-- The batches before a corrupt row are full, and they hold the events of as many of the rows before it
as fill batches. -/
theorem cut_of_corrupt (hsize : 0 < size) {count : Nat} {before : List Row}
    (hcount : before.length < count) (h : ∀ r ∈ before, r.Decodable) {r : Row} {c : CorruptRow}
    (hr : r.toEvent = .error c) (more : List Row) :
    (cut size count (before ++ r :: more)).1.flatten =
        (before.map Row.event).take (size * (before.length / size)) ∧
      (∀ b ∈ (cut size count (before ++ r :: more)).1, b.length = size) ∧
      (cut size count (before ++ r :: more)).2 = some c := by
  -- by induction on the bound, as long as rows are left before the corrupt one
  induction count generalizing before with
  | zero => omega
  | succ count ih =>
    by_cases hlast : before.length < size
    · -- the corrupt row is in the next batch
      have htake : (before ++ r :: more).take size =
          before ++ r :: more.take (size - (before.length + 1)) := by
        obtain ⟨n, rfl⟩ := Nat.exists_eq_add_of_lt hlast
        rw [Nat.add_assoc, List.take_length_add_append, List.take_succ_cons]
        congr 3
        omega
      have hevents : Row.toEvents ((before ++ r :: more).take size) = .error c := by
        rw [htake, Row.toEvents_of_corrupt h hr]
      rw [cut_of_error hevents, Nat.div_eq_of_lt hlast]
      exact ⟨rfl, by simp, rfl⟩
    · -- a batch of rows that parse comes first
      have hle : size ≤ before.length := by omega
      have htake : (before ++ r :: more).take size = before.take size :=
        List.take_append_of_le_length hle
      have hdrop : (before ++ r :: more).drop size = before.drop size ++ r :: more :=
        List.drop_append_of_le_length hle
      have hevents : Row.toEvents ((before ++ r :: more).take size) =
          .ok ((before.take size).map Row.event) := by
        rw [htake]
        exact Row.toEvents_eq_ok fun x hx => h x (List.mem_of_mem_take hx)
      have hlen : ((before.take size).map Row.event).length = size := by
        rw [List.length_map, List.length_take, Nat.min_eq_left hle]
      have hne : (before.take size).map Row.event ≠ [] :=
        List.ne_nil_of_length_pos (hlen.symm ▸ hsize)
      have hshort : (before.drop size).length < count := by
        rw [List.length_drop]
        omega
      obtain ⟨hflat, hfull, hend⟩ := ih hshort fun x hx => h x (List.mem_of_mem_drop hx)
      rw [cut_of_events hevents hne, hdrop]
      refine ⟨?_, List.forall_mem_cons.mpr ⟨hlen, hfull⟩, hend⟩
      -- one batch more fits before the corrupt row than in what is left after this one
      have hdiv : size * (before.length / size) = size + size * ((before.length - size) / size) := by
        rw [Nat.div_eq_sub_div hsize hle, Nat.mul_succ, Nat.add_comm]
      rw [List.flatten_cons, hflat, List.length_drop, hdiv, List.take_add, List.map_take,
        List.map_drop]

/-- Rows that are decoded at once, in batches or one by one give the same: all of their events, or the first
corrupt row and some of the events before it. -/
theorem decodings_agree (hsize : 0 < size) {count : Nat} {rows : List Row} (hcount : rows.length < count) :
    (∃ events, rows.map Row.toEvent = events.map .ok ∧ Row.toEvents rows = .ok events ∧
      (cut size count rows).1.flatten = events ∧ OfSize size (cut size count rows).1 ∧
      (cut size count rows).2 = none ∧ Row.toEventsUntil rows = (events, none)) ∨
    ∃ before r c more events, rows = before ++ r :: more ∧ before.map Row.toEvent = events.map .ok ∧
      r.toEvent = .error c ∧ Row.toEvents rows = .error c ∧
      (cut size count rows).1.flatten = events.take (size * (events.length / size)) ∧
      (∀ b ∈ (cut size count rows).1, b.length = size) ∧ (cut size count rows).2 = some c ∧
      Row.toEventsUntil rows = (events, some c) := by
  rcases Row.decodable_or_corrupt rows with hdec | ⟨before, r, c, more, rfl, hdec, hr⟩
  · obtain ⟨hflat, hof, hend⟩ := cut_of_decodable hsize hcount hdec
    exact .inl ⟨rows.map Row.event, Row.map_toEvent hdec, Row.toEvents_eq_ok hdec, hflat, hof, hend,
      Row.toEventsUntil_eq hdec⟩
  · have hshort : before.length < count := by
      rw [List.length_append] at hcount
      omega
    obtain ⟨hflat, hfull, hend⟩ := cut_of_corrupt hsize hshort hdec hr more
    refine .inr ⟨before, r, c, more, before.map Row.event, rfl, Row.map_toEvent hdec, hr,
      Row.toEvents_of_corrupt hdec hr more, ?_, hfull, hend,
      Row.toEventsUntil_of_corrupt hdec hr more⟩
    rw [hflat, List.length_map]

/-! ### Readings -/

/-- After a batch of rows the other rows are left, and a session is there if one is needed. -/
theorem left_of_ofRows (settings : StoreSettings) (t : Table) {rows : List Row}
    {batch : Option (List Event)} {b : Batches} (h : ofRows size rows = .ok (batch, b)) :
    b.Left settings t size (rows.drop size) ∧ b.Undisturbed = Client.Quiet := by
  cases hevents : Row.toEvents (rows.take size) with
  | error c =>
    rw [ofRows_of_corrupt hevents] at h
    cases h
  | ok events =>
    rw [ofRows_of_events hevents] at h
    obtain ⟨-, hb⟩ := Prod.mk.inj (Except.ok.inj h)
    have hlen := Row.length_of_toEvents hevents
    rw [List.length_take] at hlen
    by_cases hlast : events.length < size
    · -- a batch that was not full left no rows
      have hnone : rows.drop size = [] := List.drop_of_length_le (by omega)
      rw [if_pos hlast] at hb
      rw [hnone, ← hb]
      exact ⟨.finished, rfl⟩
    · -- a full batch left the cursor open
      rw [if_neg hlast] at hb
      rw [← hb]
      exact ⟨.opened _, rfl⟩

/-- One step of a reading: a batch of the rows that are left. -/
theorem exists_next (hsize : 0 < size) {s : Store} {b : Batches} {rows : List Row}
    (hleft : b.Left s.settings s.table size rows) (hcalm : b.Undisturbed s.client) :
    ∃ s' : Store, s'.settings = s.settings ∧ s'.table = s.table ∧ s'.client.Quiet ∧
      b.next s = match ofRows size rows with
        | .ok (batch, b) => (.ok batch, b, s')
        | .error e => (.error e, .finished, s') := by
  obtain ⟨c, hrun, ht, hquiet⟩ := (computes_take hsize hleft).calm s.client rfl hcalm
  refine ⟨{ s with client := c }, rfl, ht, hquiet, ?_⟩
  simp only [next, Store.run, hrun]
  cases ofRows size rows <;> rfl

/-- A reading gives the batches that are cut from the rows that are left. -/
theorem collect_eq_cut (hsize : 0 < size) (count : Nat) {s : Store} {b : Batches} {rows : List Row}
    (hleft : b.Left s.settings s.table size rows) (hcalm : b.Undisturbed s.client) :
    ∃ s', b.collect count s =
      ((cut size count rows).1, (cut size count rows).2.map .corruptRow, s') := by
  -- every step of the loop takes one batch off the rows that are left, as `cut` does
  induction count generalizing s b rows with
  | zero => exact ⟨_, rfl⟩
  | succ count ih =>
    obtain ⟨s', hsettings, htable, hquiet, hnext⟩ := exists_next hsize hleft hcalm
    cases hevents : Row.toEvents (rows.take size) with
    | error c =>
      rw [ofRows_of_corrupt hevents] at hnext
      exact ⟨s', by rw [cut_of_error hevents, collect, hnext]; rfl⟩
    | ok events =>
      have hrows := ofRows_of_events hevents
      rw [hrows] at hnext
      obtain ⟨hleft', hcalm'⟩ := left_of_ofRows s'.settings s'.table hrows
      by_cases hne : events = []
      · subst hne
        exact ⟨s', by rw [cut_of_nil hevents, collect, hnext]; rfl⟩
      · -- the next batch needs no session of its own, so a quiet client is enough for it
        obtain ⟨s'', hrest⟩ := ih hleft' (hcalm' ▸ hquiet)
        have hempty : ¬events.isEmpty = true := by simpa using hne
        rw [if_neg hempty] at hnext
        exact ⟨s'', by simp only [cut_of_events hevents hne, collect, hnext, hrest]⟩

end

end Batches

namespace Store

/-! ### Queries that are not valid -/

section

variable {s : Store} {q : Query} {e : ValidationError}

/-- A query that is not valid is refused before anything is sent. -/
theorem read_of_invalid (h : q.validate = .error e) (o : ReadOptions) :
    s.read q o = (.error (.invalidEvent e), s) := by
  simp only [read, Query.check_eq_error h]

theorem next_of_invalid (h : q.validate = .error e) (o : ReadOptions) :
    Batches.next (.unopened q o) s = (.error (.invalidEvent e), .finished, s) := by
  simp only [Batches.next, run, Batches.take, Batches.openCursor, Query.check_eq_error h]
  rfl

theorem readBatches_of_invalid (h : q.validate = .error e) (o : ReadOptions) (count : Option Nat) :
    s.readBatches q o count = ([], if count = some 0 then none else some (.invalidEvent e), s) := by
  have hsucc : ∀ n, Batches.collect (n + 1) (.unopened q o) s = ([], some (.invalidEvent e), s) := by
    intro n
    simp only [Batches.collect, next_of_invalid h]
  rcases count with _ | _ | n
  · exact hsucc _
  · rfl
  · exact hsucc n

theorem stream_of_invalid (h : q.validate = .error e)
    (hbuffer : s.settings.streamBuffer ≤ Limiter.maxPlaces) (o : ReadOptions) (count : Option Nat) :
    s.stream q o count =
      some (⟨[], if count = some 0 then none else some (.invalidEvent e)⟩, s) := by
  by_cases hcount : count = some 0
  · simp only [stream, if_neg (Nat.not_lt.mpr hbuffer), if_pos hcount]
  · simp only [stream, if_neg (Nat.not_lt.mpr hbuffer), if_neg hcount, run, Streamed.start,
      Query.check_eq_error h]
    rfl

end

/-! ### Valid queries -/

section

variable {s : Store} {q : Query} (hready : s.client.Ready) (hq : q.validate = .ok ())

include hready hq

/-- A read gives the rows that are selected, decoded at once. -/
theorem read_of_ready (o : ReadOptions) :
    (s.read q o).1 = (Row.toEvents ((o.selection q).rows s.table)).mapError .corruptRow := by
  obtain ⟨c, hrun, -, -⟩ :=
    (Db.computes_readEvents s.settings q o).calm s.client rfl hready
  simp only [read, Query.check_eq_ok hq, run]
  exact congrArg Prod.fst hrun

/-- A reading in batches gives the rows that are selected, cut into batches. -/
theorem readBatches_of_ready (hsettings : s.settings.validate = .ok ()) (o : ReadOptions)
    (count : Option Nat) :
    ∃ s', s.readBatches q o count =
      ((Batches.cut (s.settings.batchSizeOf o) (count.getD (s.table.length + 1))
          ((o.selection q).rows s.table)).1,
        (Batches.cut (s.settings.batchSizeOf o) (count.getD (s.table.length + 1))
          ((o.selection q).rows s.table)).2.map .corruptRow, s') :=
  Batches.collect_eq_cut (StoreSettings.batchSizeOf_pos hsettings o) _ (.unopened hq rfl) hready

/-- A stream gives the rows that are selected, decoded one by one. -/
theorem stream_of_ready (hbuffer : s.settings.streamBuffer ≤ Limiter.maxPlaces) (o : ReadOptions)
    (count : Option Nat) :
    ∃ s', s.stream q o count = some ((Streamed.ofRows ((o.selection q).rows s.table)).upTo count, s') := by
  by_cases hcount : count = some 0
  · -- who takes nothing has started nothing
    refine ⟨s, ?_⟩
    subst hcount
    simp only [stream, if_neg (Nat.not_lt.mpr hbuffer), if_true]
    rfl
  · obtain ⟨c, hrun, -, hquiet⟩ :=
      (Streamed.computes_start (t := s.table) s.settings hq o).calm s.client rfl hready
    obtain ⟨streamed, c', hrun', -, -, hstreamed⟩ :=
      Streamed.exists_runOn_deliver count ((o.selection q).rows s.table) c
    -- the client stays undisturbed, so the commit is not disturbed either
    have hspec : streamed = (Streamed.ofRows ((o.selection q).rows s.table)).upTo count :=
      hstreamed.resolve_right fun h => h.1 hquiet
    refine ⟨{ s with client := c' }, ?_⟩
    simp only [stream, if_neg (Nat.not_lt.mpr hbuffer), if_neg hcount, run]
    rw [Db.runOn_bind_ok hrun, hrun', hspec]

end

/-! ### Stopping early -/

section

variable {s : Store} (hready : s.client.Ready)

include hready

/-- Who asks for some batches gets the first ones, and learns of a failure only after the last one. -/
theorem readBatches_some (hsettings : s.settings.validate = .ok ()) (q : Query) (o : ReadOptions)
    (n : Nat) :
    (s.readBatches q o (some n)).1 = (s.readBatches q o none).1.take n ∧
      (s.readBatches q o (some n)).2.1 =
        if n ≤ (s.readBatches q o none).1.length then none else (s.readBatches q o none).2.1 := by
  cases hq : q.validate with
  -- a query that is not valid gives no batch, so there is nothing to ask fewer of
  | error e =>
    simp [readBatches_of_invalid hq]
  | ok u =>
    let rows := (o.selection q).rows s.table
    let size := s.settings.batchSizeOf o
    obtain ⟨s₁, hall⟩ := readBatches_of_ready hready hq hsettings o none
    obtain ⟨s₂, hsome⟩ := readBatches_of_ready hready hq hsettings o (some n)
    rw [hall, hsome]
    have hrows : rows.length ≤ s.table.length := Selection.length_rows_le _ _
    -- asking for all batches is asking for more than there are, and for at least `n`
    have hmax : Batches.cut size (s.table.length + 1) rows =
        Batches.cut size (max n (s.table.length + 1)) rows :=
      Batches.cut_of_lt (by omega) (by omega)
    simp only [Option.getD_none, Option.getD_some]
    rw [hmax, Batches.cut_of_le (Nat.le_max_left n (s.table.length + 1))]
    refine ⟨rfl, ?_⟩
    split <;> rfl

/-- Who asks for some events of a stream gets the first ones, and learns of a failure only after the last
one. -/
theorem stream_some (hbuffer : s.settings.streamBuffer ≤ Limiter.maxPlaces) {q : Query} {o : ReadOptions}
    {streamed : Streamed} {s' : Store} (h : s.stream q o none = some (streamed, s')) (n : Nat) :
    ∃ s'', s.stream q o (some n) = some (⟨streamed.events.take n,
      if n ≤ streamed.events.length then none else streamed.failure⟩, s'') := by
  cases hq : q.validate with
  | error e =>
    rw [stream_of_invalid hq hbuffer] at h
    obtain ⟨rfl, rfl⟩ := Prod.mk.inj (Option.some.inj h)
    exact ⟨s, by simp [stream_of_invalid hq hbuffer]⟩
  | ok u =>
    obtain ⟨s₁, hall⟩ := stream_of_ready hready hq hbuffer o none
    obtain ⟨s₂, hsome⟩ := stream_of_ready hready hq hbuffer o (some n)
    rw [hall] at h
    obtain ⟨rfl, -⟩ := Prod.mk.inj (Option.some.inj h)
    refine ⟨s₂, ?_⟩
    rw [hsome, Streamed.upTo_some]
    rfl

end

end Store

/-- A reading that has failed gives no further batch. -/
theorem Batches.next_of_failed {b b' : Batches} {s s' : Store} {e : StoreError}
    (h : b.next s = (.error e, b', s')) (s'' : Store) : (b'.next s'').1 = .ok none := by
  have hfinished : b' = .finished := by
    -- a failure leaves the reading finished
    unfold next at h
    split at h
    · exact nomatch (Prod.mk.inj h).1
    · exact (Prod.mk.inj (Prod.mk.inj h).2).1.symm
  rw [hfinished]
  rfl

/-- The three ways to read agree. Let `rows` be those that a query selects, by position and up to the
limit, and `size` the number of events of a batch.
* If the query is not valid then all three refuse it, and give no event.
* If all rows parse then all three give their events: the batches of `size` events one after the other, and
  the stream event by event.
* Otherwise all three report the first row that does not parse. The stream has then given the events of the
  rows before it, and the batches those of as many rows before it as fill batches.
* Who stops early has got the same as who reads on, and after a failure there is nothing more. -/
theorem Store.read_paths_agree {s : Store} (hsettings : s.settings.validate = .ok ())
    (hbuffer : s.settings.streamBuffer ≤ Limiter.maxPlaces) (hready : s.client.Ready) (q : Query)
    (o : ReadOptions) :
    let rows := Selection.rows ⟨q, o.after, o.limit.map fun n => min (n : Int) Position.max⟩ s.table
    let size := (o.batchSize.filter (0 < ·)).getD s.settings.fetchBatchSize
    let read := (s.read q o).1
    let batches := (s.readBatches q o none).1
    let failure := (s.readBatches q o none).2.1
    rows.Pairwise (fun a b => a.position ≤ b.position) ∧
    ∃ streamed, (∃ s', s.stream q o none = some (streamed, s')) ∧
      (∀ e, q.validate = .error e → read = .error (.invalidEvent e) ∧
        batches = [] ∧ failure = some (.invalidEvent e) ∧
        streamed = ⟨[], some (.invalidEvent e)⟩) ∧
      (q.validate = .ok () →
        (∃ events, rows.map Row.toEvent = events.map .ok ∧ read = .ok events ∧
          batches.flatten = events ∧ Batches.OfSize size batches ∧ failure = none ∧
          streamed = ⟨events, none⟩) ∨
        ∃ before r c more events, rows = before ++ r :: more ∧
          before.map Row.toEvent = events.map .ok ∧ r.toEvent = .error c ∧
          read = .error (.corruptRow c) ∧
          batches.flatten = events.take (size * (events.length / size)) ∧
          (∀ b ∈ batches, b.length = size) ∧ failure = some (.corruptRow c) ∧
          streamed = ⟨events, some (.corruptRow c)⟩) ∧
      (∀ n, (s.readBatches q o (some n)).1 = batches.take n ∧
        (s.readBatches q o (some n)).2.1 = if n ≤ batches.length then none else failure) ∧
      (∀ n, ∃ s', s.stream q o (some n) = some (⟨streamed.events.take n,
        if n ≤ streamed.events.length then none else streamed.failure⟩, s')) ∧
      ∀ (b b' : Batches) (s₁ s₂ : Store) (e : StoreError), b.next s₁ = (.error e, b', s₂) →
        ∀ s₃, (b'.next s₃).1 = .ok none := by
  intro rows size read batches failure
  refine ⟨Selection.rows_pairwise _ _, ?_⟩
  cases hq : q.validate with
  -- the query is refused by all three, before anything is read
  | error e =>
    have hstream := stream_of_invalid hq hbuffer o none
    refine ⟨_, ⟨s, hstream⟩, ?_, fun h => (nomatch h),
      readBatches_some hready hsettings q o, stream_some hready hbuffer hstream,
      fun _ _ _ _ _ h => Batches.next_of_failed h⟩
    rintro e' ⟨⟩
    simp [read, batches, failure, read_of_invalid hq, readBatches_of_invalid hq]
  | ok u =>
    obtain ⟨s₁, hstream⟩ := stream_of_ready hready hq hbuffer o none
    obtain ⟨s₂, hbatches⟩ := readBatches_of_ready hready hq hsettings o none
    have hread := read_of_ready hready hq o
    refine ⟨_, ⟨s₁, hstream⟩, fun e h => (nomatch h), fun _ => ?_,
      readBatches_some hready hsettings q o, stream_some hready hbuffer hstream,
      fun _ _ _ _ _ h => Batches.next_of_failed h⟩
    have hsize : 0 < size := by
      have hpos := StoreSettings.batchSizeOf_pos hsettings o
      rwa [StoreSettings.batchSizeOf_eq] at hpos
    have hcount : rows.length < s.table.length + 1 :=
      Nat.lt_succ_of_le (Selection.length_rows_le _ _)
    rw [StoreSettings.batchSizeOf_eq] at hbatches
    -- all three decode the same rows, so what is left to compare are the decodings
    have hcut : batches = (Batches.cut size (s.table.length + 1) rows).1 ∧
        failure = (Batches.cut size (s.table.length + 1) rows).2.map .corruptRow := by
      simp only [batches, failure, hbatches]
      exact ⟨rfl, rfl⟩
    have hall : read = (Row.toEvents rows).mapError .corruptRow := hread
    rw [hall, hcut.1, hcut.2]
    rcases Batches.decodings_agree hsize hcount with ⟨events, hdec, hevents, hflat, hof, hend, huntil⟩ |
      ⟨before, r, c, more, events, hrows, hdec, hr, hevents, hflat, hfull, hend, huntil⟩
    · have hgiven : Streamed.ofRows rows = ⟨events, none⟩ := by rw [Streamed.ofRows, huntil]; rfl
      rw [hevents, hend]
      exact .inl ⟨events, hdec, rfl, hflat, hof, rfl, hgiven⟩
    · have hgiven : Streamed.ofRows rows = ⟨events, some (.corruptRow c)⟩ := by
        rw [Streamed.ofRows, huntil]
        rfl
      rw [hevents, hend]
      exact .inr ⟨before, r, c, more, events, hrows, hdec, hr, rfl, hflat, hfull, rfl, hgiven⟩

/-- Three events and a row between the last two of them whose tag has no value. -/
def Table.withCorruptRow : Table :=
  let row (n : Nat) (tag : String) : Row :=
    { id := .ofNat n, eventType := "Deposited", tags := [tag], data := .object [], position := n,
      causationId := .ofNat n, correlationId := .ofNat n, createdAt := default }
  [row 1 "account:1", row 2 "account:2", row 3 "account", row 4 "account:4"]

/-- The corrupt row at the third position is reported by all three. The stream gives the two events before
it, and so do batches of two; of batches of four there is none. -/
theorem Store.read_paths_agree_on_corrupt_row :
    let s := Store.facing .withCorruptRow
    let e := StoreError.corruptRow ⟨3, (ValidationError.malformedTag "account").message⟩
    ∀ size ∈ [2, 4],
      let o : ReadOptions := { batchSize := some size }
      (s.read .all o).1 = .error e ∧
        (∃ streamed s', s.stream .all o none = some (streamed, s') ∧
          streamed.events.map (·.position) = [1, 2] ∧ streamed.failure = some e) ∧
        (s.readBatches .all o none).1.flatten.map (·.position) = [1, 2].take (size * (2 / size)) ∧
        (s.readBatches .all o none).2.1 = some e := by
  intro s e size hsize o
  have hready : s.client.Ready := ready_facing _
  have hrows : Selection.rows ⟨.all, 0, none⟩ s.table = Table.withCorruptRow :=
    List.mergeSort_of_pairwise (l := Table.withCorruptRow) (by decide)
  have huntil : (Row.toEventsUntil Table.withCorruptRow).1.map (·.position) = [1, 2] ∧
      (Row.toEventsUntil Table.withCorruptRow).2 =
        some ⟨3, (ValidationError.malformedTag "account").message⟩ := by
    decide +kernel
  obtain ⟨-, streamed, ⟨s', hstream⟩, -, hvalid, -⟩ :=
    read_paths_agree (s := s) rfl (by decide) hready .all o
  rw [← hrows] at huntil
  rcases hvalid rfl with ⟨events, hall, -⟩ | ⟨before, r, c, more, events, hsplit, hbefore, hr, hread,
    hflat, -, hfailure, rfl⟩
  · -- the third row does not parse
    have hnone := Row.toEventsUntil_of_map hall []
    rw [List.append_nil] at hnone
    exact nomatch (congrArg Prod.snd hnone).symm.trans huntil.2
  · have hfirst : Row.toEventsUntil (r :: more) = ([], some c) := by simp only [Row.toEventsUntil, hr]
    have hsome := Row.toEventsUntil_of_map hbefore (r :: more)
    rw [← hsplit, hfirst, List.append_nil] at hsome
    obtain ⟨hpositions, hc⟩ := huntil
    replace hpositions : events.map (·.position) = [1, 2] :=
      (congrArg (fun p => p.1.map (·.position)) hsome).symm.trans hpositions
    obtain rfl := Option.some.inj ((congrArg Prod.snd hsome).symm.trans hc)
    have hlen : events.length = 2 := by simpa using congrArg List.length hpositions
    refine ⟨hread, ⟨_, s', hstream, hpositions, rfl⟩, ?_, hfailure⟩
    -- the settings are not asked for a size, as the reading has one
    have hbatch : (o.batchSize.filter (0 < ·)).getD s.settings.fetchBatchSize = size := by
      obtain rfl | rfl : size = 2 ∨ size = 4 := by simpa using hsize
      · rfl
      · rfl
    rw [hflat, hbatch, hlen, List.map_take, hpositions]

end EventLog
