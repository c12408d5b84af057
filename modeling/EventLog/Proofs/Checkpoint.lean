import EventLog.Proofs.IndependentProjections

/-!
# A projection as a checkpoint

A projection gives its state together with the highest position that it has folded. That position is the
last one that its query selects, not the head of the log, and 0 if the query selects nothing. All the same
it is where the projection can go on: the events of the query that are read after it are those that were
appended since. So it also is where a condition on the query has to stand.

## Key results

- `Store.project_eq`: a projection is the fold of the log, and fails as that does
- `Store.project_of_ok`: a projection that succeeds gives what any store would give
- `Table.Sound.eventsAfter_highest`: after the position of a projection there is only what is new
- `Store.project_from_checkpoint`: a projection goes on from its position
-/

namespace EventLog

open Database Sql

variable {σ : Type}

/-! ### The highest position of a query -/

/-- Of events in order the last one has the highest position. -/
theorem foldl_max_of_pairwise {es : List Event} (h : es.Pairwise fun a b => a.position < b.position)
    (p : Position) :
    es.foldl (fun p e => max p e.position) p = es.getLast?.elim p fun e => max p e.position := by
  -- by induction on the events: the first one only counts if there is no other
  induction es generalizing p with
  | nil => rfl
  | cons e es ih =>
    obtain ⟨hfirst, hrest⟩ := List.pairwise_cons.mp h
    rw [List.foldl_cons, ih hrest]
    cases hlast : es.getLast? with
    | none =>
      obtain rfl := List.getLast?_eq_none_iff.mp hlast
      rfl
    -- the last one is after the first, so the maximum forgets the first
    | some last =>
      have hlt := hfirst last (List.mem_of_getLast? hlast)
      rw [List.getLast?_cons, hlast]
      simp only [Option.elim_some, Option.getD_some, Position] at hlt ⊢
      omega

namespace Query

variable {q : Query} {es fs : List Event}

/-- The highest position is not below that of an event that the query selects. -/
theorem position_le_highest {e : Event} (he : e ∈ es) (hsel : q.selects e = true) :
    e.position ≤ q.highest es := by
  -- the query is all that counts of a slot for its highest position, so the one here folds nothing
  let s : Slot Unit := .ofProjector 0 ⟨"", ⟨q, (), fun _ _ => .ok ()⟩⟩
  have hany : Slot.anySelects [s] e = true := by
    rw [Slot.anySelects, List.any_cons, List.any_nil, Bool.or_false]
    exact hsel
  exact ProjectionSet.highest_singleton s es ▸ ProjectionSet.position_le_highest.2 e he hany

/-- The highest position is that of an event, or it is the one before all events. -/
theorem highest_eq_zero_or_mem (q : Query) (es : List Event) :
    q.highest es = 0 ∨ ∃ e ∈ es, q.highest es = e.position := by
  -- again a slot that folds nothing stands for the query
  let s : Slot Unit := .ofProjector 0 ⟨"", ⟨q, (), fun _ _ => .ok ()⟩⟩
  exact ProjectionSet.highest_singleton s es ▸ ProjectionSet.highest_eq_or_mem [s] 0 es

/-- The highest position after more events in order: that of the last one that the query selects, unless
there was a higher one before. -/
theorem highest_append (h : fs.Pairwise fun a b => a.position < b.position) :
    q.highest (es ++ fs) =
      (fs.filter q.selects).getLast?.elim (q.highest es) fun e => max (q.highest es) e.position := by
  have hmore : q.highest (es ++ fs) =
      (fs.filter q.selects).foldl (fun p e => max p e.position) (q.highest es) := by
    rw [highest, List.foldl_append, List.foldl_filter]
    rfl
  rw [hmore, foldl_max_of_pairwise (h.filter _)]

end Query

namespace Table

variable {t rows : Table} {q : Query}

/-- The highest position of a query is not after the head. -/
theorem Sound.highest_le_head (ht : t.Sound) (q : Query) : q.highest (t.map Row.event) ≤ t.head := by
  rcases q.highest_eq_zero_or_mem (t.map Row.event) with h | ⟨e, he, h⟩
  · rw [h, ht.head_eq]
    exact Int.natCast_nonneg _
  · obtain ⟨r, hr, rfl⟩ := List.mem_map.mp he
    rw [h]
    exact (ht.position_bounds hr).2

/-- After the highest position of a query stand, of the events that it selects, exactly those that were
added. -/
theorem Sound.eventsAfter_highest (ht : t.Sound) (hu : Sound (t ++ rows)) (q : Query) :
    (t ++ rows).eventsAfter q (q.highest (t.map Row.event)) = (rows.map Row.event).filter q.selects := by
  let after := q.highest (t.map Row.event)
  -- of the old events none that is selected is after the highest position
  have hold : (t.map Row.event).filter (fun e => decide (after < e.position) && q.selects e) = [] := by
    refine List.filter_eq_nil_iff.mpr fun e he h => ?_
    obtain ⟨hafter, hsel⟩ := Bool.and_eq_true_iff.mp h
    exact Int.not_lt.mpr (Query.position_le_highest he hsel) (of_decide_eq_true hafter)
  -- and of the new ones all are, as the old head is already below them
  have hnew : (rows.map Row.event).filter (fun e => decide (after < e.position) && q.selects e) =
      (rows.map Row.event).filter q.selects := by
    refine List.filter_congr fun e he => ?_
    obtain ⟨r, hr, rfl⟩ := List.mem_map.mp he
    have hafter : after < r.event.position :=
      Int.lt_of_le_of_lt (ht.highest_le_head q) (ht.head_lt_of_append hu hr)
    rw [decide_eq_true hafter, Bool.true_and]
  rw [eventsAfter, List.map_append, List.filter_append, hold, hnew, List.nil_append]

/-- A condition that stands at the highest position of its query is violated exactly by what was added. -/
theorem Sound.isViolatedBy_highest_iff (ht : t.Sound) (hu : Sound (t ++ rows)) (q : Query) :
    (∃ e ∈ (t ++ rows).map Row.event,
        (AppendCondition.mk q (q.highest (t.map Row.event))).isViolatedBy e = true) ↔
      ∃ e ∈ rows.map Row.event, q.selects e = true := by
  have hnew := ht.eventsAfter_highest hu q
  -- the events that violate the condition are those that are read after its position
  simp only [← List.mem_filter, ← hnew]
  simp only [eventsAfter, List.mem_filter]
  rfl

end Table

/-! ### Projections with a single projector -/

/-- A projector that has folded events goes on with those that its query selects. -/
theorem Projector.fold_append_of_fold {p : Projector σ} {es : List Event} {x : σ}
    (h : p.fold es = .ok x) (fs : List Event) :
    p.fold (es ++ fs) = p.foldFrom x (fs.filter p.query.selects) := by
  rw [fold] at h
  -- the first part gives the state, and events that are not selected make no difference to the second
  rw [fold, foldFrom_append, h, foldFrom_filter fun _ he => he]
  rfl

namespace Store

variable {s s' : Store} {p : Projector σ}

/-- A projection of a log: the state that the projector folds from it and the highest position of the query,
or the refusal of the projector. -/
theorem project_eq (h : s.FreeToProject) (ht : s.table.Sound) (hquery : p.query.validate = .ok ()) :
    (s.project p).1 = ((p.fold (s.table.map Row.event)).map fun x =>
      (x, p.query.highest (s.table.map Row.event))).mapError .projection := by
  cases hfold : p.fold (s.table.map Row.event) with
  | ok x => exact (project_eq_ok_iff h ht hquery).mpr ⟨hfold, rfl⟩
  -- a failing fold fails on what the query selects, which is what the projection is fed
  | error err =>
    have hvalid : validateProjectors [⟨"projector", p⟩] = .ok () :=
      validateProjectors_of_names (by simp) (by simp) (by simp) (by simpa using hquery)
    have hfilter : p.fold ((s.table.map Row.event).filter p.query.selects) = .error err :=
      (Projector.foldFrom_filter (fun _ he => he) _ _).trans hfold
    rw [← ht.map_event_rows hquery] at hfilter
    have hrun : (s.runProjection [⟨"projector", p⟩] p.query).1 = .error (.projection err) := by
      rcases runProjection_cases h ht.decodable hvalid p.query with ⟨hfolds, -⟩ |
        ⟨cut, err', hcut, -, hout, hrun⟩
      · obtain ⟨x, hx⟩ := Folder.exists_fold_of_folds hfolds _ (List.mem_singleton_self _)
        exact nomatch hfilter.symm.trans hx
      · -- the one projector is all that can have refused anything
        have hends := Folder.ends_outcome (Folder.start [⟨"projector", p⟩] s.settings.maxWorkers) cut
        rw [hout] at hends
        obtain ⟨share, hshare, hfirst⟩ := Folder.ends_eq_error hends
        obtain ⟨p', hp', hrefused⟩ := NamedProjector.exists_refusal hfirst
        obtain rfl := List.mem_singleton.mp ((NamedProjector.sublist_of_mem_shares hshare).subset hp')
        rw [hcut] at hrefused
        obtain rfl := Except.error.inj (hfilter.symm.trans hrefused)
        exact hrun
    simp only [project, hrun]
    rfl

/-- A store with nothing in the way is free to project. -/
theorem freeToProject_facing (t : Table) : (facing t).FreeToProject :=
  ⟨Nat.zero_lt_succ _, ready_facing t, Nat.zero_lt_succ _⟩

/-- A projection that succeeds gives what a store that is free to project gives for the same log. -/
theorem project_of_ok (hsettings : s.settings.validate = .ok ()) (ht : s.table.Sound)
    (htable : s'.table = s.table) (h' : s'.FreeToProject) {out : σ × Position}
    (hok : (s.project p).1 = .ok out) :
    p.query.validate = .ok () ∧ (s'.project p).1 = .ok out := by
  cases hrun : (s.runProjection [⟨"projector", p⟩] p.query).1 with
  | error e =>
    simp only [project, hrun] at hok
    cases hok
  | ok projected =>
    obtain ⟨hvalid, hfolds, hout⟩ :=
      -- the states depend on the log alone, so the other store computes them as well
      runProjection_eq_ok (StoreSettings.fetchBatchSize_pos hsettings) ht.decodable hrun
    rw [← htable] at hfolds hout
    have hagain : (s'.runProjection [⟨"projector", p⟩] p.query).1 = .ok projected := by
      rcases runProjection_cases h' (htable ▸ ht.decodable) hvalid p.query with ⟨-, hrun'⟩ |
        ⟨cut, err, hcut, -, herr, -⟩
      · rw [hrun', hout]
      · obtain ⟨out', hout'⟩ := Folder.exists_outcome_of_folds s'.settings.maxWorkers (hcut ▸ hfolds)
        rw [herr] at hout'
        cases hout'
    refine ⟨(names_of_validateProjectors hvalid).2.2 _ (List.mem_singleton_self _), ?_⟩
    simp only [project, hrun] at hok
    simp only [project, hagain]
    exact hok

/-- A projection of a log gives a state and a position. Any calls may follow on any stores; `added` are the
events that they write.
* What is read of the query after the position are the events of `added` that it selects. So a projection
  of the new log is the projector applied to them from the state on: it gives what that gives, with the
  position of the last one of them, or fails as that does.
* A condition on the query that stands at the position is violated exactly if the query selects one of
  `added`, and exactly then is it a conflict for a valid batch that nothing disturbs. -/
theorem project_from_checkpoint {t u : Table} (ht : Table.Reaches [] t) (hs : s.table = t)
    (hsettings : s.settings.validate = .ok ()) {x : σ} {pos : Position}
    (hproject : (s.project p).1 = .ok (x, pos)) (hu : t.Reaches u) :
    ∃ rows log added, u = t ++ rows ∧ Row.toEvents u = .ok log ∧ Row.toEvents rows = .ok added ∧
      (∀ s' : Store, s'.table = u → s'.client.Ready →
        (s'.read p.query { after := pos }).1 = .ok (added.filter p.query.selects)) ∧
      (∀ s' : Store, s'.table = u → s'.FreeToProject → (s'.project p).1 =
        match p.foldFrom x (added.filter p.query.selects) with
        | .ok y => .ok (y, (added.filter p.query.selects).getLast?.elim pos fun e => max pos e.position)
        | .error err => .error (.projection err)) ∧
      ((∃ e ∈ log, (AppendCondition.mk p.query pos).isViolatedBy e = true) ↔
        ∃ e ∈ added, p.query.selects e = true) ∧
      ∀ (s' : Store) (batch : List InputEvent) (lineage : Lineage), s'.table = u → s'.client.Ready →
        validateBatch batch s'.settings.maxBatchSize = .ok () →
        ((s'.append batch (some ⟨p.query, pos⟩) lineage).1 = .error (.conflict pos) ↔
          ∃ e ∈ added, p.query.selects e = true) := by
  subst hs
  have hsound := Table.sound_nil.reaches ht
  obtain ⟨rows, rfl⟩ := Table.isPrefix_of_reaches hu
  have hsound' : Table.Sound (s.table ++ rows) := hsound.reaches hu
  -- the projection gave what it gives on a store that nothing is in the way of
  have hfree := freeToProject_facing s.table
  obtain ⟨hquery, hagain⟩ := project_of_ok hsettings hsound (table_facing _) hfree hproject
  obtain ⟨hfold, rfl⟩ := (project_eq_ok_iff hfree hsound hquery).mp hagain
  rw [table_facing] at hfold ⊢
  have hviolated := hsound.isViolatedBy_highest_iff hsound' p.query
  refine ⟨rows, (s.table ++ rows).map Row.event, rows.map Row.event, rfl,
    Row.toEvents_eq_ok hsound'.decodable,
    Row.toEvents_eq_ok fun r hr => hsound'.decodable r (List.mem_append_right _ hr), ?_, ?_, hviolated, ?_⟩
  · intro s' hs' hready
    rw [read_of_sound (hs'.symm ▸ hsound') hready hquery, hs']
    exact congrArg Except.ok (hsound.eventsAfter_highest hsound' p.query)
  · intro s' hs' hfree'
    have hpairwise : (rows.map Row.event).Pairwise fun a b => a.position < b.position :=
      List.pairwise_map.mpr (List.pairwise_append.mp hsound'.pairwise).2.1
    rw [project_eq hfree' (hs'.symm ▸ hsound') hquery, hs', List.map_append,
      Projector.fold_append_of_fold hfold, Query.highest_append hpairwise]
    cases p.foldFrom x ((rows.map Row.event).filter p.query.selects) <;> rfl
  · -- what becomes of an append under the condition
    intro s' batch lineage hs' hready hbatch
    have hvalid : s'.validateAppend batch (some ⟨p.query, p.query.highest (s.table.map Row.event)⟩) =
        .ok () := by
      simp only [validateAppend, hbatch]
      exact hquery
    rw [(append_eq_conflict_iff hvalid lineage).1 hready, conflicts_iff hquery, hs', ← hviolated]
    simp only [List.mem_map, exists_exists_and_eq_and]

/-- The table of a log on which a renaming and a second deposit follow. -/
def depositedAgain : Table :=
  ((facing openedAndDeposited).append
    [.new "Renamed" [] (.object []), .new "Deposited" [] (.object [])] none .new).2.table

/-- The second deposit is written by calls of a store. -/
theorem reaches_depositedAgain : openedAndDeposited.Reaches depositedAgain :=
  .single ⟨_, _, rfl,
    .append [.new "Renamed" [] (.object []), .new "Deposited" [] (.object [])] none .new, rfl⟩

/-- One deposit is counted, at position 2. After a renaming and a second deposit, what is read after
position 2 is the deposit at position 4, the projection counts it, and a condition that stands at position 2
is violated. -/
theorem project_from_checkpoint_of_second_deposit :
    let p := depositCount.projector
    ((facing openedAndDeposited).project p).1 = .ok (1, 2) ∧
      (∃ e : Event, e.position = 4 ∧
        ((facing depositedAgain).read p.query { after := 2 }).1 = .ok [e]) ∧
      ((facing depositedAgain).project p).1 = .ok (2, 4) ∧
      ((facing depositedAgain).append [.new "Closed" [] (.object [])] (some ⟨p.query, 2⟩) .new).1 =
        .error (.conflict 2) := by
  intro p
  have hproject : ((facing openedAndDeposited).project p).1 = .ok (1, 2) :=
    (project_eq_ok_iff (freeToProject_facing _) sound_openedAndDeposited rfl).mpr (by decide +kernel)
  have hsettings : (facing openedAndDeposited).settings.validate = .ok () := rfl
  obtain ⟨rows, log, added, hrows, -, hadded, hread, hagain, -, hconflict⟩ :=
    project_from_checkpoint reaches_openedAndDeposited (table_facing _) hsettings hproject
      reaches_depositedAgain
  -- of the two rows that were added the query selects the second one
  obtain ⟨e, hposition, hselected⟩ : ∃ e : Event, e.position = 4 ∧ added.filter p.query.selects = [e] := by
    have hboth : ∃ renamed deposited : Event,
        Row.toEvents (depositedAgain.drop openedAndDeposited.length) = .ok [renamed, deposited] ∧
          deposited.position = 4 ∧ [renamed, deposited].filter p.query.selects = [deposited] :=
      ⟨_, _, rfl, rfl, rfl⟩
    obtain ⟨renamed, deposited, hevents, hposition, hfilter⟩ := hboth
    rw [hrows, List.drop_left, hadded] at hevents
    obtain rfl := Except.ok.inj hevents
    exact ⟨deposited, hposition, hfilter⟩
  obtain ⟨hmem, hsel⟩ := List.mem_filter.mp (hselected ▸ List.mem_singleton_self e)
  have hcounted : p.foldFrom 1 [e] = .ok 2 := by
    rw [Projector.foldFrom_singleton, Projector.apply, if_pos hsel]
    rfl
  rw [hselected] at hread hagain
  have hbatch : validateBatch [.new "Closed" [] (.object [])] 1000 = .ok () := rfl
  refine ⟨hproject, ⟨e, hposition, hread _ (table_facing _) (ready_facing _)⟩, ?_,
    (hconflict (facing depositedAgain) _ .new (table_facing _) (ready_facing _) hbatch).mpr
      ⟨e, hmem, hsel⟩⟩
  have hmax : max 2 e.position = 4 := by
    rw [hposition]
    rfl
  rw [hagain _ (table_facing _) (freeToProject_facing _), hcounted]
  exact congrArg (fun pos => Except.ok (2, pos)) hmax

end Store

end EventLog
