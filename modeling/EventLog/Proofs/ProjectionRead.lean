import EventLog.Proofs.FanOutCorrect
import EventLog.Proofs.ReadActions
import EventLog.Proofs.SelectionCorrect
import EventLog.Store.Project

/-!
# What a projection reads

A projection feeds the rows that its query selects, in order of position and batch after batch, to its
fold. So it succeeds exactly if its projectors fold all selected events, however large the batches are and
however many workers there are, and then it gives their states.

## Key results

- `Projected.computes_ofLog`: a projection is the outcome of its fold on some cut of the selected events
- `Store.decide_eq_ok`: what a decision model holds
- `Store.decide_of_folds`: when there is one
-/

namespace EventLog

open Database Sql

variable {σ : Type} {t : Table}

namespace Projected

/-- A batch is fed, and then the rest if more is wanted. -/
theorem computes_feed {events : List Event} {rest : List (List Event)}
    {next : Folder σ × Bool → Db (Folder σ)}
    (hnext : ∀ p, Db.Computes Client.Quiet (next p) t
      ((if p.2 then p.1.feedAll rest else .ok p.1).mapError .projection) t) (folder : Folder σ) :
    Db.Computes Client.Quiet (Db.ofExcept .projection (folder.feed events) >>= next) t
      ((folder.feedAll (events :: rest)).mapError .projection) t := by
  have hfeed := Db.Computes.ofExcept (t := t) StoreError.projection (folder.feed events)
  simp only [Folder.feedAll]
  -- a batch that is refused ends the loop, and otherwise the loop goes on as the fold wants
  cases hf : folder.feed events with
  | error e =>
    rw [hf] at hfeed
    exact hfeed.bind_error
  | ok p =>
    rw [hf] at hfeed
    exact hfeed.bind (hnext p)

/-- Rows are fed until none are left: their events, cut into batches. -/
theorem computes_feedAll {batchSize : Nat} (hsize : 0 < batchSize) (timeout : Nat) {fuel : Nat}
    {pending : List Row} (hfuel : pending.length < fuel) (h : ∀ r ∈ pending, r.Decodable) :
    ∃ cut, cut.flatten = pending.map Row.event ∧ Batches.OfSize batchSize cut ∧ ∀ folder : Folder σ,
      Db.Computes Client.Quiet (feedAll fuel batchSize timeout ⟨pending⟩ folder) t
        ((folder.feedAll cut).mapError .projection) t := by
  -- by induction on the fuel, one unit for each fetch; the rows that are left get fewer with each
  induction fuel generalizing pending with
  | zero => omega
  | succ fuel ih =>
    have hfetch := Cursor.computes_fetch (t := t) h batchSize timeout
    cases pending with
    | nil =>
      -- an empty fetch ends the loop, and nothing is fed
      refine ⟨[], rfl, .nil, fun folder => hfetch.bind ?_⟩
      have hdone : ¬((true && !decide (0 < batchSize)) = true) := by simp [hsize]
      simp only [List.take_nil, List.map_nil, List.isEmpty_nil, if_true, List.length_nil, pure_bind,
        if_neg hdone]
      exact .pure folder
    | cons r rows =>
      -- something was fetched, as the size is positive
      have hsome : (((r :: rows).take batchSize).map Row.event).isEmpty = false := by
        obtain ⟨n, rfl⟩ := Nat.exists_eq_succ_of_ne_zero (Nat.pos_iff_ne_zero.mp hsize)
        rfl
      by_cases hlast : (r :: rows).length < batchSize
      · -- a batch that is not full is the last one, so no further fetch is made
        refine ⟨[(r :: rows).map Row.event], by simp, .singleton (by simp) ?_, fun folder =>
          hfetch.bind ?_⟩
        · rw [List.length_map]
          exact Nat.le_of_lt hlast
        rw [List.take_of_length_le (Nat.le_of_lt hlast)] at hsome ⊢
        simp only [hsome, Bool.false_eq_true, if_false]
        refine computes_feed (fun p => ?_) folder
        have hstop : ¬((p.2 && !decide (((r :: rows).map Row.event).length < batchSize)) = true) := by
          simpa using fun _ => hlast
        rw [if_neg hstop]
        cases p.2 <;> exact .pure p.1
      · -- a full batch is followed by another fetch, an empty one if it was the last
        have hrest : ∀ x ∈ (r :: rows).drop batchSize, x.Decodable :=
          fun x hx => h x (List.mem_of_mem_drop hx)
        obtain ⟨cut, hcut, hof, hloop⟩ := ih (by rw [List.length_drop]; omega) hrest
        have hfull : (((r :: rows).take batchSize).map Row.event).length = batchSize := by
          rw [List.length_map, List.length_take]
          omega
        refine ⟨((r :: rows).take batchSize).map Row.event :: cut, ?_, .cons hsize hfull hof,
          fun folder => hfetch.bind ?_⟩
        · rw [List.flatten_cons, hcut, ← List.map_append, List.take_append_drop]
        simp only [hsome, Bool.false_eq_true, if_false]
        refine computes_feed (fun p => ?_) folder
        rw [hfull, decide_eq_false (Nat.lt_irrefl batchSize)]
        cases p.2 with
        | true => exact hloop p.1
        | false => exact .pure p.1

/-- What the fold of a projection does once it has the head: it declares its cursor, feeds the rows, and
closes it. -/
def readOut (settings : StoreSettings) (query : Query) (start : Folder σ) (head : Position) :
    Db (Folder σ × Position) := do
  let cursor ← Cursor.declare ⟨query, 0, none⟩
  let folder ← feedAll (cursor.pending.length + 1) settings.fetchBatchSize settings.queryTimeout
    cursor start
  Cursor.close
  return (folder, head)

/-- A cursor gives a cut of the events that its query selects. -/
theorem computes_readOut {settings : StoreSettings} (hsize : 0 < settings.fetchBatchSize)
    (query : Query) (h : ∀ r ∈ t, r.Decodable) :
    ∃ cut, cut.flatten = (Selection.rows ⟨query, 0, none⟩ t).map Row.event ∧
      Batches.OfSize settings.fetchBatchSize cut ∧ ∀ (folder : Folder σ) (head : Position),
        Db.Computes Client.Quiet (readOut settings query folder head) t
          (((folder.feedAll cut).mapError .projection).map fun folder => (folder, head)) t := by
  have hrows : ∀ r ∈ Selection.rows ⟨query, 0, none⟩ t, r.Decodable :=
    fun r hr => h r (Selection.mem_of_mem_rows hr)
  obtain ⟨cut, hcut, hof, hloop⟩ := computes_feedAll (σ := σ) (t := t) hsize settings.queryTimeout
    (Nat.lt_succ_self _) hrows
  -- the cursor is declared on the table as it is, and closed if the fold went well
  refine ⟨cut, hcut, hof, fun folder head => (Cursor.computes_declare ⟨query, 0, none⟩).bind ?_⟩
  have hfed := hloop folder
  cases hf : folder.feedAll cut with
  | error e =>
    rw [hf] at hfed
    exact hfed.bind_error
  | ok fed =>
    rw [hf] at hfed
    exact hfed.bind (Cursor.computes_close.bind (.pure _))

/-- The fold of a projection reads a cut of the events that its query selects, and the head. -/
theorem computes_fold {settings : StoreSettings} (hsize : 0 < settings.fetchBatchSize) (query : Query)
    (h : ∀ r ∈ t, r.Decodable) :
    ∃ cut, cut.flatten = (Selection.rows ⟨query, 0, none⟩ t).map Row.event ∧
      Batches.OfSize settings.fetchBatchSize cut ∧ ∀ folder : Folder σ,
        Db.Computes Client.Ready (fold settings query folder) t
          (((folder.feedAll cut).mapError .projection).map fun folder => (folder, t.head)) t := by
  obtain ⟨cut, hcut, hof, hread⟩ := computes_readOut (σ := σ) hsize query h
  refine ⟨cut, hcut, hof, fun folder => Db.Computes.begin.bind (Db.Computes.orRollBack ?_)⟩
  exact (Db.Computes.send _).bind <| Db.Computes.head.bind <| hread folder t.head

/-- A projection gives the outcome of its fold on a cut of the events that its query selects. -/
theorem computes_ofLog {settings : StoreSettings} (hsize : 0 < settings.fetchBatchSize)
    (ps : List (NamedProjector σ)) (query : Query) (h : ∀ r ∈ t, r.Decodable) :
    ∃ cut, cut.flatten = (Selection.rows ⟨query, 0, none⟩ t).map Row.event ∧
      Batches.OfSize settings.fetchBatchSize cut ∧ Db.Computes Client.Ready (ofLog settings ps query) t
        ((((Folder.start ps settings.maxWorkers).outcome cut).mapError .projection).map
          fun out => ⟨out.1, out.2, t.head⟩) t := by
  obtain ⟨cut, hcut, hof, hfold⟩ := computes_fold (σ := σ) hsize query h
  -- the deadline adds disturbances and nothing else
  refine ⟨cut, hcut, hof, Db.Computes.within ?_ (fun _ _ hc => hc) _ _⟩
  have hfed := hfold (Folder.start ps settings.maxWorkers)
  simp only [Folder.outcome]
  cases hf : (Folder.start ps settings.maxWorkers).feedAll cut with
  | error e =>
    rw [hf] at hfed
    exact hfed.bind_error
  | ok fed =>
    rw [hf] at hfed
    refine hfed.bind ?_
    exact (Db.Computes.ofExcept StoreError.projection fed.finish).map fun _ _ => rfl

end Projected

/-- The events that the union of the queries of projectors selects from a table, in order. -/
def Table.selectedBy (t : Table) (ps : List (NamedProjector σ)) : List Event :=
  (Selection.rows ⟨Query.union (ps.map (·.projector.query)), 0, none⟩ t).map Row.event

/-- The decision model of projectors that have folded what they select from a table. -/
def DecisionModel.onTable (ps : List (NamedProjector σ)) (t : Table) : DecisionModel σ :=
  let set := ProjectionSet.folded (Slot.ofProjectors 0 ps) (t.selectedBy ps)
  ⟨sortStates set.states, ⟨Query.union (ps.map (·.projector.query)),
    if 0 < set.observed then set.observed else t.head⟩⟩

/-- Projectors whose names are accepted have different ones, and their queries are valid. -/
theorem validateNames_eq_ok {seen : List String} {ps : List (NamedProjector σ)}
    (h : validateNames seen ps = .ok ()) :
    (ps.map (·.id)).Nodup ∧ ∀ p ∈ ps, p.id ∉ seen ∧ p.projector.query.validate = .ok () := by
  -- the names seen so far change along the list
  induction ps generalizing seen with
  | nil => simp
  | cons p ps ih =>
    unfold validateNames at h
    split at h
    · cases h
    · split at h
      · cases h
      · rename_i hseen
        cases hq : p.projector.query.validate with
        | error e =>
          rw [Query.check_eq_error hq] at h
          cases h
        | ok u =>
          rw [Query.check_eq_ok hq] at h
          obtain ⟨hnodup, hrest⟩ := ih h
          -- a name of a later projector was seen by then, if it is that of this one
          have hnew : p.id ∉ ps.map (·.id) := by
            intro hmem
            obtain ⟨q, hqmem, hid⟩ := List.mem_map.mp hmem
            exact (hrest q hqmem).1 (hid ▸ List.mem_cons_self)
          refine ⟨List.nodup_cons.mpr ⟨hnew, hnodup⟩, List.forall_mem_cons.mpr ⟨⟨?_, hq⟩, ?_⟩⟩
          · simpa using hseen
          · exact fun q hqmem => ⟨fun hold => (hrest q hqmem).1 (List.mem_cons_of_mem _ hold),
              (hrest q hqmem).2⟩

/-- Projectors that are accepted are some, with different names and with valid queries. -/
theorem names_of_validateProjectors {ps : List (NamedProjector σ)} (h : validateProjectors ps = .ok ()) :
    ps ≠ [] ∧ (ps.map (·.id)).Nodup ∧ ∀ p ∈ ps, p.projector.query.validate = .ok () := by
  unfold validateProjectors at h
  split at h
  · exact nomatch h
  · rename_i hne
    obtain ⟨hnodup, hnames⟩ := validateNames_eq_ok h
    exact ⟨by simpa using hne, hnodup, fun p hp => (hnames p hp).2⟩

/-- Projectors that are accepted have different names, and the union of their queries is valid. -/
theorem validateProjectors_eq_ok {ps : List (NamedProjector σ)} (h : validateProjectors ps = .ok ()) :
    ps ≠ [] ∧ (ps.map (·.id)).Nodup ∧
      (Query.union (ps.map (·.projector.query))).validate = .ok () := by
  obtain ⟨hne, hnodup, hqueries⟩ := names_of_validateProjectors h
  refine ⟨hne, hnodup, Query.validate_union fun q hq => ?_⟩
  obtain ⟨p, hp, rfl⟩ := List.mem_map.mp hq
  exact hqueries p hp

namespace Store

/-- A projection that succeeds was admitted with acceptable projectors, and all of them fold the events
that its query selects. -/
theorem runProjection_eq_ok {s : Store} {ps : List (NamedProjector σ)} {query : Query}
    {out : Projected σ} (hsize : 0 < s.settings.fetchBatchSize) (hdec : ∀ r ∈ s.table, r.Decodable)
    (h : (s.runProjection ps query).1 = .ok out) :
    let es := (Selection.rows ⟨query, 0, none⟩ s.table).map Row.event
    let set := ProjectionSet.folded (Slot.ofProjectors 0 ps) es
    validateProjectors ps = .ok () ∧ (∀ slot ∈ Slot.ofProjectors 0 ps, slot.Folds es) ∧
      out = ⟨set.states, set.observed, s.table.head⟩ := by
  intro es set
  obtain ⟨cut, hcut, -, hspec⟩ := Projected.computes_ofLog hsize ps query hdec
  simp only [runProjection] at h
  -- admission and the projectors are judged first, and a success has passed both
  cases hplaced : s.limiter.tryAdmit with
  | error e => simp only [hplaced] at h; exact nomatch h
  | ok limiter =>
    cases hvalid : validateProjectors ps with
    | error e => simp only [hplaced, hvalid] at h; exact nomatch h
    | ok u =>
      simp only [hplaced, hvalid, run] at h
      -- a success is no disturbance, so it is the outcome of the fold
      obtain ⟨r, c, hrun, ⟨rfl, -⟩ | ⟨⟨e, rfl, -⟩, -⟩⟩ := hspec.any s.client rfl
      · rw [hrun] at h
        cases hout : (Folder.start ps s.settings.maxWorkers).outcome cut with
        | error e => rw [hout] at h; exact nomatch h
        | ok out =>
          obtain ⟨hfolds, rfl⟩ :=
            (Folder.ends_eq_ok_iff (Folder.ends_outcome (Folder.start ps _) cut)).mp hout
          rw [hout] at h
          rw [hcut] at hfolds h
          exact ⟨rfl, hfolds, (Except.ok.inj h).symm⟩
      · rw [hrun] at h
        exact nomatch h

/-- A decision that succeeds was admitted with acceptable projectors, and all of them fold the events
that one of them selects. -/
theorem decide_eq_ok {s : Store} {ps : List (NamedProjector σ)} {m : DecisionModel σ}
    (hsize : 0 < s.settings.fetchBatchSize) (hdec : ∀ r ∈ s.table, r.Decodable)
    (h : (s.decide ps).1 = .ok m) :
    validateProjectors ps = .ok () ∧
      (∀ slot ∈ Slot.ofProjectors 0 ps, slot.Folds (s.table.selectedBy ps)) ∧
      m = .onTable ps s.table := by
  cases hrun : (s.runProjection ps (Query.union (ps.map (·.projector.query)))).1 with
  | error e =>
    simp only [decide, hrun] at h
    cases h
  | ok out =>
    obtain ⟨hvalid, hfolds, rfl⟩ := runProjection_eq_ok hsize hdec hrun
    simp only [decide, hrun] at h
    exact ⟨hvalid, hfolds, (Except.ok.inj h).symm⟩

/-- A place at the gate that is free is given. -/
theorem tryAdmit_of_available {s : Store} (hplace : 0 < s.limiter.available) :
    ∃ limiter, s.limiter.tryAdmit = .ok limiter := by
  obtain ⟨n, hn⟩ := Nat.exists_eq_succ_of_ne_zero (Nat.pos_iff_ne_zero.mp hplace)
  exact ⟨_, by rw [Limiter.tryAdmit, hn]⟩

/-- Projectors that are not acceptable are refused as soon as there is a place at the gate. -/
theorem decide_of_invalid {s : Store} {ps : List (NamedProjector σ)} (hplace : 0 < s.limiter.available)
    {err : StoreError} (h : validateProjectors ps = .error err) : (s.decide ps).1 = .error err := by
  obtain ⟨limiter, hplaced⟩ := tryAdmit_of_available hplace
  simp only [decide, runProjection, hplaced, h]
  rfl

/-- Nothing is in the way of a decision but its projectors: the log can be read, the gate has a place, and
nothing disturbs the client. -/
structure Unhindered (s : Store) : Prop where
  settings : s.settings.validate = .ok ()
  decodable : ∀ r ∈ s.table, r.Decodable
  ready : s.client.Ready
  place : 0 < s.limiter.available

/-- The store runs a projection at once: a place at its gate is free, it fetches at least one row at a
time, and nothing disturbs its client. -/
structure FreeToProject (s : Store) : Prop where
  size : 0 < s.settings.fetchBatchSize
  ready : s.client.Ready
  place : 0 < s.limiter.available

/-- Whoever decides unhindered may project. -/
theorem Unhindered.freeToProject {s : Store} (h : s.Unhindered) : s.FreeToProject :=
  ⟨StoreSettings.fetchBatchSize_pos h.settings, h.ready, h.place⟩

/-- A projection of acceptable projectors, of a log that can be read: all of them fold the events that the
query selects, or the fold of those events fails, cut into batches. -/
theorem runProjection_cases {s : Store} {ps : List (NamedProjector σ)} (h : s.FreeToProject)
    (hdec : ∀ r ∈ s.table, r.Decodable) (hvalid : validateProjectors ps = .ok ()) (query : Query) :
    let es := (Selection.rows ⟨query, 0, none⟩ s.table).map Row.event
    let set := ProjectionSet.folded (Slot.ofProjectors 0 ps) es
    ((∀ slot ∈ Slot.ofProjectors 0 ps, slot.Folds es) ∧
      (s.runProjection ps query).1 = .ok ⟨set.states, set.observed, s.table.head⟩) ∨
    ∃ cut err, cut.flatten = es ∧ Batches.OfSize s.settings.fetchBatchSize cut ∧
      (Folder.start ps s.settings.maxWorkers).outcome cut = .error err ∧
      (s.runProjection ps query).1 = .error (.projection err) := by
  obtain ⟨cut, hcut, hof, hspec⟩ := Projected.computes_ofLog h.size ps query hdec
  obtain ⟨c, hrun, -, -⟩ := hspec.calm s.client rfl h.ready
  obtain ⟨limiter, hplaced⟩ := tryAdmit_of_available h.place
  simp only [runProjection, hplaced, hvalid, run]
  rw [hrun]
  -- the fold decides, and by its criterion it succeeds only if every slot folds all events
  cases hout : (Folder.start ps s.settings.maxWorkers).outcome cut with
  | error err => exact .inr ⟨cut, err, hcut, hof, hout, rfl⟩
  | ok out =>
    obtain ⟨hfolds, rfl⟩ :=
      (Folder.ends_eq_ok_iff (Folder.ends_outcome (Folder.start ps _) cut)).mp hout
    rw [hcut] at hfolds ⊢
    exact .inl ⟨hfolds, rfl⟩

/-- An unhindered decision with acceptable projectors: all of them fold the events that one of them
selects, or the fold of those events fails, cut into batches. -/
theorem decide_cases {s : Store} {ps : List (NamedProjector σ)} (h : s.Unhindered)
    (hvalid : validateProjectors ps = .ok ()) :
    ((∀ slot ∈ Slot.ofProjectors 0 ps, slot.Folds (s.table.selectedBy ps)) ∧
      (s.decide ps).1 = .ok (.onTable ps s.table)) ∨
    ∃ cut err, cut.flatten = s.table.selectedBy ps ∧ Batches.OfSize s.settings.fetchBatchSize cut ∧
      (Folder.start ps s.settings.maxWorkers).outcome cut = .error err ∧
      (s.decide ps).1 = .error (.projection err) := by
  simp only [decide]
  rcases runProjection_cases h.freeToProject h.decodable hvalid _ with
    ⟨hfolds, hrun⟩ | ⟨cut, err, hcut, hof, hout, hrun⟩
  · rw [hrun]
    exact .inl ⟨hfolds, rfl⟩
  · rw [hrun]
    exact .inr ⟨cut, err, hcut, hof, hout, rfl⟩

/-- An unhindered decision with acceptable projectors that all fold what they select succeeds. -/
theorem decide_of_folds {s : Store} {ps : List (NamedProjector σ)} (h : s.Unhindered)
    (hvalid : validateProjectors ps = .ok ())
    (hfolds : ∀ slot ∈ Slot.ofProjectors 0 ps, slot.Folds (s.table.selectedBy ps)) :
    (s.decide ps).1 = .ok (.onTable ps s.table) := by
  rcases decide_cases h hvalid with ⟨-, hdecide⟩ | ⟨cut, err, hcut, -, hout, -⟩
  · exact hdecide
  · -- what all fold is not refused
    obtain ⟨out, hok⟩ := Folder.exists_outcome_of_folds s.settings.maxWorkers (hcut ▸ hfolds)
    exact nomatch hout.symm.trans hok

end Store

end EventLog
