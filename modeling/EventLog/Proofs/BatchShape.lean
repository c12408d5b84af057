import EventLog.Proofs.IndependentProjections
import EventLog.Proofs.Transcript

/-!
# The shape of a reading

A reading in batches comes to its end by a batch that is not full, or by an empty one if the events fill
batches. So it has as many batches as the events need, and the loop that feeds a projection makes one fetch
more than the events fill. No event is left out and none comes twice, also if a batch of no events was asked
for, which leaves the size to the settings.

## Key results

- `Batches.OfSize.length_eq`: as many batches as the events need
- `Batches.gives_cut`: a reading gives its batches one by one, and then none
- `Projected.sends_feedAll`: the fetches of a projection
- `Store.batches_and_fetches`: the batches of a reading and the fetches of a projection
-/

namespace EventLog

open Database Sql

/-! ### Batches -/

namespace Batches

/-- Batches that are full but for the last one are as many as their events need. -/
theorem OfSize.length_eq {size : Nat} (hsize : 0 < size) {batches : List (List Event)}
    (h : OfSize size batches) : batches.length = (batches.flatten.length + size - 1) / size := by
  -- by induction on the batches; rounding up is done once, at the last one
  induction batches with
  | nil =>
    simp only [List.flatten_nil, List.length_nil, Nat.zero_add]
    exact (Nat.div_eq_of_lt (Nat.sub_lt hsize Nat.zero_lt_one)).symm
  | cons b batches ih =>
    have hlen := ih h.tail
    obtain ⟨hne, hle⟩ := h.bounds b List.mem_cons_self
    have hpos := List.length_pos_iff.mpr hne
    rw [List.flatten_cons, List.length_append, List.length_cons]
    cases batches with
    | nil =>
      -- the last batch needs one place, full or not
      simp only [List.flatten_nil, List.length_nil, Nat.add_zero, Nat.zero_add]
      refine (Nat.div_eq_of_lt_le ?_ ?_).symm <;> omega
    | cons b' rest =>
      -- a batch with others behind it is full, and adds one to the quotient
      have hfull : b.length = size := h.full b List.mem_cons_self
      have hshift : size + (b' :: rest).flatten.length + size - 1 =
          ((b' :: rest).flatten.length + size - 1) + size := by omega
      rw [hfull, hshift, Nat.add_div_right _ hsize, hlen]

/-- The first batch is full, or it is the only one. -/
theorem OfSize.head_cases {size : Nat} {b : List Event} {batches : List (List Event)}
    (h : OfSize size (b :: batches)) : (b.length < size ∧ batches = []) ∨ b.length = size := by
  cases batches with
  | nil =>
    exact (Nat.lt_or_eq_of_le (h.bounds b List.mem_cons_self).2).imp_left fun hlt => ⟨hlt, rfl⟩
  | cons b' rest => exact .inr (h.full b List.mem_cons_self)

/-- Calls for the next batch give the batches, one after the other, and then none for good. Whatever is
done to the log in between makes no difference, as long as nothing disturbs the calls. -/
inductive Gives : Batches → Store → List (List Event) → Prop
  | last {b b' : Batches} {s s' : Store} : b.next s = (.ok none, b', s') →
    (∀ s'', (b'.next s'').1 = .ok none) → Gives b s []
  | batch {b b' : Batches} {s s' : Store} {batch : List Event} {batches : List (List Event)} :
    b.next s = (.ok (some batch), b', s') → s'.client.Quiet →
    (∀ s'' : Store, s''.client.Quiet → Gives b' s'' batches) → Gives b s (batch :: batches)

/-- A reading gives the batches that are cut from the rows that are left, if they parse. -/
theorem gives_cut {size : Nat} (hsize : 0 < size) {count : Nat} {rows : List Row}
    (hcount : rows.length < count) (h : ∀ r ∈ rows, r.Decodable) {s : Store} {b : Batches}
    (hleft : b.Left s.settings s.table size rows) (hcalm : b.Undisturbed s.client) :
    b.Gives s (cut size count rows).1 := by
  -- by induction on the bound, for every store and reading: each call moves both on
  induction count generalizing s b rows with
  | zero => omega
  | succ count ih =>
    obtain ⟨s', -, -, hquiet, hnext⟩ := exists_next hsize hleft hcalm
    have hevents : Row.toEvents (rows.take size) = .ok ((rows.take size).map Row.event) :=
      Row.toEvents_eq_ok fun r hr => h r (List.mem_of_mem_take hr)
    have hrows := ofRows_of_events hevents
    rw [hrows] at hnext
    cases rows with
    -- no rows are left: this call gives none, and so does every later one
    | nil =>
      rw [List.take_nil, List.map_nil] at hevents hnext
      rw [cut_of_nil (by rw [List.take_nil, hevents])]
      rw [List.isEmpty_nil, if_pos rfl, List.length_nil, if_pos hsize] at hnext
      exact .last hnext fun _ => rfl
    | cons r rows =>
      have hne : ((r :: rows).take size).map Row.event ≠ [] := by
        simpa [List.take_eq_nil_iff] using Nat.pos_iff_ne_zero.mp hsize
      have hempty : ¬(((r :: rows).take size).map Row.event).isEmpty = true := by simpa using hne
      rw [if_neg hempty] at hnext
      rw [cut_of_events hevents hne]
      refine .batch hnext hquiet fun s'' hs'' => ?_
      -- the next call needs no session of its own, so a quiet client is enough for it
      obtain ⟨hleft', hcalm'⟩ := left_of_ofRows s''.settings s''.table hrows
      refine ih ?_ (fun x hx => h x (List.mem_of_mem_drop hx)) hleft' (hcalm' ▸ hs'')
      rw [List.length_cons] at hcount
      rw [List.length_drop, List.length_cons]
      omega

end Batches

/-! ### Positions -/

/-- No two rows that are selected share a position if no two rows of the table do. -/
theorem Selection.pairwise_rows_of_nodup {t : Table} (h : (t.map (·.position)).Nodup) (s : Selection) :
    (s.rows t).Pairwise fun a b => a.position < b.position := by
  -- sorting and filtering keep the positions different
  have hfound : (Selection.inOrder (t.filter s.includes)).Pairwise fun a b => a.position ≠ b.position :=
    ((Selection.inOrder_perm _).pairwise_iff fun hne => hne.symm).mpr
      ((List.pairwise_map.mp h).filter _)
  have hne : (s.rows t).Pairwise fun a b => a.position ≠ b.position := by
    unfold Selection.rows
    split
    · exact hfound
    · exact hfound.sublist (List.take_sublist _ _)
  exact ((Selection.rows_pairwise s t).and hne).imp fun ⟨hle, hne⟩ => Int.lt_iff_le_and_ne.mpr ⟨hle, hne⟩

/-! ### Feeding a fold -/

variable {σ : Type}

namespace Folder

/-- The fold takes the batches in order and wants more after each of them. -/
inductive Fed : Folder σ → List (List Event) → Folder σ → Prop
  | nil (f : Folder σ) : Fed f [] f
  | cons {f g h : Folder σ} {b : List Event} {batches : List (List Event)} :
    f.feed b = .ok (g, true) → Fed g batches h → Fed f (b :: batches) h

/-- Workers that want no more batches have one among them that has stopped. -/
theorem exists_stopped_of_feedAll {b : List Event} {ws : List (Worker σ)}
    (h : (Worker.feedAll b ws).2 = false) : ∃ w ∈ (Worker.feedAll b ws).1, w.failure ≠ none := by
  -- the batch is handed along the list as far as the first worker that has stopped
  induction ws with
  | nil => exact nomatch h
  | cons w ws ih =>
    unfold Worker.feedAll at h ⊢
    split
    · rename_i hstopped
      exact ⟨w, List.mem_cons_self, Option.isSome_iff_ne_none.mp hstopped⟩
    · rename_i hrunning
      rw [if_neg hrunning] at h
      obtain ⟨x, hx, hfail⟩ := ih h
      exact ⟨x, List.mem_cons_of_mem _ hx, hfail⟩

/-- A fold that wants no more batches has failed. -/
theorem finish_of_feed_false {f g : Folder σ} {b : List Event} (h : f.feed b = .ok (g, false)) :
    ∃ err, g.finish = .error err := by
  cases f with
  -- in place a failed transition is an error of the feeding, so the fold always wants more
  | inPlace set =>
    simp only [feed] at h
    split at h <;> simp at h
  | dealt workers =>
    -- with workers the feeding is good, and the error waits in the worker that stopped
    obtain ⟨rfl, hopen⟩ := Prod.mk.inj (Except.ok.inj h)
    obtain ⟨w, -, err, -, hgather⟩ := Worker.gather_of_stopped (exists_stopped_of_feedAll hopen)
    exact ⟨err, by simp only [finish, FanOut.finish, hgather]; rfl⟩

/-- A fold that does not fail takes all batches. -/
theorem fed_of_outcome {f : Folder σ} {batches : List (List Event)}
    {out : List (String × σ) × Position} (h : f.outcome batches = .ok out) :
    ∃ g, f.Fed batches g ∧ g.finish = .ok out := by
  -- by induction on the batches: the outcome is good, so each feeding is, and wants more
  induction batches generalizing f with
  | nil => exact ⟨f, .nil f, h⟩
  | cons b batches ih =>
    simp only [outcome, feedAll] at h ih
    cases hfeed : f.feed b with
    | error err =>
      rw [hfeed] at h
      cases h
    | ok p =>
      obtain ⟨g, more⟩ := p
      rw [hfeed] at h
      cases more with
      | true =>
        obtain ⟨g', hfed, hfinish⟩ := ih h
        exact ⟨g', .cons hfeed hfed, hfinish⟩
      -- a fold that stops early has failed, against the outcome
      | false =>
        obtain ⟨err, herr⟩ := finish_of_feed_false hfeed
        have hfinish : g.finish = .ok out := h
        rw [herr] at hfinish
        cases hfinish

end Folder

namespace Projected

variable {t : Table} {settings : StoreSettings}

/-- The loop that feeds a fold: it makes one fetch more than the rows fill. -/
theorem sends_feedAll {size : Nat} (hsize : 0 < size) (timeout : Nat) {fuel : Nat} {pending : List Row}
    (hfuel : pending.length < fuel) (h : ∀ r ∈ pending, r.Decodable) {cut : List (List Event)}
    (hcut : cut.flatten = pending.map Row.event) (hof : Batches.OfSize size cut) {folder fed : Folder σ}
    (hfed : folder.Fed cut fed) :
    Db.Sends Client.Quiet (feedAll fuel size timeout ⟨pending⟩ folder) t fed
      (List.replicate (pending.length / size + 1) (.fetch size)) := by
  -- by induction on the feeding, for every fuel and every rest of the cursor
  induction hfed generalizing fuel pending with
  | nil f =>
    obtain rfl := List.map_eq_nil_iff.mp hcut.symm
    obtain ⟨fuel, rfl⟩ := Nat.exists_eq_succ_of_ne_zero (Nat.ne_of_gt hfuel)
    have hfetch := Cursor.sends_fetch (t := t) h size timeout
    -- an empty fetch ends the loop
    have hdone : ¬((true && !decide (0 < size)) = true) := by simp [hsize]
    rw [List.length_nil, Nat.zero_div]
    refine hfetch.cons ?_
    simp only [List.take_nil, List.map_nil, List.isEmpty_nil, if_true, List.length_nil, pure_bind,
      if_neg hdone]
    exact .pure f
  | @cons f g fed b batches hfeed hrest ih =>
    obtain ⟨fuel, rfl⟩ := Nat.exists_eq_succ_of_ne_zero (Nat.ne_of_gt (Nat.zero_lt_of_lt hfuel))
    have hfetch := Cursor.sends_fetch (t := t) h size timeout
    have hsome : b.isEmpty = false := by simpa using (hof.bounds b List.mem_cons_self).1
    rw [List.flatten_cons] at hcut
    rcases hof.head_cases with ⟨hlt, rfl⟩ | hfull
    · -- a batch that is not full has all rows, and no further fetch is made
      cases hrest
      rw [List.flatten_nil, List.append_nil] at hcut
      have hlen : pending.length < size := by rwa [hcut, List.length_map] at hlt
      have hstop : ¬((true && !decide (b.length < size)) = true) := by simp [hlt]
      rw [List.take_of_length_le (Nat.le_of_lt hlen), ← hcut] at hfetch
      rw [Nat.div_eq_of_lt hlen]
      refine hfetch.cons ?_
      simp only [hsome, Bool.false_eq_true, if_false, hfeed]
      refine (Db.Sends.of_ok _ _).nil_bind ?_
      simp only [if_neg hstop]
      exact .pure g
    · -- a full batch is followed by another fetch, an empty one if it was the last
      have htake : (pending.take size).map Row.event = b := by
        rw [List.map_take, ← hcut, List.take_left' hfull]
      have hdrop : batches.flatten = (pending.drop size).map Row.event := by
        rw [List.map_drop, ← hcut, List.drop_left' hfull]
      have hle : size ≤ pending.length := by
        have hlen := congrArg List.length hcut
        rw [List.length_append, List.length_map, hfull] at hlen
        omega
      have hgo : (true && !decide (b.length < size)) = true := by simp [hfull]
      have hless : (pending.drop size).length < fuel := by
        rw [List.length_drop]
        omega
      have hloop := ih hless (fun r hr => h r (List.mem_of_mem_drop hr)) hdrop hof.tail
      rw [htake] at hfetch
      rw [Nat.div_eq_sub_div hsize hle, List.replicate_succ]
      rw [List.length_drop] at hloop
      refine hfetch.cons ?_
      simp only [hsome, Bool.false_eq_true, if_false, hfeed]
      refine (Db.Sends.of_ok _ _).nil_bind ?_
      simp only [if_pos hgo]
      exact hloop

/-- What a projection sends: a transaction with a cursor, from which `fetches` batches are taken. -/
def statements (settings : StoreSettings) (query : Query) (fetches : Nat) : List Statement :=
  [.begin, .setIsolation settings.readIsolation, .head, .declareCursor ⟨query, 0, none⟩] ++
    (List.replicate fetches (.fetch settings.fetchBatchSize) ++ [.closeCursor, .commit])

section

variable (hsize : 0 < settings.fetchBatchSize) (hdec : ∀ r ∈ t, r.Decodable) {query : Query}
  {cut : List (List Event)} (hcut : cut.flatten = (Selection.rows ⟨query, 0, none⟩ t).map Row.event)
  (hof : Batches.OfSize settings.fetchBatchSize cut)

include hsize hdec hcut hof

/-- The fold of a projection, if it takes all events. -/
theorem sends_fold {folder fed : Folder σ} (hfed : folder.Fed cut fed) :
    Db.Sends Client.Ready (fold settings query folder) t (fed, t.head)
      (statements settings query (cut.flatten.length / settings.fetchBatchSize + 1)) := by
  have hrows : ∀ r ∈ Selection.rows ⟨query, 0, none⟩ t, r.Decodable :=
    fun r hr => hdec r (Selection.mem_of_mem_rows hr)
  have hloop := sends_feedAll (t := t) hsize settings.queryTimeout (Nat.lt_succ_self _) hrows hcut hof hfed
  rw [hcut, List.length_map]
  refine Db.Sends.begin.cons (Db.Sends.orRollBack ?_)
  refine (Db.Sends.send _).cons (Db.Sends.head.cons ?_)
  exact (Cursor.sends_declare _).cons (hloop.bind (Cursor.sends_close.bind_nil (.pure _)))

/-- A projection whose fold takes all events and does not fail. -/
theorem sends_ofLog {ps : List (NamedProjector σ)} {fed : Folder σ}
    (hfed : (Folder.start ps settings.maxWorkers).Fed cut fed) {out : List (String × σ) × Position}
    (hout : fed.finish = .ok out) :
    Db.Sends Client.Ready (ofLog settings ps query) t ⟨out.1, out.2, t.head⟩
      (statements settings query (cut.flatten.length / settings.fetchBatchSize + 1)) := by
  refine Db.Sends.within ?_ (fun _ _ hc => hc) _ _
  have hgiven : Db.Sends Client.Quiet (Db.ofExcept .projection fed.finish) t out [] := by
    rw [hout]
    exact .of_ok _ _
  exact (sends_fold hsize hdec hcut hof hfed).bind_nil (hgiven.nil_bind (.pure _))

end

end Projected

namespace Store

variable {s : Store} {ps : List (NamedProjector σ)} {query : Query}

/-- A projection of projectors that fold what its query selects feeds all of it to them, in batches, with one
fetch more than the events fill. -/
theorem exists_runProjection_of_folds (h : s.FreeToProject) (hdec : ∀ r ∈ s.table, r.Decodable)
    (hvalid : validateProjectors ps = .ok ())
    (hfolds : ∀ p ∈ ps, ∃ x,
      p.projector.fold ((Selection.rows ⟨query, 0, none⟩ s.table).map Row.event) = .ok x) :
    ∃ cut fed out, cut.flatten = (Selection.rows ⟨query, 0, none⟩ s.table).map Row.event ∧
      Batches.OfSize s.settings.fetchBatchSize cut ∧
      (Folder.start ps s.settings.maxWorkers).Fed cut fed ∧
      fed.finish = .ok (out.states, out.observed) ∧ (s.runProjection ps query).1 = .ok out ∧
      (s.runProjection ps query).2.client.server.transcript = s.client.server.transcript ++
        Projected.statements s.settings query
          (cut.flatten.length / s.settings.fetchBatchSize + 1) := by
  obtain ⟨cut, hcut, hof, -⟩ := Projected.computes_ofLog h.size ps query hdec
  have hslots : ∀ slot ∈ Slot.ofProjectors 0 ps, slot.Folds cut.flatten := by
    -- all events are folded, so those of each projector's own query are
    rw [← hcut] at hfolds
    rw [← List.filter_true cut.flatten]
    exact (Slot.folds_ofProjectors_iff fun _ _ => rfl).mpr hfolds
  obtain ⟨out, hout⟩ := Folder.exists_outcome_of_folds s.settings.maxWorkers hslots
  obtain ⟨fed, hfed, hfinish⟩ := Folder.fed_of_outcome hout
  obtain ⟨c, hrun, -, -, hsent⟩ :=
    Projected.sends_ofLog h.size hdec hcut hof hfed hfinish s.client rfl h.ready
  obtain ⟨limiter, hplaced⟩ := tryAdmit_of_available h.place
  refine ⟨cut, fed, ⟨out.1, out.2, s.table.head⟩, hcut, hof, hfed, hfinish, ?_, ?_⟩
  · simp only [runProjection, hplaced, hvalid, run]
    exact congrArg Prod.fst hrun
  · simp only [runProjection, hplaced, hvalid, run]
    rw [← hsent]
    exact congrArg (fun r => r.2.server.transcript) hrun

/-- A store with accepted settings reads a log whose rows parse. Let `size` be the number of events of a
batch, which is at least one.
* A reading in batches gives as many as the events of the selection need, one after the other, and then none,
  whatever happens to the log in between. No batch is empty or too large and only the last one may not be
  full; together they are the events of the selection, in strict order of position if no two rows share one.
* A projection whose projectors fold the events that its query selects succeeds. They are fed all of them in
  order, in batches of the size of the settings, and it takes one fetch more than the events fill. -/
theorem batches_and_fetches (hsettings : s.settings.validate = .ok ())
    (hdec : ∀ r ∈ s.table, r.Decodable) (hready : s.client.Ready) :
    (∀ (q : Query) (o : ReadOptions), q.validate = .ok () →
      let size := (o.batchSize.filter (0 < ·)).getD s.settings.fetchBatchSize
      let rows := Selection.rows ⟨q, o.after, o.limit.map fun n => min (n : Int) Position.max⟩ s.table
      1 ≤ size ∧ ∃ batches, (Batches.unopened q o).Gives s batches ∧
        batches.length = (rows.length + size - 1) / size ∧ Batches.OfSize size batches ∧
        batches.flatten = rows.map Row.event ∧
        ((s.table.map (·.position)).Nodup →
          batches.flatten.Pairwise fun a b => a.position < b.position) ∧
        (s.readBatches q o none).1 = batches ∧ (s.readBatches q o none).2.1 = none) ∧
    ∀ (ps : List (NamedProjector σ)) (query : Query), 0 < s.limiter.available →
      validateProjectors ps = .ok () →
      let size := s.settings.fetchBatchSize
      let events := (Selection.rows ⟨query, 0, none⟩ s.table).map Row.event
      (∀ p ∈ ps, ∃ x, p.projector.fold events = .ok x) →
      ∃ cut fed out, cut.flatten = events ∧ Batches.OfSize size cut ∧
        (Folder.start ps s.settings.maxWorkers).Fed cut fed ∧
        fed.finish = .ok (out.states, out.observed) ∧ (s.runProjection ps query).1 = .ok out ∧
        (s.runProjection ps query).2.client.server.transcript = s.client.server.transcript ++
          ([.begin, .setIsolation s.settings.readIsolation, .head, .declareCursor ⟨query, 0, none⟩] ++
            (List.replicate (events.length / size + 1) (.fetch size) ++ [.closeCursor, .commit])) := by
  constructor
  · intro q o hq size rows
    -- zero asks for no batch size, and what the settings give is positive
    have hsize : 0 < size := by
      have hpos := StoreSettings.batchSizeOf_pos hsettings o
      rwa [StoreSettings.batchSizeOf_eq] at hpos
    have hrows : ∀ r ∈ rows, r.Decodable := fun r hr => hdec r (Selection.mem_of_mem_rows hr)
    have hcount : rows.length < s.table.length + 1 :=
      Nat.lt_succ_of_le (Selection.length_rows_le _ _)
    have hleft : (Batches.unopened q o).Left s.settings s.table size rows :=
      .unopened hq (StoreSettings.batchSizeOf_eq _ _)
    obtain ⟨hflat, hof, hend⟩ := Batches.cut_of_decodable hsize hcount hrows
    obtain ⟨s', hcollect⟩ := readBatches_of_ready hready hq hsettings o none
    rw [StoreSettings.batchSizeOf_eq] at hcollect
    refine ⟨hsize, (Batches.cut size (s.table.length + 1) rows).1,
      Batches.gives_cut hsize hcount hrows hleft hready, ?_, hof, hflat, fun hnodup => ?_, ?_, ?_⟩
    · rw [hof.length_eq hsize, hflat, List.length_map]
    · rw [hflat]
      exact List.pairwise_map.mpr (Selection.pairwise_rows_of_nodup hnodup _)
    · rw [hcollect]
      rfl
    · rw [hcollect]
      exact congrArg (Option.map _) hend
  · intro ps query hplace hvalid size events hfolds
    obtain ⟨cut, fed, out, hcut, hrest⟩ := exists_runProjection_of_folds
      ⟨StoreSettings.fetchBatchSize_pos hsettings, hready, hplace⟩ hdec hvalid hfolds
    rw [hcut] at hrest
    exact ⟨cut, fed, out, hcut, hrest⟩

/-- Two events in batches of one. A reading that asks for batches of no events has two batches, and a
projection fetches three times. -/
theorem batches_and_fetches_of_two_events :
    let s : Store := { facing openedAndDeposited with settings := { fetchBatchSize := 1 } }
    (∃ batches, (Batches.unopened .all { batchSize := some 0 }).Gives s batches ∧ batches.length = 2) ∧
      ∃ out, (s.runProjection [Folder.countUpTo "events" 2] .all).1 = .ok out ∧
        (s.runProjection [Folder.countUpTo "events" 2] .all).2.client.server.transcript =
          [.begin, .setIsolation s.settings.readIsolation, .head, .declareCursor ⟨.all, 0, none⟩,
            .fetch 1, .fetch 1, .fetch 1, .closeCursor, .commit] := by
  intro s
  have hrows : (Selection.rows ⟨.all, 0, none⟩ s.table).map Row.event =
      (openedAndDeposited.map Row.event).filter Query.all.selects :=
    sound_openedAndDeposited.map_event_rows rfl
  have hlen : ((Selection.rows ⟨.all, 0, none⟩ s.table).map Row.event).length = 2 := by
    rw [hrows]
    decide +kernel
  have hfolds : ∀ p ∈ [Folder.countUpTo "events" 2],
      ∃ x, p.projector.fold ((Selection.rows ⟨.all, 0, none⟩ s.table).map Row.event) = .ok x := by
    intro p hp
    obtain rfl := List.mem_singleton.mp hp
    rw [hrows]
    exact ⟨2, by decide +kernel⟩
  obtain ⟨hbatches, hfetches⟩ := @batches_and_fetches Nat s rfl sound_openedAndDeposited.decodable
    (ready_facing _)
  obtain ⟨-, batches, hgives, hcount, -⟩ := hbatches .all { batchSize := some 0 } rfl
  obtain ⟨cut, fed, out, -, -, -, -, hout, hsent⟩ :=
    hfetches [Folder.countUpTo "events" 2] .all (Nat.zero_lt_succ _) rfl hfolds
  have hone : s.settings.fetchBatchSize = 1 := rfl
  rw [hlen, hone] at hsent
  refine ⟨⟨batches, hgives, hcount.trans ?_⟩, out, hout, hsent⟩
  rw [List.length_map] at hlen
  show ((Selection.rows ⟨.all, 0, none⟩ s.table).length + 1 - 1) / 1 = 2
  rw [hlen]

end Store

end EventLog
