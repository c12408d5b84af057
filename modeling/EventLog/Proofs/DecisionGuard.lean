import EventLog.Proofs.SoundReading

/-!
# Decisions are guarded

The condition of a decision model is as strong as it has to be and not stronger: whatever was written in
between, an append under it is a conflict exactly if one of the projectors of the decision would have
seen an event that was written since. So a decision that goes through was made on states that still
held.

## Key results

- `DecisionModel.position_le_anchor`: what the projectors saw does not violate the condition
- `DecisionModel.conflicts_append_iff`: the condition conflicts exactly with new events that match
- `Store.decision_guard`: appends under a decision model
-/

namespace EventLog

open Database Sql

variable {σ : Type}

/-- A query of one of the projectors selects the event. -/
def NamedProjector.anySelects (ps : List (NamedProjector σ)) (e : Event) : Prop :=
  ∃ p ∈ ps, p.projector.query.selects e = true

/-- The slots of projectors select what the projectors select. -/
theorem Slot.anySelects_ofProjectors {start : Nat} {ps : List (NamedProjector σ)} {e : Event} :
    Slot.anySelects (Slot.ofProjectors start ps) e = true ↔ NamedProjector.anySelects ps e := by
  induction ps generalizing start with
  | nil => simp [Slot.anySelects, Slot.ofProjectors, NamedProjector.anySelects]
  | cons p ps ih =>
    have hcons : Slot.anySelects (Slot.ofProjectors start (p :: ps)) e =
        (p.projector.query.selects e || Slot.anySelects (Slot.ofProjectors (start + 1) ps) e) := rfl
    rw [hcons, Bool.or_eq_true, ih]
    simp [NamedProjector.anySelects]

/-- The union of the queries of accepted projectors selects what the projectors select. -/
theorem NamedProjector.selects_union_iff {ps : List (NamedProjector σ)}
    (hvalid : validateProjectors ps = .ok ()) {e : Event} :
    (Query.union (ps.map (·.projector.query))).selects e = true ↔ anySelects ps e := by
  have hne := (validateProjectors_eq_ok hvalid).1
  rw [Query.selects_union (by simpa using hne)]
  simp [anySelects]

/-! ### What projectors see of a log -/

section

variable {ps : List (NamedProjector σ)} {t rows : Table}

/-- From a sound table projectors read the events that one of them selects. -/
theorem Table.Sound.selectedBy_eq (ht : t.Sound) (hvalid : validateProjectors ps = .ok ()) :
    t.selectedBy ps =
      (t.map Row.event).filter (Query.union (ps.map (·.projector.query))).selects :=
  ht.map_event_rows (validateProjectors_eq_ok hvalid).2.2

/-- Projectors read an event from a sound table exactly if one of them selects it. -/
theorem Table.Sound.mem_selectedBy (ht : t.Sound) (hvalid : validateProjectors ps = .ok ())
    {e : Event} :
    e ∈ t.selectedBy ps ↔ (∃ r ∈ t, r.event = e) ∧ NamedProjector.anySelects ps e := by
  rw [ht.selectedBy_eq hvalid, List.mem_filter, NamedProjector.selects_union_iff hvalid,
    List.mem_map]

/-- Rows that no projector selects change nothing of what the projectors read. -/
theorem Table.Sound.selectedBy_append (ht : t.Sound) (hu : Table.Sound (t ++ rows))
    (hvalid : validateProjectors ps = .ok ())
    (hrows : ∀ r ∈ rows, ¬NamedProjector.anySelects ps r.event) :
    Table.selectedBy (t ++ rows) ps = t.selectedBy ps := by
  -- the new rows drop out of what is read
  have hnone : (rows.map Row.event).filter (Query.union (ps.map (·.projector.query))).selects = [] := by
    refine List.filter_eq_nil_iff.mpr fun e he => ?_
    obtain ⟨r, hr, rfl⟩ := List.mem_map.mp he
    rw [NamedProjector.selects_union_iff hvalid]
    exact hrows r hr
  rw [hu.selectedBy_eq hvalid, ht.selectedBy_eq hvalid, List.map_append, List.filter_append, hnone,
    List.append_nil]

namespace DecisionModel

/-- The condition of a decision does not stand after the head of the table. -/
theorem anchor_le_head (ht : t.Sound) (hvalid : validateProjectors ps = .ok ()) :
    (onTable ps t).condition.afterPosition ≤ t.head := by
  simp only [onTable]
  split
  · rename_i hpos
    -- the highest position that was observed is that of a row
    rcases ProjectionSet.highest_eq_or_mem (Slot.ofProjectors 0 ps) 0 (t.selectedBy ps) with
      h | ⟨e, he, h⟩
    · exact absurd hpos (by rw [ProjectionSet.folded, h]; exact Int.lt_irrefl 0)
    · obtain ⟨⟨r, hr, rfl⟩, -⟩ := (ht.mem_selectedBy hvalid).mp he
      rw [ProjectionSet.folded, h]
      exact (ht.position_bounds hr).2
  · exact Int.le_refl _

/-- No event that a projector has seen stands after the position of the condition. -/
theorem position_le_anchor (ht : t.Sound) (hvalid : validateProjectors ps = .ok ()) {r : Row}
    (hr : r ∈ t) (hsel : NamedProjector.anySelects ps r.event) :
    r.position ≤ (onTable ps t).condition.afterPosition := by
  simp only [onTable]
  split
  · -- the highest position that was observed is at least that of the row
    have hmem := (ht.mem_selectedBy hvalid).mpr ⟨⟨r, hr, rfl⟩, hsel⟩
    exact ProjectionSet.position_le_highest.2 _ hmem (Slot.anySelects_ofProjectors.mpr hsel)
  · -- the condition stands at the head
    exact (ht.position_bounds hr).2

/-- On a table with more rows the condition of a decision conflicts exactly with those of them that a
projector selects. -/
theorem conflicts_append_iff (ht : t.Sound) (hu : Table.Sound (t ++ rows))
    (hvalid : validateProjectors ps = .ok ()) :
    conflicts (onTable ps t).condition (t ++ rows) = true ↔
      ∃ r ∈ rows, NamedProjector.anySelects ps r.event := by
  have hviolated : ∀ r : Row, (onTable ps t).condition.isViolatedBy r.event = true ↔
      (onTable ps t).condition.afterPosition < r.position ∧
        NamedProjector.anySelects ps r.event := by
    intro r
    -- violating is standing after the position and being selected by the union
    rw [AppendCondition.isViolatedBy, Bool.and_eq_true, decide_eq_true_eq,
      ← NamedProjector.selects_union_iff hvalid]
    rfl
  rw [conflicts_iff (validateProjectors_eq_ok hvalid).2.2]
  constructor
  · rintro ⟨r, hr, h⟩
    obtain ⟨hafter, hsel⟩ := (hviolated r).mp h
    rcases List.mem_append.mp hr with hr | hr
    · -- the decision has seen this row
      exact absurd (position_le_anchor ht hvalid hr hsel) (Int.not_le.mpr hafter)
    · exact ⟨r, hr, hsel⟩
  · -- a new row stands after the old head, and so after the position of the condition
    rintro ⟨r, hr, hsel⟩
    refine ⟨r, List.mem_append_right _ hr, (hviolated r).mpr ⟨?_, hsel⟩⟩
    exact Int.lt_of_le_of_lt (anchor_le_head ht hvalid) (ht.head_lt_of_append hu hr)

end DecisionModel

/-! ### Appends under a decision -/

/-- A valid batch under the condition of a decision is a valid append. -/
theorem Store.validateAppend_of_decision {s : Store} {events : List InputEvent}
    (hbatch : validateBatch events s.settings.maxBatchSize = .ok ())
    (hvalid : validateProjectors ps = .ok ()) :
    s.validateAppend events (some (DecisionModel.onTable ps t).condition) = .ok () := by
  simp only [validateAppend, hbatch]
  exact (validateProjectors_eq_ok hvalid).2.2

/-- A decision that is made again, when there are more rows but none that a projector selects, gives the
same states. -/
theorem Store.decide_again {s : Store} (ht : t.Sound) (hu : Table.Sound (t ++ rows))
    (hs : s.table = t ++ rows) (hsettings : s.settings.validate = .ok ()) (hready : s.client.Ready)
    (hplace : 0 < s.limiter.available) (hvalid : validateProjectors ps = .ok ())
    (hfolds : ∀ slot ∈ Slot.ofProjectors 0 ps, slot.Folds (t.selectedBy ps))
    (hrows : ∀ r ∈ rows, ¬NamedProjector.anySelects ps r.event) :
    ∃ m, (s.decide ps).1 = .ok m ∧ m.states = (DecisionModel.onTable ps t).states := by
  have hsame : s.table.selectedBy ps = t.selectedBy ps := by
    rw [hs, ht.selectedBy_append hu hvalid hrows]
  refine ⟨_, decide_of_folds ⟨hsettings, hs ▸ hu.decodable, hready, hplace⟩ hvalid (hsame.symm ▸ hfolds),
    ?_⟩
  -- only the anchor of the condition can have moved, to the new head
  simp only [DecisionModel.onTable, hsame]

end

/-- A decision is made on the table of a log that any calls have led to, and any calls on any stores
follow it. Then a valid batch is appended under the condition of the decision, `added` being the events
that were written in between.
* The position of the condition is not after the head that the decision saw.
* If nothing disturbs the append then it is a conflict exactly if one of the projectors selects an event
  of `added`. Whatever disturbs it, it is a conflict only then, and it succeeds only if not.
* If it succeeds then the decision, made again right before it, gives the same states. -/
theorem Store.decision_guard {t u : Table} (ht : Table.Reaches [] t) {s : Store} (hs : s.table = t)
    (hsettings : s.settings.validate = .ok ()) {ps : List (NamedProjector σ)} {m : DecisionModel σ}
    (hm : (s.decide ps).1 = .ok m) (hu : t.Reaches u) {s' : Store} (hs' : s'.table = u)
    {events : List InputEvent} (hbatch : validateBatch events s'.settings.maxBatchSize = .ok ())
    (lineage : Lineage) :
    m.condition.afterPosition ≤ t.head ∧
      ∃ rows added, u = t ++ rows ∧ Row.toEvents rows = .ok added ∧
        (s'.client.Ready →
          ((s'.append events (some m.condition) lineage).1 =
              .error (.conflict m.condition.afterPosition) ↔
            ∃ e ∈ added, ∃ p ∈ ps, p.projector.query.selects e = true)) ∧
        (∀ after, (s'.append events (some m.condition) lineage).1 = .error (.conflict after) →
          ∃ e ∈ added, ∃ p ∈ ps, p.projector.query.selects e = true) ∧
        ∀ a, (s'.append events (some m.condition) lineage).1 = .ok a →
          (∀ e ∈ added, ∀ p ∈ ps, p.projector.query.selects e = false) ∧
          ∀ s'' : Store, s''.table = u → s''.settings.validate = .ok () → s''.client.Ready →
            0 < s''.limiter.available →
            ∃ m', (s''.decide ps).1 = .ok m' ∧ m'.states = m.states := by
  subst hs hs'
  -- the table of the append is that of the decision and some rows, and both are sound
  have hsound := Table.sound_nil.reaches ht
  obtain ⟨rows, hrows⟩ := Table.isPrefix_of_reaches hu
  have hsound' : Table.Sound (s.table ++ rows) := hrows ▸ hsound.reaches hu
  obtain ⟨hvalid, hfolds, rfl⟩ := decide_eq_ok (StoreSettings.fetchBatchSize_pos hsettings)
    hsound.decodable hm
  have hguard : conflicts (DecisionModel.onTable ps s.table).condition s'.table = true ↔
      ∃ e ∈ rows.map Row.event, NamedProjector.anySelects ps e := by
    rw [← hrows, DecisionModel.conflicts_append_iff hsound hsound' hvalid]
    simp
  obtain ⟨hcalm, hconflict, hok⟩ :=
    append_eq_conflict_iff (validateAppend_of_decision (t := s.table) hbatch hvalid) lineage
  -- the anchor, the rows that were added, and then the three ways to say what becomes of the append
  refine ⟨DecisionModel.anchor_le_head hsound hvalid, rows, rows.map Row.event, hrows.symm, ?_, ?_, ?_,
    ?_⟩
  · exact Row.toEvents_eq_ok fun r hr => hsound'.decodable r (List.mem_append_right _ hr)
  · intro hready
    rw [hcalm hready, hguard]
    rfl
  · exact fun after h => hguard.mp (hconflict after h)
  · intro a h
    have hunseen : ¬∃ e ∈ rows.map Row.event, NamedProjector.anySelects ps e := by
      rw [← hguard, hok a h]
      exact Bool.false_ne_true
    -- no projector would have seen a row that was added
    refine ⟨fun e he p hp => ?_, fun s'' hs'' hset hready hplace => ?_⟩
    · exact Bool.eq_false_iff.mpr fun hsel => hunseen ⟨e, he, p, hp, hsel⟩
    · exact decide_again hsound hsound' (hs''.trans hrows.symm) hset hready hplace hvalid hfolds
        fun r hr hsel => hunseen ⟨r.event, List.mem_map_of_mem hr, hsel⟩

/-- Counts deposits. -/
def depositCount : NamedProjector Nat where
  id := "deposits"
  projector :=
    { query := ⟨[⟨["Deposited"], []⟩]⟩
      initial := 0
      transition := fun n _ => .ok (n + 1) }

/-- The table of a log with one event. -/
def Table.single (eventType : String) : Table :=
  ((Store.facing []).append [.new eventType [] (.object [])] none .new).2.table

/-- Deposits are counted on the empty log. After a deposit of another client, a batch under that decision
is a conflict; after another event it is not, and the decision is the same as before. -/
theorem Store.decision_guard_on_deposits :
    ∃ m, ((Store.facing []).decide [depositCount]).1 = .ok m ∧
      ((Store.facing (.single "Deposited")).append [.new "Deposited" [] (.object [])]
        (some m.condition) .new).1 = .error (.conflict m.condition.afterPosition) ∧
      (∃ a, ((Store.facing (.single "Opened")).append [.new "Deposited" [] (.object [])]
        (some m.condition) .new).1 = .ok a) ∧
      ∃ m', ((Store.facing (.single "Opened")).decide [depositCount]).1 = .ok m' ∧
        m'.states = m.states := by
  have hplace : ∀ t : Table, 0 < (Store.facing t).limiter.available := fun _ => Nat.zero_lt_succ _
  have hreach : ∀ eventType, Table.Reaches [] (.single eventType) := fun eventType =>
    .single ⟨_, _, rfl, .append [.new eventType [] (.object [])] none .new, rfl⟩
  have hempty : Table.selectedBy [] [depositCount] = [] := Table.sound_nil.selectedBy_eq rfl
  have hfolds : ∀ slot ∈ Slot.ofProjectors 0 [depositCount],
      slot.Folds (Table.selectedBy [] [depositCount]) := by
    intro slot hslot
    rw [hempty]
    exact (Slot.folds_nil (Slot.index_of_mem_ofProjectors hslot).2).1
  -- on an empty log there is nothing to fold, so the decision goes well
  have hm : ((Store.facing []).decide [depositCount]).1 = .ok (.onTable [depositCount] []) :=
    decide_of_folds ⟨rfl, Table.sound_nil.decodable, ready_facing [], hplace []⟩ rfl hfolds
  have hbatch : validateBatch [.new "Deposited" [] (.object [])] 1000 = .ok () := rfl
  have hguard := fun eventType => decision_guard .refl rfl rfl hm (hreach eventType)
    (show (Store.facing (.single eventType)).table = _ from rfl) hbatch .new
  refine ⟨_, hm, ?_, ?_⟩
  · -- on the empty table the added rows are all rows, so the deposit is among them
    obtain ⟨-, rows, added, hrows, hadded, hconflict, -⟩ := hguard "Deposited"
    have hone : ∃ e, Row.toEvents (Table.single "Deposited") = .ok [e] ∧
        depositCount.projector.query.selects e = true := ⟨_, rfl, rfl⟩
    obtain ⟨e, he, hsel⟩ := hone
    rw [hrows, List.nil_append, hadded] at he
    obtain rfl := Except.ok.inj he
    exact (hconflict (ready_facing _)).mpr
      ⟨e, List.mem_singleton_self e, depositCount, List.mem_singleton_self _, hsel⟩
  · obtain ⟨-, rows, added, -, -, -, -, hok⟩ := hguard "Opened"
    have happend : ∃ a, ((Store.facing (.single "Opened")).append [.new "Deposited" [] (.object [])]
        (some (DecisionModel.onTable [depositCount] []).condition) .new).1 = .ok a := by
      simp only [DecisionModel.onTable, hempty]
      exact ⟨_, rfl⟩
    obtain ⟨a, ha⟩ := happend
    exact ⟨⟨a, ha⟩, (hok a ha).2 (Store.facing (.single "Opened")) rfl rfl (ready_facing _) (hplace _)⟩

end EventLog
