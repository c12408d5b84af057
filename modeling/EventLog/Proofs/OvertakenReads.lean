import EventLog.Proofs.SharedFold

/-!
# Decisions that the log overtakes

A projection asks for the head with one statement and declares its cursor with the next one. Below the
isolation level at which a transaction keeps one snapshot, others may append in between, so that the cursor
sees more of the log than the head tells. The condition of a decision is right all the same: the head is
taken only if the cursor showed nothing that a projector selects, and it is asked for first.

## Key results

- `Projected.gives_ofLogAcross`: what a projection gives when the log overtakes its head
- `Store.decideAcross_of_folds`: when there is a decision
- `DecisionModel.isViolatedBy_ofReads_iff`: the events that violate its condition
- `Store.overtaken_decision_guard`: the condition against all that is written before and after the cursor
-/

namespace EventLog

open Database Sql

variable {σ : Type}

/-! ### Actions during which the table changes -/

namespace Database.Db

variable {α β : Type} {P : Client → Prop} {t t' u : Table} {r : Except StoreError α}

/-- Others commit until the table is `u`. -/
def overtake (u : Table) : Db Unit := update fun s => { s with table := u }

/-- On a client whose table is `t` the action has the outcome `r`, or else it is disturbed, which it is not
if `P` holds of the client. Nothing is said of the table afterwards. -/
structure Gives (P : Client → Prop) (x : Db α) (t : Table) (r : Except StoreError α) : Prop where
  calm : ∀ c, c.server.table = t → P c → (x.runOn c).1 = r
  any : ∀ c, c.server.table = t → (x.runOn c).1 = r ∨ Disturbed (x.runOn c).1

/-- What is computed is given, whatever the table is afterwards. -/
theorem Computes.gives {x : Db α} (hx : Computes P x t r t') : Gives P x t r where
  calm := by
    intro c ht hc
    obtain ⟨c', hrun, -⟩ := hx.calm c ht hc
    rw [hrun]
  any := by
    intro c ht
    obtain ⟨r', c', hrun, hr⟩ := hx.any c ht
    rw [hrun]
    exact hr.imp And.left And.left

/-- An action that keeps the table, and another one after it. -/
theorem Computes.bind_gives {x : Db β} {f : β → Db α} {b : β} (hx : Computes P x t (.ok b) t)
    (hf : Gives Client.Quiet (f b) t r) : Gives P (x >>= f) t r where
  calm := by
    intro c ht hc
    obtain ⟨c₁, hrun, ht₁, hc₁⟩ := hx.calm c ht hc
    rw [runOn_bind_ok hrun]
    exact hf.calm c₁ ht₁ hc₁
  any := by
    intro c ht
    -- the first action did its part and left the table, or it met a disturbance and nothing follows
    obtain ⟨r', c₁, hrun, ⟨rfl, ht₁⟩ | ⟨⟨e, rfl, he⟩, -⟩⟩ := hx.any c ht
    · rw [runOn_bind_ok hrun]
      exact hf.any c₁ ht₁
    · rw [runOn_bind_error hrun]
      exact .inr ⟨e, rfl, he⟩

namespace Gives

/-- What follows the commits of others is done on their table. -/
theorem overtake {x : Db α} (hx : Gives Client.Quiet x u r) :
    Gives Client.Quiet (do Db.overtake u; x) t r where
  calm := by
    intro c _ hc
    -- the commits change the table of the client and nothing that makes it quiet
    exact hx.calm { c with server := { c.server with table := u } } rfl hc
  any := by
    intro c _
    exact hx.any { c with server := { c.server with table := u } } rfl

/-- What fails is rolled back and fails in the same way. -/
theorem orRollBack {x : Db α} (hx : Gives P x t r) : Gives P (Db.orRollBack x) t r := by
  -- giving up comes after the outcome is known
  have hsame : ∀ c, ((Db.orRollBack x).runOn c).1 = (x.runOn c).1 := by
    intro c
    obtain ⟨c', hrun, -, -⟩ := Computes.exists_runOn_orRollBack (Prod.eta (x.runOn c)).symm
    rw [hrun]
  constructor
  · intro c ht hc
    rw [hsame]
    exact hx.calm c ht hc
  · intro c ht
    rw [hsame]
    exact hx.any c ht

/-- A deadline can only disturb. -/
theorem within {x : Db α} (hx : Gives P x t r) (hP : ∀ c deadlines, P c → P { c with deadlines })
    (operation : Operation) (limit : Nat) : Gives P (Db.within operation limit x) t r where
  calm := fun c ht hc => hx.calm { c with deadlines := c.deadlines ++ [⟨operation, limit, 0⟩] } ht (hP c _ hc)
  any := fun c ht => hx.any { c with deadlines := c.deadlines ++ [⟨operation, limit, 0⟩] } ht

/-- A computation on the value that an action gives. -/
theorem bind_pure {x : Db α} (hx : Gives P x t r) {f : α → Db β} {g : α → Except StoreError β}
    (hf : ∀ a c, (f a).runOn c = (g a, c)) : Gives P (x >>= f) t (r.bind g) := by
  have hrun : ∀ c, ((x >>= f).runOn c).1 = (x.runOn c).1.bind g := by
    intro c
    rw [runOn_bind]
    rcases x.runOn c with ⟨e | a, c'⟩
    · rfl
    · exact congrArg Prod.fst (hf a c')
  constructor
  · intro c ht hc
    rw [hrun, hx.calm c ht hc]
  · intro c ht
    rw [hrun]
    rcases hx.any c ht with h | ⟨e, h, he⟩
    · exact .inl (by rw [h])
    · exact .inr ⟨e, by rw [h]; rfl, he⟩

end Gives

end Database.Db

/-! ### A projection with something between its statements -/

namespace Projected

/-- The fold of a projection, with something happening between the head and the cursor. -/
def foldAcross (between : Db Unit) (settings : StoreSettings) (query : Query) (start : Folder σ) :
    Db (Folder σ × Position) := do
  Db.begin
  Db.orRollBack do
    Db.send (.setIsolation settings.readIsolation)
    let head ← Db.head
    between
    readOut settings query start head

/-- A projection with something happening between the head and the cursor. -/
def ofLogAcross (between : Db Unit) (settings : StoreSettings) (ps : List (NamedProjector σ))
    (query : Query) : Db (Projected σ) :=
  Db.within .projection settings.queryTimeout do
    let (folder, head) ← foldAcross between settings query (Folder.start ps settings.maxWorkers)
    let (states, observed) ← Db.ofExcept .projection folder.finish
    return ⟨states, observed, head⟩

/-- A projection is one between whose statements nothing happens. -/
theorem ofLogAcross_pure (settings : StoreSettings) (ps : List (NamedProjector σ)) (query : Query) :
    ofLogAcross (pure ()) settings ps query = ofLog settings ps query := rfl

/-- The head is that of the table when the projection asks for it, the events are those of the table when
its cursor is declared. -/
theorem gives_ofLogAcross {t u : Table} {settings : StoreSettings} (hsize : 0 < settings.fetchBatchSize)
    (ps : List (NamedProjector σ)) (query : Query) (h : ∀ r ∈ u, r.Decodable) :
    ∃ cut, cut.flatten = (Selection.rows ⟨query, 0, none⟩ u).map Row.event ∧
      Db.Gives Client.Ready (ofLogAcross (Db.overtake u) settings ps query) t
        ((((Folder.start ps settings.maxWorkers).outcome cut).mapError .projection).map
          fun out => ⟨out.1, out.2, t.head⟩) := by
  obtain ⟨cut, hcut, -, hread⟩ := computes_readOut (σ := σ) hsize query h
  let start : Folder σ := Folder.start ps settings.maxWorkers
  have hfold : Db.Gives Client.Ready (foldAcross (Db.overtake u) settings query start) t
      (((start.feedAll cut).mapError .projection).map fun folder => (folder, t.head)) := by
    -- the statements up to the head see the old table, and those from the cursor on the new one
    refine Db.Computes.begin.bind_gives (Db.Gives.orRollBack ?_)
    refine (Db.Computes.send _).bind_gives (Db.Computes.head.bind_gives ?_)
    exact (hread start t.head).gives.overtake
  -- the states are read off the fold without the database
  let states (folded : Folder σ × Position) : Except StoreError (Projected σ) :=
    (folded.1.finish.mapError .projection).map fun out => ⟨out.1, out.2, folded.2⟩
  have hout := hfold.bind_pure (g := states) (f := fun folded => do
    let out ← Db.ofExcept .projection folded.1.finish
    return ⟨out.1, out.2, folded.2⟩) <| by
      intro folded c
      rw [Db.runOn_bind, Db.runOn_ofExcept]
      simp only [states]
      cases folded.1.finish <;> rfl
  refine ⟨cut, hcut, Db.Gives.within ?_ (fun _ _ hc => hc) _ _⟩
  simp only [Folder.outcome]
  -- a refusal ends the fold, and otherwise its states are read off
  cases hfed : start.feedAll cut with
  | error e => rwa [hfed] at hout
  | ok fed => rwa [hfed] at hout

end Projected

/-! ### The condition of such a decision -/

/-- The positions of the events that one of the projectors selects. -/
def NamedProjector.positions (ps : List (NamedProjector σ)) (es : List Event) : List Position :=
  (es.filter fun e => ps.any (·.projector.query.selects e)).map (·.position)

/-- A position is among them if such an event stands there. -/
theorem NamedProjector.mem_positions {ps : List (NamedProjector σ)} {es : List Event} {p : Position} :
    p ∈ positions ps es ↔ ∃ e ∈ es, anySelects ps e ∧ e.position = p := by
  simp [positions, anySelects, and_assoc]

namespace DecisionModel

/-- The decision model of projectors that have folded what they select from a table, with a head that was
asked for before. -/
def ofReads (head : Position) (ps : List (NamedProjector σ)) (t : Table) : DecisionModel σ :=
  let set := ProjectionSet.folded (Slot.ofProjectors 0 ps) (t.selectedBy ps)
  ⟨sortStates set.states, ⟨Query.union (ps.map (·.projector.query)),
    if 0 < set.observed then set.observed else head⟩⟩

variable {ps : List (NamedProjector σ)} {t rows : Table} {head : Position}

/-- The condition stands at the last event of the table that a projector selects; only if there is none, at
the head that was asked for. -/
theorem condition_ofReads (ht : t.Sound) (hvalid : validateProjectors ps = .ok ()) :
    (ofReads head ps t).condition = ⟨Query.union (ps.map (·.projector.query)),
      (NamedProjector.positions ps (t.map Row.event)).max?.getD head⟩ := by
  -- positions begin at 1, so the 0 of an empty log is none of them
  have hpos : ∀ p ∈ NamedProjector.positions ps (t.map Row.event), 0 < p := by
    intro p hp
    obtain ⟨e, he, -, rfl⟩ := NamedProjector.mem_positions.mp hp
    obtain ⟨r, hr, rfl⟩ := List.mem_map.mp he
    exact Int.lt_of_lt_of_le (by decide) (ht.position_bounds hr).1
  have hobserved : (ProjectionSet.folded (Slot.ofProjectors 0 ps) (t.selectedBy ps)).observed =
      (NamedProjector.positions ps (t.map Row.event)).max?.getD 0 := by
    -- what the projectors read are the events whose positions count
    have hslots : Slot.anySelects (Slot.ofProjectors 0 ps) =
      fun e => ps.any (·.projector.query.selects e) := ProjectionSet.anySelects_slots_ofProjectors
    rw [ProjectionSet.folded, ProjectionSet.highest_eq_foldl, hslots, ht.selectedBy_eq hvalid,
      ProjectionSet.filter_any_filter_union]
    exact foldl_max_zero_of_pos hpos
  simp only [ofReads, hobserved]
  cases hmax : (NamedProjector.positions ps (t.map Row.event)).max? with
  | none => rfl
  | some p =>
    -- a maximum is one of the positions, so it is not 0
    have hp : 0 < p := hpos p (List.max?_mem hmax)
    simp only [Option.getD_some, hp, if_true]

/-- No event that the cursor showed violates the condition. -/
theorem isViolatedBy_ofReads_eq_false (ht : t.Sound) (hvalid : validateProjectors ps = .ok ()) {r : Row}
    (hr : r ∈ t) : (ofReads head ps t).condition.isViolatedBy r.event = false := by
  rw [Bool.eq_false_iff]
  intro hviolated
  rw [condition_ofReads ht hvalid, AppendCondition.isViolatedBy, Bool.and_eq_true, decide_eq_true_eq,
    NamedProjector.selects_union_iff hvalid] at hviolated
  obtain ⟨hafter, hsel⟩ := hviolated
  -- the position of this row counts for the one of the condition
  have hmem : r.position ∈ NamedProjector.positions ps (t.map Row.event) :=
    NamedProjector.mem_positions.mpr ⟨r.event, List.mem_map_of_mem hr, hsel, rfl⟩
  obtain ⟨p, hmax⟩ := Option.isSome_iff_exists.mp (List.isSome_max?_of_mem hmem)
  rw [hmax] at hafter
  exact Int.not_le.mpr hafter ((List.max?_eq_some_iff.mp hmax).2 _ hmem)

/-- An event after the table violates the condition exactly if a projector selects it, as long as the head
that was asked for is not after the one of the table. -/
theorem isViolatedBy_ofReads_iff (ht : t.Sound) (hu : Table.Sound (t ++ rows))
    (hvalid : validateProjectors ps = .ok ()) (hhead : head ≤ t.head) {r : Row} (hr : r ∈ rows) :
    (ofReads head ps t).condition.isViolatedBy r.event = true ↔ NamedProjector.anySelects ps r.event := by
  rw [condition_ofReads ht hvalid, AppendCondition.isViolatedBy, Bool.and_eq_true, decide_eq_true_eq,
    NamedProjector.selects_union_iff hvalid]
  refine and_iff_right (Int.lt_of_le_of_lt ?_ (ht.head_lt_of_append hu hr))
  -- the condition stands at an event of the table or at the head that was asked for
  cases hmax : (NamedProjector.positions ps (t.map Row.event)).max? with
  | none => exact hhead
  | some p =>
    obtain ⟨e, he, -, rfl⟩ := NamedProjector.mem_positions.mp (List.max?_mem hmax)
    obtain ⟨r', hr', rfl⟩ := List.mem_map.mp he
    exact (ht.position_bounds hr').2

/-- The states are those that the projectors fold from the whole table. -/
theorem states_ofReads (ht : t.Sound) (hvalid : validateProjectors ps = .ok ()) {xs : List σ}
    (hxs : ps.map (·.projector.fold (t.map Row.event)) = xs.map .ok) :
    (ofReads head ps t).states = sortStates ((ps.map (·.id)).zip xs) := by
  have hselected : ps.map (·.projector.fold (t.selectedBy ps)) = xs.map .ok := by
    rw [← hxs, ht.selectedBy_eq hvalid]
    refine List.map_congr_left fun p hp => Projector.foldFrom_filter (fun e he => ?_) _ _
    exact (NamedProjector.selects_union_iff hvalid).mpr ⟨p, hp, he⟩
  exact congrArg sortStates (ProjectionSet.states_ofProjectors hselected)

end DecisionModel

/-- The slots of acceptable projectors fold what one of them selects from a sound table exactly if every
projector folds all of it. -/
theorem Table.Sound.folds_selectedBy_iff {t : Table} (ht : t.Sound) {ps : List (NamedProjector σ)}
    (hvalid : validateProjectors ps = .ok ()) :
    (∀ slot ∈ Slot.ofProjectors 0 ps, slot.Folds (t.selectedBy ps)) ↔
      ∀ p ∈ ps, ∃ x, p.projector.fold (t.map Row.event) = .ok x := by
  rw [ht.selectedBy_eq hvalid]
  exact Slot.folds_ofProjectors_iff fun e => (NamedProjector.selects_union_iff hvalid).mpr

namespace Store

variable {s : Store} {ps : List (NamedProjector σ)} {t u v : Table} {m : DecisionModel σ}

/-- Runs a reading of acceptable projectors under admission. -/
def admitted (s : Store) (ps : List (NamedProjector σ)) (reading : Db (Projected σ)) :
    Except StoreError (Projected σ) × Store :=
  match s.limiter.tryAdmit with
  | .error e => (.error e, s)
  | .ok limiter =>
    let s := { s with limiter }
    let (r, s) : Except StoreError (Projected σ) × Store := match validateProjectors ps with
      | .error e => (.error e, s)
      | .ok () => s.run reading
    (r, { s with limiter := s.limiter.release })

/-- A decision with something happening between the head and the cursor. -/
def decideAcross (between : Db Unit) (s : Store) (ps : List (NamedProjector σ)) :
    Except StoreError (DecisionModel σ) × Store :=
  let union := Query.union (ps.map (·.projector.query))
  let (r, s) := s.admitted ps (Projected.ofLogAcross between s.settings ps union)
  (r.map fun out => ⟨sortStates out.states, ⟨union, out.anchor⟩⟩, s)

/-- A decision is one between whose statements nothing happens. -/
theorem decideAcross_pure (s : Store) (ps : List (NamedProjector σ)) :
    s.decideAcross (pure ()) ps = s.decide ps := by
  rw [decideAcross, Projected.ofLogAcross_pure]
  rfl

/-- A decision that the log overtakes and that succeeds: all projectors fold what one of them selects from
the table that the cursor saw. -/
theorem decideAcross_eq_ok (hsize : 0 < s.settings.fetchBatchSize) (hdec : ∀ r ∈ u, r.Decodable)
    (h : (s.decideAcross (Db.overtake u) ps).1 = .ok m) :
    validateProjectors ps = .ok () ∧
      (∀ slot ∈ Slot.ofProjectors 0 ps, slot.Folds (u.selectedBy ps)) ∧ m = .ofReads s.table.head ps u := by
  obtain ⟨cut, hcut, hgives⟩ := Projected.gives_ofLogAcross (t := s.table) hsize ps
    (Query.union (ps.map (·.projector.query))) hdec
  simp only [decideAcross, admitted] at h
  cases hplaced : s.limiter.tryAdmit with
  | error e => simp only [hplaced] at h; cases h
  | ok limiter =>
    cases hvalid : validateProjectors ps with
    | error e => simp only [hplaced, hvalid] at h; cases h
    | ok _ =>
      simp only [hplaced, hvalid, run] at h
      -- a decision was made, so the reading was not disturbed and its fold did not fail
      rcases hgives.any s.client rfl with hrun | ⟨e, hrun, -⟩
      · rw [hrun] at h
        cases hout : (Folder.start ps s.settings.maxWorkers).outcome cut with
        | error e => rw [hout] at h; cases h
        | ok out =>
          obtain ⟨hfolds, rfl⟩ :=
            (Folder.ends_eq_ok_iff (Folder.ends_outcome (Folder.start ps _) cut)).mp hout
          rw [hout] at h
          rw [hcut] at hfolds h
          exact ⟨rfl, hfolds, (Except.ok.inj h).symm⟩
      · rw [hrun] at h
        cases h

/-- There is a decision if nothing disturbs the client, a place at the gate is free, and the acceptable
projectors all fold what the cursor sees. -/
theorem decideAcross_of_folds (h : s.FreeToProject) (hdec : ∀ r ∈ u, r.Decodable)
    (hvalid : validateProjectors ps = .ok ())
    (hfolds : ∀ slot ∈ Slot.ofProjectors 0 ps, slot.Folds (u.selectedBy ps)) :
    (s.decideAcross (Db.overtake u) ps).1 = .ok (.ofReads s.table.head ps u) := by
  obtain ⟨cut, hcut, hgives⟩ := Projected.gives_ofLogAcross (t := s.table) h.size ps
    (Query.union (ps.map (·.projector.query))) hdec
  have hfed : ∀ slot ∈ Slot.ofProjectors 0 ps, slot.Folds cut.flatten := hcut.symm ▸ hfolds
  obtain ⟨limiter, hplaced⟩ := tryAdmit_of_available h.place
  obtain ⟨out, hout⟩ := Folder.exists_outcome_of_folds s.settings.maxWorkers hfed
  obtain ⟨-, rfl⟩ :=
    (Folder.ends_eq_ok_iff (Folder.ends_outcome (Folder.start ps s.settings.maxWorkers) cut)).mp hout
  simp only [decideAcross, admitted, hplaced, hvalid, run]
  rw [hgives.calm s.client rfl h.ready, hout, hcut]
  rfl

/-- While a decision on the log `t` asks for the head, declares its cursor and goes on, any calls on any
stores change the log: first to `u`, which the cursor sees, later to `v`. Let `seen` be the events of `u`, and
let `added` be those that `v` has besides.
* The states of the decision are those that the projectors fold from `seen`.
* Its condition asks for the union of their queries, after the highest position in `seen` of an event that a
  projector selects; if there is none, after the head of `t`.
* No event of `seen` violates the condition, and one of `added` does exactly if a projector selects it. So
  some event of `v` violates it exactly if a projector selects one of `added`.
* An undisturbed append of a valid batch to `v` under the condition is a conflict exactly in this case. -/
theorem overtaken_decision_guard (ht : Table.Reaches [] t) (hu : t.Reaches u) (hv : u.Reaches v)
    (hs : s.table = t) (hsettings : s.settings.validate = .ok ())
    (hm : (s.decideAcross (Db.overtake u) ps).1 = .ok m) :
    ∃ seen added, Row.toEvents u = .ok seen ∧ Row.toEvents v = .ok (seen ++ added) ∧
      (∃ xs : List σ, ps.map (·.projector.fold seen) = xs.map .ok ∧
        m.states = sortStates ((ps.map (·.id)).zip xs)) ∧
      m.condition = ⟨Query.union (ps.map (·.projector.query)),
        ((seen.filter fun e => ps.any (·.projector.query.selects e)).map (·.position)).max?.getD t.head⟩ ∧
      (∀ e ∈ seen, m.condition.isViolatedBy e = false) ∧
      (∀ e ∈ added, m.condition.isViolatedBy e = true ↔ ∃ p ∈ ps, p.projector.query.selects e = true) ∧
      ((∃ e ∈ seen ++ added, m.condition.isViolatedBy e = true) ↔
        ∃ e ∈ added, ∃ p ∈ ps, p.projector.query.selects e = true) ∧
      ∀ (s' : Store) (events : List InputEvent) (lineage : Lineage), s'.table = v → s'.client.Ready →
        validateBatch events s'.settings.maxBatchSize = .ok () →
        ((s'.append events (some m.condition) lineage).1 = .error (.conflict m.condition.afterPosition) ↔
          ∃ e ∈ added, ∃ p ∈ ps, p.projector.query.selects e = true) := by
  subst hs
  have hsound : s.table.Sound := Table.sound_nil.reaches ht
  have hsoundu : u.Sound := hsound.reaches hu
  obtain ⟨rows, rfl⟩ := Table.isPrefix_of_reaches hv
  have hsoundv : Table.Sound (u ++ rows) := hsoundu.reaches hv
  -- asked for first, the head is not after what the cursor saw
  have hhead : s.table.head ≤ u.head := Table.head_le_of_isPrefix (Table.isPrefix_of_reaches hu)
  obtain ⟨hvalid, hfolds, rfl⟩ := decideAcross_eq_ok (StoreSettings.fetchBatchSize_pos hsettings)
    hsoundu.decodable hm
  obtain ⟨xs, hxs⟩ := ProjectionSet.exists_states_of_fold ((hsoundu.folds_selectedBy_iff hvalid).mp hfolds)
  let selected (e : Event) : Prop := ∃ p ∈ ps, p.projector.query.selects e = true
  let condition := (DecisionModel.ofReads s.table.head ps u).condition
  -- what the cursor saw is seen, and what came after it is what the projectors select
  have hseen : ∀ e ∈ u.map Row.event, condition.isViolatedBy e = false := by
    intro e he
    obtain ⟨r, hr, rfl⟩ := List.mem_map.mp he
    exact DecisionModel.isViolatedBy_ofReads_eq_false hsoundu hvalid hr
  have hadded : ∀ e ∈ rows.map Row.event, condition.isViolatedBy e = true ↔ selected e := by
    intro e he
    obtain ⟨r, hr, rfl⟩ := List.mem_map.mp he
    exact DecisionModel.isViolatedBy_ofReads_iff hsoundu hsoundv hvalid hhead hr
  have hany : (∃ e ∈ u.map Row.event ++ rows.map Row.event, condition.isViolatedBy e = true) ↔
      ∃ e ∈ rows.map Row.event, selected e := by
    constructor
    · rintro ⟨e, he, hviolated⟩
      rcases List.mem_append.mp he with he | he
      · exact absurd hviolated (Bool.eq_false_iff.mp (hseen e he))
      · exact ⟨e, he, (hadded e he).mp hviolated⟩
    · rintro ⟨e, he, hsel⟩
      exact ⟨e, List.mem_append_right _ he, (hadded e he).mpr hsel⟩
  refine ⟨u.map Row.event, rows.map Row.event, Row.toEvents_eq_ok hsoundu.decodable, ?_,
    ⟨xs, hxs, DecisionModel.states_ofReads hsoundu hvalid hxs⟩,
    DecisionModel.condition_ofReads hsoundu hvalid, hseen, hadded, hany, ?_⟩
  · rw [← List.map_append]
    exact Row.toEvents_eq_ok hsoundv.decodable
  · -- a conflict is an event that violates the condition, which is among those that were added
    intro s' events lineage hs' hready hbatch
    have hquery : condition.failIfEventsMatch.validate = .ok () := (validateProjectors_eq_ok hvalid).2.2
    have happend : s'.validateAppend events (some condition) = .ok () := by
      simp only [validateAppend, hbatch]
      exact hquery
    rw [(append_eq_conflict_iff happend lineage).1 hready, hs', conflicts_iff hquery, ← hany,
      ← List.map_append]
    simp only [List.mem_map, exists_exists_and_eq_and, condition]

/-- The empty log gets a deposit before the cursor of a decision on deposits is declared. The decision counts
it, its condition stands after it, and only the next deposit is a conflict. -/
theorem overtaken_decision_guard_on_deposits :
    let u := Table.single "Deposited"
    let v := ((facing u).append [.new "Deposited" [] (.object [])] none .new).2.table
    ∃ m, ((facing []).decideAcross (Db.overtake u) [depositCount]).1 = .ok m ∧
      m.states = [("deposits", 1)] ∧ m.condition.afterPosition = 1 ∧
      ((facing u).append [.new "Deposited" [] (.object [])] (some m.condition) .new).1 ≠
        .error (.conflict 1) ∧
      ((facing v).append [.new "Deposited" [] (.object [])] (some m.condition) .new).1 =
        .error (.conflict 1) := by
  intro u v
  have hu : Table.Reaches [] u := .single ⟨_, _, rfl, .append [.new "Deposited" [] (.object [])] none .new, rfl⟩
  have hv : u.Reaches v := .single ⟨_, _, rfl, .append [.new "Deposited" [] (.object [])] none .new, rfl⟩
  have hsound : u.Sound := Table.sound_nil.reaches hu
  have hfold : depositCount.projector.fold (u.map Row.event) = .ok 1 := by decide +kernel
  have hfolds : ∀ slot ∈ Slot.ofProjectors 0 [depositCount], slot.Folds (u.selectedBy [depositCount]) :=
    (hsound.folds_selectedBy_iff rfl).mpr (List.forall_mem_singleton.mpr ⟨1, hfold⟩)
  have hm := decideAcross_of_folds (s := facing [])
    ⟨Nat.zero_lt_succ _, ready_facing [], Nat.zero_lt_succ _⟩ hsound.decodable rfl hfolds
  have hbatch : validateBatch [.new "Deposited" [] (.object [])] 1000 = .ok () := rfl
  obtain ⟨seen, rest, hseen, hrest, ⟨xs, hxs, hstates⟩, hcondition, -, -, -, hquiet⟩ :=
    overtaken_decision_guard .refl hu .refl rfl rfl hm
  obtain ⟨seen', added, hseen', hadded, -, -, -, -, -, hconflict⟩ :=
    overtaken_decision_guard .refl hu hv rfl rfl hm
  -- both runs of the theorem speak of the same events, so `rest` is all of them at the time of the cursor
  obtain rfl := Except.ok.inj (hseen.symm.trans (Row.toEvents_eq_ok hsound.decodable))
  obtain rfl := Except.ok.inj (hseen'.symm.trans hseen)
  have hafter := (congrArg AppendCondition.afterPosition hcondition).trans
    (show _ = (1 : Position) by decide +kernel)
  rw [hafter] at hquiet hconflict
  refine ⟨_, hm, ?_, hafter, fun h => ?_, (hconflict (facing v) _ .new rfl (ready_facing v) hbatch).mpr ?_⟩
  · obtain rfl : [1] = xs := by
      refine (List.map_injective_iff.mpr fun _ _ => Except.ok.inj) (Eq.trans ?_ hxs)
      exact congrArg (fun r => [r]) hfold.symm
    exact hstates
  · -- nothing was written after the cursor
    obtain ⟨e, he, -⟩ := (hquiet (facing u) _ .new rfl (ready_facing u) hbatch).mp h
    rw [List.append_right_eq_self.mp (Except.ok.inj (hrest.symm.trans hseen))] at he
    exact nomatch he
  · -- the second deposit is what `v` has more than `u`
    have hsoundv : v.Sound := hsound.reaches hv
    have hevents := Except.ok.inj (hadded.symm.trans (Row.toEvents_eq_ok hsoundv.decodable))
    have hnew : added = (v.map Row.event).drop (u.map Row.event).length := by
      rw [← hevents, List.drop_left]
    rw [hnew]
    decide +kernel

end Store

end EventLog
