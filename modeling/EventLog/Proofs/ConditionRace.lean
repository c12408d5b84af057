import EventLog.Proofs.DecisionGuard
import EventLog.Proofs.ReadBack

/-!
# Races for a condition

Several clients append under one condition that the log does not violate, and each would write an event
that violates it. Whoever comes first succeeds, since its events are the first that the condition forbids;
they stand after the position of the condition, as every new event stands after the head, and they stay
there for all the others to run into.

## Key results

- `Table.not_clashes`: new identifiers and free positions are all that a batch needs
- `Contender.Contends.wins`, `Contender.Contends.loses`: a contender before and after the first event that
  violates the condition
- `Race.admits_first`: of the contenders of a race exactly the first succeeds
-/

namespace EventLog

open Database Sql

/-! ### Writing a batch that nothing refuses -/

namespace Table

/-- A table refuses to insert a batch only for its identifiers, as long as positions are left. -/
theorem not_clashes {t : Table} {batch : List PreparedEvent}
    (hfresh : ¬Repeats (t.map (·.id)) (batch.map (·.id)))
    (hroom : t.head + batch.length ≤ Position.max) : ¬t.Clashes (Row.place t.head batch) := by
  rw [Clashes, Row.map_id_place, not_or]
  exact ⟨hfresh, not_repeats_positions hroom⟩

/-- A condition that conflicts with a table conflicts with it when it has more rows. -/
theorem conflicts_append {c : AppendCondition} (hc : c.failIfEventsMatch.validate = .ok ()) {t : Table}
    (h : conflicts c t = true) (rows : Table) : conflicts c (t ++ rows) = true := by
  obtain ⟨r, hr, hviolated⟩ := (conflicts_iff hc t).mp h
  exact (conflicts_iff hc _).mpr ⟨r, List.mem_append_left _ hr, hviolated⟩

end Table

/-! ### Proposed events -/

namespace Query

/-- The query will select the event once it is written. -/
def selectsProposed (q : Query) (e : InputEvent) : Bool :=
  q.selects { (default : Event) with eventType := e.eventType, tags := e.tags }

/-- Of an event a query sees the type and the tags. -/
theorem selects_congr (q : Query) {a b : Event} (htype : a.eventType = b.eventType)
    (htags : a.tags = b.tags) : q.selects a = q.selects b := by
  have htag : a.hasTag = b.hasTag := by
    funext t
    rw [Event.hasTag, Event.hasTag, htags]
  have hitem : ∀ i : QueryItem, i.selects a = i.selects b := by
    intro i
    rw [QueryItem.selects, QueryItem.selects, htype, Event.hasTags, Event.hasTags, htag]
  simp only [selects, hitem]

end Query

/-- What a query will select of a batch is what it selects of its rows. -/
theorem Store.any_selects_place (s : Store) {events : List InputEvent}
    (hvalid : ∀ e ∈ events, e.validate = .ok ()) (lineage : Lineage) (head : Position) (q : Query) :
    (Row.place head (s.prepare events lineage)).any (fun r => q.selects r.event) =
      events.any q.selectsProposed := by
  -- the rows are read back with the types and the tags of the batch
  let proposes (x : String × List Tag × Json.Value) : Bool :=
    q.selectsProposed ⟨x.1, x.2.1, x.2.2, none, none⟩
  -- reading the rows back gives the batch, and the query asks for nothing else of an event
  have hread := congrArg (List.any · proposes) (map_event_place s lineage hvalid head).1
  rw [List.any_map, List.any_map, List.any_map] at hread
  refine Eq.trans ?_ hread
  exact List.any_congr rfl fun r => q.selects_congr rfl rfl

/-! ### Contenders -/

/-- A call of a race: a batch that is appended through a store of its own. -/
structure Contender where
  store : Store
  events : List InputEvent
  lineage : Lineage

namespace Contender

/-- The contender appends its batch under the condition. -/
def run (k : Contender) (c : AppendCondition) : Except StoreError Appended × Store :=
  k.store.append k.events (some c) k.lineage

/-- The rows that the contender would write. -/
def rows (k : Contender) : Table :=
  Row.place k.store.table.head (k.store.prepare k.events k.lineage)

/-- Nothing but the condition can keep the contender from writing its batch, and the batch has an event that
the condition forbids. -/
structure Contends (k : Contender) (c : AppendCondition) : Prop where
  ready : k.store.client.Ready
  valid : validateBatch k.events k.store.settings.maxBatchSize = .ok ()
  matching : k.events.any c.failIfEventsMatch.selectsProposed = true
  /-- Causes and groups that the batch names are in the log or in the batch. -/
  resolvable : ¬k.store.table.Dangles (k.store.prepare k.events k.lineage)
  /-- The store gives new identifiers to new events. -/
  fresh : ¬Table.Repeats (k.store.table.map (·.id)) ((k.store.prepare k.events k.lineage).map (·.id))
  /-- Positions are left for the batch. -/
  room : k.store.table.head + k.events.length ≤ Position.max

namespace Contends

variable {k : Contender} {c : AppendCondition}

/-- The batch of a contender passes its judgment, and so does the query of the condition. -/
theorem validateAppend (hk : k.Contends c) (hc : c.failIfEventsMatch.validate = .ok ()) :
    k.store.validateAppend k.events (some c) = .ok () :=
  Store.validateAppend_eq_ok_iff.mpr ⟨hk.valid, by rintro _ ⟨⟩; exact hc⟩

/-- The append of a contender is one step of the table. -/
theorem run_eq (hk : k.Contends c) (hc : c.failIfEventsMatch.validate = .ok ()) :
    ((k.run c).1, (k.run c).2.table) =
      k.store.table.append (k.store.prepare k.events k.lineage) (some c) :=
  (Store.append_of_valid (validateAppend hk hc) k.lineage).2 hk.ready

/-- A contender that finds no event that violates the condition succeeds, and leaves one. -/
theorem wins (hk : k.Contends c) (hc : c.failIfEventsMatch.validate = .ok ())
    (hafter : c.afterPosition ≤ k.store.table.head) (hquiet : conflicts c k.store.table = false) :
    (∃ a, (k.run c).1 = .ok a) ∧ (k.run c).2.table = k.store.table ++ k.rows ∧
      conflicts c (k.run c).2.table = true := by
  have hroom : k.store.table.head + (k.store.prepare k.events k.lineage).length ≤ Position.max := by
    rw [Store.length_prepare]
    exact hk.room
  have hclash := Table.not_clashes hk.fresh hroom
  -- the condition is met, and no row is refused
  have hfilter : (some c).filter (conflicts · k.store.table) = none := by simp [hquiet]
  have hok := Table.append_eq_ok_iff.mpr ⟨hfilter, not_or.mpr ⟨hk.resolvable, hclash⟩, rfl⟩
  have hstep := run_eq hk hc
  have htable : (k.run c).2.table = k.store.table ++ k.rows :=
    (congrArg Prod.snd hstep).trans (Table.append_eq_ok hok).2.2.1
  refine ⟨⟨_, (congrArg Prod.fst hstep).trans hok⟩, htable, ?_⟩
  -- the event that the condition forbids is there, after the head of before
  have hevents : ∀ e ∈ k.events, e.validate = .ok () :=
    Store.validate_of_validateAppend (validateAppend hk hc)
  obtain ⟨r, hr, hsel⟩ := List.any_eq_true.mp
    ((k.store.any_selects_place hevents k.lineage k.store.table.head _).trans hk.matching)
  have hposition : k.store.table.head < r.position := (Row.positions_place hroom).2 r hr
  refine (conflicts_iff hc _).mpr ⟨r, htable ▸ List.mem_append_right _ hr, ?_⟩
  rw [AppendCondition.isViolatedBy, hsel, Bool.and_true]
  exact decide_eq_true (Int.lt_of_le_of_lt hafter hposition)

/-- A contender that finds an event that violates the condition fails with a conflict and writes nothing. -/
theorem loses (hk : k.Contends c) (hc : c.failIfEventsMatch.validate = .ok ())
    (hconflict : conflicts c k.store.table = true) :
    (k.run c).1 = .error (.conflict c.afterPosition) ∧ (k.run c).2.table = k.store.table := by
  have hstep := run_eq hk hc
  have hfail : (k.store.table.append (k.store.prepare k.events k.lineage) (some c)).1 =
      .error (.conflict c.afterPosition) := Table.append_eq_conflict_iff.mpr ⟨hconflict, rfl⟩
  exact ⟨(congrArg Prod.fst hstep).trans hfail,
    (congrArg Prod.snd hstep).trans (Table.append_of_error hfail)⟩

end Contends

end Contender

/-! ### Races -/

/-- The table is the same but for more rows, none of which the query selects. -/
def Table.GrowsAside (q : Query) (t u : Table) : Prop :=
  ∃ rows, u = t ++ rows ∧ ∀ r ∈ rows, q.selects r.event = false

/-- The contenders append in turn under the condition, and in between there may be any calls that write no
event that the query of the condition selects. -/
inductive Race (c : AppendCondition) : Table → List Contender → Table → Prop
  | done (t : Table) : Race c t [] t
  | contend {t u : Table} {k : Contender} {ks : List Contender} (ht : k.store.table = t)
    (hk : k.Contends c) (h : Race c (k.run c).2.table ks u) : Race c t (k :: ks) u
  | aside {t u : Table} {s s' : Store} {ks : List Contender} (hs : s.table = t)
    (hcall : Store.Call s s') (haside : Table.GrowsAside c.failIfEventsMatch t s'.table)
    (h : Race c s'.table ks u) : Race c t ks u

namespace Table.GrowsAside

variable {q : Query} {t u v : Table}

/-- A table that stays as it is grows aside. -/
theorem refl (q : Query) (t : Table) : GrowsAside q t t :=
  ⟨[], (List.append_nil t).symm, by simp⟩

/-- Growing aside twice is growing aside. -/
theorem trans (h : GrowsAside q t u) (h' : GrowsAside q u v) : GrowsAside q t v := by
  obtain ⟨rows, rfl, hrows⟩ := h
  obtain ⟨rows', rfl, hrows'⟩ := h'
  refine ⟨rows ++ rows', List.append_assoc _ _ _, fun r hr => ?_⟩
  exact (List.mem_append.mp hr).elim (hrows r) (hrows' r)

end Table.GrowsAside

/-- An append whose events the query does not select grows the table aside, whatever becomes of it. -/
theorem Store.growsAside_append {q : Query} {s : Store} {events : List InputEvent}
    (h : events.any q.selectsProposed = false) (condition : Option AppendCondition) (lineage : Lineage) :
    s.table.GrowsAside q (s.append events condition lineage).2.table := by
  -- an append that is refused or fails adds no rows at all
  cases hvalid : s.validateAppend events condition with
  | error e =>
    rw [append_of_invalid hvalid]
    exact .refl q s.table
  | ok u =>
    rcases table_append s events condition lineage with ⟨a, -, htable⟩ | ⟨e, -, hsame⟩
    · have hrows := s.any_selects_place (validate_of_validateAppend hvalid) lineage s.table.head q
      exact ⟨_, htable, fun r hr => Bool.eq_false_iff.mpr (List.any_eq_false.mp (hrows.trans h) r hr)⟩
    · exact hsame.symm ▸ .refl q s.table

namespace Race

variable {c : AppendCondition} {t u : Table} {k : Contender} {ks : List Contender}

/-- Whether a condition conflicts does not change while the table grows aside. -/
theorem conflicts_of_growsAside (hc : c.failIfEventsMatch.validate = .ok ())
    (h : Table.GrowsAside c.failIfEventsMatch t u) : conflicts c u = conflicts c t := by
  obtain ⟨rows, rfl, hrows⟩ := h
  -- old rows conflict as before, and new ones are not selected
  cases ht : conflicts c t with
  | true => exact Table.conflicts_append hc ht rows
  | false =>
    refine Bool.eq_false_iff.mpr fun hu => ?_
    obtain ⟨r, hr, hviolated⟩ := (conflicts_iff hc _).mp hu
    rcases List.mem_append.mp hr with hr | hr
    · exact Bool.false_ne_true (ht.symm.trans ((conflicts_iff hc t).mpr ⟨r, hr, hviolated⟩))
    · rw [AppendCondition.isViolatedBy, hrows r hr, Bool.and_false] at hviolated
      exact Bool.false_ne_true hviolated

/-- Before the first contender the table only grows aside. -/
theorem exists_first (h : Race c t (k :: ks) u) :
    t.Reaches k.store.table ∧ t.GrowsAside c.failIfEventsMatch k.store.table ∧ k.Contends c ∧
      Race c (k.run c).2.table ks u := by
  -- the induction is on the calls aside that come before the contender
  generalize hall : k :: ks = all at h
  induction h with
  | done t => cases hall
  | contend ht hk h =>
    cases hall
    subst ht
    exact ⟨.refl, .refl _ _, hk, h⟩
  -- a call aside is put before those of the induction hypothesis
  | aside hs hcall haside h ih =>
    obtain ⟨hreach, hgrows, hk, hrest⟩ := ih hall
    exact ⟨.head ⟨_, _, hs, hcall, rfl⟩ hreach, haside.trans hgrows, hk, hrest⟩

/-- Once the condition conflicts with the table, every contender fails with a conflict and writes
nothing. -/
theorem all_lose (hc : c.failIfEventsMatch.validate = .ok ()) (h : Race c t ks u)
    (hconflict : conflicts c t = true) :
    (∀ k ∈ ks, (k.run c).1 = .error (.conflict c.afterPosition) ∧
      (k.run c).2.table = k.store.table) ∧ t.GrowsAside c.failIfEventsMatch u := by
  -- an event that violates the condition stays in the table, whoever comes next
  induction h with
  | done t => exact ⟨by simp, .refl _ _⟩
  | contend ht hk h ih =>
    subst ht
    obtain ⟨hfail, hsame⟩ := hk.loses hc hconflict
    obtain ⟨hrest, hgrows⟩ := ih (hsame.symm ▸ hconflict)
    exact ⟨List.forall_mem_cons.mpr ⟨⟨hfail, hsame⟩, hrest⟩, hsame ▸ hgrows⟩
  | aside hs hcall haside h ih =>
    obtain ⟨hrest, hgrows⟩ := ih ((conflicts_of_growsAside hc haside).trans hconflict)
    exact ⟨hrest, haside.trans hgrows⟩

/-- Contenders append in turn under a condition, with any calls in between that write no event of its query.
If the position of the condition is not after the head of the log, and no event of the log violates it, then
* the first contender succeeds and puts its rows after the others;
* every other one fails with a conflict at the position of the condition and writes nothing;
* the rows of the first are all that the race adds to the log that the query selects. -/
theorem admits_first {t u : Table} (ht : Table.Reaches [] t) {c : AppendCondition}
    (hc : c.failIfEventsMatch.validate = .ok ()) (hafter : c.afterPosition ≤ t.head)
    (hholds : ∀ r ∈ t, ∀ e, r.toEvent = .ok e → c.isViolatedBy e = false) {k : Contender}
    {ks : List Contender} (h : Race c t (k :: ks) u) :
    ((∃ a, (k.run c).1 = .ok a) ∧ (k.run c).2.table = k.store.table ++ k.rows) ∧
      (∀ k' ∈ ks, (k'.run c).1 = .error (.conflict c.afterPosition) ∧
        (k'.run c).2.table = k'.store.table) ∧
      ∃ before after, u = t ++ before ++ k.rows ++ after ∧
        ∀ r ∈ before ++ after, c.failIfEventsMatch.selects r.event = false := by
  have hsound := Table.sound_nil.reaches ht
  obtain ⟨hreach, hgrows, hk, hrest⟩ := h.exists_first
  -- what was written before the first contender does not violate the condition either
  have hquiet : conflicts c k.store.table = false := by
    rw [conflicts_of_growsAside hc hgrows]
    refine Bool.eq_false_iff.mpr fun hconflict => ?_
    obtain ⟨r, hr, hviolated⟩ := (conflicts_iff hc t).mp hconflict
    have := hholds r hr _ (Row.toEvent_eq_ok (hsound.decodable r hr))
    exact Bool.false_ne_true (this.symm.trans hviolated)
  -- the head only moves up, so the position of the condition is not after it either
  have hhead := Int.le_trans hafter (Table.head_le_of_isPrefix (Table.isPrefix_of_reaches hreach))
  obtain ⟨hok, htable, hconflict⟩ := hk.wins hc hhead hquiet
  obtain ⟨hlose, after, hu, hafter⟩ := hrest.all_lose hc hconflict
  obtain ⟨before, hbefore, hunseen⟩ := hgrows
  refine ⟨⟨hok, htable⟩, hlose, before, after, by rw [hu, htable, hbefore], fun r hr => ?_⟩
  exact (List.mem_append.mp hr).elim (hunseen r) (hafter r)

/-- Two clients deposit on a log without deposits, each if it is the first one to do so; an account is opened
in between. -/
theorem admits_first_of_two_deposits :
      let c := AppendCondition.noneMatching ⟨[⟨["Deposited"], []⟩]⟩
    let deposit (t : Table) : Contender := ⟨.facing t, [.new "Deposited" [] (.object [])], .new⟩
    let first := deposit (.single "Opened")
    let other := Store.facing (first.run c).2.table
    let opening := other.append [.new "Opened" [] (.object [])] none .new
    let second := deposit opening.2.table
    Race c (.single "Opened") [first, second] (second.run c).2.table ∧
      (∃ a, (first.run c).1 = .ok a) ∧ opening.1.isOk = true ∧
      (second.run c).1 = .error (.conflict 0) := by
  intro c deposit first other opening second
  -- a deposit contends if its references are held and its identifiers and positions are free
  have hdeposit : ∀ t : Table, t.commitRefusal? (deposit t).rows = none →
      Table.collides (t.map (·.id)) ((deposit t).rows.map (·.id)) = false →
      t.head + 1 ≤ Position.max → (deposit t).Contends c := fun t hresolvable hfresh hroom =>
    { ready := Store.ready_facing t
      valid := rfl
      matching := rfl
      resolvable := Table.commitRefusal?_place_eq_none_iff.mp hresolvable
      fresh := Table.collides_eq_false_iff_not_repeats.mp hfresh
      room := hroom }
  have hfirst : first.Contends c :=
    hdeposit _ (by decide +kernel) (by decide +kernel) (by decide +kernel)
  have hsecond : second.Contends c :=
    hdeposit _ (by decide +kernel) (by decide +kernel) (by decide +kernel)
  have haside : Table.GrowsAside c.failIfEventsMatch other.table opening.2.table :=
    Store.growsAside_append rfl none .new
  -- the calls as they follow one another, ended by the second deposit
  have hrace : Race c (.single "Opened") [first, second] (second.run c).2.table :=
    .contend (Store.table_facing _) hfirst <| .aside (Store.table_facing _) (.append _ none .new)
      haside <| .contend (Store.table_facing _) hsecond (.done _)
  have hreach : Table.Reaches [] (.single "Opened") :=
    .single ⟨_, _, rfl, .append [.new "Opened" [] (.object [])] none .new, rfl⟩
  have hholds : ∀ r ∈ Table.single "Opened", ∀ e, r.toEvent = .ok e → c.isViolatedBy e = false := by
    intro r hr e he
    obtain rfl := List.mem_singleton.mp hr
    obtain rfl := Except.ok.inj he
    rfl
  obtain ⟨⟨hok, -⟩, hlose, -⟩ := admits_first hreach rfl (by decide +kernel) hholds hrace
  exact ⟨hrace, hok, by decide +kernel, (hlose second (List.mem_singleton_self second)).1⟩

end Race

end EventLog
