import EventLog.Proofs.PositionRange
import EventLog.Proofs.SoundReading

/-!
# What was appended is read back

The events of an append stand at the positions that it reports, with the types, tags and data that were
submitted and the identifiers and lineage that were resolved for them, at any later time. What is written
is undone when it is read: tags are encoded and parsed, and the position after the head is counted on.

## Key results

- `Table.Sound.rows_between`: reading after the head of before finds the rows of an append
- `Store.map_event_place`: what the events of placed rows hold
- `Store.append_read_back`: an append is read back
-/

namespace EventLog

open Database Sql

/-! ### What is after the head -/

/-- Reading after the head of a table finds the rows that were added to it first, if it asks for as
many. -/
theorem Table.Sound.rows_between {t rows more : Table} (ht : t.Sound) (hu : Sound (t ++ (rows ++ more)))
    {limit : Int} (hlimit : limit = rows.length) :
    Selection.rows ⟨.all, t.head, some limit⟩ (t ++ (rows ++ more)) = rows := by
  have hall : Query.all.validate = .ok () := rfl
  rw [hu.rows_after_eq hall, List.filter_append]
  -- the old rows are not after the head, the new ones and all later ones are
  have hold : t.filter (fun r => decide (t.head < r.position) && Query.all.selects r.event) = [] := by
    refine List.filter_eq_nil_iff.mpr fun r hr => ?_
    have hle := (ht.position_bounds hr).2
    rw [decide_eq_false (Int.not_lt.mpr hle), Bool.false_and]
    exact Bool.false_ne_true
  have hnew : (rows ++ more).filter
      (fun r => decide (t.head < r.position) && Query.all.selects r.event) = rows ++ more := by
    refine List.filter_eq_self.mpr fun r hr => ?_
    rw [decide_eq_true (ht.head_lt_of_append hu hr), Bool.true_and]
    rfl
  rw [hold, hnew, List.nil_append, hlimit]
  exact List.take_left' rfl

/-! ### What rows hold -/

/-- Tags that are written down are read back in order. -/
theorem Tag.filterMap_parse_encode {ts : List Tag} (h : ∀ t ∈ ts, t.validate = .ok ()) :
    (ts.map Tag.encode).filterMap (fun s => (Tag.parse s).toOption) = ts := by
  induction ts with
  | nil => rfl
  | cons t ts ih =>
    have ht := Tag.parse_encode (h t List.mem_cons_self)
    have hrest := ih fun x hx => h x (List.mem_cons_of_mem _ hx)
    rw [List.map_cons, List.filterMap_cons, ht, hrest]
    rfl

namespace Store

variable {s : Store} {events : List InputEvent} {condition : Option AppendCondition}
  {lineage : Lineage} {a : Appended}

/-- What is read from the rows of an accepted batch: what was submitted, and what was resolved for it. -/
theorem map_event_place (s : Store) (lineage : Lineage) (hvalid : ∀ e ∈ events, e.validate = .ok ())
    (head : Position) :
    let found := (Row.place head (s.prepare events lineage)).map Row.event
    found.map (fun e => (e.eventType, e.tags, e.data)) =
        events.map (fun e => (e.eventType, e.tags, e.data)) ∧
      found.map (fun e => (e.id, e.causationId, e.correlationId)) =
        (s.prepare events lineage).map fun p => (p.id, p.causationId, p.correlationId) := by
  intro found
  constructor
  · -- the tags are those of the batch, written down and parsed
    let parsed (x : String × List String × Json.Value) : String × List Tag × Json.Value :=
      (x.1, x.2.1.filterMap (fun s => (Tag.parse s).toOption), x.2.2)
    have hrows : found.map (fun e => (e.eventType, e.tags, e.data)) =
        ((s.prepare events lineage).map fun p => (p.eventType, p.tags, p.data)).map parsed := by
      rw [List.map_map, List.map_map]
      exact Row.map_place (fun _ _ => rfl) _ _
    rw [hrows, prepare, Lineage.map_resolve, List.map_map]
    refine List.map_congr_left fun e he => ?_
    have htags := (InputEvent.validate_eq_ok_iff.mp (hvalid e he)).2.2.1
    simp only [Function.comp_apply, parsed, Tag.filterMap_parse_encode htags]
  · -- identifiers and lineage are taken over as they were resolved
    rw [List.map_map]
    exact Row.map_place (fun _ _ => rfl) _ _

/-- What was appended to a log is read back, and nothing of a log fails to be read.
* Nothing that reads a log that calls have led to fails with a corrupt row.
* An append that succeeds reports the positions that follow the head, one for each event. At any later time
  a read of as many events after that head gives the events of the batch in order: with their types, their
  tags in order and with repetitions, their data, the identifiers that the append reported, and the cause
  and the group that the lineage resolved for them. -/
theorem append_read_back {t : Table} (ht : Table.Reaches [] t) :
    (∀ s : Store, s.table = t → s.settings.validate = .ok () → ∀ e, s.ReadFails e →
      ∀ c, e ≠ .corruptRow c) ∧
    ∀ (s : Store) (events : List InputEvent) (condition : Option AppendCondition) (lineage : Lineage)
      (a : Appended), s.table = t → (s.append events condition lineage).1 = .ok a →
      a.firstPosition = t.head + 1 ∧ a.lastPosition = a.firstPosition + events.length - 1 ∧
      ∀ s' : Store, (s.append events condition lineage).2.table.Reaches s'.table → s'.client.Ready →
        ∃ found, (s'.read .all
            { after := a.firstPosition - 1, limit := some events.length }).1 = .ok found ∧
          found.length = events.length ∧
          found.map (fun e => (e.eventType, e.tags, e.data)) =
            events.map (fun e => (e.eventType, e.tags, e.data)) ∧
          found.map (·.id) = a.ids ∧
          found.map (fun e => (e.id, e.causationId, e.correlationId)) =
            (lineage.resolve s.mint s.now s.minted events).map
              (fun p => (p.id, p.causationId, p.correlationId)) ∧
          found.map (·.position) =
            (List.range events.length).map fun (i : Nat) => a.firstPosition + i := by
  have hsound := Table.sound_nil.reaches ht
  -- every row of a sound table parses, so no reading meets a corrupt one
  constructor
  · rintro s rfl hsettings e h
    exact h.ne_corruptRow hsound hsettings
  · rintro s events condition lineage a rfl ha
    have hvalid := validate_of_validateAppend (append_eq_ok ha).1
    have hnew := hsound.call (.append events condition lineage)
    obtain ⟨hmax, htable, hfirst, hlast, hids⟩ := append_within_range hsound.max_taken ha
    refine ⟨hfirst, ?_, fun s' hs' hready => ?_⟩
    · -- the last position is as many steps further as there are events
      rw [hlast, hfirst]
      simp only [Position]
      omega
    · -- the rows of the append are still where they were, with others after them
      let rows := Row.place s.table.head (s.prepare events lineage)
      obtain ⟨more, hmore⟩ := Table.isPrefix_of_reaches hs'
      rw [htable, List.append_assoc] at hmore
      have hlater : Table.Sound (s.table ++ (rows ++ more)) := hmore ▸ hnew.reaches hs'
      have hlen : rows.length = events.length :=
        (Row.length_place _ _).trans (length_prepare s events lineage)
      have hselected : (ReadOptions.selection
          { after := a.firstPosition - 1, limit := some events.length } .all).rows s'.table = rows := by
        -- the position before the first one is the head of then
        have hafter : a.firstPosition - 1 = s.table.head := by
          rw [hfirst]
          exact Int.add_sub_cancel _ _
        -- the limit is not cut, as there were enough positions for the batch
        have hlimit : min (events.length : Int) Position.max = rows.length := by
          rw [hsound.head_eq] at hmax
          rw [hlen]
          simp only [Position] at *
          omega
        rw [hafter, ← hmore]
        exact hsound.rows_between hlater hlimit
      have hread := read_of_ready hready (q := .all) rfl
        { after := a.firstPosition - 1, limit := some events.length }
      have hdec : ∀ r ∈ rows, r.Decodable := fun r hr =>
        hlater.decodable r (List.mem_append_right _ (List.mem_append_left _ hr))
      rw [hselected, Row.toEvents_eq_ok hdec] at hread
      obtain ⟨hcontent, hlineage⟩ := map_event_place s lineage hvalid s.table.head
      refine ⟨rows.map Row.event, hread, (List.length_map _).trans hlen, hcontent, ?_, hlineage, ?_⟩
      · rw [List.map_map, hids]
        exact Row.map_place (fun _ _ => rfl) _ _
      · have hboth : Table.Sound (s.table ++ rows) := htable ▸ hnew
        have hpositions := hsound.positions_of_append hboth
        rw [List.map_map]
        refine hpositions.trans ?_
        rw [hlen, List.range'_eq_map_range, List.map_map, hfirst, hsound.head_eq]
        refine List.map_congr_left fun i _ => ?_
        simp only [Function.comp_apply, Position]
        omega

/-- An account is opened with a tag that is repeated and one whose value holds the separator, and a deposit
follows in the same batch. Both are read back from the first position on. -/
theorem append_read_back_of_opened_account :
    let s := Store.facing []
    let events : List InputEvent :=
      [.new "Opened" [⟨"account", "17"⟩, ⟨"iban", "x:17"⟩, ⟨"account", "17"⟩] (.object []),
        .new "Deposited" [⟨"account", "17"⟩] (.object [])]
    let s' := Store.facing (s.append events none .new).2.table
    ∃ a, (s.append events none .new).1 = .ok a ∧ a.firstPosition = 1 ∧ a.lastPosition = 2 ∧
      (∃ found, (s'.read .all { after := 0, limit := some 2 }).1 = .ok found ∧
        found.map (fun e => (e.eventType, e.tags, e.data)) =
          events.map fun e => (e.eventType, e.tags, e.data)) ∧
      ∀ e, s'.ReadFails e → ∀ c, e ≠ .corruptRow c := by
  intro s events s'
  have hready : s'.client.Ready := ready_facing _
  have hreach : Table.Reaches [] s'.table := .single ⟨s, _, rfl, .append events none .new, rfl⟩
  obtain ⟨a, ha⟩ : ∃ a, (s.append events none .new).1 = .ok a := ⟨_, rfl⟩
  obtain ⟨hfirst, hlast, hread⟩ := (append_read_back .refl).2 s events none .new a rfl ha
  obtain ⟨found, hfound, -, hcontent, -⟩ := hread s' .refl hready
  have hone : a.firstPosition = 1 := hfirst
  refine ⟨a, ha, hone, ?_, ⟨found, ?_, hcontent⟩, (append_read_back hreach).1 s' rfl rfl⟩
  · rw [hlast, hone]
    rfl
  · rw [hone] at hfound
    exact hfound

end Store

end EventLog
