import EventLog.Proofs.AppendDecision

/-!
# The end of the positions

Positions are numbers of 64 bits, and counting stops at the largest one without an error. So a batch for
which there are not enough positions is given one of them twice, or one that is taken, and it is left to the
table to notice. It always does: a log that was written up to the largest position refuses what comes after.

## Key results

- `Table.Numbered`: what the columns of a table say of its positions
- `Table.repeats_positions_iff`: positions are repeated exactly if there are not enough of them
- `Store.append_within_range`: where the rows of an append that succeeds stand
- `Store.append_of_overflow`: how an append is refused for which there are not enough positions
- `Table.Numbered.positions_never_saturate`: appends to a table with any rows and any head
-/

namespace EventLog

open Database

/-! ### The head -/

namespace Table

theorem head_concat (t : Table) (r : Row) : head (t ++ [r]) = max t.head r.position := by
  rw [head, List.foldl_append]
  rfl

/-- The head is the position of a row, unless it is 0. -/
theorem head_eq_zero_or_mem (t : Table) : t.head = 0 ∨ t.head ∈ t.map (·.position) := by
  induction t using List.reverseRecOn with
  | nil => exact .inl rfl
  | append_singleton rows r ih =>
    rw [head_concat, List.map_append, List.mem_append]
    -- the larger of both is the head, and is the position of a row if it is not 0
    rcases Int.le_total r.position (head rows) with hle | hle
    · rw [Int.max_eq_left hle]
      exact ih.imp_right .inl
    · rw [Int.max_eq_right hle]
      exact .inr (.inr (List.mem_singleton_self _))

/-- No row stands after the head. -/
theorem position_le_head {t : Table} {r : Row} (h : r ∈ t) : r.position ≤ t.head := by
  obtain ⟨before, after, rfl⟩ := List.append_of_mem h
  -- right after its own row the head is at least there, and later rows do not lower it
  have hupto : r.position ≤ head (before ++ [r]) := by
    rw [head_concat]
    exact Int.le_max_right _ _
  have hall := head_le_head_append (before ++ [r]) after
  rw [List.append_assoc, List.singleton_append] at hall
  exact Int.le_trans hupto hall

theorem head_nonneg (t : Table) : 0 ≤ t.head := head_le_head_append [] t

/-! ### Repeated positions -/

section

variable {t : Table} {batch : List PreparedEvent}

/-- If there are enough positions, the rows of a batch stand apart and where no row stands. -/
theorem not_repeats_positions (hroom : t.head + batch.length ≤ Position.max) :
    ¬Repeats (t.map (·.position)) ((Row.place t.head batch).map (·.position)) := by
  obtain ⟨hnodup, habove⟩ := Row.positions_place hroom
  rintro (hrepeated | ⟨p, hp, htaken⟩)
  · exact hrepeated hnodup
  · -- a position that is taken is not after the head
    obtain ⟨r, hr, rfl⟩ := List.mem_map.mp hp
    obtain ⟨r', hr', hpos⟩ := List.mem_map.mp htaken
    exact Int.not_lt.mpr (position_le_head hr') (hpos ▸ habove r hr)

/-- The rows of a batch stand apart and where no row stands exactly if there are enough positions. -/
theorem repeats_positions_iff (hne : batch ≠ [])
    (htop : Position.max ≤ t.head → Position.max ∈ t.map (·.position)) :
    Repeats (t.map (·.position)) ((Row.place t.head batch).map (·.position)) ↔
      Position.max < t.head + batch.length := by
  constructor
  · intro hrepeats
    by_contra hroom
    exact not_repeats_positions (Int.not_lt.mp hroom) hrepeats
  · intro hover
    by_contra hapart
    obtain ⟨hnodup, hfree⟩ := not_or.mp hapart
    refine Int.not_le.mpr hover (Row.head_add_length_le_max hne htop ?_ ?_)
    · exact Classical.not_not.mp hnodup
    · exact fun p hp htaken => hfree ⟨p, hp, htaken⟩

/-- A batch of new identifiers is refused for a position if one is repeated. -/
theorem insertRefusal?_of_repeats_positions
    (hfresh : ¬Repeats (t.map (·.id)) (batch.map (·.id)))
    (hrepeats : Repeats (t.map (·.position)) ((Row.place t.head batch).map (·.position))) :
    t.insertRefusal? (Row.place t.head batch) =
      some "duplicate key value violates unique constraint \"events_position_idx\"" := by
  have hids := collides_eq_false_iff_not_repeats.mpr hfresh
  -- identifiers are checked before positions, so it is only for a position if they are new
  have hpositions := mt collides_eq_false_iff_not_repeats.mp (not_not_intro hrepeats)
  rw [insertRefusal?, Row.map_id_place, hids, if_neg Bool.false_ne_true,
    if_pos (Bool.not_eq_false _ ▸ hpositions)]

end

/-! ### Numbered tables -/

/-- What the columns of a table say of its positions: they are positive numbers of 64 bits, and no two rows
have one in common. There may be gaps, and the rows may stand in any order. -/
structure Numbered (t : Table) : Prop where
  positive : ∀ r ∈ t, 0 < r.position
  le_max : ∀ r ∈ t, r.position ≤ Position.max
  distinct : (t.map (·.position)).Nodup

theorem numbered_nil : Numbered [] := by
  constructor <;> simp

namespace Numbered

variable {t : Table} {batch : List PreparedEvent}

/-- The head of a numbered table is not beyond the largest position. -/
theorem head_le_max (ht : t.Numbered) : t.head ≤ Position.max := by
  rcases t.head_eq_zero_or_mem with hzero | hmem
  · rw [hzero]
    decide
  · obtain ⟨r, hr, hpos⟩ := List.mem_map.mp hmem
    exact hpos ▸ ht.le_max r hr

/-- The head is the largest position only if that is taken. -/
theorem max_taken (ht : t.Numbered) (h : Position.max ≤ t.head) :
    Position.max ∈ t.map (·.position) := by
  have hmax : t.head = Position.max := Int.le_antisymm ht.head_le_max h
  -- the head of an empty log is far from the largest position
  rcases t.head_eq_zero_or_mem with hzero | hmem
  · exact absurd (hzero.symm.trans hmax) (by decide)
  · exact hmax ▸ hmem

/-- Rows for which there are enough positions keep a table numbered. -/
theorem append (ht : t.Numbered) (hroom : t.head + batch.length ≤ Position.max) :
    Numbered (t ++ Row.place t.head batch) := by
  obtain ⟨hnodup, habove⟩ := Row.positions_place hroom
  constructor
  · intro r hr
    rcases List.mem_append.mp hr with hr | hr
    · exact ht.positive r hr
    · exact Int.lt_of_le_of_lt t.head_nonneg (habove r hr)
  · intro r hr
    rcases List.mem_append.mp hr with hr | hr
    · exact ht.le_max r hr
    · exact Row.position_le_max_of_mem_place hr
  · -- rows of before stand at the head or before it, and those of the batch after it
    rw [List.map_append]
    refine List.nodup_append.mpr ⟨ht.distinct, hnodup, fun p hp q hq => ?_⟩
    obtain ⟨r, hr, rfl⟩ := List.mem_map.mp hp
    obtain ⟨r', hr', rfl⟩ := List.mem_map.mp hq
    exact Int.ne_of_lt (Int.lt_of_le_of_lt (position_le_head hr) (habove r' hr'))

end Numbered

end Table

/-! ### Appends -/

namespace Store

variable {s : Store} {events : List InputEvent} {condition : Option AppendCondition}
  {lineage : Lineage}

/-- A valid batch has an event. -/
theorem ne_nil_of_validateAppend (h : s.validateAppend events condition = .ok ()) : events ≠ [] :=
  List.length_pos_iff.mp (validateBatch_eq_ok_iff.mp (validateAppend_eq_ok_iff.mp h).1).1

/-- The positions for a batch are repeated exactly if there are not enough of them for its events. -/
theorem repeats_prepared_iff (hne : events ≠ [])
    (htop : Position.max ≤ s.table.head → Position.max ∈ s.table.map (·.position)) :
    Table.Repeats (s.table.map (·.position))
        ((Row.place s.table.head (s.prepare events lineage)).map (·.position)) ↔
      Position.max < s.table.head + events.length := by
  have hlength := length_prepare s events lineage
  have hbatch : s.prepare events lineage ≠ [] :=
    List.ne_nil_of_length_pos (hlength.symm ▸ List.length_pos_iff.mpr hne)
  rw [Table.repeats_positions_iff hbatch htop, hlength]

/-- An append that succeeds had enough positions. It reports the first and the last one of its rows, which
are the next ones after the head. -/
theorem append_within_range {a : Appended}
    (htop : Position.max ≤ s.table.head → Position.max ∈ s.table.map (·.position))
    (h : (s.append events condition lineage).1 = .ok a) :
    s.table.head + events.length ≤ Position.max ∧
      (s.append events condition lineage).2.table =
        s.table ++ Row.place s.table.head (s.prepare events lineage) ∧
      a.firstPosition = s.table.head + 1 ∧ a.lastPosition = s.table.head + events.length ∧
      a.ids = (s.prepare events lineage).map (·.id) := by
  obtain ⟨hvalid, hstep⟩ := append_eq_ok h
  have hok := congrArg Prod.fst hstep
  obtain ⟨-, hrefused, rfl⟩ := Table.append_eq_ok_iff.mp hok
  have hne := ne_nil_of_validateAppend hvalid
  have hpos := List.length_pos_iff.mpr hne
  -- nothing was refused, so no position was repeated
  have hroom : s.table.head + events.length ≤ Position.max :=
    Int.not_lt.mp fun hover => hrefused (.inr (.inr ((repeats_prepared_iff hne htop).mpr hover)))
  have hone : s.table.head + (1 : Nat) ≤ Position.max := by
    simp only [Position] at *
    omega
  refine ⟨hroom, (congrArg Prod.snd hstep).symm.trans (Table.append_eq_ok hok).2.2.1,
    Position.after_eq hone, ?_, rfl⟩
  rw [Appended.ofBatch, length_prepare]
  exact Position.after_eq hroom

/-- An append for which there are not enough positions is refused as a whole. If there is nothing else to
refuse it for, it is refused for a position. -/
theorem append_of_overflow (ht : s.table.Numbered)
    (hover : Position.max < s.table.head + events.length) :
    (∃ e, (s.append events condition lineage).1 = .error e) ∧
      (s.append events condition lineage).2.table = s.table ∧
      (s.validateAppend events condition = .ok () → s.client.Ready →
        (∀ c ∈ condition, ∀ r ∈ s.table, c.isViolatedBy r.event = false) →
        ¬Table.Repeats (s.table.map (·.id)) ((s.prepare events lineage).map (·.id)) →
        (s.append events condition lineage).1 = .error (.database
          (.refused "duplicate key value violates unique constraint \"events_position_idx\""))) := by
  have hfails : ∃ e, (s.append events condition lineage).1 = .error e := by
    -- if it succeeded then there would have been enough positions
    cases hout : (s.append events condition lineage).1 with
    | ok a => exact absurd (append_within_range ht.max_taken hout).1 (Int.not_le.mpr hover)
    | error e => exact ⟨e, rfl⟩
  obtain ⟨e, he⟩ := hfails
  refine ⟨⟨e, he⟩, table_append_of_error he, fun hvalid hready hholds hfresh => ?_⟩
  have hne := ne_nil_of_validateAppend hvalid
  -- identifiers are new and the condition holds, so the position is what there is to refuse
  have hinsert := Table.insertRefusal?_of_repeats_positions hfresh
    ((repeats_prepared_iff hne ht.max_taken).mpr hover)
  have hnone := (AppendCondition.filter_conflicts_eq_none_iff (validateAppend_eq_ok_iff.mp hvalid).2).mpr
    hholds
  rw [congrArg Prod.fst ((append_of_valid hvalid lineage).2 hready), Table.append, hnone]
  simp only [hinsert, Option.some_or]

end Store

namespace Table.Numbered

/-- A call keeps a numbered table numbered. -/
theorem call {s s' : Store} (hs : s.table.Numbered) (h : Store.Call s s') : s'.table.Numbered := by
  rcases h.table_eq_or_append with heq | ⟨events, condition, lineage, a, happend, -, -⟩
  · exact heq ▸ hs
  · obtain ⟨hroom, htable, -⟩ := Store.append_within_range hs.max_taken (congrArg Prod.fst happend)
    rw [happend, ← Store.length_prepare s events lineage] at *
    exact htable ▸ hs.append hroom

/-- Calls keep a numbered table numbered. -/
theorem reaches {t u : Table} (ht : t.Numbered) (h : t.Reaches u) : u.Numbered := by
  induction h with
  | refl => exact ht
  | tail _ hstep ih =>
    obtain ⟨s, s', rfl, hcall, rfl⟩ := hstep
    exact ih.call hcall

end Table.Numbered

namespace Store

/-- Appends to a table whose positions are positive numbers of 64 bits without a repetition, whatever rows it
has and however near its head is to the largest position.
* Calls keep the table so, whatever they do and however many they are.
* The positions that a batch is given are repeated, among each other or with those of the table, exactly if
  there are not enough of them after the head.
* An append that succeeds had enough of them. The rows that it adds stand at the next ones, and it reports the
  first and the last of these, which are as far apart as the batch is long.
* An append that has not enough of them fails and leaves the table as it is. If the batch is valid, new to the
  table and admitted by its condition, and nothing disturbs it, then the table refuses a position. -/
theorem positions_never_saturate {t : Table} (ht : t.Numbered) :
    (∀ u, t.Reaches u → u.Numbered) ∧
    ∀ (s : Store) (events : List InputEvent) (condition : Option AppendCondition) (lineage : Lineage),
      s.table = t →
      let batch := s.prepare events lineage
      let outcome := (s.append events condition lineage).1
      let after := (s.append events condition lineage).2.table
      (events ≠ [] →
        (Table.Repeats (t.map (·.position)) ((Row.place t.head batch).map (·.position)) ↔
          Position.max < t.head + events.length)) ∧
      (∀ a, outcome = .ok a →
        t.head + events.length ≤ Position.max ∧
        a.firstPosition = t.head + 1 ∧ a.lastPosition = t.head + events.length ∧
        a.lastPosition - a.firstPosition + 1 = events.length ∧
        ∃ rows, after = t ++ rows ∧
          rows.map (·.position) = (List.range events.length).map fun (i : Nat) => t.head + 1 + i) ∧
      (Position.max < t.head + events.length →
        (∃ e, outcome = .error e) ∧ after = t ∧
        (validateBatch events s.settings.maxBatchSize = .ok () →
          (∀ c ∈ condition, c.failIfEventsMatch.validate = .ok ()) → s.client.Ready →
          (∀ c ∈ condition, ∀ r ∈ t, c.isViolatedBy r.event = false) →
          ¬Table.Repeats (t.map (·.id)) (batch.map (·.id)) →
          outcome = .error (.database
            (.refused "duplicate key value violates unique constraint \"events_position_idx\"")))) := by
  refine ⟨fun u => ht.reaches, ?_⟩
  rintro s events condition lineage rfl batch outcome after
  have hlength : batch.length = events.length := length_prepare s events lineage
  -- repeated positions, what a success says, and what too few positions lead to
  refine ⟨fun hne => repeats_prepared_iff hne ht.max_taken, fun a ha => ?_, fun hover => ?_⟩
  · obtain ⟨hroom, htable, hfirst, hlast, -⟩ := append_within_range ht.max_taken ha
    have hpositions := Row.map_position_place_of_le (hlength.symm ▸ hroom)
    refine ⟨hroom, hfirst, hlast, ?_, _, htable, hlength ▸ hpositions⟩
    rw [hfirst, hlast]
    simp only [Position]
    omega
  · obtain ⟨hfails, hsame, hrefused⟩ := append_of_overflow ht hover
    exact ⟨hfails, hsame, fun hbatch hquery =>
      hrefused (validateAppend_eq_ok_iff.mpr ⟨hbatch, hquery⟩)⟩

/-- One position is left. A batch of one event gets it; a batch of two events is refused for a position, and
so is one event more after the first. -/
theorem positions_never_saturate_at_the_end :
    let row (p : Position) : Row := { (default : Row) with position := p }
    let opened := InputEvent.new "Opened" [⟨"account", "17"⟩] (.object [])
    let s := facing [row (Position.max - 1)]
    let full := facing (s.append [opened] none .new).2.table
    let refused : StoreError := .database
      (.refused "duplicate key value violates unique constraint \"events_position_idx\"")
    Table.Numbered s.table ∧
      (∃ a, (s.append [opened] none .new).1 = .ok a ∧ a.firstPosition = Position.max ∧
        a.lastPosition = Position.max) ∧
      (s.append [opened, opened] none .new).1 = .error refused ∧
      (s.append [opened, opened] none .new).2.table = s.table ∧
      Table.Numbered full.table ∧ (full.append [opened] none .new).1 = .error refused := by
  intro row opened s full refused
  have ht : Table.Numbered s.table := by
    constructor <;> decide
  have hreach : s.table.Reaches full.table := .single ⟨s, _, rfl, .append [opened] none .new, rfl⟩
  obtain ⟨hnumbered, happend⟩ := positions_never_saturate ht
  have hfull := hnumbered full.table hreach
  obtain ⟨-, hone, -⟩ := happend s [opened] none .new rfl
  obtain ⟨-, -, htwo⟩ := happend s [opened, opened] none .new rfl
  obtain ⟨-, hmore⟩ := positions_never_saturate hfull
  obtain ⟨-, -, hthree⟩ := hmore full [opened] none .new rfl
  obtain ⟨-, hsame, hrefused⟩ := htwo (by decide)
  obtain ⟨-, -, hrefused'⟩ := hthree (by decide +kernel)
  refine ⟨ht, ?_, ?_, hsame, hfull, ?_⟩
  · cases ha : (s.append [opened] none .new).1 with
    | ok a =>
      obtain ⟨-, hfirst, hlast, -⟩ := hone a ha
      exact ⟨a, rfl, hfirst, hlast⟩
    | error e =>
      have hok : (s.append [opened] none .new).1.isOk = true := by decide +kernel
      rw [ha] at hok
      exact nomatch hok
  · refine hrefused (by decide +kernel) (by simp) (ready_facing _) (by simp) ?_
    -- no identifier is repeated: the store gives new ones
    rw [← Table.collides_eq_false_iff_not_repeats]
    decide +kernel
  · refine hrefused' (by decide +kernel) (by simp) (ready_facing _) (by simp) ?_
    rw [← Table.collides_eq_false_iff_not_repeats]
    decide +kernel

end Store

end EventLog
