import EventLog.Proofs.AppendCorrect
import EventLog.Proofs.BatchValidation
import EventLog.Proofs.LineageResolution
import EventLog.Proofs.Placement
import EventLog.Proofs.TagText

/-!
# Sound tables

What holds of a table that was only ever written by appends: its positions count from one without a
gap, its identifiers are distinct, what a row names is in the table, and every row could be written by a
valid event. An append keeps it, since the table refuses a batch that would break it.

## Key results

- `Table.Sound`: the invariant
- `Table.Sound.head_eq`: the head is the number of rows
- `Table.Sound.append`: a batch of valid events that is not refused keeps it
-/

namespace EventLog

open Database

/-! ### Valid events -/

/-- The type, tags and data of a row are those of a valid event. -/
structure Row.WellFormed (eventType : String) (tags : List String) (data : Json.Value) : Prop where
  not_blank : Text.allBlank eventType = false
  length_le : eventType.length ≤ maxEventTypeLength
  parses : ∀ s ∈ tags, ∃ tag, Tag.parse s = .ok tag
  isContainer : data.isContainer = true

/-- An event is valid exactly if its type, its tags and its data are. -/
theorem InputEvent.validate_eq_ok_iff {e : InputEvent} :
    e.validate = .ok () ↔ Text.allBlank e.eventType = false ∧
      e.eventType.length ≤ maxEventTypeLength ∧ (∀ t ∈ e.tags, t.validate = .ok ()) ∧
      e.data.isContainer = true := by
  rw [validate_eq_ok_iff_wellFormed, allBlank_eq_false_iff, isContainer_iff]
  simp only [Tag.validate_eq_ok_iff_wellFormed]
  constructor
  · exact fun h => ⟨h.named, h.length, h.tags, h.data⟩
  · exact fun ⟨hnamed, hlength, htags, hdata⟩ => ⟨hnamed, hlength, htags, hdata⟩

namespace Store

variable {s : Store} {events : List InputEvent} {condition : Option AppendCondition}

/-- An append is valid exactly if its batch is and the query of its condition. -/
theorem validateAppend_eq_ok_iff :
    s.validateAppend events condition = .ok () ↔
      validateBatch events s.settings.maxBatchSize = .ok () ∧
        ∀ c ∈ condition, c.failIfEventsMatch.validate = .ok () := by
  -- the batch is judged first, and then the condition if there is one
  unfold validateAppend
  rw [andThen_eq_ok_iff]
  cases condition <;> simp [pure, Except.pure]

/-- What an append accepts are valid events. -/
theorem validate_of_validateAppend (h : s.validateAppend events condition = .ok ()) :
    ∀ e ∈ events, e.validate = .ok () := fun e he =>
  InputEvent.validate_eq_ok_iff_wellFormed.mpr
    ((validateBatch_eq_ok_iff.mp (validateAppend_eq_ok_iff.mp h).1).2.2 e he)

/-- A valid batch is prepared as well formed rows. -/
theorem wellFormed_of_mem_prepare (h : s.validateAppend events condition = .ok ())
    {lineage : Lineage} {p : PreparedEvent} (hp : p ∈ s.prepare events lineage) :
    Row.WellFormed p.eventType p.tags p.data := by
  -- a prepared event comes from one of the events of the batch
  obtain ⟨i, e, he, rfl⟩ := Lineage.exists_prepared_of_mem_resolve lineage s.mint s.now s.minted events hp
  obtain ⟨hblank, hlen, hvalid, hcontainer⟩ :=
    InputEvent.validate_eq_ok_iff.mp (validate_of_validateAppend h e he)
  refine ⟨hblank, hlen, fun s hs => ?_, hcontainer⟩
  obtain ⟨t, ht, rfl⟩ := List.mem_map.mp hs
  exact ⟨t, Tag.parse_encode (hvalid t ht)⟩

end Store

namespace Table

/-! ### Refusals -/

/-- Values collide exactly if one is repeated or taken. -/
theorem collides_eq_false_iff {α : Type} [BEq α] [LawfulBEq α] {taken xs : List α} :
    collides taken xs = false ↔ xs.Nodup ∧ ∀ x ∈ xs, x ∉ taken := by
  -- by induction on the values, with those before the current one taken as well
  induction xs generalizing taken with
  | nil => simp [collides]
  | cons x xs ih =>
    rw [collides, Bool.or_eq_false_iff, ih, List.nodup_cons, List.forall_mem_cons]
    simp only [List.contains_eq_mem, decide_eq_false_iff_not, List.mem_cons, not_or]
    -- `x` counts as taken for the values after it, so they have to differ from it
    constructor
    · rintro ⟨hx, hnodup, hrest⟩
      exact ⟨⟨fun h => (hrest x h).1 rfl, hnodup⟩, hx, fun y hy => (hrest y hy).2⟩
    · rintro ⟨⟨hx, hnodup⟩, htaken, hrest⟩
      refine ⟨htaken, hnodup, fun y hy => ⟨?_, hrest y hy⟩⟩
      rintro rfl
      exact hx hy

/-- Rows are inserted exactly if neither their identifiers nor their positions collide. -/
theorem insertRefusal?_eq_none_iff {t : Table} {rows : List Row} :
    t.insertRefusal? rows = none ↔
      collides (t.map (·.id)) (rows.map (·.id)) = false ∧
        collides (t.map (·.position)) (rows.map (·.position)) = false := by
  simp only [insertRefusal?]
  cases collides (t.map (·.id)) (rows.map (·.id)) <;>
    cases collides (t.map (·.position)) (rows.map (·.position)) <;> simp

theorem holds_iff {t : Table} {id : EventId} : t.holds id = true ↔ ∃ r ∈ t, r.id = id := by
  simp [holds, List.any_eq_true]

/-- Rows are committed exactly if the table holds with them what they name. -/
theorem commitRefusal?_eq_none_iff {t : Table} {rows : List Row} :
    t.commitRefusal? rows = none ↔
      ∀ r ∈ rows, (t ++ rows).holds r.causationId = true ∧ (t ++ rows).holds r.correlationId = true := by
  -- a row breaks no rule exactly if the table holds both events that it names
  have hrule : ∀ (t : Table) (r : Row), danglingRule? t r = none ↔
      t.holds r.causationId = true ∧ t.holds r.correlationId = true := by
    intro t r
    simp only [danglingRule?]
    cases t.holds r.causationId <;> cases t.holds r.correlationId <;> simp
  simp only [commitRefusal?, Option.map_eq_none_iff, List.findSome?_eq_none_iff, hrule]

/-! ### The invariant -/

/-- What every table of a log satisfies. -/
structure Sound (t : Table) : Prop where
  /-- The positions are the numbers from one on, in order. -/
  positions : t.map (·.position) = (List.range' 1 t.length).map fun (n : Nat) => (n : Position)
  ids : (t.map (·.id)).Nodup
  causes : ∀ r ∈ t, ∃ cause ∈ t, cause.id = r.causationId
  groups : ∀ r ∈ t, ∃ first ∈ t, first.id = r.correlationId
  wellFormed : ∀ r ∈ t, Row.WellFormed r.eventType r.tags r.data

/-- The table of a log that was never written is sound. -/
theorem sound_nil : Sound [] := by
  constructor <;> simp

/-- The highest position of positions that count from one. -/
private theorem foldl_max_range' (n : Nat) :
    ((List.range' 1 n).map fun (k : Nat) => (k : Position)).foldl max 0 = n := by
  -- the last of the positions is the highest one
  induction n with
  | zero => rfl
  | succ n ih =>
    rw [List.range'_concat, List.map_append, List.foldl_append, ih]
    simp only [List.map_cons, List.map_nil, List.foldl_cons, List.foldl_nil, Position] at *
    omega

/-- The head is the number of rows. -/
theorem Sound.head_eq {t : Table} (ht : t.Sound) : t.head = t.length := by
  rw [← foldl_max_range' t.length, ← ht.positions, List.foldl_map]
  rfl

/-- The positions of the rows added to a sound table count on. -/
theorem Sound.positions_of_append {t rows : Table} (ht : t.Sound) (h : Sound (t ++ rows)) :
    rows.map (·.position) =
      (List.range' (t.length + 1) rows.length).map fun (n : Nat) => (n : Position) := by
  -- all positions count from one, and those of `t` are the first of them
  have hall := h.positions
  rw [List.map_append, List.length_append, ← List.range'_append_1, List.map_append, ht.positions,
    Nat.add_comm 1] at hall
  exact List.append_cancel_left hall

/-- A position of a sound table is at least one and at most the head. -/
theorem Sound.position_bounds {t : Table} (ht : t.Sound) {r : Row} (hr : r ∈ t) :
    1 ≤ r.position ∧ r.position ≤ t.head := by
  have hmem : r.position ∈ t.map (·.position) := List.mem_map_of_mem hr
  rw [ht.positions] at hmem
  obtain ⟨n, hn, hpos⟩ := List.mem_map.mp hmem
  rw [List.mem_range'_1] at hn
  rw [ht.head_eq, ← hpos]
  exact ⟨Int.ofNat_le.mpr hn.1, Int.ofNat_le.mpr (by omega)⟩

/-- A row that is added to a sound table stands after its head. -/
theorem Sound.head_lt_of_append {t rows : Table} (ht : t.Sound) (h : Sound (t ++ rows)) {r : Row}
    (hr : r ∈ rows) : t.head < r.position := by
  have hmem : r.position ∈ rows.map (·.position) := List.mem_map_of_mem hr
  rw [ht.positions_of_append h] at hmem
  obtain ⟨n, hn, hpos⟩ := List.mem_map.mp hmem
  rw [List.mem_range'_1] at hn
  rw [ht.head_eq, ← hpos]
  exact Int.ofNat_lt.mpr (by omega)

/-- The rows of a sound table stand in order of position. -/
theorem Sound.pairwise {t : Table} (ht : t.Sound) :
    t.Pairwise fun a b => a.position < b.position := by
  have h : (t.map (·.position)).Pairwise (· < ·) := by
    rw [ht.positions, List.pairwise_map]
    have hlt : (List.range' 1 t.length).Pairwise (· < ·) := List.pairwise_lt_range'
    exact hlt.imp Int.ofNat_lt.mpr
  exact List.pairwise_map.mp h

/-- The largest position is taken if the head is as large. -/
theorem Sound.max_taken {t : Table} (ht : t.Sound) (h : Position.max ≤ t.head) :
    Position.max ∈ t.map (·.position) := by
  rw [ht.head_eq] at h
  rw [ht.positions]
  refine List.mem_map.mpr ⟨Position.max.toNat, ?_, rfl⟩
  rw [List.mem_range'_1, Position.max] at *
  simp only [Position] at *
  omega

/-- The positions of rows that count on from a sound table. -/
theorem Sound.map_position_place {t : Table} (ht : t.Sound) {batch : List PreparedEvent}
    (h : collides (t.map (·.position)) ((Row.place t.head batch).map (·.position)) = false) :
    (Row.place t.head batch).map (·.position) =
      (List.range' (t.length + 1) batch.length).map fun (n : Nat) => (n : Position) := by
  -- no rows have no positions; for others the collision check leaves room below the largest position
  by_cases hne : batch = []
  · subst hne
    rfl
  · obtain ⟨hnodup, hfree⟩ := collides_eq_false_iff.mp h
    rw [Row.map_position_place_of_le (Row.head_add_length_le_max hne ht.max_taken hnodup hfree),
      ht.head_eq, List.range'_eq_map_range, List.map_map]
    refine List.map_congr_left fun i _ => ?_
    simp only [Function.comp_apply, Position]
    omega

/-- Rows that are neither refused at the insertion nor at the commit keep the table sound. -/
theorem Sound.append {t : Table} (ht : t.Sound) {batch : List PreparedEvent}
    {condition : Option AppendCondition} {a : Appended}
    (hbatch : ∀ e ∈ batch, Row.WellFormed e.eventType e.tags e.data)
    (h : (t.append batch condition).1 = .ok a) : (t.append batch condition).2.Sound := by
  obtain ⟨hinsert, hcommit, htable, -⟩ := append_eq_ok h
  rw [htable]
  -- the unique columns were checked by the insertion, the references by the commit
  obtain ⟨hids, hpos⟩ := insertRefusal?_eq_none_iff.mp hinsert
  have hnames := commitRefusal?_eq_none_iff.mp hcommit
  constructor
  · -- the positions count on from those of the table
    rw [List.map_append, ht.positions, ht.map_position_place hpos, List.length_append,
      Row.length_place, ← List.map_append, Nat.add_comm t.length 1, List.range'_append_1]
  · rw [List.map_append]
    -- the identifiers are distinct among themselves, and none was taken
    obtain ⟨hnodup, hfresh⟩ := collides_eq_false_iff.mp hids
    exact List.nodup_append.mpr ⟨ht.ids, hnodup, fun x hx y hy hxy => hfresh y hy (hxy ▸ hx)⟩
  · refine fun r hr => ?_
    -- an old row finds its cause where it was, a new one was checked at the commit
    rcases List.mem_append.mp hr with hr | hr
    · obtain ⟨cause, hcause, hid⟩ := ht.causes r hr
      exact ⟨cause, List.mem_append_left _ hcause, hid⟩
    · exact holds_iff.mp (hnames r hr).1
  · refine fun r hr => ?_
    rcases List.mem_append.mp hr with hr | hr
    · obtain ⟨first, hfirst, hid⟩ := ht.groups r hr
      exact ⟨first, List.mem_append_left _ hfirst, hid⟩
    · exact holds_iff.mp (hnames r hr).2
  · refine fun r hr => ?_
    rcases List.mem_append.mp hr with hr | hr
    · exact ht.wellFormed r hr
    · obtain ⟨e, he, p, rfl⟩ := Row.mem_place hr
      exact hbatch e he

end Table

end EventLog
