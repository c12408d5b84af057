import EventLog.Proofs.QueryUnion
import EventLog.Proofs.RowDecode
import EventLog.Proofs.StatementReading
import EventLog.Table

/-!
# Selections of the database and queries of the log

The database compares tags as text and leaves out what restricts nothing; a query compares keys and
values of the events that are read. For valid queries both select the same.

## Key results

- `holds_ofQuery`: the predicate of a valid query holds of a row if the query selects its event
- `toEvents_rows`: what a selection reads are the events that its query selects, in order
- `statements_agree_with_queries`: the same of the statements as they are written
-/

namespace EventLog.Sql

/-! ### One row -/

/-- A group holds of a row if the item behind it selects the event of the row. -/
theorem Group.holds_ofItem {i : QueryItem} (hi : i.validate = .ok ()) (r : Row) :
    (Group.ofItem i).holds r = i.selects r.event := by
  -- the database compares written tags, the item pairs; valid tags are written injectively
  have htags : (i.tags.map Tag.encode).all r.tags.contains = r.event.hasTags i.tags := by
    rw [Bool.eq_iff_iff]
    simp only [List.all_map, List.all_eq_true, Function.comp_apply, List.contains_eq_mem,
      decide_eq_true_eq, Event.hasTags, Event.hasTag]
    have hvalid := ((QueryItem.validate_eq_ok_iff i).mp hi).2
    constructor
    · intro h t ht
      exact (Row.encode_mem_tags_iff r (hvalid t ht)).mp (h t ht)
    · intro h t ht
      exact (Row.encode_mem_tags_iff r (hvalid t ht)).mpr (h t ht)
  simp only [Group.holds, Group.ofItem, QueryItem.selects, Row.event_eventType, htags]

/-- The predicate of a valid query holds of a row if the query selects the event of the row. -/
theorem Predicate.holds_ofQuery {q : Query} (hq : q.validate = .ok ()) (r : Row) :
    (Predicate.ofQuery q).holds r = q.selects r.event := by
  cases hall : q.isMatchAll with
  | true =>
    -- written as `TRUE`, whatever other items there are
    rw [Query.selects_of_isMatchAll hall]
    simp [Predicate.ofQuery_eq_everything hall, Predicate.holds]
  | false =>
    have hvalid := (Query.validate_eq_ok_iff q).mp hq
    have hany : (q.items.map Group.ofItem).any (·.holds r) = q.items.any (·.selects r.event) := by
      -- group by group, each of which holds where its item selects the event
      rw [Bool.eq_iff_iff]
      simp only [List.any_map, List.any_eq_true, Function.comp_apply]
      refine exists_congr fun i => and_congr_right fun hi => ?_
      rw [Group.holds_ofItem (hvalid i hi)]
    -- a query that restricts something has items, so `selects` asks them
    have hne : q.items ≠ [] := ((Query.isMatchAll_eq_false_iff q).mp hall).1
    simp [Predicate.ofQuery_eq_anyOf hall, Predicate.holds, hany, Query.selects, hne]

/-- A selection includes a row if the row stands after its position and its query selects the event of
the row. -/
theorem Selection.includes_eq {s : Selection} (hs : s.query.validate = .ok ()) (r : Row) :
    s.includes r = (decide (s.after < r.event.position) && s.query.selects r.event) := by
  rw [Selection.includes, Predicate.holds_ofQuery hs]
  rfl

/-- A condition conflicts with a table if the event of one of the rows violates it. -/
theorem conflicts_iff {c : AppendCondition} (hc : c.failIfEventsMatch.validate = .ok ())
    (t : Table) : conflicts c t = true ↔ ∃ r ∈ t, c.isViolatedBy r.event = true := by
  simp only [conflicts, List.any_eq_true]
  constructor
  · rintro ⟨r, hr, h⟩
    exact ⟨r, hr, by rwa [Selection.includes_eq hc] at h⟩
  · rintro ⟨r, hr, h⟩
    exact ⟨r, hr, by rwa [Selection.includes_eq hc]⟩

/-! ### Order -/

/-- Ordering rows loses and repeats none. -/
theorem Selection.inOrder_perm (rows : List Row) : (Selection.inOrder rows).Perm rows :=
  List.mergeSort_perm rows _

/-- Ordered rows stand in order of position. -/
theorem Selection.inOrder_pairwise (rows : List Row) :
    (Selection.inOrder rows).Pairwise fun a b => a.position ≤ b.position := by
  -- positions are compared by a total order, so the sort puts them in it
  have h := @List.pairwise_mergeSort _ (fun a b : Row => decide (a.position ≤ b.position))
    (fun a b c hab hbc => by
      simp only [decide_eq_true_eq] at *
      exact Int.le_trans hab hbc)
    (fun a b => by
      simp only [Bool.or_eq_true, decide_eq_true_eq]
      exact Int.le_total a.position b.position) rows
  exact h.imp fun hab => by simpa using hab

/-- Rows are selected in order of position. -/
theorem Selection.rows_pairwise (s : Selection) (t : Table) :
    (s.rows t).Pairwise fun a b => a.position ≤ b.position := by
  -- a limit cuts the rows, which keeps their order
  unfold Selection.rows
  split
  · exact Selection.inOrder_pairwise _
  · exact (Selection.inOrder_pairwise _).sublist (List.take_sublist _ _)

/-- A row that is selected is one of the table. -/
theorem Selection.mem_of_mem_rows {s : Selection} {t : Table} {r : Row} (h : r ∈ s.rows t) :
    r ∈ t := by
  -- ordering the rows adds none to those that were selected
  have hfound : ∀ x ∈ Selection.inOrder (t.filter s.includes), x ∈ t := fun x hx =>
    (List.mem_filter.mp ((Selection.inOrder_perm _).mem_iff.mp hx)).1
  unfold Selection.rows at h
  split at h
  · exact hfound r h
  · exact hfound r (List.mem_of_mem_take h)

/-- No more rows are selected than there are. -/
theorem Selection.length_rows_le (s : Selection) (t : Table) : (s.rows t).length ≤ t.length := by
  have hfound : (Selection.inOrder (t.filter s.includes)).length ≤ t.length := by
    rw [(Selection.inOrder_perm _).length_eq]
    exact List.length_filter_le _ _
  unfold Selection.rows
  split
  · exact hfound
  · exact Nat.le_trans (List.length_take_le' _ _) hfound

/-- What a selection reads from decodable rows: the events after its position that its query selects,
in order of position, up to its limit. -/
theorem Selection.toEvents_rows {t : Table} (ht : ∀ r ∈ t, r.Decodable) {q : Query}
    (hq : q.validate = .ok ()) (after : Position) (limit : Option Nat) :
    ∃ found : List Event,
      Row.toEvents (Selection.rows ⟨q, after, limit.map Int.ofNat⟩ t) =
        .ok (limit.elim found fun n => found.take n) ∧
      found.Perm
        ((t.map Row.event).filter fun e => decide (after < e.position) && q.selects e) ∧
      found.Pairwise fun a b => a.position ≤ b.position := by
  let s : Selection := ⟨q, after, limit.map Int.ofNat⟩
  -- the rows before the limit cuts them
  let rows := Selection.inOrder (t.filter s.includes)
  have hdec : ∀ r ∈ rows, r.Decodable := by
    intro r hr
    have hr := (Selection.inOrder_perm _).mem_iff.mp hr
    exact ht r (List.mem_filter.mp hr).1
  refine ⟨rows.map Row.event, ?_, ?_, ?_⟩
  · cases limit with
    | none => exact Row.toEvents_eq_ok hdec
    | some n =>
      have htake := Row.toEvents_eq_ok fun r hr => hdec r (List.mem_of_mem_take (i := n) hr)
      rw [List.map_take] at htake
      exact htake
  · -- ordering rows and decoding them does not change which ones they are
    refine ((Selection.inOrder_perm _).map Row.event).trans ?_
    rw [List.filter_map]
    -- row by row, the predicate asks what the query asks of the event
    have hfilter : t.filter s.includes =
        t.filter ((fun e => decide (after < e.position) && q.selects e) ∘ Row.event) :=
      List.filter_congr fun r _ => Selection.includes_eq (s := s) hq r
    rw [hfilter]
  · rw [List.pairwise_map]
    exact Selection.inOrder_pairwise _

/-! ### Statements -/

/-- The statements that read the log mean what the queries behind them mean. From a table whose tags
all parse, the `SELECT` of a valid query reads the events after a position that the query selects, in
order of position and up to a limit; and the check of a condition with a valid query answers whether an
event violates it. Both are as the database executes them. -/
theorem statements_agree_with_queries (t : Table)
    (ht : ∀ r ∈ t, ∀ s ∈ r.tags, ∃ tag, Tag.parse s = .ok tag) :
    ∃ events, Row.toEvents t = .ok events ∧
      (∀ (q : Query) (after : Position) (limit : Option Nat), q.validate = .ok () →
        ∃ rows found,
          select? t (Statement.select ⟨q, after, limit.map Int.ofNat⟩).fragments = some rows ∧
          rows = Selection.rows ⟨q, after, limit.map Int.ofNat⟩ t ∧
          Row.toEvents rows = .ok (limit.elim found fun n => found.take n) ∧
          found.Perm (events.filter fun e => decide (after < e.position) && q.selects e) ∧
          found.Pairwise fun a b => a.position ≤ b.position) ∧
      ∀ c : AppendCondition, c.failIfEventsMatch.validate = .ok () →
        ∃ answer,
          exists? t (Statement.conflictCheck c).fragments = some answer ∧
          answer = conflicts c t ∧
          (answer = true ↔ ∃ e ∈ events, c.isViolatedBy e = true) := by
  refine ⟨t.map Row.event, Row.toEvents_eq_ok ht, ?_, ?_⟩
  · -- a selection: the text means the selection, and the selection reads what the query selects
    intro q after limit hq
    obtain ⟨found, hread, hperm, hsorted⟩ := Selection.toEvents_rows ht hq after limit
    exact ⟨_, found, select?_fragments _ t, rfl, hread, hperm, hsorted⟩
  · -- a check: the text means the comparison of rows, and a row compares as its event does
    intro c hc
    refine ⟨_, exists?_conflictFragments c t, rfl, ?_⟩
    rw [conflicts_iff hc]
    constructor
    · rintro ⟨r, hr, h⟩
      exact ⟨r.event, List.mem_map_of_mem hr, h⟩
    · rintro ⟨e, he, h⟩
      obtain ⟨r, hr, rfl⟩ := List.mem_map.mp he
      exact ⟨r, hr, h⟩

/-- A deposit and a transfer; the value of a tag of the transfer holds the separator of tags. -/
def twoRows : Table := [
  { id := .ofNat 1, eventType := "Deposited", tags := [Tag.encode ⟨"account", "17"⟩],
    data := .object [], position := 1, causationId := .ofNat 1, correlationId := .ofNat 1,
    createdAt := default },
  { id := .ofNat 2, eventType := "Transferred",
    tags := [Tag.encode ⟨"account", "18"⟩, Tag.encode ⟨"iban", "x:17"⟩],
    data := .object [], position := 2, causationId := .ofNat 1, correlationId := .ofNat 1,
    createdAt := default }]

/-- The tags of `twoRows` parse, so the `SELECT` for one event with the tag `iban:x:17` gives the
transfer, and the check for deposits after the first position finds none. -/
theorem statements_agree_on_twoRows :
    (∀ r ∈ twoRows, ∀ s ∈ r.tags, ∃ tag, Tag.parse s = .ok tag) ∧
      (∃ rows, select? twoRows
          (Statement.select ⟨⟨[⟨[], [⟨"iban", "x:17"⟩]⟩]⟩, 0, some 1⟩).fragments = some rows ∧
        rows.map (·.position) = [2]) ∧
      exists? twoRows (Statement.conflictCheck ⟨⟨[⟨["Deposited"], []⟩]⟩, 1⟩).fragments =
        some false := by
  have hparse : ∀ r ∈ twoRows, ∀ s ∈ r.tags, ∃ tag, Tag.parse s = .ok tag := by
    have h17 := Tag.parse_encode (t := ⟨"account", "17"⟩) rfl
    have h18 := Tag.parse_encode (t := ⟨"account", "18"⟩) rfl
    have hiban := Tag.parse_encode (t := ⟨"iban", "x:17"⟩) rfl
    simp [twoRows, h17, h18, hiban]
  obtain ⟨events, -, hselect, hcheck⟩ := statements_agree_with_queries twoRows hparse
  obtain ⟨rows, -, hrows, rfl, -⟩ := hselect ⟨[⟨[], [⟨"iban", "x:17"⟩]⟩]⟩ 0 (some 1) rfl
  obtain ⟨answer, hanswer, rfl, -⟩ := hcheck ⟨⟨[⟨["Deposited"], []⟩]⟩, 1⟩ rfl
  refine ⟨hparse, ⟨_, hrows, ?_⟩, ?_⟩
  · decide +kernel
  · rw [hanswer]
    decide +kernel

end EventLog.Sql
