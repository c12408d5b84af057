import EventLog.Proofs.QueryUnion
import EventLog.Sql.Predicate

/-!
# Queries that restrict nothing

`Query.isMatchAll` looks for a query without items and for an item without sides. This finds every query
that selects all events: of any other query each item names a type or a tag, and an event without tags
and of a type that no item names is selected by none of them. The predicate of a query is written as
`TRUE` for exactly these queries, and it rejects a row of every other.

## Key results

- `selects_outsider`: an event that a query rejects, unless the query restricts nothing
- `renderFrom_ofQuery_eq_true_iff`: which predicates are written as `TRUE`
- `isMatchAll_iff_restricts_nothing`: the ways to say that a query restricts nothing agree
-/

namespace EventLog

/-! ### An event outside -/

namespace Query

/-- A text that is longer than each of the texts. -/
def beyond : List String → String
  | [] => "x"
  | t :: ts => (t ++ beyond ts).push 'x'

/-- The text is longer than each of them. -/
theorem length_lt_beyond {types : List String} {s : String} (h : s ∈ types) :
    s.length < (beyond types).length := by
  induction types with
  | nil => simp at h
  | cons t ts ih =>
    -- it is longer than the first text and than what is longer than the others
    simp only [beyond, String.length_push, String.length_append]
    rcases List.mem_cons.mp h with rfl | hts
    · omega
    · have := ih hts
      omega

/-- The text is none of them. -/
theorem beyond_not_mem (types : List String) : beyond types ∉ types :=
  fun h => Nat.lt_irrefl _ (length_lt_beyond h)

/-- An event without tags and of a type that no item of the query names. -/
def outsider (q : Query) : Event :=
  { (default : Event) with eventType := beyond (q.items.flatMap (·.eventTypes)), tags := [] }

/-- No item names the type of the event outside. -/
theorem eventType_outsider_not_mem {q : Query} {i : QueryItem} (hi : i ∈ q.items) :
    q.outsider.eventType ∉ i.eventTypes := fun h =>
  beyond_not_mem _ (List.mem_flatMap.mpr ⟨i, hi, h⟩)

end Query

/-! ### What it is rejected by -/

/-- An item that asks something rejects events without tags that are of no type it names. -/
theorem QueryItem.selects_eq_false {i : QueryItem} (hi : i.isMatchAll = false) {e : Event}
    (htype : e.eventType ∉ i.eventTypes) (htags : e.tags = []) : i.selects e = false := by
  rcases (isMatchAll_eq_false_iff i).mp hi with htypes | hnames
  · -- a type is asked for, and it is not the type of the event
    simp [selects, htypes, htype]
  · -- a tag is asked for, and the event has none
    obtain ⟨t, ht⟩ := List.exists_mem_of_ne_nil _ hnames
    have hcarries : e.hasTags i.tags = false :=
      List.all_eq_false.mpr ⟨t, ht, by simp [Event.hasTag, htags]⟩
    simp [selects, hcarries]

namespace Query

/-- A query that restricts something rejects the event outside of it. -/
theorem selects_outsider {q : Query} (h : q.isMatchAll = false) : q.selects q.outsider = false := by
  obtain ⟨hne, hitems⟩ := (isMatchAll_eq_false_iff q).mp h
  simp only [selects, Bool.or_eq_false_iff, List.isEmpty_eq_false_iff, List.any_eq_false,
    Bool.not_eq_true]
  exact ⟨hne, fun i hi =>
    QueryItem.selects_eq_false (hitems i hi) (eventType_outsider_not_mem hi) rfl⟩

/-- A query is found to restrict nothing exactly if it selects every event. -/
theorem isMatchAll_iff_forall_selects (q : Query) :
    q.isMatchAll = true ↔ ∀ e, q.selects e = true := by
  -- a query that restricts something leaves the event outside
  refine ⟨fun h => selects_of_isMatchAll h, fun h => ?_⟩
  cases hall : q.isMatchAll with
  | true => rfl
  | false =>
    have := h q.outsider
    simp [selects_outsider hall] at this

end Query

/-! ### The predicate -/

namespace Sql

/-- A row without tags meets a group as an event without tags meets its item. -/
theorem Group.holds_ofItem_of_untagged (i : QueryItem) {r : Row} {e : Event}
    (htype : r.eventType = e.eventType) (hr : r.tags = []) (he : e.tags = []) :
    (Group.ofItem i).holds r = i.selects e := by
  -- without tags on the row, the tags of the item are carried exactly if there are none
  have htags : (i.tags.map Tag.encode).all r.tags.contains = e.hasTags i.tags := by
    cases i.tags with
    | nil => rfl
    | cons t ts => simp [Event.hasTags, Event.hasTag, hr, he]
  simp [Group.holds, Group.ofItem, QueryItem.selects, htype, htags]

/-- A predicate holds of every row exactly if its query restricts nothing. -/
theorem Predicate.forall_holds_iff (q : Query) :
    (∀ r, (Predicate.ofQuery q).holds r = true) ↔ q.isMatchAll = true := by
  cases hall : q.isMatchAll with
  | true => simp [Predicate.ofQuery_eq_everything hall, Predicate.holds]
  | false =>
    -- the row of the event outside, which no item selects
    let r : Row := { (default : Row) with eventType := q.outsider.eventType, tags := [] }
    have hrejects : (Predicate.ofQuery q).holds r = false := by
      have hout := Query.selects_outsider hall
      simp only [Query.selects, Bool.or_eq_false_iff] at hout
      have hgroups : ∀ i, (Group.ofItem i).holds r = i.selects q.outsider := fun i =>
        Group.holds_ofItem_of_untagged i rfl rfl rfl
      simp [Predicate.ofQuery_eq_anyOf hall, Predicate.holds, List.any_map, Function.comp_def,
        hgroups, hout.2]
    simp only [Bool.false_eq_true, iff_false]
    intro h
    simp [h r] at hrejects

/-- The predicate of a query is written as `TRUE` exactly if the query restricts nothing; any other
begins with a parenthesis. -/
theorem renderFrom_ofQuery_eq_true_iff (q : Query) (n : Nat) :
    renderFrom n (Predicate.ofQuery q).fragments = "TRUE" ↔ q.isMatchAll = true := by
  cases hall : q.isMatchAll with
  | true => simp [Predicate.ofQuery_eq_everything hall, Predicate.fragments, renderFrom]
  | false =>
    rw [Predicate.ofQuery_eq_anyOf hall, Predicate.fragments, List.cons_append, renderFrom]
    simp only [Bool.false_eq_true, iff_false]
    intro h
    -- the text begins with a parenthesis and `TRUE` does not
    have := congrArg (·.toList.head?) h
    simp at this

end Sql

/-- That a query restricts nothing is found exactly if it selects every event, and exactly then its
predicate is written as `TRUE`, which holds of every row. Any other query rejects an event: one without
tags and of a type that it does not name. -/
theorem Query.isMatchAll_iff_restricts_nothing (q : Query) :
    (q.isMatchAll = true ↔ ∀ e, q.selects e = true) ∧
      (∀ n, Sql.renderFrom n (Sql.Predicate.ofQuery q).fragments = "TRUE" ↔
        ∀ e, q.selects e = true) ∧
      ((∀ r, (Sql.Predicate.ofQuery q).holds r = true) ↔ ∀ e, q.selects e = true) ∧
      (q.isMatchAll = false →
        ∃ e : Event, e.tags = [] ∧ (∀ i ∈ q.items, e.eventType ∉ i.eventTypes) ∧
          q.selects e = false) := by
  have hselects := isMatchAll_iff_forall_selects q
  refine ⟨hselects, fun n => ?_, ?_, fun h => ?_⟩
  · -- both other ways are compared with the search for items that ask nothing
    rw [Sql.renderFrom_ofQuery_eq_true_iff, hselects]
  · rw [Sql.Predicate.forall_holds_iff, hselects]
  · exact ⟨q.outsider, rfl, fun i hi => eventType_outsider_not_mem hi, selects_outsider h⟩

/-- A query for deposits or one account restricts something, and some event is neither. With an item
without sides added to it every event is selected. -/
theorem Query.isMatchAll_iff_restricts_nothing_on_deposits :
    let deposits : QueryItem := ⟨["Deposited"], []⟩
    let account : QueryItem := ⟨[], [⟨"account", "17"⟩]⟩
    (isMatchAll ⟨[deposits, account]⟩ = false ∧
        ∃ e : Event, e.eventType ≠ "Deposited" ∧ selects ⟨[deposits, account]⟩ e = false) ∧
      isMatchAll ⟨[deposits, account, ⟨[], []⟩]⟩ = true ∧
      selects ⟨[deposits, account, ⟨[], []⟩]⟩ default = true := by
  intro deposits account
  have hrestricts : isMatchAll ⟨[deposits, account]⟩ = false := rfl
  have hall : isMatchAll ⟨[deposits, account, ⟨[], []⟩]⟩ = true := rfl
  obtain ⟨e, -, htype, hrejects⟩ :=
    (isMatchAll_iff_restricts_nothing ⟨[deposits, account]⟩).2.2.2 hrestricts
  refine ⟨⟨hrestricts, e, ?_, hrejects⟩, hall, ?_⟩
  · simpa [deposits] using htype deposits (by simp)
  · exact (isMatchAll_iff_restricts_nothing _).1.mp hall default

end EventLog
