import EventLog.Proofs.TagText
import EventLog.Query

/-!
# Validity and union of queries

A query is valid if none of its items names a blank type or an invalid tag. The union of queries selects
what one of them selects and is valid if all of them are. A query without items selects everything, so
the union of no queries is not an empty disjunction, and the law is about lists that are not empty.

## Key results

- `selects_union`: a union selects what one of its queries selects
- `Nesting.selects_union_iff`: so does a union of unions, however deep
- `union_is_disjunction`: a union depends on which queries it has only, and what its items are
-/

namespace EventLog

/-! ### Validity -/

/-- An item is accepted exactly if none of its types is blank and all of its tags are accepted. -/
theorem QueryItem.validate_eq_ok_iff (i : QueryItem) :
    i.validate = .ok () ↔
      (∀ s ∈ i.eventTypes, Text.allBlank s = false) ∧ ∀ t ∈ i.tags, t.validate = .ok () := by
  unfold validate
  split
  · rename_i hblank
    obtain ⟨s, hs, hsb⟩ := List.any_eq_true.mp hblank
    simp only [reduceCtorEq, false_iff, not_and]
    intro hnone
    simp [hnone s hs] at hsb
  · rename_i hblank
    rw [Tag.validateAll_eq_ok_iff]
    refine ⟨fun htags => ⟨fun s hs => ?_, htags⟩, fun h => h.2⟩
    -- a blank type would have been found
    cases hsb : Text.allBlank s with
    | false => rfl
    | true => exact absurd (List.any_eq_true.mpr ⟨s, hs, hsb⟩) hblank

namespace Query

/-- A query is accepted exactly if its items are. -/
theorem validate_eq_ok_iff (q : Query) :
    q.validate = .ok () ↔ ∀ i ∈ q.items, i.validate = .ok () := by
  have hitems : ∀ is : List QueryItem,
      validateItems is = .ok () ↔ ∀ i ∈ is, i.validate = .ok () := by
    intro is
    induction is with
    | nil => simp [validateItems]
    | cons i is ih =>
      simp only [validateItems, bind, Except.bind, List.forall_mem_cons]
      -- the first item decides, or it is accepted and the others do
      cases hi : i.validate with
      | error e => simp
      | ok u => simpa using ih
  exact hitems q.items

/-! ### Union -/

/-- Adding items to a list gives the items of both. -/
theorem mem_addItems {acc is : List QueryItem} {i : QueryItem} :
    i ∈ addItems acc is ↔ i ∈ acc ∨ i ∈ is := by
  induction is generalizing acc with
  | nil => simp [addItems]
  -- the first item is there afterwards, whether it is added now or was before
  | cons x xs ih =>
    simp only [addItems, ih, List.mem_cons]
    split
    · -- an item that is there already is not added again
      rename_i hx
      have hx : x ∈ acc := by simpa using hx
      constructor
      · rintro (h | h)
        · exact .inl h
        · exact .inr (.inr h)
      · rintro (h | rfl | h)
        · exact .inl h
        · exact .inl hx
        · exact .inr h
    · simp only [List.mem_append, List.mem_singleton, or_assoc]

/-- Adding items repeats none. -/
theorem nodup_addItems {acc : List QueryItem} (h : acc.Nodup) (is : List QueryItem) :
    (addItems acc is).Nodup := by
  induction is generalizing acc with
  | nil => exact h
  | cons x xs ih =>
    simp only [addItems]
    split
    · exact ih h
    · -- an item is put at the end only where the list does not hold it
      rename_i hx
      have hx : x ∉ acc := by simpa using hx
      refine ih (List.nodup_append.mpr ⟨h, by simp, ?_⟩)
      intro a ha b hb hab
      rw [List.mem_singleton] at hb
      exact hx (hb ▸ hab ▸ ha)

/-- The union of queries of which one restricts nothing restricts nothing. -/
theorem union_eq_all {qs : List Query} (h : ∃ q ∈ qs, q.isMatchAll = true) : union qs = all := by
  simp [union, List.any_eq_true.mpr h]

/-- The union of queries has no item twice. -/
theorem nodup_items_union (qs : List Query) : (union qs).items.Nodup := by
  cases hany : qs.any isMatchAll with
  | true => simp [union, hany, all]
  | false =>
    simp only [union, hany, Bool.false_eq_true, if_false]
    exact nodup_addItems List.nodup_nil _

/-- The union of queries that all restrict something has exactly their items. -/
theorem mem_items_union {qs : List Query} (h : qs.any isMatchAll = false) {i : QueryItem} :
    i ∈ (union qs).items ↔ ∃ q ∈ qs, i ∈ q.items := by
  simp [union, h, mem_addItems, List.mem_flatMap]

/-- A query that restricts nothing selects every event. -/
theorem selects_of_isMatchAll {q : Query} (h : q.isMatchAll = true) (e : Event) :
    q.selects e = true := by
  simp only [isMatchAll, Bool.or_eq_true, List.any_eq_true] at h
  simp only [selects, Bool.or_eq_true, List.any_eq_true]
  rcases h with h | ⟨i, hi, hall⟩
  · exact .inl h
  · refine .inr ⟨i, hi, ?_⟩
    simp only [QueryItem.isMatchAll, Bool.and_eq_true, List.isEmpty_iff] at hall
    simp [QueryItem.selects, Event.hasTags, hall.1, hall.2]

/-- The union of queries selects what one of them selects. -/
theorem selects_union {qs : List Query} (hqs : qs ≠ []) (e : Event) :
    (union qs).selects e = true ↔ ∃ q ∈ qs, q.selects e = true := by
  cases hany : qs.any isMatchAll with
  | true =>
    -- one query restricts nothing, and the union is the query that selects everything
    obtain ⟨q, hq, hall⟩ := List.any_eq_true.mp hany
    have hunion : (union qs).selects e = true := by simp [union, hany, all, selects]
    exact iff_of_true hunion ⟨q, hq, selects_of_isMatchAll hall e⟩
  | false =>
    -- no query of the list is without items, so neither is the union
    have hne : ∀ q ∈ qs, q.items.isEmpty = false := by
      intro q hq
      have hq : q.isMatchAll = false := by
        simpa using List.any_eq_false.mp hany q hq
      simp only [isMatchAll, Bool.or_eq_false_iff] at hq
      exact hq.1
    have hunion : (union qs).items.isEmpty = false := by
      -- an item of any query is in the union
      obtain ⟨q, hq⟩ := List.exists_mem_of_ne_nil qs hqs
      obtain ⟨i, hi⟩ := List.exists_mem_of_ne_nil q.items (by simpa using hne q hq)
      have : i ∈ (union qs).items := (mem_items_union hany).mpr ⟨q, hq, hi⟩
      simpa using List.ne_nil_of_mem this
    simp only [selects, hunion, Bool.false_or, List.any_eq_true, mem_items_union hany]
    constructor
    · rintro ⟨i, ⟨q, hq, hi⟩, hsel⟩
      exact ⟨q, hq, by simp only [hne q hq, Bool.false_or, List.any_eq_true]; exact ⟨i, hi, hsel⟩⟩
    · rintro ⟨q, hq, hsel⟩
      simp only [hne q hq, Bool.false_or, List.any_eq_true] at hsel
      obtain ⟨i, hi, hsel⟩ := hsel
      exact ⟨i, ⟨q, hq, hi⟩, hsel⟩

/-- The union of valid queries is valid. -/
theorem validate_union {qs : List Query} (h : ∀ q ∈ qs, q.validate = .ok ()) :
    (union qs).validate = .ok () := by
  rw [validate_eq_ok_iff]
  intro i hi
  cases hany : qs.any isMatchAll with
  -- the query that selects everything has no items
  | true => simp [union, hany, all] at hi
  | false =>
    obtain ⟨q, hq, hiq⟩ := (mem_items_union hany).mp hi
    exact (validate_eq_ok_iff q).mp (h q hq) i hiq

/-! ### Unions of unions -/

/-- Queries in groups within groups. A group has at least one part: without parts it would select
everything. -/
inductive Nesting
  | query (q : Query)
  | group (first : Nesting) (rest : List Nesting)

namespace Nesting

mutual

/-- The queries of a nesting from left to right. -/
def queries : Nesting → List Query
  | .query q => [q]
  | .group first rest => first.queries ++ queriesOfAll rest

/-- The queries of several nestings from left to right. -/
def queriesOfAll : List Nesting → List Query
  | [] => []
  | n :: ns => n.queries ++ queriesOfAll ns

end

mutual

/-- The query of a nesting: each group is the union of its parts. -/
def union : Nesting → Query
  | .query q => q
  | .group first rest => Query.union (first.union :: unionOfEach rest)

/-- The queries of several nestings. -/
def unionOfEach : List Nesting → List Query
  | [] => []
  | n :: ns => n.union :: unionOfEach ns

end

mutual

/-- A nesting selects what one of its queries selects. -/
theorem selects_union_iff (e : Event) : (n : Nesting) →
    (n.union.selects e = true ↔ ∃ q ∈ n.queries, q.selects e = true)
  | .query q => by simp [union, queries]
  | .group first rest => by
    -- a group is the union of its parts, of which there is at least the first
    have hfirst := selects_union_iff e first
    have hrest := exists_selects_unionOfEach_iff e rest
    rw [union, selects_union (List.cons_ne_nil _ _)]
    simp only [queries, List.mem_cons, List.mem_append, or_and_right, exists_or, exists_eq_left,
      hfirst, hrest]

/-- One of several nestings selects an event if one of their queries does. -/
theorem exists_selects_unionOfEach_iff (e : Event) : (ns : List Nesting) →
    ((∃ q ∈ unionOfEach ns, q.selects e = true) ↔ ∃ q ∈ queriesOfAll ns, q.selects e = true)
  | [] => by simp [unionOfEach, queriesOfAll]
  | n :: ns => by
    have hn := selects_union_iff e n
    have hns := exists_selects_unionOfEach_iff e ns
    simp only [unionOfEach, queriesOfAll, List.mem_cons, List.mem_append, or_and_right, exists_or,
      exists_eq_left, hn, hns]

end

end Nesting

/-- Lists with the same queries have unions that select the same. -/
theorem selects_union_congr {qs rs : List Query} (hqs : qs ≠ []) (h : ∀ q, q ∈ rs ↔ q ∈ qs)
    (e : Event) : (union rs).selects e = (union qs).selects e := by
  have hrs : rs ≠ [] := by
    obtain ⟨q, hq⟩ := List.exists_mem_of_ne_nil qs hqs
    exact List.ne_nil_of_mem ((h q).mpr hq)
  rw [Bool.eq_iff_iff, selects_union hrs, selects_union hqs]
  simp only [h]

/-- The union of a list of queries that is not empty is their disjunction: it selects an event if one
of them does. So neither order nor repetition nor grouping matters to what it selects. Its items are
distinct; they are none if one of the queries restricts nothing and else those of all the queries; and
they are valid if those of the queries are. -/
theorem union_is_disjunction (qs : List Query) (hqs : qs ≠ []) :
    (∀ e, (union qs).selects e = true ↔ ∃ q ∈ qs, q.selects e = true) ∧
      (∀ rs : List Query, (∀ q, q ∈ rs ↔ q ∈ qs) →
        ∀ e, (union rs).selects e = (union qs).selects e) ∧
      (∀ n : Nesting, (∀ q, q ∈ n.queries ↔ q ∈ qs) →
        ∀ e, n.union.selects e = (union qs).selects e) ∧
      (union qs).items.Nodup ∧
      ((∃ q ∈ qs, q.isMatchAll = true) → union qs = all) ∧
      ((∀ q ∈ qs, q.isMatchAll = false) →
        ∀ i, i ∈ (union qs).items ↔ ∃ q ∈ qs, i ∈ q.items) ∧
      ((∀ q ∈ qs, q.validate = .ok ()) → (union qs).validate = .ok ()) := by
  refine ⟨selects_union hqs, fun rs h => selects_union_congr hqs h, ?_, nodup_items_union qs,
    union_eq_all, ?_, validate_union⟩
  · -- the queries of the nesting are what it selects by
    intro n hn e
    rw [Bool.eq_iff_iff, Nesting.selects_union_iff, selects_union hqs]
    simp only [hn]
  · intro hall i
    refine mem_items_union ?_
    rw [List.any_eq_false]
    intro q hq
    simp [hall q hq]

/-- A query for deposits and twice one for an account: the union has two items, and it selects a
withdrawal from the account, whether or not the last two are grouped and put first. -/
theorem union_is_disjunction_on_account :
    let deposits : Query := .single ⟨["Deposited"], []⟩
    let account : Query := .single ⟨[], [⟨"account", "17"⟩]⟩
    let qs := [deposits, account, account]
    let withdrawal : Event :=
      { (default : Event) with eventType := "Withdrawn", tags := [⟨"account", "17"⟩] }
    qs ≠ [] ∧ (union qs).items = [⟨["Deposited"], []⟩, ⟨[], [⟨"account", "17"⟩]⟩] ∧
      (union qs).selects withdrawal = true ∧
      (Nesting.group (.group (.query account) [.query account]) [.query deposits]).union.selects
        withdrawal = true := by
  intro deposits account qs withdrawal
  have hqs : qs ≠ [] := List.cons_ne_nil _ _
  obtain ⟨hselects, -, hnested, -⟩ := union_is_disjunction qs hqs
  have hunion : (union qs).selects withdrawal = true :=
    (hselects withdrawal).mpr ⟨account, by simp [qs], by decide⟩
  refine ⟨hqs, by decide +kernel, hunion, ?_⟩
  rw [hnested _ (by simp [Nesting.queries, Nesting.queriesOfAll, qs, or_comm]) withdrawal]
  exact hunion

end Query

end EventLog
