import EventLog.Proofs.FragmentText
import EventLog.Proofs.MatchAll
import EventLog.Sql.Statement

/-!
# The text of a query

What the statements about a query say in full. The position is the first bound value. If the query
restricts something, its predicate is one group in parentheses for each item, and the items bind their
types and tags in order; the predicate of any other query binds nothing. A limit is the last bound value.

## Key results

- `Predicate.renderFrom_ofQuery`: the predicate of a query, each item with the numbers of its values
- `Selection.binds_fragments`, `Selection.render_fragments`: the values and the text of a `SELECT`
- `binds_conflictFragments`, `render_conflictFragments`: those of a conflict check
-/

namespace EventLog

/-- The values bound for an item: its types and its written tags, each if there are any. -/
def QueryItem.boundValues (i : QueryItem) : List Sql.Bind :=
  (if i.eventTypes.isEmpty then [] else [.texts i.eventTypes]) ++
    (if i.tags.isEmpty then [] else [.texts (i.tags.map Tag.encode)])

/-- The values bound for a query: those of its items in order, or none if it restricts nothing. -/
def Query.boundValues (q : Query) : List Sql.Bind :=
  if q.isMatchAll then [] else q.items.flatMap QueryItem.boundValues

/-- The number of the first placeholder of an item, after the placeholder of the position and those of
the items before it. -/
def Query.firstNumber (q : Query) (k : Nat) : Nat :=
  2 + ((q.items.take k).flatMap QueryItem.boundValues).length

/-- The values of an item are bound to the numbers from its first on. -/
theorem Query.boundValues_prefix {q : Query} (h : q.isMatchAll = false) {k : Nat} {i : QueryItem}
    (hi : q.items[k]? = some i) (position : Sql.Bind) (rest : List Sql.Bind) :
    i.boundValues <+: (position :: q.boundValues ++ rest).drop (q.firstNumber k - 1) := by
  obtain ⟨hk, hget⟩ := List.getElem?_eq_some_iff.mp hi
  have hitems : q.items = q.items.take k ++ i :: q.items.drop (k + 1) := by
    rw [← hget, ← List.drop_eq_getElem_cons hk, List.take_append_drop]
  let before := (q.items.take k).flatMap QueryItem.boundValues
  let behind := (q.items.drop (k + 1)).flatMap QueryItem.boundValues
  have hvalues : q.boundValues = before ++ (i.boundValues ++ behind) := by
    rw [boundValues, h, if_neg Bool.false_ne_true,
      congrArg (List.flatMap QueryItem.boundValues) hitems, List.flatMap_append, List.flatMap_cons]
  -- the numbers below the first are those of the position and of the items before
  have hcount : q.firstNumber k - 1 = before.length + 1 := by
    show 2 + before.length - 1 = before.length + 1
    omega
  have hdrop : (position :: q.boundValues ++ rest).drop (before.length + 1) =
      i.boundValues ++ (behind ++ rest) := by
    simp [hvalues]
  rw [hcount, hdrop]
  exact List.prefix_append _ _

namespace Sql

/-! ### Groups -/

/-- The `n`-th bound value. -/
def placeholder (n : Nat) : String := "$" ++ toString n

/-- The type of a row is one of the `n`-th bound value. -/
def typeText (n : Nat) : String := "type = ANY(" ++ placeholder n ++ "::TEXT[])"

/-- The tags of a row are those of the `n`-th bound value or more. -/
def tagText (n : Nat) : String := "tags @> " ++ placeholder n ++ "::TEXT[]"

/-- The conditions of an item whose first placeholder has the number `n`. -/
def itemText (n : Nat) (i : QueryItem) : String :=
  if i.tags.isEmpty then typeText n
  else if i.eventTypes.isEmpty then tagText n
  else typeText n ++ " AND " ++ tagText (n + 1)

theorem itemText_ne_empty (n : Nat) (i : QueryItem) : itemText n i ≠ "" := by
  -- each of the texts begins with a letter
  intro h
  have := congrArg (·.toList.head?) h
  unfold itemText at this
  split at this
  · simp [typeText] at this
  · split at this
    · simp [tagText] at this
    · simp [typeText] at this

/-- An item that asks something has types, tags or both. -/
theorem sides_cases {i : QueryItem} (hi : i.isMatchAll = false) :
    (i.eventTypes.isEmpty = false ∧ i.tags.isEmpty = true) ∨
      (i.eventTypes.isEmpty = true ∧ i.tags.isEmpty = false) ∨
      (i.eventTypes.isEmpty = false ∧ i.tags.isEmpty = false) := by
  have := (QueryItem.isMatchAll_eq_false_iff i).mp hi
  cases htypes : i.eventTypes.isEmpty <;> cases htags : i.tags.isEmpty <;> simp_all

/-- A group binds the values of its item. -/
theorem Group.binds_fragments (i : QueryItem) :
    binds (Group.ofItem i).fragments = i.boundValues := by
  cases htypes : i.eventTypes.isEmpty <;> cases htags : i.tags.isEmpty <;>
    simp [Group.fragments, Group.ofItem, QueryItem.boundValues, htypes, htags, joinWith, binds,
      Group.typeFragments, Group.tagFragments]

/-- A group is its conditions between parentheses. -/
theorem Group.renderFrom_fragments {i : QueryItem} (hi : i.isMatchAll = false) (n : Nat) :
    renderFrom n (Group.ofItem i).fragments = "(" ++ itemText n i ++ ")" := by
  -- a condition is numbered by where it comes, and a condition on the type takes one number
  have htype : ∀ g : Group, renderFrom n g.typeFragments = typeText n := fun g => by
    simp [Group.typeFragments, renderFrom, typeText, placeholder, String.append_assoc]
  have htag : ∀ (g : Group) (k : Nat), renderFrom k g.tagFragments = tagText k := fun g k => by
    simp [Group.tagFragments, renderFrom, tagText, placeholder, String.append_assoc]
  have hcount : ∀ g : Group, (binds g.typeFragments).length = 1 := fun g => rfl
  rw [Group.fragments, List.cons_append, renderFrom, renderFrom_append, renderFrom_joinWith]
  rcases sides_cases hi with ⟨htypes, htags⟩ | ⟨htypes, htags⟩ | ⟨htypes, htags⟩
  · simp [Group.ofItem, itemText, htypes, htags, renderEach, renderFrom, htype, String.append_assoc]
  · simp [Group.ofItem, itemText, htypes, htags, renderEach, renderFrom, htag, String.append_assoc]
  · simp [Group.ofItem, itemText, htypes, htags, renderEach, renderFrom, htype, htag, hcount,
      String.append_assoc]

/-- The placeholders of a group are told apart from what follows them. -/
theorem Group.separated_fragments (g : Group) : Separated g.fragments := by
  have htypes : Separated g.typeFragments :=
    ⟨by simp, startsPlain_text (c := ':') (by simp) (by decide) [], by simp, trivial⟩
  have htags : Separated g.tagFragments :=
    ⟨by simp, startsPlain_text (c := ':') (by simp) (by decide) [], by simp, trivial⟩
  -- a placeholder is followed by a colon, and the conditions are set apart by spaces
  refine (Separated.joinWith (c := ' ') (by simp) (by simp) (by decide) ?_).enclosed
  intro p hp
  rcases List.mem_append.mp hp with h | h
  · split at h
    · simp at h
    · rwa [List.mem_singleton.mp h]
  · split at h
    · simp at h
    · rwa [List.mem_singleton.mp h]

/-! ### Predicates -/

/-- The predicate of a query binds its values. -/
theorem Predicate.binds_ofQuery (q : Query) :
    binds (Predicate.ofQuery q).fragments = q.boundValues := by
  cases hall : q.isMatchAll with
  | true =>
    -- `TRUE` binds nothing
    simp [Predicate.ofQuery_eq_everything hall, Query.boundValues, hall, Predicate.fragments, binds]
  | false =>
    simp [Predicate.ofQuery_eq_anyOf hall, Query.boundValues, hall, Predicate.fragments, binds,
      binds_joinWith, List.flatMap_map, Group.binds_fragments]

/-- The texts of groups in turn: each is numbered after the values that the groups before it bind. -/
theorem renderEach_groups {items : List QueryItem} (h : ∀ i ∈ items, i.isMatchAll = false) (n : Nat) :
    renderEach n (items.map fun i => (Group.ofItem i).fragments) =
      items.mapIdx fun k i =>
        "(" ++ itemText (n + ((items.take k).flatMap QueryItem.boundValues).length) i ++ ")" := by
  -- by induction on the items, with the number that the next one begins with
  induction items generalizing n with
  | nil => rfl
  | cons i is ih =>
    have hi := h i List.mem_cons_self
    have his := ih fun j hj => h j (List.mem_cons_of_mem _ hj)
    simp only [List.map_cons, renderEach, Group.renderFrom_fragments hi, Group.binds_fragments, his,
      List.mapIdx_cons, List.take_zero, List.flatMap_nil, List.length_nil, Nat.add_zero,
      List.take_succ_cons, List.flatMap_cons, List.length_append, Nat.add_assoc]

/-- The predicate of a query that restricts something: its groups between parentheses. -/
theorem Predicate.renderFrom_ofQuery {q : Query} (h : q.isMatchAll = false) :
    renderFrom 2 (Predicate.ofQuery q).fragments =
      "(" ++ " OR ".intercalate (q.items.mapIdx fun k i =>
        "(" ++ itemText (q.firstNumber k) i ++ ")") ++ ")" := by
  have hitems := ((Query.isMatchAll_eq_false_iff q).mp h).2
  have hgroups : (q.items.map Group.ofItem).map Group.fragments =
      q.items.map fun i => (Group.ofItem i).fragments := by
    rw [List.map_map, Function.comp_def]
  rw [Predicate.ofQuery_eq_anyOf h, Predicate.fragments, List.cons_append, renderFrom, renderFrom_append,
    renderFrom_joinWith, hgroups, renderEach_groups hitems]
  simp [renderFrom, Query.firstNumber, String.append_assoc]

theorem Predicate.separated_fragments (p : Predicate) : Separated p.fragments := by
  cases p with
  | everything => exact ⟨by simp, trivial⟩
  | anyOf gs =>
    refine (Separated.joinWith (c := ' ') (by simp) (by simp) (by decide) ?_).enclosed
    intro p hp
    obtain ⟨g, -, rfl⟩ := List.mem_map.mp hp
    exact g.separated_fragments

/-! ### Statements -/

/-- A statement that begins with a position and goes on with the predicate of a query. -/
theorem separated_after {head : String} (hhead : '$' ∉ head.toList) (p : Position) (q : Query) :
    Separated (.text head :: .bind (.number p) :: .text " AND " ::
      (Predicate.ofQuery q).fragments) :=
  ⟨hhead, startsPlain_text (c := ' ') (by simp) (by decide) _, by simp,
    Predicate.separated_fragments _⟩

namespace Selection

/-- A `SELECT` binds its position, the values of its query and its limit, in this order. -/
theorem binds_fragments (s : Selection) :
    binds s.fragments =
      .number s.after :: s.query.boundValues ++ (s.limit.map Bind.number).toList := by
  obtain ⟨q, after, limit⟩ := s
  cases limit <;> simp [fragments, binds, Predicate.binds_ofQuery]

/-- The placeholders of a `SELECT` are told apart from what follows them. -/
theorem separated_fragments (s : Selection) : Separated s.fragments := by
  obtain ⟨q, after, limit⟩ := s
  have hcolumns : '$' ∉ ("SELECT " ++ columns ++ " FROM events WHERE position > ").toList := by
    simp [columns]
  refine (separated_after hcolumns after q).append ⟨by simp, ?_⟩
    (startsPlain_text (c := ' ') (by simp) (by decide) _)
  cases limit with
  | none => exact trivial
  | some n => exact ⟨by simp, startsPlain_nil, trivial⟩

/-- The text of a `SELECT`: the position is the first placeholder, the limit the last. -/
theorem render_fragments (s : Selection) :
    render s.fragments =
      "SELECT " ++ columns ++ " FROM events WHERE position > " ++ placeholder 1 ++ " AND " ++
        renderFrom 2 (Predicate.ofQuery s.query).fragments ++ " ORDER BY position ASC" ++
        s.limit.elim "" fun _ => " LIMIT " ++ placeholder (binds s.fragments).length := by
  obtain ⟨q, after, limit⟩ := s
  rw [binds_fragments, render]
  cases limit with
  | none =>
    simp [fragments, renderFrom, renderFrom_append, placeholder, String.append_assoc]
  | some n =>
    -- the limit is numbered after the position and the values of the query
    have hcount : 2 + q.boundValues.length = q.boundValues.length + 1 + 1 := by omega
    simp [fragments, renderFrom, renderFrom_append, Predicate.binds_ofQuery, hcount, placeholder,
      String.append_assoc]

end Selection

/-- A conflict check binds its position and the values of its query. -/
theorem binds_conflictFragments (c : AppendCondition) :
    binds (conflictFragments c) =
      .number c.afterPosition :: c.failIfEventsMatch.boundValues := by
  simp [conflictFragments, binds, Predicate.binds_ofQuery]

theorem separated_conflictFragments (c : AppendCondition) : Separated (conflictFragments c) :=
  (separated_after (by simp) c.afterPosition c.failIfEventsMatch).append ⟨by simp, trivial⟩
    (startsPlain_text (c := ')') (by simp) (by decide) [])

/-- The text of a conflict check; its predicate is numbered as that of a `SELECT`. -/
theorem render_conflictFragments (c : AppendCondition) :
    render (conflictFragments c) =
      "SELECT EXISTS (SELECT 1 FROM events WHERE position > " ++ placeholder 1 ++ " AND " ++
        renderFrom 2 (Predicate.ofQuery c.failIfEventsMatch).fragments ++ ")" := by
  simp [conflictFragments, render, renderFrom, renderFrom_append, placeholder, String.append_assoc]

end Sql

end EventLog
