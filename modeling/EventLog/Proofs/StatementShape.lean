import EventLog.Proofs.StatementText

/-!
# The shape of a query in its text

The parentheses of a predicate match, and the text of a statement tells which items of its query name
types and which name tags. Both are read from the characters alone.

## Key results

- `Predicate.balanced_renderFrom`: the parentheses of a predicate match
- `Selection.shape_render`: the shape of a query is read back from its `SELECT`
- `statements_are_well_formed`: the placeholders, the values and the text of the statements of a query
- `binds_leave_out_items`: a query that restricts nothing binds no values for its items
-/

namespace EventLog

/-- Which conditions an item has: one on the type, and one on the tags. -/
def QueryItem.sides (i : QueryItem) : Bool × Bool := (!i.eventTypes.isEmpty, !i.tags.isEmpty)

namespace Sql

/-- A placeholder is a dollar sign and digits. -/
theorem not_mem_placeholder {c : Char} (hdollar : c ≠ '$') (hdigit : c.isDigit = false) (n : Nat) :
    c ∉ (placeholder n).toList := by
  have hchars : (placeholder n).toList = '$' :: Nat.toDigits 10 n := by simp [placeholder]
  rw [hchars, List.mem_cons, not_or]
  refine ⟨hdollar, fun hmem => ?_⟩
  have := Nat.isDigit_of_mem_toDigits (by decide) (by decide) hmem
  simp [hdigit] at this

/-! ### Parentheses -/

/-- The parentheses of a text match. -/
inductive Balanced : List Char → Prop
  | nil : Balanced []
  | char {c : Char} {cs : List Char} (hopen : c ≠ '(') (hclose : c ≠ ')') (h : Balanced cs) :
      Balanced (c :: cs)
  | group {cs ds : List Char} (h : Balanced cs) (hrest : Balanced ds) :
      Balanced ('(' :: (cs ++ ')' :: ds))

/-- Texts whose parentheses match can be put one after the other. -/
theorem Balanced.append {cs ds : List Char} (hcs : Balanced cs) (hds : Balanced ds) :
    Balanced (cs ++ ds) := by
  -- by induction on the first text; a group keeps its own end
  induction hcs with
  | nil => exact hds
  | char hopen hclose _ ih => exact .char hopen hclose ih
  | group h _ _ ih =>
    rw [List.cons_append, List.append_assoc, List.cons_append]
    exact .group h ih

/-- The parentheses of a text match if it has none. -/
theorem balanced_of_not_mem {cs : List Char} (hopen : '(' ∉ cs) (hclose : ')' ∉ cs) :
    Balanced cs := by
  induction cs with
  | nil => exact .nil
  | cons c cs ih =>
    simp only [List.mem_cons, not_or] at hopen hclose
    exact .char (Ne.symm hopen.1) (Ne.symm hclose.1) (ih hopen.2 hclose.2)

/-- A text between parentheses matches if it did without them. -/
theorem balanced_enclosed {s : String} (h : Balanced s.toList) :
    Balanced ("(" ++ s ++ ")").toList := by
  have htext : ("(" ++ s ++ ")").toList = '(' :: (s.toList ++ ')' :: []) := by simp
  rw [htext]
  exact .group h .nil

/-- Texts that match are joined by a text that matches. -/
theorem balanced_intercalate {sep : String} (hsep : Balanced sep.toList) {ss : List String}
    (h : ∀ s ∈ ss, Balanced s.toList) : Balanced (sep.intercalate ss).toList := by
  -- by induction on the texts, with the separator between two of them
  induction ss with
  | nil => exact .nil
  | cons s ss ih =>
    have hs := h s List.mem_cons_self
    have hss := ih fun t ht => h t (List.mem_cons_of_mem _ ht)
    cases ss with
    | nil => simpa using hs
    | cons t ts =>
      rw [String.intercalate_cons_cons, String.toList_append, String.toList_append]
      exact (hs.append hsep).append hss

theorem balanced_placeholder (n : Nat) : Balanced (placeholder n).toList :=
  balanced_of_not_mem (not_mem_placeholder (by decide) (by decide) n)
    (not_mem_placeholder (by decide) (by decide) n)

theorem balanced_typeText (n : Nat) : Balanced (typeText n).toList := by
  -- the parentheses of `ANY` are around the placeholder
  have htext : (typeText n).toList =
      "type = ANY".toList ++ ("(" ++ (placeholder n ++ "::TEXT[]") ++ ")").toList := by
    simp [typeText]
  rw [htext]
  refine (balanced_of_not_mem (by simp) (by simp)).append (balanced_enclosed ?_)
  rw [String.toList_append]
  exact (balanced_placeholder n).append (balanced_of_not_mem (by simp) (by simp))

theorem balanced_tagText (n : Nat) : Balanced (tagText n).toList := by
  rw [tagText, String.toList_append, String.toList_append]
  exact ((balanced_of_not_mem (by simp) (by simp)).append (balanced_placeholder n)).append
    (balanced_of_not_mem (by simp) (by simp))

theorem balanced_itemText (n : Nat) (i : QueryItem) : Balanced (itemText n i).toList := by
  unfold itemText
  split
  · exact balanced_typeText n
  · split
    · exact balanced_tagText n
    · rw [String.toList_append, String.toList_append]
      exact ((balanced_typeText n).append (balanced_of_not_mem (by simp) (by simp))).append
        (balanced_tagText (n + 1))

/-- The parentheses of a predicate match. -/
theorem Predicate.balanced_renderFrom {q : Query} (h : q.isMatchAll = false) :
    Balanced (renderFrom 2 (Predicate.ofQuery q).fragments).toList := by
  rw [Predicate.renderFrom_ofQuery h]
  refine balanced_enclosed (balanced_intercalate (balanced_of_not_mem (by simp) (by simp)) ?_)
  intro s hs
  obtain ⟨k, hk, rfl⟩ := List.mem_mapIdx.mp hs
  exact balanced_enclosed (balanced_itemText _ _)

/-! ### Shapes -/

/-- Which conditions the groups of a text have, when `depth` parentheses are open and the group that is
read has had a condition on the type, or on the tags. A group stands in the second parenthesis; an equals
sign belongs to a condition on the type, an at sign to one on the tags. -/
def shapeFrom (depth : Nat) (types tags : Bool) : List Char → List (Bool × Bool)
  | [] => []
  | c :: cs =>
    if c = '(' then shapeFrom (depth + 1) types tags cs
    else if c = ')' then
      if depth = 2 then (types, tags) :: shapeFrom 1 false false cs
      else shapeFrom (depth - 1) types tags cs
    else if c = '=' then shapeFrom depth true tags cs
    else if c = '@' then shapeFrom depth types true cs
    else shapeFrom depth types tags cs

/-- Which conditions the groups of a text have. -/
def shape (s : String) : List (Bool × Bool) := shapeFrom 0 false false s.toList

/-- A text without parentheses, equals signs and at signs is passed over. -/
def Plain (cs : List Char) : Prop := '(' ∉ cs ∧ ')' ∉ cs ∧ '=' ∉ cs ∧ '@' ∉ cs

theorem plain_placeholder (n : Nat) : Plain (placeholder n).toList :=
  ⟨not_mem_placeholder (by decide) (by decide) n, not_mem_placeholder (by decide) (by decide) n,
    not_mem_placeholder (by decide) (by decide) n, not_mem_placeholder (by decide) (by decide) n⟩

/-- A text that leaves no mark is passed over. -/
theorem Plain.shapeFrom_append {cs : List Char} (h : Plain cs) (depth : Nat) (types tags : Bool)
    (ds : List Char) : shapeFrom depth types tags (cs ++ ds) = shapeFrom depth types tags ds := by
  -- by induction on the text, which has none of the four characters
  induction cs with
  | nil => rfl
  | cons c cs ih =>
    simp only [Plain, List.mem_cons, not_or] at h
    obtain ⟨⟨hopen, hcs⟩, ⟨hclose, hcs'⟩, ⟨hequals, hcs''⟩, hat, hcs'''⟩ := h
    simp only [List.cons_append, shapeFrom, Ne.symm hopen, Ne.symm hclose, Ne.symm hequals,
      Ne.symm hat, if_false]
    exact ih ⟨hcs, hcs', hcs'', hcs'''⟩

/-- A condition on the type leaves its mark. -/
theorem shapeFrom_typeText (n : Nat) (types tags : Bool) (ds : List Char) :
    shapeFrom 2 types tags ((typeText n).toList ++ ds) = shapeFrom 2 true tags ds := by
  simp [typeText, shapeFrom, (plain_placeholder n).shapeFrom_append]

/-- A condition on the tags leaves its mark. -/
theorem shapeFrom_tagText (n : Nat) (types tags : Bool) (ds : List Char) :
    shapeFrom 2 types tags ((tagText n).toList ++ ds) = shapeFrom 2 types true ds := by
  simp [tagText, shapeFrom, (plain_placeholder n).shapeFrom_append]

/-- The group of an item that asks something is read as the sides of the item. -/
theorem shapeFrom_group {i : QueryItem} (hi : i.isMatchAll = false) (n : Nat) (ds : List Char) :
    shapeFrom 1 false false (("(" ++ itemText n i ++ ")").toList ++ ds) =
      i.sides :: shapeFrom 1 false false ds := by
  have htext : ("(" ++ itemText n i ++ ")").toList ++ ds =
      '(' :: ((itemText n i).toList ++ ')' :: ds) := by simp
  have hopen : ∀ cs, shapeFrom 1 false false ('(' :: cs) = shapeFrom 2 false false cs := fun _ => rfl
  have hclose : ∀ types tags, shapeFrom 2 types tags (')' :: ds) =
      (types, tags) :: shapeFrom 1 false false ds := fun _ _ => rfl
  -- between the parentheses each condition leaves its mark, and the end of the group reports them
  rw [htext, hopen]
  rcases sides_cases hi with ⟨htypes, htags⟩ | ⟨htypes, htags⟩ | ⟨htypes, htags⟩
  · -- a condition on the type, on the tags, or both with `AND` between them
    simp [itemText, QueryItem.sides, htypes, htags, shapeFrom_typeText, hclose]
  · simp [itemText, QueryItem.sides, htypes, htags, shapeFrom_tagText, hclose]
  · have hand : Plain " AND ".toList := by simp [Plain]
    simp only [itemText, QueryItem.sides, htypes, htags, Bool.false_eq_true, if_false,
      String.toList_append, List.append_assoc, shapeFrom_typeText, hand.shapeFrom_append,
      shapeFrom_tagText, hclose, Bool.not_false]

/-- Groups are read in order, whatever their numbers. -/
theorem shapeFrom_groups {items : List QueryItem} (h : ∀ i ∈ items, i.isMatchAll = false)
    (number : Nat → Nat) (ds : List Char) :
    shapeFrom 1 false false ((" OR ".intercalate (items.mapIdx fun k i =>
        "(" ++ itemText (number k) i ++ ")")).toList ++ ds) =
      items.map QueryItem.sides ++ shapeFrom 1 false false ds := by
  -- by induction on the items, with the numbers of those that are left
  induction items generalizing number with
  | nil => rfl
  | cons i is ih =>
    have hi := h i List.mem_cons_self
    have his := ih (fun j hj => h j (List.mem_cons_of_mem _ hj)) (fun k => number (k + 1))
    rw [List.mapIdx_cons]
    cases is with
    | nil => simpa using shapeFrom_group hi (number 0) ds
    | cons j js =>
      have hor : Plain " OR ".toList := by simp [Plain]
      rw [List.mapIdx_cons] at his ⊢
      rw [String.intercalate_cons_cons, String.toList_append, String.toList_append,
        List.append_assoc, List.append_assoc, shapeFrom_group hi, hor.shapeFrom_append, his]
      rfl

/-- The shape of a query that restricts something is read from its predicate. -/
theorem Predicate.shapeFrom_renderFrom {q : Query} (h : q.isMatchAll = false) (ds : List Char) :
    shapeFrom 0 false false ((renderFrom 2 (Predicate.ofQuery q).fragments).toList ++ ds) =
      q.items.map QueryItem.sides ++ shapeFrom 0 false false ds := by
  have hitems := ((Query.isMatchAll_eq_false_iff q).mp h).2
  -- the parenthesis around the groups is closed where the predicate ends
  have hclose : shapeFrom 1 false false (')' :: ds) = shapeFrom 0 false false ds := rfl
  rw [Predicate.renderFrom_ofQuery h, ← hclose, ← shapeFrom_groups hitems q.firstNumber]
  simp [shapeFrom]

/-- The shape of a query that restricts something is read from its `SELECT`. -/
theorem Selection.shape_render {s : Selection} (h : s.query.isMatchAll = false) :
    shape (render s.fragments) = s.query.items.map QueryItem.sides := by
  -- nothing in the statement leaves a mark but its predicate
  have hselect : Plain "SELECT ".toList := by simp [Plain]
  have hcolumns : Plain columns.toList := by simp [Plain, columns]
  have hfrom : Plain " FROM events WHERE position > ".toList := by simp [Plain]
  have hand : Plain " AND ".toList := by simp [Plain]
  have horder : Plain " ORDER BY position ASC".toList := by simp [Plain]
  have hend : shapeFrom 0 false false (s.limit.elim "" fun _ =>
      " LIMIT " ++ placeholder (binds s.fragments).length).toList = [] := by
    cases s.limit with
    | none => rfl
    | some n =>
      have hlimit : Plain " LIMIT ".toList := by simp [Plain]
      have hnumber := (plain_placeholder (binds s.fragments).length).shapeFrom_append 0 false false []
      rw [List.append_nil] at hnumber
      rw [Option.elim, String.toList_append, hlimit.shapeFrom_append, hnumber]
      rfl
  rw [shape, Selection.render_fragments]
  simp only [String.toList_append, List.append_assoc]
  rw [hselect.shapeFrom_append, hcolumns.shapeFrom_append, hfrom.shapeFrom_append,
    (plain_placeholder 1).shapeFrom_append, hand.shapeFrom_append,
    Predicate.shapeFrom_renderFrom h, horder.shapeFrom_append, hend, List.append_nil]

/-! ### Statements of a query -/

/-- The statements of a query are well formed, and their values stand where their placeholders point.
The placeholders of the `SELECT` after a position are numbered 1, 2, … in turn, one for each bound value.
The first is the position and the last the limit, if there is one; between them each item binds its types
and its written tags, each if there are any, in order. A query that restricts nothing is written as
`TRUE` and binds nothing. Of any other query the predicate is one group in parentheses for each item, in
order and never empty, joined by `OR` between parentheses; the parentheses match, and the text tells which
sides each item has. The cursor is declared for the same text, and the check of a condition has the same
predicate with the same numbers. -/
theorem statements_are_well_formed (q : Query) (after : Position) (limit : Option Int) :
    let select := Statement.select ⟨q, after, limit⟩
    let cursor := Statement.declareCursor ⟨q, after, limit⟩
    let check := Statement.conflictCheck ⟨q, after⟩
    let predicate := renderFrom 2 (Predicate.ofQuery q).fragments
    placeholders select.text.toList = List.range' 1 select.binds.length ∧
      select.binds = .number after :: q.boundValues ++ (limit.map Bind.number).toList ∧
      select.text =
        "SELECT " ++ Selection.columns ++ " FROM events WHERE position > " ++ placeholder 1 ++
          " AND " ++ predicate ++ " ORDER BY position ASC" ++
          limit.elim "" (fun _ => " LIMIT " ++ placeholder select.binds.length) ∧
      (q.isMatchAll = true → predicate = "TRUE" ∧ q.boundValues = []) ∧
      (q.isMatchAll = false →
        q.boundValues = q.items.flatMap QueryItem.boundValues ∧
        predicate = "(" ++ " OR ".intercalate (q.items.mapIdx fun k i =>
          "(" ++ itemText (q.firstNumber k) i ++ ")") ++ ")" ∧
        (∀ k i, q.items[k]? = some i → itemText (q.firstNumber k) i ≠ "" ∧
          i.boundValues <+: select.binds.drop (q.firstNumber k - 1)) ∧
        Balanced predicate.toList ∧
        shape select.text = q.items.map QueryItem.sides) ∧
      cursor.text = "DECLARE " ++ Statement.cursorName ++ " NO SCROLL CURSOR FOR " ++ select.text ∧
      cursor.binds = select.binds ∧
      check.text =
        "SELECT EXISTS (SELECT 1 FROM events WHERE position > " ++ placeholder 1 ++ " AND " ++
          predicate ++ ")" ∧
      check.binds = .number after :: q.boundValues ∧
      placeholders check.text.toList = List.range' 1 check.binds.length := by
  intro select cursor check predicate
  have hselect : select.binds = .number after :: q.boundValues ++ (limit.map Bind.number).toList :=
    Selection.binds_fragments _
  refine ⟨placeholders_renderFrom (Selection.separated_fragments _) 1, hselect,
    Selection.render_fragments _, fun hall => ?_, fun hrestricts => ?_, rfl, rfl,
    render_conflictFragments _, binds_conflictFragments _,
    placeholders_renderFrom (separated_conflictFragments _) 1⟩
  · exact ⟨(renderFrom_ofQuery_eq_true_iff q 2).mpr hall, by simp [Query.boundValues, hall]⟩
  · refine ⟨by simp [Query.boundValues, hrestricts], Predicate.renderFrom_ofQuery hrestricts, ?_,
      Predicate.balanced_renderFrom hrestricts, Selection.shape_render hrestricts⟩
    intro k i hi
    rw [hselect]
    exact ⟨itemText_ne_empty _ i, q.boundValues_prefix hrestricts hi _ _⟩

/-- Deposits to one account, whatever happens to another, and closings: the three items have both sides,
tags only and types only, and six values are bound. -/
theorem statements_are_well_formed_of_three_items :
    let q : Query := ⟨[⟨["Deposited"], [⟨"account", "17"⟩]⟩, ⟨[], [⟨"account", "18"⟩]⟩,
      ⟨["Closed"], []⟩]⟩
    let select := Statement.select ⟨q, 5, some 10⟩
    q.isMatchAll = false ∧
      placeholders select.text.toList = [1, 2, 3, 4, 5, 6] ∧
      select.text =
        "SELECT id, type, tags, data, position, causation_id, correlation_id, created_at " ++
          "FROM events WHERE position > $1 AND ((type = ANY($2::TEXT[]) AND tags @> $3::TEXT[]) OR " ++
          "(tags @> $4::TEXT[]) OR (type = ANY($5::TEXT[]))) ORDER BY position ASC LIMIT $6" ∧
      shape select.text = [(true, true), (false, true), (true, false)] := by
  intro q select
  have hrestricts : q.isMatchAll = false := rfl
  obtain ⟨hnumbers, -, htext, -, hq, -⟩ := statements_are_well_formed q 5 (some 10)
  obtain ⟨-, hpredicate, -, -, hshape⟩ := hq hrestricts
  refine ⟨hrestricts, hnumbers, ?_, hshape⟩
  rw [htext, hpredicate]
  decide +kernel

/-- A query that restricts nothing is written as `TRUE`, so an item that stands beside one without sides
binds no value although it names a type. -/
theorem binds_leave_out_items : ¬∀ (q : Query) (after : Position) (limit : Option Int),
    (Statement.select ⟨q, after, limit⟩).binds =
      .number after :: q.items.flatMap QueryItem.boundValues ++ (limit.map Bind.number).toList := by
  intro h
  have hlength := congrArg List.length (h ⟨[⟨["Deposited"], []⟩, ⟨[], []⟩]⟩ 0 none)
  revert hlength
  decide

end Sql

end EventLog
