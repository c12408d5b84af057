import EventLog.Sql.Predicate

/-!
# Reading statements

What a database makes of the statements that read the log. A statement is given as its fragments, so a
placeholder stands together with the value bound to it. The condition is read from left to right with
a stack of open parentheses; `AND` binds stronger than `OR`. Nothing here looks at the query behind a
statement, and a text that is not of the form has no meaning.

## Key results

- `readOperand_predicate`: the predicate of a query reads as a condition that holds of the same rows
- `select?_fragments`: a `SELECT` gives the rows of its selection
- `exists?_conflictFragments`: a conflict check answers whether a row violates the condition
-/

namespace EventLog.Sql

/-! ### Conditions -/

/-- A condition on a row as a statement spells it. -/
inductive Condition
  | everything
  | after (p : Int)
  | typeAmong (types : List String)
  | carries (tags : List String)
  | both (a b : Condition)
  | either (a b : Condition)
deriving DecidableEq, Repr, Inhabited

/-- The row meets the condition. `= ANY` is membership, and `@>` asks that every element on the right
is an element on the left, whatever their order and number. -/
def Condition.holds : Condition → Row → Bool
  | .everything, _ => true
  | .after p, r => decide (p < r.position)
  | .typeAmong types, r => types.contains r.eventType
  | .carries tags, r => tags.all r.tags.contains
  | .both a b, r => a.holds r && b.holds r
  | .either a b, r => a.holds r || b.holds r

/-- What was read since a parenthesis was opened: the alternatives before the last `OR` and the
conditions joined by `AND` after it. -/
structure Frame where
  before : Option Condition
  current : Option Condition

namespace Frame

/-- A parenthesis that was just opened. -/
def empty : Frame := ⟨none, none⟩

/-- Joins a condition to the current ones. -/
def meet (f : Frame) (c : Condition) : Frame :=
  { f with current := some (match f.current with
      | none => c
      | some d => .both d c) }

/-- The condition that was read; there is none right after a parenthesis or an `OR`. -/
def value? (f : Frame) : Option Condition :=
  f.current.map fun c => match f.before with
    | none => c
    | some b => .either b c

end Frame

mutual

/-- Reads on where a condition has to come. -/
def readOperand (top : Frame) (outer : List Frame) :
    List Fragment → Option (Condition × List Fragment)
  | .text "(" :: fs => readOperand .empty (top :: outer) fs
  | .text "TRUE" :: fs => readOperator (top.meet .everything) outer fs
  | .text "type = ANY(" :: .bind (.texts ts) :: .text "::TEXT[])" :: fs =>
    readOperator (top.meet (.typeAmong ts)) outer fs
  | .text "tags @> " :: .bind (.texts ts) :: .text "::TEXT[]" :: fs =>
    readOperator (top.meet (.carries ts)) outer fs
  | _ => none

/-- Reads on where a condition has just ended, to the end of the whole condition. -/
def readOperator (top : Frame) (outer : List Frame) :
    List Fragment → Option (Condition × List Fragment)
  | .text " AND " :: fs => readOperand top outer fs
  | .text " OR " :: fs => do
    let c ← top.value?
    readOperand ⟨some c, none⟩ outer fs
  | .text ")" :: fs => do
    let c ← top.value?
    match outer with
    | [] => some (c, .text ")" :: fs)
    | f :: outer => readOperator (f.meet c) outer fs
  | fs => do
    let c ← top.value?
    if outer.isEmpty then some (c, fs) else none

end

/-! ### Statements -/

/-- Orders and cuts rows as the end of a `SELECT` says. -/
def arrange? (rows : List Row) : List Fragment → Option (List Row)
  | [.text " ORDER BY position ASC"] => some (Selection.inOrder rows)
  | [.text " ORDER BY position ASC", .text " LIMIT ", .bind (.number n)] =>
    some ((Selection.inOrder rows).take n.toNat)
  | _ => none

/-- The rows that a `SELECT` gives. -/
def select? (table : List Row) : List Fragment → Option (List Row)
  | .text head :: .bind (.number p) :: fs =>
    if head = "SELECT " ++ Selection.columns ++ " FROM events WHERE position > " then do
      let (c, fs) ← readOperator (Frame.empty.meet (.after p)) [] fs
      arrange? (table.filter c.holds) fs
    else none
  | _ => none

/-- The answer of a `SELECT EXISTS`. -/
def exists? (table : List Row) : List Fragment → Option Bool
  | .text head :: .bind (.number p) :: fs =>
    if head = "SELECT EXISTS (SELECT 1 FROM events WHERE position > " then
      match readOperator (Frame.empty.meet (.after p)) [] fs with
      | some (c, [.text ")"]) => some (table.any c.holds)
      | _ => none
    else none
  | _ => none

/-! ### Reading what was rendered -/

/-- The condition that the text of a group spells. -/
def Group.condition (g : Group) : Condition :=
  if g.types.isEmpty then .carries g.tags
  else if g.tags.isEmpty then .typeAmong g.types
  else .both (.typeAmong g.types) (.carries g.tags)

/-- A side of a group that is left out restricts nothing. -/
theorem Group.holds_condition (g : Group) (r : Row) : g.condition.holds r = g.holds r := by
  -- a side that is empty is not written, and asks nothing
  unfold Group.condition Group.holds
  cases htypes : g.types.isEmpty with
  | true => simp [Condition.holds]
  | false =>
    cases htags : g.tags.isEmpty with
    | true => simp [Condition.holds, List.isEmpty_iff.mp htags]
    | false => simp [Condition.holds]

/-- A group that asks something is read as its condition. -/
theorem readOperand_group {g : Group} (hg : g.types ≠ [] ∨ g.tags ≠ []) (top : Frame)
    (outer : List Frame) (fs : List Fragment) :
    readOperand top outer (g.fragments ++ fs) = readOperator (top.meet g.condition) outer fs := by
  unfold Group.fragments Group.condition
  -- by the sides that the group has; one without any is excluded
  cases htypes : g.types with
  | nil =>
    cases htags : g.tags with
    | nil => simp [htypes, htags] at hg
    | cons s ss =>
      simp [htags, Group.tagFragments, joinWith, readOperand, readOperator, Frame.empty, Frame.meet,
        Frame.value?]
  | cons s ss =>
    cases htags : g.tags with
    | nil =>
      simp [htypes, Group.typeFragments, joinWith, readOperand, readOperator, Frame.empty,
        Frame.meet, Frame.value?]
    | cons u us =>
      simp [htypes, htags, Group.typeFragments, Group.tagFragments, joinWith, readOperand,
        readOperator, Frame.empty, Frame.meet, Frame.value?]

/-- Groups after alternatives `before` are read, up to the parenthesis that closes them, as one
condition: that `before` or one of the groups holds. -/
theorem readOperand_groups (gs : List Group) (hne : gs ≠ [])
    (hgs : ∀ g ∈ gs, g.types ≠ [] ∨ g.tags ≠ []) (before : Option Condition) :
    ∃ c : Condition,
      (∀ r, c.holds r = (before.any (·.holds r) || gs.any (·.holds r))) ∧
      ∀ (f : Frame) (outer : List Frame) (fs : List Fragment),
        readOperand ⟨before, none⟩ (f :: outer)
            (joinWith " OR " (gs.map Group.fragments) ++ .text ")" :: fs) =
          readOperator (f.meet c) outer fs := by
  -- by induction on the groups: those that have been read are the alternatives before the others
  induction gs generalizing before with
  | nil => exact absurd rfl hne
  | cons g rest ih =>
    have hg := hgs g List.mem_cons_self
    -- the alternatives once the first group has been read
    obtain ⟨c, hc, hvalue⟩ : ∃ c : Condition,
        (∀ r, c.holds r = (before.any (·.holds r) || g.holds r)) ∧
        (Frame.meet ⟨before, none⟩ g.condition).value? = some c := by
      cases before with
      | none => exact ⟨g.condition, fun r => by simp [Group.holds_condition], rfl⟩
      | some b =>
        exact ⟨.either b g.condition,
          fun r => by simp [Condition.holds, Group.holds_condition], rfl⟩
    cases rest with
    | nil =>
      -- the last group ends the alternatives, and the parenthesis closes them
      refine ⟨c, fun r => by simp [hc], fun f outer fs => ?_⟩
      simp only [List.map_cons, List.map_nil, joinWith]
      rw [readOperand_group hg]
      simp [readOperator, hvalue]
    | cons g' rest =>
      -- the `OR` after the first group makes `c` the alternatives before the others
      obtain ⟨d, hd, hread⟩ := ih (by simp)
        (fun x hx => hgs x (List.mem_cons_of_mem _ hx)) (some c)
      refine ⟨d, fun r => ?_, fun f outer fs => ?_⟩
      · rw [hd]
        simp [hc, Bool.or_assoc]
      · have hjoin : joinWith " OR " ((g :: g' :: rest).map Group.fragments) =
            g.fragments ++ .text " OR " :: joinWith " OR " ((g' :: rest).map Group.fragments) := rfl
        rw [hjoin, List.append_assoc, readOperand_group hg, ← hread]
        simp [readOperator, hvalue]

/-- The predicate of a query is read as a condition that holds of the same rows. -/
theorem readOperand_predicate (q : Query) :
    ∃ c : Condition, (∀ r, c.holds r = (Predicate.ofQuery q).holds r) ∧
      ∀ (top : Frame) (outer : List Frame) (fs : List Fragment),
        readOperand top outer ((Predicate.ofQuery q).fragments ++ fs) =
          readOperator (top.meet c) outer fs := by
  cases hq : q.isMatchAll with
  | true =>
    -- `TRUE` stands without parentheses
    refine ⟨.everything, fun r => ?_, fun top outer fs => ?_⟩
    · simp [Predicate.ofQuery_eq_everything hq, Predicate.holds, Condition.holds]
    · simp [Predicate.ofQuery_eq_everything hq, Predicate.fragments, readOperand]
  | false =>
    obtain ⟨hitems, hall⟩ := (Query.isMatchAll_eq_false_iff q).mp hq
    -- no group is without a side, since its item would select every event
    have hasks : ∀ g ∈ q.items.map Group.ofItem, g.types ≠ [] ∨ g.tags ≠ [] := by
      intro g hg
      obtain ⟨i, hi, rfl⟩ := List.mem_map.mp hg
      simpa [Group.ofItem] using (QueryItem.isMatchAll_eq_false_iff i).mp (hall i hi)
    -- the parenthesis around the groups is opened with no alternative before them
    obtain ⟨c, hc, hread⟩ :=
      readOperand_groups (q.items.map Group.ofItem) (by simpa using hitems) hasks none
    refine ⟨c, fun r => ?_, fun top outer fs => ?_⟩
    · -- the condition holds where one of the groups does
      rw [hc, Predicate.ofQuery_eq_anyOf hq]
      simp [Predicate.holds]
    · rw [Predicate.ofQuery_eq_anyOf hq, ← hread]
      simp [Predicate.fragments, readOperand, Frame.empty]

/-- The condition on the position and the predicate of a query are read together. -/
theorem readOperator_after (q : Query) (p : Position) :
    ∃ c : Condition, (∀ r, c.holds r = Selection.includes ⟨q, p, none⟩ r) ∧
      ∀ fs, readOperator (Frame.empty.meet (.after p)) []
          (.text " AND " :: ((Predicate.ofQuery q).fragments ++ fs)) =
        readOperator ⟨none, some c⟩ [] fs := by
  obtain ⟨c, hc, hread⟩ := readOperand_predicate q
  -- the position was joined before the predicate, so it stands on the left
  refine ⟨.both (.after p) c, fun r => ?_, fun fs => ?_⟩
  · simp [Condition.holds, Selection.includes, hc]
  · simp only [readOperator, hread]
    rfl

/-- A `SELECT` gives the rows of its selection. -/
theorem select?_fragments (s : Selection) (table : List Row) :
    select? table s.fragments = some (s.rows table) := by
  obtain ⟨q, p, limit⟩ := s
  obtain ⟨c, hc, hread⟩ := readOperator_after q p
  -- the limit plays no part in which rows are included
  have hfilter : table.filter c.holds = table.filter (Selection.includes ⟨q, p, limit⟩) :=
    List.filter_congr fun r _ => hc r
  cases limit with
  | none =>
    -- the fragments with the predicate set apart, which is read as a whole
    have hfs : Selection.fragments ⟨q, p, none⟩ =
        .text ("SELECT " ++ Selection.columns ++ " FROM events WHERE position > ") ::
          .bind (.number p) :: .text " AND " ::
          ((Predicate.ofQuery q).fragments ++ [.text " ORDER BY position ASC"]) := by
      simp [Selection.fragments]
    rw [hfs]
    simp [select?, hread, readOperator, Frame.value?, arrange?, hfilter, Selection.rows]
  | some n =>
    have hfs : Selection.fragments ⟨q, p, some n⟩ =
        .text ("SELECT " ++ Selection.columns ++ " FROM events WHERE position > ") ::
          .bind (.number p) :: .text " AND " ::
          ((Predicate.ofQuery q).fragments ++
            [.text " ORDER BY position ASC", .text " LIMIT ", .bind (.number n)]) := by
      simp [Selection.fragments]
    rw [hfs]
    simp [select?, hread, readOperator, Frame.value?, arrange?, hfilter, Selection.rows]

/-- A conflict check answers whether a row violates the condition. -/
theorem exists?_conflictFragments (c : AppendCondition) (table : List Row) :
    exists? table (conflictFragments c) = some (conflicts c table) := by
  obtain ⟨d, hd, hread⟩ := readOperator_after c.failIfEventsMatch c.afterPosition
  have hany : table.any d.holds = conflicts c table := by
    simp [conflicts, funext hd]
  simp [exists?, conflictFragments, hread, readOperator, Frame.value?, hany]

end EventLog.Sql
