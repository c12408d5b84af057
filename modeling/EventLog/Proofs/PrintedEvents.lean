import EventLog.Proofs.BatchShape
import EventLog.Proofs.CommandLine
import EventLog.Proofs.EventText
import EventLog.Proofs.PositionRange

/-!
# Printed events

The events that a command line asks for are printed one on a line, in the order of their positions. A newline
in an event is escaped in its text, so what is printed falls apart into the texts of the events again, and
each text is read back as its event unless its payload nests too deep for a text. A row that does not parse
ends the output after the events before it, and a blank type is refused before anything is printed.

## Key results

- `List.splitOn_lines`: lines are found again at their ends
- `Command.listing_printed`: what is printed lists the events
- `ReadArgs.found_perm`, `ReadArgs.rows_eq_take`: the rows that the arguments of a command line select
- `Command.read_prints_selected`: what a reading prints
-/

namespace List

/-- Lines that are put together, each with an end of its own, are found again at these ends, and behind the last
one there is nothing. -/
theorem splitOn_lines {lines : List (List Char)} (h : ∀ l ∈ lines, '\n' ∉ l) :
    (lines.flatMap (· ++ ['\n'])).splitOn '\n' = lines ++ [[]] := by
  induction lines with
  | nil => rfl
  | cons l lines ih =>
    obtain ⟨hl, hlines⟩ := List.forall_mem_cons.mp h
    -- no character of the line is an end, so the first part ends with the line
    have hfree : ∀ c ∈ l, (c == '\n') = false := by
      intro c hc
      simpa using fun heq : c = '\n' => hl (heq ▸ hc)
    have hrest := ih hlines
    unfold List.splitOn at hrest ⊢
    rw [List.flatMap_cons, List.append_assoc, List.singleton_append,
      List.splitOnP_append_cons_of_forall_mem hfree '\n' rfl, hrest, List.cons_append]

/-- Ascending numbers above a bound are not more than there are up to their largest one. -/
theorem length_le_of_ascending {low high : Int} (hle : low ≤ high) {ns : List Int} (h : ns.Pairwise (· < ·))
    (hbounds : ∀ n ∈ ns, low < n ∧ n ≤ high) : (ns.length : Int) ≤ high - low := by
  induction ns generalizing low with
  | nil => simpa using hle
  | cons n ns ih =>
    -- the first number is above the bound, so one is used up and the others are above it
    obtain ⟨hfirst, hrest⟩ := List.pairwise_cons.mp h
    obtain ⟨hlow, hhigh⟩ := hbounds n List.mem_cons_self
    have hlength : (ns.length : Int) ≤ high - n :=
      ih hhigh hrest fun m hm => ⟨hfirst m hm, (hbounds m (List.mem_cons_of_mem _ hm)).2⟩
    simp only [List.length_cons, Int.natCast_add, Int.cast_ofNat_Int]
    omega

end List

namespace EventLog

open Json Database Sql

/-- A row whose event is read back from its text, the position apart, which the table sees to. -/
structure Row.Legible (r : Row) : Prop where
  ordered : r.data.Ordered
  numbers : r.data.Legible
  time : Instant.parse? r.createdAt.toText = some r.createdAt

/-- The rows of a numbered table have legible events. -/
theorem Row.Legible.event {r : Row} (h : r.Legible) {t : Table} (ht : t.Numbered) (hr : r ∈ t) :
    r.event.Legible where
  ordered := h.ordered
  numbers := h.numbers
  position := ⟨Int.le_trans (by decide) (Int.le_of_lt (ht.positive r hr)), ht.le_max r hr⟩
  time := h.time

namespace Admin

/-! ### Rows and lines -/

/-- The events are read from the rows: from all of them if there is no failure, and otherwise from those before the
first row that does not parse, which is the failure then. -/
inductive ReadFrom : List Row → List Event → Option StoreError → Prop
  | all {rows : List Row} {events : List Event} (h : rows.map Row.toEvent = events.map .ok) :
    ReadFrom rows events none
  | upTo {before : List Row} {events : List Event} {r : Row} {c : CorruptRow}
    (h : before.map Row.toEvent = events.map .ok) (hr : r.toEvent = .error c) (more : List Row) :
    ReadFrom (before ++ r :: more) events (some (.corruptRow c))

/-- Events and failure are determined by the rows. -/
theorem ReadFrom.toEventsUntil {rows : List Row} {events : List Event} {failure : Option StoreError}
    (h : ReadFrom rows events failure) :
    events = (Row.toEventsUntil rows).1 ∧ failure = (Row.toEventsUntil rows).2.map .corruptRow := by
  cases h with
  | all h =>
    have hread := Row.toEventsUntil_of_map h []
    rw [List.append_nil] at hread
    simp [hread, Row.toEventsUntil]
  | upTo h hr more => simp [Row.toEventsUntil_of_map h, Row.toEventsUntil, hr]

/-- The output consists of one line for each of the events. A line is the text of its event, and it is read back
as the event unless the payload nests too deep. -/
structure Listing (output : String) (events : List Event) : Prop where
  lines : output.toList.splitOn '\n' = events.map (fun e => e.toValue.toText.toList) ++ [[]]
  read : ∀ e ∈ events,
    Json.readText Event.read e.toValue.toText = if e.data.nesting ≤ 126 then .ok e else .error .malformed

namespace Command

theorem toList_output_printed (streamed : Streamed) :
    (printed streamed).output.toList =
      (streamed.events.map fun e => e.toValue.toText.toList).flatMap (· ++ ['\n']) := by
  simp [printed, line, String.toList_join, List.flatMap_map]

/-- What is printed lists the events. -/
theorem listing_printed {streamed : Streamed} (h : ∀ e ∈ streamed.events, e.Legible) :
    Listing (printed streamed).output streamed.events where
  lines := by
    have hfree : ∀ l ∈ streamed.events.map fun e => e.toValue.toText.toList, '\n' ∉ l := by
      -- the text of an event is a compact value, which has no newline
      intro l hl
      obtain ⟨e, -, rfl⟩ := List.mem_map.mp hl
      rw [Value.toText, String.toList_ofList]
      exact newline_not_mem_compact e.toValue
    rw [toList_output_printed, List.splitOn_lines hfree]
  read := fun e he => Event.readText_toText (h e he)

end Command

/-! ### The arguments of a reading -/

namespace ReadArgs

/-- The arguments ask for the event: it stands after the position, has one of the types if there are any, and
carries all of the tags. -/
def Selects (a : ReadArgs) (e : Event) : Prop :=
  a.after < e.position ∧ (a.types = [] ∨ e.eventType ∈ a.types) ∧ ∀ t ∈ a.tags, t ∈ e.tags

instance (a : ReadArgs) (e : Event) : Decidable (a.Selects e) :=
  inferInstanceAs (Decidable (_ ∧ _ ∧ _))

variable {a : ReadArgs}

/-- The query of the arguments selects by type and tags, also where it is that of every event. -/
theorem selects_query (a : ReadArgs) (e : Event) :
    a.query.selects e = true ↔ (a.types = [] ∨ e.eventType ∈ a.types) ∧ ∀ t ∈ a.tags, t ∈ e.tags := by
  unfold query
  by_cases hall : QueryItem.isMatchAll ⟨a.types, a.tags⟩ = true
  · -- the query of every event stands for no types and no tags
    rw [if_pos hall, Query.selects_of_isMatchAll rfl]
    simp only [QueryItem.isMatchAll, Bool.and_eq_true, List.isEmpty_iff] at hall
    simp [hall.1, hall.2]
  · rw [if_neg hall]
    simp [Query.selects, Query.single, QueryItem.selects, Event.hasTags, Event.hasTag]

/-- If the tags are valid then only a blank type is refused. -/
theorem validate_query (htags : ∀ t ∈ a.tags, t.validate = .ok ()) :
    a.query.validate = if a.types.any Text.allBlank then .error .emptyEventType else .ok () := by
  unfold query
  by_cases hall : QueryItem.isMatchAll ⟨a.types, a.tags⟩ = true
  · rw [if_pos hall]
    simp only [QueryItem.isMatchAll, Bool.and_eq_true, List.isEmpty_iff] at hall
    rw [hall.1]
    rfl
  · rw [if_neg hall]
    have hvalid : Tag.validateAll a.tags = .ok () := (Tag.validateAll_eq_ok_iff a.tags).mpr htags
    by_cases hblank : a.types.any Text.allBlank = true
    · -- one item is judged, its types before its tags
      simp [Query.validate, Query.single, Query.validateItems, QueryItem.validate, hblank, bind, Except.bind]
    · simp [Query.validate, Query.single, Query.validateItems, QueryItem.validate, hblank, hvalid, bind,
        Except.bind]

/-- The rows that the database finds, the limit apart. -/
def found (a : ReadArgs) (t : Table) : List Row := Selection.rows ⟨a.query, a.after, none⟩ t

section

variable {t : Table}

/-- The database finds the rows whose events the arguments ask for. -/
theorem found_perm (hq : a.query.validate = .ok ()) (t : Table) :
    (a.found t).Perm (t.filter fun r => decide (a.Selects r.event)) := by
  have hincludes : ∀ r ∈ t, Selection.includes ⟨a.query, a.after, none⟩ r = decide (a.Selects r.event) := by
    intro r _
    rw [Selection.includes_eq (s := ⟨a.query, a.after, none⟩) hq, Bool.eq_iff_iff, Bool.and_eq_true,
      selects_query, decide_eq_true_eq, decide_eq_true_eq]
    rfl
  -- without a limit all rows that are included are read, in another order
  rw [← List.filter_congr hincludes]
  exact Selection.inOrder_perm _

theorem found_pairwise (ht : t.Numbered) : (a.found t).Pairwise fun x y => x.position < y.position :=
  Selection.pairwise_rows_of_nodup ht.distinct _

/-- There are not more rows than positions. -/
theorem length_found_le (ht : t.Numbered) : ((a.found t).length : Int) ≤ Position.max := by
  have hascending : ((a.found t).map (·.position)).Pairwise (· < ·) := List.pairwise_map.mpr (found_pairwise ht)
  -- positions are different numbers of 64 bits, and there are no more rows than that
  have hbounds : ∀ p ∈ (a.found t).map (·.position), 0 < p ∧ p ≤ Position.max := by
    intro p hp
    obtain ⟨r, hr, rfl⟩ := List.mem_map.mp hp
    have hmem : r ∈ t := Selection.mem_of_mem_rows hr
    exact ⟨ht.positive r hmem, ht.le_max r hmem⟩
  have hlength := List.length_le_of_ascending (by decide) hascending hbounds
  rwa [List.length_map, Int.sub_zero] at hlength

/-- A limit that is too large for the database is cut, but then it is beyond all rows anyway. -/
theorem rows_eq_take (ht : t.Numbered) :
    (a.options.selection a.query).rows t = a.limit.elim (a.found t) (a.found t).take := by
  cases hlimit : a.limit with
  | none => simp only [ReadOptions.selection, ReadOptions.rowLimit, options, hlimit]; rfl
  | some n =>
    have hcut : (a.options.selection a.query).rows t = (a.found t).take (min (n : Int) Position.max).toNat := by
      simp only [ReadOptions.selection, ReadOptions.rowLimit, options, hlimit]
      rfl
    rw [hcut]
    have hlength := length_found_le (a := a) ht
    -- the limit is given to the database as it is, or cut and then beyond the last row
    by_cases hn : (n : Int) ≤ Position.max
    · rw [Int.min_eq_left hn]
      rfl
    · have hall : (a.found t).length ≤ (min (n : Int) Position.max).toNat := by omega
      have hall' : (a.found t).length ≤ n := by omega
      rw [List.take_of_length_le hall]
      exact (List.take_of_length_le hall').symm

end

end ReadArgs

/-! ### Readings -/

namespace Command

variable {a : ReadArgs} {s : Store}

/-- A reading with a blank type prints nothing. -/
theorem run_read_of_blank (htags : ∀ t ∈ a.tags, t.validate = .ok ())
    (hbuffer : s.settings.streamBuffer ≤ Limiter.maxPlaces) (hblank : a.types.any Text.allBlank = true) :
    (read a).run s = some (⟨"", some (.invalidEvent .emptyEventType)⟩, s) := by
  have hq := ReadArgs.validate_query htags
  rw [if_pos hblank] at hq
  simp only [run, Store.stream_of_invalid hq hbuffer]
  rfl

/-- A reading without a blank type prints the events of the rows that are selected. -/
theorem run_read_of_named (htags : ∀ t ∈ a.tags, t.validate = .ok ()) (hnumbered : s.table.Numbered)
    (hbuffer : s.settings.streamBuffer ≤ Limiter.maxPlaces) (hready : s.client.Ready)
    (hnamed : ¬a.types.any Text.allBlank = true) :
    ∃ s', (read a).run s =
      some (printed (Streamed.ofRows (a.limit.elim (a.found s.table) (a.found s.table).take)), s') := by
  have hq := ReadArgs.validate_query htags
  rw [if_neg hnamed] at hq
  obtain ⟨s', hstream⟩ := Store.stream_of_ready hready hq hbuffer a.options none
  refine ⟨s', ?_⟩
  simp only [run, hstream, Streamed.upTo, ReadArgs.rows_eq_take hnumbered]
  rfl

/-- What is printed of rows are the events that are read from them. -/
theorem printed_ofRows {t : Table} (ht : t.Numbered) (hlegible : ∀ r ∈ t, r.Legible) {rows : List Row}
    (hrows : ∀ r ∈ rows, r ∈ t) :
    ∃ events, Listing (printed (Streamed.ofRows rows)).output events ∧
      ReadFrom rows events (printed (Streamed.ofRows rows)).failure := by
  have hevents : ∀ rs : List Row, (∀ r ∈ rs, r ∈ t) → ∀ e ∈ rs.map Row.event, e.Legible := by
    -- the events of any of the rows are legible, since the table is numbered
    intro rs hrs e he
    obtain ⟨r, hr, rfl⟩ := List.mem_map.mp he
    exact (hlegible r (hrs r hr)).event ht (hrs r hr)
  -- all rows parse, or there is a first one that does not
  rcases Row.decodable_or_corrupt rows with hdec | ⟨before, r, c, more, rfl, hdec, hr⟩
  · have hgiven : Streamed.ofRows rows = ⟨rows.map Row.event, none⟩ := by
      rw [Streamed.ofRows, Row.toEventsUntil_eq hdec]
      rfl
    rw [hgiven]
    exact ⟨_, listing_printed (hevents rows hrows), .all (Row.map_toEvent hdec)⟩
  · have hgiven : Streamed.ofRows (before ++ r :: more) = ⟨before.map Row.event, some (.corruptRow c)⟩ := by
      rw [Streamed.ofRows, Row.toEventsUntil_of_corrupt hdec hr more]
      rfl
    -- only the rows before the corrupt one are printed
    have hbefore : ∀ x ∈ before, x ∈ t := fun x hx => hrows x (List.mem_append_left _ hx)
    rw [hgiven]
    exact ⟨_, listing_printed (hevents before hbefore), .upTo (Row.map_toEvent hdec) hr more⟩

/-- What a command line that is a reading prints of a table.
* If a type is blank then it is refused, and nothing is printed.
* Otherwise let `found` be the rows whose events the arguments ask for, in the order of their positions; a row that
  does not parse is asked for by those of its tags that do. Of these the output lists the events up to the limit,
  one on a line. If one of the rows does not parse then it lists the events before the first such row, and this
  row is the failure.
A line is read back as its event if the payload nests at most 126 containers, and as no event otherwise. -/
theorem read_prints_selected {argv : List String} (hargs : parse argv = .ok (.read a))
    (hnumbered : s.table.Numbered) (hlegible : ∀ r ∈ s.table, r.Legible)
    (hbuffer : s.settings.streamBuffer ≤ Limiter.maxPlaces) (hready : s.client.Ready) :
    ∃ outcome s', (read a).run s = some (outcome, s') ∧
      ((∃ name ∈ a.types, Text.allBlank name = true) →
        outcome = ⟨"", some (.invalidEvent .emptyEventType)⟩) ∧
      ((∀ name ∈ a.types, Text.allBlank name = false) →
        ∃ found : List Row, found.Perm (s.table.filter fun r => decide (a.Selects r.event)) ∧
          found.Pairwise (fun x y => x.position < y.position) ∧
          ∃ events, Listing outcome.output events ∧
            ReadFrom (a.limit.elim found found.take) events outcome.failure) := by
  have htags := validate_of_parse hargs
  by_cases hblank : a.types.any Text.allBlank = true
  · refine ⟨_, s, run_read_of_blank htags hbuffer hblank, fun _ => rfl, fun hnamed => ?_⟩
    -- a blank type is among the types, against the second case
    obtain ⟨name, hmem, hname⟩ := List.any_eq_true.mp hblank
    simp [hnamed name hmem] at hname
  · -- the limit is the only thing that stands between what is found and what is printed
    obtain ⟨s', hrun⟩ := run_read_of_named htags hnumbered hbuffer hready hblank
    have hq := ReadArgs.validate_query htags
    rw [if_neg hblank] at hq
    refine ⟨_, s', hrun, fun hsome => absurd (List.any_eq_true.mpr hsome) hblank, fun _ => ?_⟩
    refine ⟨a.found s.table, ReadArgs.found_perm hq s.table, ReadArgs.found_pairwise hnumbered, ?_⟩
    refine printed_ofRows hnumbered hlegible fun r hr => ?_
    rw [← ReadArgs.rows_eq_take hnumbered] at hr
    exact Selection.mem_of_mem_rows hr

/-- An amount and a note on it. -/
def payment (amount : Nat) (note : String) : Value := .object [("amount", .int amount), ("note", .string note)]

/-- Deposits to an account, not in the order of their positions, and a withdrawal between them. A note has two
lines, and the last deposit has a tag without a value. -/
def accountRows : Table :=
  let row (n : Nat) (eventType : String) (tags : List String) (note : String) : Row :=
    { id := .ofNat n, eventType, tags, data := payment n note, position := n,
      causationId := .ofNat n, correlationId := .ofNat n, createdAt := default }
  [row 1 "Deposited" ["account:1"] "", row 4 "Deposited" ["account:1", "clerk:7"] "one\ntwo",
    row 2 "Deposited" ["account:1"] "", row 3 "Withdrawn" ["account:1"] "",
    row 5 "Deposited" ["account:1", "clerk"] ""]

theorem legible_of_payment {r : Row} {amount : Nat} {note : String} (hdata : r.data = payment amount note)
    (hamount : (amount : Int) ≤ Number.maxInt) (htime : r.createdAt = default) : r.Legible where
  ordered := by
    have hkeys : ["amount", "note"].Pairwise (· < ·) := by decide +kernel
    rw [hdata]
    refine .object hkeys fun m hm => ?_
    simp only [List.mem_cons, List.not_mem_nil, or_false] at hm
    rcases hm with rfl | rfl
    · exact .number _
    · exact .string _
  numbers := by
    have hint : (Number.int amount).Legible := Number.legible_int (by simp only [Number.minInt]; omega) hamount
    rw [hdata]
    refine .object fun m hm => ?_
    simp only [List.mem_cons, List.not_mem_nil, or_false] at hm
    rcases hm with rfl | rfl
    · exact .number hint
    · exact .string note
  time := by
    rw [htime]
    decide +kernel

theorem legible_of_mem_accountRows : ∀ r ∈ accountRows, r.Legible := by
  intro r hr
  simp only [accountRows, List.mem_cons, List.not_mem_nil, or_false] at hr
  rcases hr with rfl | rfl | rfl | rfl | rfl <;> exact legible_of_payment rfl (by decide) rfl

/-- Deposits after the first position are asked for. With a limit of two both are printed, the later one with its
note of two lines; with a limit of three the row without a value of its tag is reported after them. -/
theorem read_prints_selected_of_accountRows :
    let s := Store.facing accountRows
    ∀ limit ∈ [2, 3],
      let a : ReadArgs := ⟨["Deposited"], [⟨"account", "1"⟩], 1, some limit⟩
      parse ["read", "--type", "Deposited", "--tag", "account:1", "--after", "1", "--limit", toString limit] =
          .ok (.read a) ∧
        ∃ outcome s' events, (read a).run s = some (outcome, s') ∧ Listing outcome.output events ∧
          events.map (·.position) = [2, 4] ∧
          outcome.failure = if limit = 2 then none
            else some (.corruptRow ⟨5, (ValidationError.malformedTag "clerk").message⟩) := by
  intro s limit hlimit a
  have hargs : parse ["read", "--type", "Deposited", "--tag", "account:1", "--after", "1", "--limit",
      toString limit] = .ok (.read a) := by
    simp only [List.mem_cons, List.not_mem_nil, or_false] at hlimit
    rcases hlimit with rfl | rfl
    · decide +kernel
    · decide +kernel
  have hnumbered : s.table.Numbered := by
    constructor <;> decide
  have hname : ∀ name ∈ a.types, Text.allBlank name = false := by
    intro name hmem
    rw [List.mem_singleton.mp hmem]
    decide +kernel
  obtain ⟨outcome, s', hrun, -, hnamed⟩ := read_prints_selected hargs hnumbered legible_of_mem_accountRows
    (by decide) (Store.ready_facing _)
  obtain ⟨found, hperm, hascending, events, hlisting, hread⟩ := hnamed hname
  refine ⟨hargs, outcome, s', events, hrun, hlisting, ?_⟩
  have hfilter : accountRows.filter (fun r => decide (a.Selects r.event)) =
      [accountRows[1], accountRows[2], accountRows[4]] := by
    rfl
  -- three rows are found, and there is one way to have them in order
  have hfound : found = [accountRows[2], accountRows[1], accountRows[4]] := by
    rw [Store.table_facing, hfilter] at hperm
    refine List.Perm.eq_of_pairwise (fun x y _ _ hxy hyx => absurd hxy (Int.lt_asymm hyx)) hascending ?_
      (hperm.trans (.swap _ _ _))
    decide
  obtain ⟨hevents, hfailure⟩ := hread.toEventsUntil
  rw [hevents, hfailure, hfound]
  simp only [List.mem_cons, List.not_mem_nil, or_false] at hlimit
  -- the limit decides whether the corrupt row is reached
  rcases hlimit with rfl | rfl
  · decide +kernel
  · decide +kernel

/-! ### Texts that nest too deep -/

/-- Arrays inside each other. -/
def nested : Nat → Value
  | 0 => .array []
  | n + 1 => .array [nested n]

theorem nesting_nested (n : Nat) : (nested n).nesting = n + 1 := by
  induction n with
  | zero => rfl
  | succ n ih => simp [nested, Value.nesting, nestingOfItems, ih]

theorem ordered_nested (n : Nat) : (nested n).Ordered := by
  induction n with
  | zero => exact .array (by simp)
  | succ n ih => exact .array (by simpa using ih)

theorem legible_nested (n : Nat) : (nested n).Legible := by
  induction n with
  | zero => exact .array (by simp)
  | succ n ih => exact .array (by simpa using ih)

/-- The payload of an event nests 127 containers. It parses and is printed on a line of its own, but the line nests
one container more than a text may, and it is not read back. -/
theorem read_prints_beyond_depth :
    let r : Row :=
      { id := .ofNat 1, eventType := "Nested", tags := [], data := nested 126, position := 1,
        causationId := .ofNat 1, correlationId := .ofNat 1, createdAt := default }
    let s := Store.facing [r]
    parse ["read"] = .ok (.read {}) ∧
      ∃ e outcome s', r.toEvent = .ok e ∧ (read {}).run s = some (outcome, s') ∧
        outcome.output.toList.splitOn '\n' = [e.toValue.toText.toList, []] ∧ outcome.failure = none ∧
        Json.readText Event.read e.toValue.toText = .error .malformed := by
  intro r s
  have hargs : parse ["read"] = .ok (.read {}) := by decide +kernel
  have hnumbered : s.table.Numbered := by
    constructor <;> simp [s, r, Store.table_facing, Position.max]
  have htime : Instant.parse? (default : Instant).toText = some default := by decide +kernel
  have hlegible : r.event.Legible := ⟨ordered_nested 126, legible_nested 126, ⟨by decide, by decide⟩, htime⟩
  have hfound : ReadArgs.found {} s.table = [r] := by
    have hperm := ReadArgs.found_perm (a := {}) rfl s.table
    rw [Store.table_facing] at hperm ⊢
    exact List.perm_singleton.mp hperm
  obtain ⟨s', hrun⟩ :=
    run_read_of_named (a := {}) (by simp) hnumbered (by decide) (Store.ready_facing _) (by simp)
  have hdec : r.toEvent = .ok r.event := Row.toEvent_eq_ok (by simp [Row.Decodable, r])
  have hdeep : ¬r.event.data.nesting ≤ 126 := by
    -- with the object of the event around it the payload is one container too deep
    show ¬(nested 126).nesting ≤ 126
    rw [nesting_nested]
    decide
  have hgiven : Streamed.ofRows [r] = ⟨[r.event], none⟩ := by
    rw [Streamed.ofRows, Row.toEventsUntil_eq (by simp [Row.Decodable, r])]
    rfl
  have hlisting : Listing (printed ⟨[r.event], none⟩).output [r.event] :=
    listing_printed (by simpa using hlegible)
  have hread := hlisting.read r.event (by simp)
  rw [if_neg hdeep] at hread
  have hprinted : (Command.read {}).run s = some (printed ⟨[r.event], none⟩, s') := by
    rw [hrun, hfound, ← hgiven]
    rfl
  exact ⟨hargs, r.event, _, s', hdec, hprinted, hlisting.lines, rfl, hread⟩

end Command

end Admin

end EventLog
