import EventLog.Proofs.JsonText
import EventLog.Proofs.WireReading

/-!
# The text of an event

A text may nest 127 containers and no more. An event is an object around its payload, so the text of an event
is read back as the event if the payload nests at most 126 containers, and refused otherwise.

## Key results

- `Value.Ordered.readValue_some`: a value is read up to a depth
- `Event.read_ofText`: an event is read up to the depth of a text
- `Event.readText_toText`: the text of an event
-/

namespace EventLog

open Json

namespace Json

/-! ### Nesting -/

mutual

/-- How many containers stand inside each other, at most. -/
def Value.nesting : Value → Nat
  | .array items => nestingOfItems items + 1
  | .object members => nestingOfMembers members + 1
  | _ => 0

/-- The deepest nesting of the items of an array. -/
def nestingOfItems : List Value → Nat
  | [] => 0
  | v :: vs => max v.nesting (nestingOfItems vs)

/-- The deepest nesting of the members of an object. -/
def nestingOfMembers : List (String × Value) → Nat
  | [] => 0
  | (_, v) :: ms => max v.nesting (nestingOfMembers ms)

end

namespace Document

variable {n : Nat}

/-- Items are read up to a depth if each of them is. -/
theorem readValues_some {items : List Value}
    (h : ∀ v ∈ items, readValue (some n) (ofValue v) = if v.nesting ≤ n then .ok v else .error .malformed) :
    readValues (some n) (documentsOf items) =
      if nestingOfItems items ≤ n then .ok items else .error .malformed := by
  -- by induction on the items: the reader fails at the first item that is too deep
  induction items with
  | nil => rfl
  | cons v items ih =>
    obtain ⟨hv, hitems⟩ := List.forall_mem_cons.mp h
    simp only [documentsOf, readValues, hv, ih hitems, nestingOfItems, Nat.max_le]
    by_cases hdeep : v.nesting ≤ n
    · by_cases hrest : nestingOfItems items ≤ n <;> simp [hdeep, hrest, bind, Except.bind, pure, Except.pure]
    · simp [hdeep, bind, Except.bind]

/-- Members in order are read up to a depth if each of them is. -/
theorem readMembers_some (acc : Members) {members : Members}
    (hkeys : ((acc ++ members).map (·.1)).Pairwise (· < ·))
    (h : ∀ m ∈ members,
      readValue (some n) (ofValue m.2) = if m.2.nesting ≤ n then .ok m.2 else .error .malformed) :
    readMembers (some n) acc (memberDocumentsOf members) =
      if nestingOfMembers members ≤ n then .ok (acc ++ members) else .error .malformed := by
  induction members generalizing acc with
  | nil => simp [memberDocumentsOf, readMembers, nestingOfMembers]
  | cons m members ih =>
    obtain ⟨hm, hmembers⟩ := List.forall_mem_cons.mp h
    -- the keys are in order, so a member is put behind those that were read
    have hlast : ∀ k ∈ acc, k.1 < m.1 := by
      rw [List.map_append, List.pairwise_append] at hkeys
      exact fun k hk => hkeys.2.2 k.1 (List.mem_map_of_mem hk) m.1 (by simp)
    have hrest := ih (acc ++ [m]) (by simpa using hkeys) hmembers
    rw [List.append_assoc, List.singleton_append] at hrest
    simp only [memberDocumentsOf, readMembers, hm, nestingOfMembers, Nat.max_le]
    by_cases hdeep : m.2.nesting ≤ n
    · simp only [hdeep, if_true, bind, Except.bind, Members.insert_eq_append hlast, hrest, true_and]
    · simp [hdeep, bind, Except.bind]

end Document

/-- A value is read back if it nests no deeper than asked, and is refused otherwise. -/
theorem Value.Ordered.readValue_some {v : Value} (h : v.Ordered) (n : Nat) :
    Document.readValue (some n) (.ofValue v) = if v.nesting ≤ n then .ok v else .error .malformed := by
  -- by induction on the value; a container enters one level, which is where the bound is used up
  induction h generalizing n with
  | null => simp [Document.ofValue, Document.readValue, nesting]
  | bool b => simp [Document.ofValue, Document.readValue, nesting]
  | number m => simp [Document.ofValue, Document.readValue, nesting]
  | string s => simp [Document.ofValue, Document.readValue, nesting]
  | array h ih =>
    rename_i items
    cases n with
    -- at depth zero no container is entered, not even an empty one
    | zero => simp [Document.ofValue, Document.readValue, Depth.enter, nesting, bind, Except.bind]
    | succ n =>
      have hitems := Document.readValues_some fun v hv => ih v hv n
      by_cases hdeep : nestingOfItems items ≤ n <;>
        simp [Document.ofValue, Document.readValue, Depth.enter, nesting, hitems, hdeep, Document.close, bind,
          Except.bind, pure, Except.pure]
  | object hkeys h ih =>
    rename_i members
    cases n with
    | zero => simp [Document.ofValue, Document.readValue, Depth.enter, nesting, bind, Except.bind]
    | succ n =>
      have hmembers := Document.readMembers_some [] hkeys fun m hm => ih m hm n
      by_cases hdeep : nestingOfMembers members ≤ n <;>
        simp [Document.ofValue, Document.readValue, Depth.enter, nesting, hmembers, hdeep, Document.close, bind,
          Except.bind, pure, Except.pure]

section

variable {σ β : Type} {fields : List (Field σ)} {name : String} {get : σ → Option β} {put : σ → β → σ}
  {item : Reader β} {depth : Depth} {acc : σ} {d : Document}

/-- The member of a field that has not been read is put into the record. -/
theorem Shape.readMembers_of_ok (hfind : fields.find? (·.name == name) = some (.option name get put item))
    (hunset : get acc = none) {x : β} (hx : item depth d = .ok x) (ms : List (Except Defect String × Document)) :
    readMembers fields depth acc ((.ok name, d) :: ms) = readMembers fields depth (put acc x) ms := by
  -- the field has not been read, so the member is not a second one of its name
  simp only [readMembers, bind, Except.bind, hfind]
  simp [Field.option, hunset, hx, bind, Except.bind, pure, Except.pure]

/-- A member that is refused ends the reading. -/
theorem Shape.readMembers_of_error (hfind : fields.find? (·.name == name) = some (.option name get put item))
    (hunset : get acc = none) {e : Defect} (he : item depth d = .error e)
    (ms : List (Except Defect String × Document)) :
    readMembers fields depth acc ((.ok name, d) :: ms) = .error e := by
  simp only [readMembers, bind, Except.bind, hfind]
  simp [Field.option, hunset, he, bind, Except.bind]

end

end Json

/-! ### Reading up to a depth -/

/-- An identifier is read at any depth, since it is a string. -/
theorem EventId.read_ofValue (id : EventId) (depth : Depth) : read depth (.ofValue id.toValue) = .ok id := by
  simp only [toValue, Document.ofValue, read, Document.readString, bind, Except.bind, parse?_toText]
  rfl

/-- A time is read at any depth if its text is read back. -/
theorem Instant.read_ofValue {t : Instant} (h : parse? t.toText = some t) (depth : Depth) :
    read depth (.ofValue t.toValue) = .ok t := by
  simp only [toValue, Document.ofValue, read, Document.readString, bind, Except.bind, h]
  rfl

/-- A position that the log can hold is read at any depth. -/
theorem Position.read_ofValue {p : Position} (h : p.Held) (depth : Depth) :
    read depth (.ofValue (.int p)) = .ok p := by
  simp [Value.int, Document.ofValue, read, Document.readInt, h.1, h.2]

namespace Tag

/-- A tag is an object of strings. -/
theorem read_ofValue (t : Tag) (n : Nat) : read (some (n + 1)) (.ofValue t.toValue) = .ok t := rfl

/-- Tags nest two containers. -/
theorem readList_ofValue (ts : List Tag) (n : Nat) :
    Document.readList read (some (n + 2)) (.ofValue (listToValue ts)) = .ok ts := by
  -- one tag after the other, each an object inside the array
  have heach : Document.readEach read (some (n + 1)) (documentsOf (ts.map toValue)) = .ok ts := by
    induction ts with
    | nil => rfl
    | cons t ts ih =>
      simp only [List.map_cons, documentsOf, Document.readEach, read_ofValue, ih]
      rfl
  simp only [listToValue, Document.ofValue, Document.readList, Depth.enter, bind, Except.bind, heach]
  rfl

end Tag

namespace Event

/-- An event is read from a text if its payload does not nest too deep there. -/
theorem read_ofText {e : Event} (hdata : e.data.Ordered) (hpos : Position.Held e.position)
    (htime : Instant.parse? e.createdAt.toText = some e.createdAt) :
    read Depth.ofText (.ofValue e.toValue) = if e.data.nesting ≤ 126 then .ok e else .error .malformed := by
  -- the object of the event takes one level, and leaves 126 of those of a text
  have hread : ∀ r, Shape.readMembers shape.fields (some 126) shape.blank
      (memberDocumentsOf [("id", e.id.toValue), ("event_type", .string e.eventType),
        ("tags", Tag.listToValue e.tags), ("data", e.data), ("position", .int e.position),
        ("causation_id", e.causationId.toValue), ("correlation_id", e.correlationId.toValue),
        ("created_at", e.createdAt.toValue)]) = r →
      read Depth.ofText (.ofValue e.toValue) = r >>= shape.complete := by
    intro r hr
    simp only [read, Shape.read, Depth.ofText, toValue, Document.ofValue, Depth.enter, hr, bind, Except.bind]
    cases r <;> rfl
  have hvalue := hdata.readValue_some 126
  by_cases hdeep : e.data.nesting ≤ 126
  · rw [if_pos hdeep] at hvalue ⊢
    -- every member is read, in the order in which they are written
    refine hread (.ok ⟨some e.id, some e.eventType, some e.tags, some e.data, some e.position,
      some e.causationId, some e.correlationId, some e.createdAt⟩) ?_
    simp only [memberDocumentsOf]
    rw [Shape.readMembers_of_ok rfl rfl (EventId.read_ofValue e.id _),
      Shape.readMembers_of_ok rfl rfl (x := e.eventType) rfl,
      Shape.readMembers_of_ok rfl rfl (Tag.readList_ofValue e.tags 124),
      Shape.readMembers_of_ok rfl rfl hvalue,
      Shape.readMembers_of_ok rfl rfl (Position.read_ofValue hpos _),
      Shape.readMembers_of_ok rfl rfl (EventId.read_ofValue e.causationId _),
      Shape.readMembers_of_ok rfl rfl (EventId.read_ofValue e.correlationId _),
      Shape.readMembers_of_ok rfl rfl (Instant.read_ofValue htime _)]
    rfl
  · rw [if_neg hdeep] at hvalue ⊢
    -- the payload comes after identifier, type and tags, and what stands behind it is not read any more
    refine hread (.error .malformed) ?_
    simp only [memberDocumentsOf]
    rw [Shape.readMembers_of_ok rfl rfl (EventId.read_ofValue e.id _),
      Shape.readMembers_of_ok rfl rfl (x := e.eventType) rfl,
      Shape.readMembers_of_ok rfl rfl (Tag.readList_ofValue e.tags 124),
      Shape.readMembers_of_error rfl rfl hvalue]

/-! ### Texts -/

/-- An event whose parts are read back from their texts. -/
structure Legible (e : Event) : Prop where
  ordered : e.data.Ordered
  numbers : e.data.Legible
  position : Position.Held e.position
  time : Instant.parse? e.createdAt.toText = some e.createdAt

/-- The numbers of an event are those of its payload, and its position. -/
theorem Legible.toValue {e : Event} (h : e.Legible) : e.toValue.Legible := by
  have htags : (Tag.listToValue e.tags).Legible := by
    -- tags hold strings only
    refine .array fun v hv => ?_
    obtain ⟨t, -, rfl⟩ := List.mem_map.mp hv
    refine .object fun m hm => ?_
    simp only [List.mem_cons, List.not_mem_nil, or_false] at hm
    rcases hm with rfl | rfl <;> exact .string _
  have hposition : (Number.int e.position).Legible :=
    Number.legible_int h.position.1 (Int.le_trans h.position.2 (by decide))
  refine .object fun m hm => ?_
  simp only [List.mem_cons, List.not_mem_nil, or_false] at hm
  rcases hm with rfl | rfl | rfl | rfl | rfl | rfl | rfl | rfl
  · exact .string _
  · exact .string _
  · exact htags
  · exact h.numbers
  · exact .number hposition
  · exact .string _
  · exact .string _
  · exact .string _

/-- The text of an event is read back unless its payload nests too deep. -/
theorem readText_toText {e : Event} (h : e.Legible) :
    readText read e.toValue.toText = if e.data.nesting ≤ 126 then .ok e else .error .malformed := by
  simp only [readText, Source.read_toText h.toValue, read_ofText h.ordered h.position h.time]
  -- the text denotes the value, so what is left is to read that as an event
  by_cases hdeep : e.data.nesting ≤ 126
  · simp [hdeep, Document.close, bind, Except.bind, pure, Except.pure]
  · simp [hdeep, bind, Except.bind]

end Event

end EventLog
