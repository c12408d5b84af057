import EventLog.Proofs.WireReading

/-!
# The JSON form of the vocabulary is faithful

Every value of the vocabulary is read back from its JSON form. The JSON form may be given with less: fields
that have a value of their own can be left out, at any depth, and no other ones can.

## Key results

- `Wire.Faithful`: what is asked of the JSON form of a type
- `Wire.faithful_of_shape`: a record type is faithful if its fields are what the JSON form says
- `Wire.vocabulary_is_faithful`: all types of the vocabulary have it
-/

namespace EventLog

open Json

variable {α : Type}

/-! ### Fields that are left out -/

/-- The second members are the first ones, where some that were missing have been put in from `defaults` and
those that were there may have been changed as `nested` says. -/
def Json.Members.FilledIn (defaults : Members) (nested : String → Value → Value → Prop) (ms ms' : Members) :
    Prop :=
  ∀ name, match ms.lookup name, ms'.lookup name with
    | none, none => True
    | none, some w => (name, w) ∈ defaults
    | some v, some w => nested name v w
    | some _, none => False

/-- The second value is the first one, or both are objects and the second one has been filled in. -/
inductive Json.Value.FilledIn (defaults : Members) (nested : String → Value → Value → Prop) :
    Value → Value → Prop
  | refl (v : Value) : FilledIn defaults nested v v
  | object {ms ms' : Members} (hkeys : (ms.map (·.1)).Nodup) (hkeys' : (ms'.map (·.1)).Nodup)
    (h : Members.FilledIn defaults nested ms ms') :
    FilledIn defaults nested (.object ms) (.object ms')

/-- Both values are the same, or both are arrays whose items are related one by one. -/
inductive Json.Value.EachItem (related : Value → Value → Prop) : Value → Value → Prop
  | refl (v : Value) : EachItem related v v
  | array {vs ws : List Value} (h : List.Forall₂ related vs ws) : EachItem related (.array vs) (.array ws)

namespace Json.Members.FilledIn

variable {defaults ms ms' : Members} {nested : String → Value → Value → Prop} {name : String}

/-- A field that was left out is put in. -/
theorem insert (hnone : ms.lookup name = none) {w : Value} (hmem : (name, w) ∈ defaults)
    (hrefl : ∀ k v, nested k v v) : FilledIn defaults nested ms (Members.insert name w ms) := by
  intro k
  rw [lookup_insert]
  -- under the name of the field stands its default now, under any other name what stood there
  by_cases hk : k = name
  · rw [if_pos hk, hk, hnone]
    exact hmem
  · rw [if_neg hk]
    cases ms.lookup k with
    | none => trivial
    | some v => exact hrefl k v

end Json.Members.FilledIn

/-- Arrays whose items are read alike are read alike. -/
theorem Json.Value.EachItem.read?_eq {related : Value → Value → Prop} {item : Reader α}
    (hitem : ∀ v w, related v w → v.read? item = w.read? item) {v w : Value} (h : EachItem related v w) :
    v.read? (Document.readList item) = w.read? (Document.readList item) := by
  cases h with
  | refl => rfl
  | array h =>
    -- items that stand for each other are read alike, one by one
    rw [read?_array, read?_array]
    induction h with
    | nil => rfl
    | cons hv _ ih => simp only [List.mapM_cons, hitem _ _ hv, ih]

/-- The JSON form of a type: its writer and its reader, the fields that may be left out with their values, and
the fields that must be there. -/
structure Wire (α : Type) where
  toValue : α → Value
  read : Reader α
  defaults : Members
  nested : String → Value → Value → Prop
  needed : List String

namespace Wire

/-- The second value says the same as the first one, but leaves out less. -/
def FilledIn (wire : Wire α) : Value → Value → Prop := Value.FilledIn wire.defaults wire.nested

/-- Both parts of a tag must be there. -/
def tag : Wire Tag := ⟨Tag.toValue, Tag.read, [], fun _ => Eq, ["key", "value"]⟩

/-- An item may name no event types and no tags. -/
def queryItem : Wire QueryItem :=
  ⟨QueryItem.toValue, QueryItem.read, [("event_types", .array []), ("tags", .array [])], fun _ => Eq, []⟩

/-- A query may have no items, and each of its items may leave out fields. -/
def query : Wire Query :=
  ⟨Query.toValue, Query.read, [("items", .array [])], fun _ => Value.EachItem queryItem.FilledIn, []⟩

/-- A condition may leave out its position, and its query may leave out fields. -/
def appendCondition : Wire AppendCondition :=
  ⟨AppendCondition.toValue, AppendCondition.read, [("after_position", .int 0)],
    fun name => if name = "fail_if_events_match" then query.FilledIn else Eq, ["fail_if_events_match"]⟩

/-- A proposed event needs a type and a payload. -/
def inputEvent : Wire InputEvent :=
  ⟨InputEvent.toValue, InputEvent.read,
    [("tags", .array []), ("causation_id", .null), ("correlation_id", .null)], fun _ => Eq,
    ["event_type", "data"]⟩

/-- A stored event has everything. -/
def event : Wire Event :=
  ⟨Event.toValue, Event.read, [], fun _ => Eq,
    ["id", "event_type", "tags", "data", "position", "causation_id", "correlation_id", "created_at"]⟩

/-- The JSON form of a type tells its values apart and may be given with less.
* What `holds` describes is read back as it was written.
* A value is read like one that has more of the fields that may be left out.
* An object without a field that must be there is refused. -/
structure Faithful (wire : Wire α) (holds : α → Prop) : Prop where
  round_trip : ∀ x, holds x → readFrom wire.read (wire.toValue x).sorted = .ok x
  left_out : ∀ v w, wire.FilledIn v w → readFrom wire.read v = readFrom wire.read w
  missing : ∀ ms : Members, (ms.map (·.1)).Nodup → ∀ name ∈ wire.needed, ms.lookup name = none →
    readFrom wire.read (.object ms) = .error .mismatch

/-- A value that is filled in is read alike. -/
theorem Faithful.read?_eq {wire : Wire α} {holds : α → Prop} (hwire : wire.Faithful holds) {v w : Value}
    (h : wire.FilledIn v w) : v.read? wire.read = w.read? wire.read := by
  have heq := hwire.left_out v w h
  rw [readFrom_eq_read?, readFrom_eq_read?] at heq
  -- both are read or both refused, since being refused is a result of its own
  cases hv : v.read? wire.read <;> cases hw : w.read? wire.read <;> simp_all

/-! ### Record types -/

section Records

variable {σ β : Type} {wire : Wire α} {s : Shape σ α} {name : String} {get : σ → Option β}
  {put : σ → β → σ} {item : Reader β}

/-- A field of a record type is what the JSON form says: it is needed, it presumes a value, and values of it
that may stand for each other are read alike. -/
structure Describes (wire : Wire α) (s : Shape σ α) (f : Json.Field σ) : Prop where
  needs : f.name ∈ wire.needed → s.Needs f
  presumes : ∀ w, (f.name, w) ∈ wire.defaults → s.Presumes f w
  nested : ∀ v w, wire.nested f.name v w → f.read? v = f.read? w

/-- A field held as an option reads values alike that its reader reads alike. -/
theorem nested_option (h : ∀ v w, wire.nested name v w → v.read? item = w.read? item) (v w : Value)
    (hvw : wire.nested name v w) :
    (Field.option name get put item).read? v = (Field.option name get put item).read? w := by
  rw [Field.read?_option, Field.read?_option, h v w hvw]

/-- A field that must be there. -/
theorem Describes.needed (hdefault : name ∉ wire.defaults.map (·.1))
    (hnested : ∀ v w, wire.nested name v w → v.read? item = w.read? item)
    (h : ∀ d x, s.complete? d = some x → get d ≠ none) : wire.Describes s (.option name get put item) where
  needs := by
    intro _ d hd
    -- an empty place is nothing that a record can be completed from
    have hnone : get d = none := by simpa [Field.option] using hd
    exact Option.eq_none_iff_forall_ne_some.mpr fun x hx => h d x hx hnone
  presumes := fun w hw => absurd (List.mem_map_of_mem hw) hdefault
  nested := nested_option hnested

/-- A field that has the value `x` when it is left out. -/
theorem Describes.presumed {x : β} (hneeded : name ∉ wire.needed)
    (hdefault : ∀ w, (name, w) ∈ wire.defaults → w.read? item = some x)
    (hnested : ∀ v w, wire.nested name v w → v.read? item = w.read? item)
    (h : ∀ d, get d = none → s.complete? (put d x) = s.complete? d) :
    wire.Describes s (.option name get put item) where
  needs := fun hname => absurd hname hneeded
  presumes := fun w hw => Shape.presumes_option (hdefault w hw) h
  nested := nested_option hnested

/-- The JSON form of a record type is faithful if it describes its fields and its values are read back. -/
theorem faithful_of_shape {holds : α → Prop} (hread : wire.read = s.read) (hs : s.Lawful)
    (hfields : ∀ f ∈ s.fields, wire.Describes s f) (hneeded : wire.needed ⊆ s.fields.map (·.name))
    (hround : ∀ x, holds x → (wire.toValue x).sorted.read? wire.read = some x) : wire.Faithful holds where
  round_trip := fun x hx => readFrom_eq_ok_iff.mpr (hround x hx)
  left_out := by
    intro v w h
    rw [readFrom_eq_read?, readFrom_eq_read?, hread]
    cases h with
    | refl => rfl
    | @object ms ms' hkeys hkeys' h =>
      -- field by field, by what stands under its name in both objects
      rw [hs.read?_congr hkeys hkeys' fun f hf => ?_]
      have hname := h f.name
      cases hv : ms.lookup f.name <;> cases hw : ms'.lookup f.name <;> simp only [hv, hw] at hname
      case none.none => trivial
      case none.some w => exact (hfields f hf).presumes w hname
      case some.some v w => exact (hfields f hf).nested v w hname
  missing := by
    intro ms hkeys name hname hnone
    obtain ⟨f, hf, rfl⟩ := List.mem_map.mp (hneeded hname)
    -- the field of the name is needed, so nothing can be completed
    rw [readFrom_eq_read?, hread, hs.read?_of_needs hkeys hf ((hfields f hf).needs hname) hnone]
    rfl

end Records

/-! ### The vocabulary -/

/-- Tags have a faithful JSON form. -/
theorem faithful_tag : tag.Faithful fun _ => True := by
  refine faithful_of_shape rfl Tag.lawful_shape ?_ (by decide) fun t _ => t.read?_toValue
  simp only [Tag.shape, List.forall_mem_cons, List.not_mem_nil, false_imp_iff, implies_true, and_true]
  and_intros <;>
    exact .needed (by simp [tag]) (fun _ _ h => h ▸ rfl) fun d t h => by simp [Tag.of_complete? h]

/-- Items of queries have a faithful JSON form. -/
theorem faithful_queryItem : queryItem.Faithful fun _ => True := by
  refine faithful_of_shape rfl QueryItem.lawful_shape ?_ (by decide) fun i _ => i.read?_toValue
  simp only [QueryItem.shape, List.forall_mem_cons, List.not_mem_nil, false_imp_iff, implies_true, and_true]
  -- both lists are empty when they are left out
  and_intros <;>
    exact .presumed (x := []) (by simp [queryItem]) (by simp [queryItem]; rfl) (fun _ _ h => h ▸ rfl)
      fun d h => by cases d; cases h; rfl

/-- Queries have a faithful JSON form. -/
theorem faithful_query : query.Faithful fun _ => True := by
  refine faithful_of_shape rfl Query.lawful_shape ?_ (by decide) fun q _ => q.read?_toValue
  refine List.forall_mem_singleton.mpr (.presumed (x := []) (by simp [query]) (by simp [query]; rfl)
    (fun v w hvw => ?_) fun d h => by cases d; cases h; rfl)
  -- items that leave out fields are read like those that do not
  exact hvw.read?_eq fun _ _ => faithful_queryItem.read?_eq

/-- Conditions have a faithful JSON form, at positions that can be held. -/
theorem faithful_appendCondition : appendCondition.Faithful fun c => Position.Held c.afterPosition := by
  refine faithful_of_shape rfl AppendCondition.lawful_shape ?_ (by decide) fun c hc => c.read?_toValue hc
  simp only [AppendCondition.shape, List.forall_mem_cons, List.not_mem_nil, false_imp_iff, implies_true,
    and_true]
  constructor
  · -- the query must be there, and is read like one that leaves out less
    exact .needed (by simp [appendCondition]) (fun _ _ h => faithful_query.read?_eq h) fun d c h => by
      simp [AppendCondition.of_complete? h]
  · -- the position is 0 when it is left out
    exact .presumed (x := 0) (by simp [appendCondition]) (by simp [appendCondition]; rfl)
      (fun _ _ h => h ▸ rfl) fun d h => by cases d; cases h; rfl

/-- Proposed events have a faithful JSON form, if the members of the payload are in order. -/
theorem faithful_inputEvent : inputEvent.Faithful fun e => e.data.Ordered := by
  refine faithful_of_shape rfl InputEvent.lawful_shape ?_ (by decide) fun e he => e.read?_toValue he
  simp only [InputEvent.shape, List.forall_mem_cons, List.not_mem_nil, false_imp_iff, implies_true, and_true]
  refine ⟨?eventType, ?tags, ?data, ?causationId, ?correlationId⟩
  case eventType | data =>
    exact .needed (by simp [inputEvent]) (fun _ _ h => h ▸ rfl) fun d e h => by
      simp [InputEvent.of_complete? h]
  case tags =>
    exact .presumed (x := []) (by simp [inputEvent]) (by simp [inputEvent]; rfl) (fun _ _ h => h ▸ rfl)
      fun d h => by cases d; cases h; rfl
  case causationId | correlationId =>
    exact .presumed (x := none) (by simp [inputEvent]) (by simp [inputEvent]; rfl) (fun _ _ h => h ▸ rfl)
      fun d h => by cases d; cases h; rfl

/-- Stored events have a faithful JSON form, if payload, position and instant are read back. -/
theorem faithful_event : event.Faithful fun e => e.data.Ordered ∧ Position.Held e.position ∧
    Instant.parse? e.createdAt.toText = some e.createdAt := by
  refine faithful_of_shape rfl Event.lawful_shape ?_ (by decide) fun e ⟨hdata, hpos, htime⟩ =>
    e.read?_toValue hdata hpos htime
  simp only [Event.shape, List.forall_mem_cons, List.not_mem_nil, false_imp_iff, implies_true, and_true]
  and_intros <;>
    exact .needed (by simp [event]) (fun _ _ h => h ▸ rfl) fun d e h => by simp [Event.of_complete? h]

/-- All types of the vocabulary are read back from their JSON form, as long as a payload has its members in
order, a position fits 64 bits, and an instant is read back from its text. Items, event types, tags, the
position of a condition, cause and group may be left out where they have a value of their own; everything else
must be there. -/
theorem vocabulary_is_faithful :
    tag.Faithful (fun _ => True) ∧ queryItem.Faithful (fun _ => True) ∧ query.Faithful (fun _ => True) ∧
      appendCondition.Faithful (fun c => Position.Held c.afterPosition) ∧
      inputEvent.Faithful (fun e => e.data.Ordered) ∧
      event.Faithful fun e => e.data.Ordered ∧ Position.Held e.position ∧
        Instant.parse? e.createdAt.toText = some e.createdAt :=
  ⟨faithful_tag, faithful_queryItem, faithful_query, faithful_appendCondition, faithful_inputEvent,
    faithful_event⟩

/-- A deposit is read back with its payload, also with the least position that there can be. A proposed deposit
without tags is read like one with an empty list of them, and one without a type is refused. -/
theorem vocabulary_is_faithful_on_deposit :
    let payload : Value := .object [("amount", .int 5), ("note", .null)]
    let e : Event :=
      ⟨.ofNat 7, "Deposited", [⟨"account", "17"⟩], payload, Position.min, .ofNat 7, .ofNat 3, default⟩
    let proposed : Members := [("data", payload), ("event_type", .string "Deposited")]
    readFrom Event.read e.toValue.sorted = .ok e ∧
      readFrom InputEvent.read (.object proposed) =
        readFrom InputEvent.read (.object (Members.insert "tags" (.array []) proposed)) ∧
      readFrom InputEvent.read (.object (proposed.take 1)) = .error .mismatch := by
  intro payload e proposed
  obtain ⟨-, -, -, -, hinput, hevent⟩ := vocabulary_is_faithful
  have hpayload : payload.Ordered := .object (by decide) fun m hm => by
    simp only [List.mem_cons, List.not_mem_nil, or_false] at hm
    rcases hm with rfl | rfl
    · exact .number _
    · exact .null
  have htime : Instant.parse? e.createdAt.toText = some e.createdAt := by decide +kernel
  refine ⟨hevent.round_trip e ⟨hpayload, ⟨Int.le_refl _, by decide⟩, htime⟩,
    hinput.left_out _ _ (.object (by decide) (by decide) (.insert rfl List.mem_cons_self fun _ _ => rfl)),
    hinput.missing _ (by decide) "event_type" List.mem_cons_self rfl⟩

end Wire

end EventLog
