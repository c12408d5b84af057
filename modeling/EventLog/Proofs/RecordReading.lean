import EventLog.Proofs.ValueOrder

/-!
# Reading records from values

A record is read from an object member by member. As the members are values already, nothing but the value
of a field matters: neither the order of the members nor what stands under other keys. So reading a record
is looking up its fields, and what happens without a field depends on how the record is completed: it cannot
be, or the field has a value of its own.

## Key results

- `Shape.Lawful.read?_object`: a record is read by looking up its fields
- `Shape.Lawful.read?_of_needs`: an object without a field that is needed
- `Shape.Lawful.read?_congr`: two objects that are read alike
- `readFields_sortedMembers`: a field that has been written
-/

namespace EventLog.Json

variable {σ α β : Type}

/-! ### Reading values -/

/-- What a reader makes of a value. A value has the right form already, so why a reader refuses it does not
matter. -/
def Value.read? (item : Reader α) (v : Value) : Option α := (item none (.ofValue v)).toOption

theorem toOption_bind {ε : Type} (x : Except ε α) (f : α → Except ε β) :
    (x >>= f).toOption = x.toOption.bind fun a => (f a).toOption := by
  cases x <;> rfl

/-- A value with the wrong form for a reader is a mismatch, whatever the reader's own complaint was. -/
theorem readFrom_eq_read? (item : Reader α) (v : Value) :
    readFrom item v = (v.read? item).elim (.error .mismatch) .ok := by
  simp only [readFrom, Value.read?]
  cases item none (.ofValue v) <;> rfl

theorem readFrom_eq_ok_iff {item : Reader α} {v : Value} {x : α} :
    readFrom item v = .ok x ↔ v.read? item = some x := by
  rw [readFrom_eq_read?]
  cases v.read? item <;> simp

namespace Value

variable {item : Reader α}

theorem read?_string (s : String) : (Value.string s).read? Document.readString = some s := rfl

/-- An integer is read as itself if it lies in the reader's range. -/
theorem read?_int {lo hi n : Int} (hlo : lo ≤ n) (hhi : n ≤ hi) :
    (Value.int n).read? (Document.readInt lo hi) = some n := by
  simp [read?, int, Document.ofValue, Document.readInt, hlo, hhi, Except.toOption]

/-- A value in its normal form survives being read as a value. -/
theorem Ordered.read? {v : Value} (h : v.Ordered) : v.read? Document.readValue = some v := by
  rw [Value.read?, h.readValue_ofValue]
  rfl

/-- The items of an array are read one by one. -/
theorem read?_array (item : Reader α) (vs : List Value) :
    (Value.array vs).read? (Document.readList item) = vs.mapM (·.read? item) := by
  -- the items alone, without the array around them: by induction, as the first item fails before the rest
  have heach : (Document.readEach item none (documentsOf vs)).toOption = vs.mapM (·.read? item) := by
    induction vs with
    | nil => rfl
    | cons v vs ih =>
      rw [documentsOf, Document.readEach, toOption_bind, List.mapM_cons, ← ih]
      simp only [toOption_bind]
      rfl
  rw [read?, Document.ofValue, Document.readList, toOption_bind, ← heach]
  simp only [toOption_bind]
  exact Option.bind_fun_some _

end Value

/-! ### Fields -/

/-- What a field makes of a value: it is read and put into a partial record. -/
def Field.read? (f : Field σ) (v : Value) (acc : σ) : Option σ := (f.read none (.ofValue v) acc).toOption

/-- A field held as an option is put when its value can be read, and refuses the value otherwise. -/
theorem Field.read?_option (name : String) (get : σ → Option α) (put : σ → α → σ) (item : Reader α)
    (v : Value) :
    (Field.option name get put item).read? v = fun acc => (v.read? item).map (put acc) := by
  funext acc
  simp only [Field.read?, option, Value.read?]
  cases item none (.ofValue v) <;> rfl

/-- Two fields are read independently: they have different names, neither counts as read because the other one
was, and their order makes no difference. -/
structure Field.Independent (f g : Field σ) : Prop where
  names : f.name ≠ g.name
  isSet_right : ∀ {v s s'}, f.read? v s = some s' → g.isSet s' = g.isSet s
  isSet_left : ∀ {v s s'}, g.read? v s = some s' → f.isSet s' = f.isSet s
  comm : ∀ v w s, (f.read? v s).bind (g.read? w) = (g.read? w s).bind (f.read? v)

theorem Field.Independent.symm {f g : Field σ} (h : f.Independent g) : g.Independent f where
  names := h.names.symm
  isSet_right := h.isSet_left
  isSet_left := h.isSet_right
  comm := fun v w s => (h.comm w v s).symm

instance : Std.Symm (Field.Independent : Field σ → Field σ → Prop) := ⟨fun _ _ h => h.symm⟩

/-- Fields that are held as options in different places of a partial record are independent. -/
theorem Field.independent_option {name name' : String} {get : σ → Option α} {put : σ → α → σ}
    {get' : σ → Option β} {put' : σ → β → σ} {item : Reader α} {item' : Reader β} (hname : name ≠ name')
    (hget : ∀ s x, get (put' s x) = get s) (hget' : ∀ s x, get' (put s x) = get' s)
    (hput : ∀ s x y, put' (put s x) y = put (put' s y) x) :
    Field.Independent (.option name get put item) (.option name' get' put' item') where
  names := hname
  isSet_right := by
    intro v s s' h
    rw [read?_option] at h
    -- a value that was read was put, and putting the second field leaves the first one
    obtain ⟨x, -, rfl⟩ := Option.map_eq_some_iff.mp h
    exact congrArg Option.isSome (hget' s x)
  isSet_left := by
    intro v s s' h
    rw [read?_option] at h
    obtain ⟨x, -, rfl⟩ := Option.map_eq_some_iff.mp h
    exact congrArg Option.isSome (hget s x)
  comm := by
    intro v w s
    simp only [read?_option]
    cases v.read? item with
    | none => cases w.read? item' <;> rfl
    | some x =>
      cases w.read? item' with
      | none => rfl
      | some y => exact congrArg some (hput s x y)

/-! ### Reading fields in turn -/

/-- Reads the fields of a record in turn, each from the member of its name. -/
def readFields (ms : Members) : List (Field σ) → σ → Option σ
  | [], acc => some acc
  | f :: fs, acc =>
    match ms.lookup f.name with
    | none => readFields ms fs acc
    | some v => (f.read? v acc).bind (readFields ms fs)

section Fields

variable {fs : List (Field σ)} {f : Field σ} {ms ms' : Members} {v : Value} {acc : σ}

theorem readFields_cons_of_none (h : ms.lookup f.name = none) :
    readFields ms (f :: fs) acc = readFields ms fs acc := by
  rw [readFields, h]

theorem readFields_cons_of_some (h : ms.lookup f.name = some v) :
    readFields ms (f :: fs) acc = (f.read? v acc).bind (readFields ms fs) := by
  rw [readFields, h]

/-- An object without members leaves a partial record as it is. -/
theorem readFields_nil (fs : List (Field σ)) (acc : σ) : readFields [] fs acc = some acc := by
  induction fs with
  | nil => rfl
  | cons f fs ih => exact ih

/-- A member that is no field makes no difference. -/
theorem readFields_of_not_mem {key : String} (h : ∀ f ∈ fs, f.name ≠ key) (v : Value) (acc : σ) :
    readFields ((key, v) :: ms) fs acc = readFields ms fs acc := by
  -- by induction on the fields, each of which passes over the new member
  induction fs generalizing acc with
  | nil => rfl
  | cons f fs ih =>
    obtain ⟨hf, hfs⟩ := List.forall_mem_cons.mp h
    simp only [readFields, Members.lookup_cons, if_neg hf, funext (ih hfs)]

/-- A field can be read before other ones or after them. -/
theorem readFields_comm (h : ∀ g ∈ fs, f.Independent g) (v : Value) (acc : σ) :
    (f.read? v acc).bind (readFields ms fs) = (readFields ms fs acc).bind (f.read? v) := by
  induction fs generalizing acc with
  | nil => exact Option.bind_fun_some _
  | cons g fs ih =>
    obtain ⟨hg, hfs⟩ := List.forall_mem_cons.mp h
    simp only [readFields]
    cases ms.lookup g.name with
    | none => exact ih hfs acc
    | some w =>
      -- `f` moves past `g` alone, and past the others by induction
      calc (f.read? v acc).bind (fun s => (g.read? w s).bind (readFields ms fs))
        _ = ((g.read? w acc).bind (f.read? v)).bind (readFields ms fs) := by
            rw [← hg.comm, Option.bind_assoc]
        _ = ((g.read? w acc).bind (readFields ms fs)).bind (f.read? v) := by
            rw [Option.bind_assoc, Option.bind_assoc, funext (ih hfs)]

/-- The member of a field can be read before those of all other fields. -/
theorem readFields_of_mem (hfs : fs.Pairwise Field.Independent) (hf : f ∈ fs) (v : Value)
    (hnew : ms.lookup f.name = none) (acc : σ) :
    readFields ((f.name, v) :: ms) fs acc = (f.read? v acc).bind (readFields ms fs) := by
  induction fs generalizing acc with
  | nil => exact nomatch hf
  | cons g fs ih =>
    obtain ⟨hg, hfs⟩ := List.pairwise_cons.mp hfs
    rcases List.mem_cons.mp hf with rfl | hf
    · -- the field is first in line; the others do not look at its member
      have hothers : ∀ g ∈ fs, g.name ≠ f.name := fun g hmem => (hg g hmem).names.symm
      simp only [readFields, Members.lookup_cons, if_true, hnew, funext (readFields_of_not_mem hothers v)]
    · -- the field comes later, and what is in line before it changes places with it
      have hindep := hg f hf
      simp only [readFields, Members.lookup_cons, if_neg hindep.names]
      cases ms.lookup g.name with
      | none => exact ih hfs hf acc
      | some w =>
        -- the two fields change places
        dsimp only
        rw [funext (ih hfs hf), ← Option.bind_assoc, hindep.comm, Option.bind_assoc]

/-- A field is set by nothing but its own member. -/
theorem isSet_of_readFields {d : σ} (h : ∀ g ∈ fs, ms.lookup g.name ≠ none → f.Independent g)
    (hread : readFields ms fs acc = some d) : f.isSet d = f.isSet acc := by
  induction fs generalizing acc with
  | nil => rw [← Option.some.inj hread]
  -- only a field with a member is read, and such a field is independent of `f`
  | cons g fs ih =>
    obtain ⟨hg, hfs⟩ := List.forall_mem_cons.mp h
    cases hw : ms.lookup g.name with
    | none => exact ih hfs (by rwa [readFields_cons_of_none hw] at hread)
    | some w =>
      rw [readFields_cons_of_some hw, Option.bind_eq_some_iff] at hread
      obtain ⟨acc', hacc', hread⟩ := hread
      rw [ih hfs hread, (hg (by simp [hw])).isSet_left hacc']

end Fields

/-! ### Records -/

namespace Shape

/-- A record type whose fields can be read in any order. -/
structure Lawful (s : Shape σ α) : Prop where
  independent : s.fields.Pairwise Field.Independent
  unset : ∀ f ∈ s.fields, f.isSet s.blank = false

/-- What becomes of a partial record when all members have been read. -/
def complete? (s : Shape σ α) (d : σ) : Option α := (s.complete d).toOption

/-- A record without the field is refused. -/
def Needs (s : Shape σ α) (f : Field σ) : Prop := ∀ d, f.isSet d = false → s.complete? d = none

/-- A record without the field becomes what it would be with `v` in it. -/
def Presumes (s : Shape σ α) (f : Field σ) (v : Value) : Prop :=
  ∀ d, f.isSet d = false → (f.read? v d).bind s.complete? = s.complete? d

/-- A field held as an option presumes a value if putting that value completes to the same record as nothing.
-/
theorem presumes_option {s : Shape σ α} {name : String} {get : σ → Option β} {put : σ → β → σ}
    {item : Reader β} {v : Value} {x : β} (hx : v.read? item = some x)
    (h : ∀ d, get d = none → s.complete? (put d x) = s.complete? d) :
    s.Presumes (.option name get put item) v := by
  intro d hd
  rw [Field.read?_option, hx]
  exact h d (Option.isNone_iff_eq_none.mp (by simpa [Field.option] using hd))

/-- Members of different keys, those of fields that are not read yet, are read by looking up the fields. -/
theorem readMembers_eq_readFields {fs : List (Field σ)} (hfs : fs.Pairwise Field.Independent) {ms : Members}
    (hkeys : (ms.map (·.1)).Nodup) {acc : σ}
    (hunset : ∀ f ∈ fs, f.name ∈ ms.map (·.1) → f.isSet acc = false) :
    (readMembers fs none acc (memberDocumentsOf ms)).toOption = readFields ms fs acc := by
  induction ms generalizing acc with
  | nil => exact (readFields_nil fs acc).symm
  | cons m ms ih =>
    obtain ⟨key, v⟩ := m
    obtain ⟨hnew, hrest⟩ := List.nodup_cons.mp hkeys
    rw [memberDocumentsOf, readMembers]
    cases hfind : fs.find? (·.name == key) with
    | none =>
      -- a member that is no field is passed over
      have hother : ∀ f ∈ fs, f.name ≠ key := by simpa using hfind
      rw [readFields_of_not_mem hother,
        ← ih hrest fun f hf hmem => hunset f hf (List.mem_cons_of_mem _ hmem)]
      simp only [bind, Except.bind, hfind, Document.skip_ofValue]
    | some f =>
      -- the field of the member is moved to the front, where it is read
      have hf : f ∈ fs := List.mem_of_find?_eq_some hfind
      obtain rfl : f.name = key := by simpa using List.find?_some hfind
      have hnone : ms.lookup f.name = none := List.lookup_eq_none_iff.mpr fun n hn => by
        simpa using fun heq : f.name = n.1 => hnew (List.mem_map.mpr ⟨n, hn, heq.symm⟩)
      have hset : f.isSet acc = false := hunset f hf List.mem_cons_self
      rw [readFields_of_mem hfs hf v hnone, Field.read?]
      simp only [bind, Except.bind, hfind, hset, Bool.false_eq_true, if_false]
      cases hread : f.read none (.ofValue v) acc with
      | error e => rfl
      | ok acc' =>
        -- the field is set now, but its key does not come again
        refine ih hrest fun g hg hmem => ?_
        have hne : f ≠ g := fun heq => hnew (heq ▸ hmem)
        have hread' : f.read? v acc = some acc' := congrArg Except.toOption hread
        rw [(hfs.forall hf hg hne).isSet_right hread']
        exact hunset g hg (List.mem_cons_of_mem _ hmem)

namespace Lawful

variable {s : Shape σ α} {ms ms' : Members}

/-- A record is read from an object by looking up its fields and completing what they give. -/
theorem read?_object (hs : s.Lawful) (hkeys : (ms.map (·.1)).Nodup) :
    (Value.object ms).read? s.read = (readFields ms s.fields s.blank).bind s.complete? := by
  rw [Value.read?, Document.ofValue, read, toOption_bind,
    ← readMembers_eq_readFields hs.independent hkeys fun f hf _ => hs.unset f hf]
  simp only [toOption_bind]
  rfl

/-- An object without a field that is needed is refused. -/
theorem read?_of_needs (hs : s.Lawful) (hkeys : (ms.map (·.1)).Nodup) {f : Field σ} (hf : f ∈ s.fields)
    (hneeds : s.Needs f) (hnone : ms.lookup f.name = none) : (Value.object ms).read? s.read = none := by
  rw [hs.read?_object hkeys, Option.bind_eq_none_iff]
  intro d hread
  refine hneeds d ((isSet_of_readFields (fun g hg hne => ?_) hread).trans (hs.unset f hf))
  -- the field itself has no member
  have hother : f ≠ g := fun heq => hne (heq ▸ hnone)
  exact hs.independent.forall hf hg hother

/-- Objects are read alike if, field by field, they hold values that are read alike, or only the second one
holds a value, which is presumed in the first one. -/
theorem read?_congr (hs : s.Lawful) (hkeys : (ms.map (·.1)).Nodup) (hkeys' : (ms'.map (·.1)).Nodup)
    (h : ∀ f ∈ s.fields, match ms.lookup f.name, ms'.lookup f.name with
      | none, none => True
      | none, some w => s.Presumes f w
      | some v, some w => f.read? v = f.read? w
      | some _, none => False) :
    (Value.object ms).read? s.read = (Value.object ms').read? s.read := by
  -- by induction on the fields that are left, none of which is set yet
  have hfields : ∀ {fs : List (Field σ)} {acc : σ}, fs.Pairwise Field.Independent →
      (∀ f ∈ fs, f ∈ s.fields ∧ f.isSet acc = false) →
      (readFields ms fs acc).bind s.complete? = (readFields ms' fs acc).bind s.complete? := by
    intro fs acc hfs hunset
    induction fs generalizing acc with
    | nil => rfl
    | cons f fs ih =>
      obtain ⟨hf, hfs⟩ := List.pairwise_cons.mp hfs
      obtain ⟨⟨hmem, hset⟩, hrest⟩ := List.forall_mem_cons.mp hunset
      have hname := h f hmem
      cases hv : ms.lookup f.name <;> cases hw : ms'.lookup f.name <;> simp only [hv, hw] at hname
      case none.none =>
        rw [readFields_cons_of_none hv, readFields_cons_of_none hw]
        exact ih hfs hrest
      case none.some w =>
        -- the value is read last, where it makes no difference
        rw [readFields_cons_of_none hv, readFields_cons_of_some hw, readFields_comm hf, Option.bind_assoc,
          ih hfs hrest]
        refine Option.bind_congr fun d hread => (hname d ?_).symm
        exact (isSet_of_readFields (fun g hg _ => hf g hg) hread).trans hset
      case some.some v w =>
        rw [readFields_cons_of_some hv, readFields_cons_of_some hw, hname, Option.bind_assoc,
          Option.bind_assoc]
        refine Option.bind_congr fun acc' hacc' => ih hfs fun g hg => ?_
        exact ⟨(hrest g hg).1, ((hf g hg).isSet_right hacc').trans (hrest g hg).2⟩
  rw [hs.read?_object hkeys, hs.read?_object hkeys']
  exact hfields hs.independent fun f hf => ⟨hf, hs.unset f hf⟩

end Lawful

end Shape

/-- What is completed has every field that it requires. -/
theorem of_required_bind {x : Option β} {f : β → Except Defect α} {a : α}
    (h : (required x >>= f).toOption = some a) : ∃ b, x = some b ∧ (f b).toOption = some a := by
  cases x with
  | none => cases h
  | some b => exact ⟨b, rfl, h⟩

/-! ### Written records -/

/-- Sorted members have different keys, since the keys increase. -/
theorem Members.nodup_sortedMembers (ms : Members) : ((sortedMembers [] ms).map (·.1)).Nodup := by
  have hkeys : ((sortedMembers [] ms).map (·.1)).Pairwise (· < ·) := pairwise_sortedMembers .nil ms
  exact hkeys.imp fun {a b} (h : a < b) (heq : a = b) => String.lt_irrefl b (heq ▸ h)

/-- A field that has been written is put, whatever its place among the sorted members. -/
theorem readFields_sortedMembers {ms : Members} {name : String} {get : σ → Option α} {put : σ → α → σ}
    {item : Reader α} {fs : List (Field σ)} {acc : σ} {v : Value} {x : α} (hkeys : (ms.map (·.1)).Nodup)
    (hv : ms.lookup name = some v) (hx : v.sorted.read? item = some x) :
    readFields (sortedMembers [] ms) (.option name get put item :: fs) acc =
      readFields (sortedMembers [] ms) fs (put acc x) := by
  -- sorting moves the member, but the key still finds it
  have hlookup : (sortedMembers [] ms).lookup name = some v.sorted := by
    rw [Members.lookup_sortedMembers hkeys, List.lookup_nil, Option.or_none, hv]
    rfl
  rw [readFields_cons_of_some hlookup, Field.read?_option, hx]
  rfl

/-- A list is read back if its items are. -/
theorem Value.read?_sorted_map {item : Reader α} {toValue : α → Value} {xs : List α}
    (h : ∀ x ∈ xs, (toValue x).sorted.read? item = some x) :
    (Value.array (xs.map toValue)).sorted.read? (Document.readList item) = some xs := by
  rw [sorted, sortedItems_eq_map, read?_array, List.map_map]
  induction xs with
  | nil => rfl
  | cons x xs ih =>
    obtain ⟨hx, hxs⟩ := List.forall_mem_cons.mp h
    simp [List.mapM_cons, hx, ih hxs]

/-- A value in its normal form survives being written in order and read again. -/
theorem Value.Ordered.read?_sorted {v : Value} (h : v.Ordered) :
    v.sorted.read? Document.readValue = some v := by
  rw [h.sorted_eq, h.read?]

end EventLog.Json
