import EventLog.Json.Record
import EventLog.Proofs.IndependentProjections

/-!
# Values with ordered members

The members of an object stand in ascending order of their keys, each key once. A value of this kind is not
changed by sorting, and what it is turned into as a document is read back as it was. Sorting makes a value of
this kind out of any other one and keeps what stands under a key that comes once.

## Key results

- `Value.Ordered.sorted_eq`, `Value.ordered_sorted`: sorting, and the values that it keeps
- `Members.lookup_sortedMembers`: what stands under a key after sorting
- `Value.Ordered.readValue_ofValue`: an ordered value is read back as it was
- `Document.skip_ofValue`: a value can be passed over
-/

namespace EventLog.Json

/-- In every object of the value the keys ascend. -/
inductive Value.Ordered : Value → Prop
  | null : Ordered .null
  | bool (b : Bool) : Ordered (.bool b)
  | number (n : Number) : Ordered (.number n)
  | string (s : String) : Ordered (.string s)
  | array {items : List Value} (h : ∀ v ∈ items, Ordered v) : Ordered (.array items)
  | object {members : Members} (hkeys : (members.map (·.1)).Pairwise (· < ·))
    (h : ∀ m ∈ members, Ordered m.2) : Ordered (.object members)

/-! ### Setting a member -/

namespace Members

/-- Members are set as states are, each in its place. -/
theorem insert_eq_insertState (key : String) (v : Value) (ms : Members) :
    Members.insert key v ms = insertState key v ms := by
  -- by induction on the members; both functions compare keys in the same way
  induction ms with
  | nil => rfl
  | cons m ms ih => simp only [Members.insert, insertState, ih]

/-- A member is found under its own key and passed over under any other one. -/
theorem lookup_cons (key k : String) (v : Value) (ms : Members) :
    List.lookup k ((key, v) :: ms) = if k = key then some v else ms.lookup k := by
  by_cases hk : k = key
  · rw [if_pos hk, hk, List.lookup_cons_self]
  · rw [if_neg hk, List.lookup_cons, beq_false_of_ne hk]

/-- Setting a member keeps the others. -/
theorem lookup_insert (key k : String) (v : Value) (ms : Members) :
    (Members.insert key v ms).lookup k = if k = key then some v else ms.lookup k := by
  -- by induction on the members, up to the place of the key
  induction ms with
  | nil => exact lookup_cons key k v []
  | cons m ms ih =>
    simp only [Members.insert]
    split
    · -- the member is put before the first one with a later key
      rw [lookup_cons]
    · split
      · rename_i heq
        -- the key is there already, so its member is replaced
        rw [lookup_cons, lookup_cons m.1 k, ← heq]
        split <;> rfl
      · rename_i hne
        -- the place comes later, and the member in between is kept
        rw [lookup_cons m.1 k, lookup_cons m.1 k, ih]
        by_cases hk : k = m.1
        · rw [if_pos hk, if_pos hk, if_neg fun heq => hne (heq.symm.trans hk)]
        · rw [if_neg hk, if_neg hk]

/-- A member whose key is after all others becomes the last one. -/
theorem insert_eq_append {key : String} {ms : Members} (h : ∀ m ∈ ms, m.1 < key) (v : Value) :
    Members.insert key v ms = ms ++ [(key, v)] := by
  induction ms with
  | nil => rfl
  | cons m ms ih =>
    -- the key is neither before `m` nor equal to it, so it goes behind
    obtain ⟨hm, hms⟩ := List.forall_mem_cons.mp h
    have hne : ¬key = m.1 := fun heq => String.lt_irrefl _ (heq ▸ hm)
    simp only [Members.insert, if_neg (String.lt_asymm hm), if_neg hne, ih hms, List.cons_append]

/-! ### Sorting -/

/-- Sorting keeps the keys in order. -/
theorem pairwise_sortedMembers {acc : Members} (h : (acc.map (·.1)).Pairwise (· < ·)) (ms : Members) :
    ((sortedMembers acc ms).map (·.1)).Pairwise (· < ·) := by
  -- by induction on the members, each of which is set among those that are in order
  induction ms generalizing acc with
  | nil => exact h
  | cons m ms ih =>
    refine ih (List.pairwise_map.mpr ?_)
    rw [insert_eq_insertState]
    exact pairwise_insertState (List.pairwise_map.mp h)

/-- What stands under a key after sorting, if no key comes twice: the sorted member, or what stood there
before. -/
theorem lookup_sortedMembers {ms : Members} (h : (ms.map (·.1)).Nodup) (acc : Members) (k : String) :
    (sortedMembers acc ms).lookup k = ((ms.lookup k).map Value.sorted).or (acc.lookup k) := by
  induction ms generalizing acc with
  | nil => rfl
  | cons m ms ih =>
    obtain ⟨hnew, hms⟩ := List.nodup_cons.mp h
    rw [sortedMembers, ih hms, lookup_insert, lookup_cons m.1 k]
    by_cases hk : k = m.1
    · -- the key comes only once
      have hnone : ms.lookup k = none := List.lookup_eq_none_iff.mpr fun n hn => by
        simpa using fun heq : k = n.1 => hnew (List.mem_map.mpr ⟨n, hn, heq ▸ hk⟩)
      rw [if_pos hk, if_pos hk, hnone]
      rfl
    · rw [if_neg hk, if_neg hk]

/-- Members that are in order stay where they are. -/
theorem sortedMembers_of_pairwise (acc : Members) {ms : Members}
    (h : ((acc ++ ms).map (·.1)).Pairwise (· < ·)) :
    sortedMembers acc ms = acc ++ ms.map fun m => (m.1, m.2.sorted) := by
  induction ms generalizing acc with
  | nil => simp [sortedMembers]
  | cons m ms ih =>
    -- the next member comes after all that have been put in their places
    have hlast : ∀ n ∈ acc, n.1 < m.1 := by
      rw [List.map_append, List.pairwise_append] at h
      exact fun n hn => h.2.2 n.1 (List.mem_map_of_mem hn) m.1 (by simp)
    rw [sortedMembers, insert_eq_append hlast, ih _ (by simpa using h)]
    simp

end Members

/-- Sorting an array sorts its items. -/
theorem sortedItems_eq_map (vs : List Value) : sortedItems vs = vs.map Value.sorted := by
  induction vs with
  | nil => rfl
  | cons v vs ih => rw [sortedItems, ih, List.map_cons]

namespace Value

/-- A value whose members are in order is not changed by sorting. -/
theorem Ordered.sorted_eq {v : Value} (h : v.Ordered) : v.sorted = v := by
  -- by induction on the order; only arrays and objects have something to sort
  induction h with
  | null => rfl
  | bool b => rfl
  | number n => rfl
  | string s => rfl
  | array h ih =>
    rw [sorted, sortedItems_eq_map, List.map_congr_left ih, List.map_id']
  | object hkeys h ih =>
    rename_i members
    -- the values of the members stay as they are, and so do their places
    have hsame : members.map (fun m => (m.1, m.2.sorted)) = members.map fun m => m :=
      List.map_congr_left fun m hm => Prod.ext rfl (ih m hm)
    rw [sorted, Members.sortedMembers_of_pairwise [] hkeys, hsame, List.map_id', List.nil_append]

mutual

/-- Sorting puts the members of all objects of a value in order. -/
theorem ordered_sorted : (v : Value) → v.sorted.Ordered
  | .null => .null
  | .bool b => .bool b
  | .number n => .number n
  | .string s => .string s
  | .array items => .array (ordered_of_mem_sortedItems items)
  | .object members => .object (Members.pairwise_sortedMembers .nil members)
      (ordered_of_mem_sortedMembers members [] fun _ hm => nomatch hm)

/-- The items of a sorted array are in order. -/
theorem ordered_of_mem_sortedItems : (items : List Value) → ∀ v ∈ sortedItems items, v.Ordered
  | [], _, hv => nomatch hv
  | item :: items, v, hv => by
    rcases List.mem_cons.mp hv with rfl | hv
    · exact ordered_sorted item
    · exact ordered_of_mem_sortedItems items v hv

/-- The values of the members of a sorted object are in order, if those before them were. -/
theorem ordered_of_mem_sortedMembers : (members acc : Members) → (∀ m ∈ acc, m.2.Ordered) →
    ∀ m ∈ sortedMembers acc members, m.2.Ordered
  | [], _, hacc => hacc
  | (key, v) :: members, acc, hacc => by
    refine ordered_of_mem_sortedMembers members _ fun m hm => ?_
    rw [Members.insert_eq_insertState] at hm
    rcases mem_insertState hm with rfl | hm
    · exact ordered_sorted v
    · exact hacc m hm

end

end Value

/-! ### Values as documents -/

namespace Document

mutual

/-- A value has the right form, so it can be passed over. -/
theorem skip_ofValue : (v : Value) → (ofValue v).skip = .ok ()
  | .null => rfl
  | .bool _ => rfl
  | .number _ => rfl
  | .string _ => rfl
  | .array items => by rw [ofValue, skip, skipItems_documentsOf items]; rfl
  | .object members => by rw [ofValue, skip, skipMembers_memberDocumentsOf members]; rfl

theorem skipItems_documentsOf : (items : List Value) → skipItems (documentsOf items) = .ok ()
  | [] => rfl
  | v :: items => by rw [documentsOf, skipItems, skip_ofValue v, skipItems_documentsOf items]; rfl

theorem skipMembers_memberDocumentsOf : (members : Members) →
    skipMembers (memberDocumentsOf members) = .ok ()
  | [] => rfl
  | (_, v) :: members => by
    rw [memberDocumentsOf, skipMembers, skip_ofValue v, skipMembers_memberDocumentsOf members]; rfl

end

/-- Items that are read back one by one are read back as a list. -/
theorem readValues_documentsOf {items : List Value} (h : ∀ v ∈ items, readValue none (ofValue v) = .ok v) :
    readValues none (documentsOf items) = .ok items := by
  induction items with
  | nil => rfl
  | cons v items ih =>
    obtain ⟨hv, hitems⟩ := List.forall_mem_cons.mp h
    rw [documentsOf, readValues, hv, ih hitems]
    rfl

/-- Members in order that are read back one by one are put after those read before. -/
theorem readMembers_memberDocumentsOf (acc : Members) {members : Members}
    (hkeys : ((acc ++ members).map (·.1)).Pairwise (· < ·))
    (h : ∀ m ∈ members, readValue none (ofValue m.2) = .ok m.2) :
    readMembers none acc (memberDocumentsOf members) = .ok (acc ++ members) := by
  induction members generalizing acc with
  | nil => rw [memberDocumentsOf, readMembers, List.append_nil]
  | cons m members ih =>
    obtain ⟨hm, hmembers⟩ := List.forall_mem_cons.mp h
    -- the next key comes after all that have been read
    have hlast : ∀ n ∈ acc, n.1 < m.1 := by
      rw [List.map_append, List.pairwise_append] at hkeys
      exact fun n hn => hkeys.2.2 n.1 (List.mem_map_of_mem hn) m.1 (by simp)
    have hrest := ih (acc ++ [m]) (by simpa using hkeys) hmembers
    rw [List.append_assoc, List.singleton_append] at hrest
    rw [memberDocumentsOf, readMembers, ← hrest, ← Members.insert_eq_append hlast]
    simp only [hm, bind, Except.bind]

end Document

/-- A value whose members are in order is read back as it was. -/
theorem Value.Ordered.readValue_ofValue {v : Value} (h : v.Ordered) :
    Document.readValue none (.ofValue v) = .ok v := by
  induction h with
  | null => rfl
  | bool b => rfl
  | number n => rfl
  | string s => rfl
  | array h ih =>
    rw [Document.ofValue, Document.readValue]
    simp only [Depth.enter, bind, Except.bind, Document.readValues_documentsOf ih]
    rfl
  | object hkeys h ih =>
    -- the members come in the order of their keys, so each is put behind the others
    rw [Document.ofValue, Document.readValue]
    simp only [Depth.enter, bind, Except.bind, Document.readMembers_memberDocumentsOf [] hkeys ih]
    rfl

end EventLog.Json
