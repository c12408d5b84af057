import Mathlib.Data.List.Nodup
import EventLog.Settings

/-!
# Reading sections

A section is read entry by entry into a partial record. Every field is held in a place of its own, so what
stands there in the end is what was read of the entry of its name, whatever the order of the entries is and
whatever stands under other names.

## Key results

- `Node.Fits`: entries that can be read
- `Node.exists_readEntries`: entries that fit are read
- `Node.get_of_readEntries`: what the place of a field holds in the end
- `Node.given_of_rearranged`: neither order nor unknown names matter
-/

namespace EventLog.Yaml

variable {σ α : Type}

namespace Node

/-! ### Entries -/

/-- The name that stands as a key. -/
def name? : Node → Option String
  | .scalar _ text => some text
  | _ => none

/-- The value of the first entry of a name. -/
def valueOf? (name : String) (entries : List (Node × Node)) : Option Node :=
  (entries.find? (·.1.name? == some name)).map (·.2)

/-- What is read of the entry of a name, if there is one. -/
def given (item : Reader α) (name : String) (entries : List (Node × Node)) : Option α :=
  (valueOf? name entries).bind item

/-- The first entry of a name gives its value. -/
theorem valueOf?_cons_of_eq {name : String} {e : Node × Node} (h : e.1.name? = some name)
    (entries : List (Node × Node)) : valueOf? name (e :: entries) = some e.2 := by
  simp [valueOf?, h]

theorem valueOf?_cons_of_ne {name : String} {e : Node × Node} (h : e.1.name? ≠ some name)
    (entries : List (Node × Node)) : valueOf? name (e :: entries) = valueOf? name entries := by
  have hne : (e.1.name? == some name) = false := by simpa using h
  simp [valueOf?, hne]

/-- No entry has the name, so there is no value. -/
theorem valueOf?_of_count_zero {name : String} {entries : List (Node × Node)}
    (h : entries.countP (·.1.name? == some name) = 0) : valueOf? name entries = none := by
  rw [List.countP_eq_zero] at h
  simp only [valueOf?, Option.map_eq_none_iff, List.find?_eq_none]
  exact h

/-- A value stands in an entry of the name. -/
theorem exists_of_valueOf? {name : String} {entries : List (Node × Node)} {v : Node}
    (h : valueOf? name entries = some v) : ∃ e ∈ entries, e.1.name? = some name ∧ e.2 = v := by
  obtain ⟨e, hfind, rfl⟩ := Option.map_eq_some_iff.mp h
  exact ⟨e, List.mem_of_find?_eq_some hfind, by simpa using List.find?_some hfind, rfl⟩

/-- Entries are the entries of names, each of the known names comes at most once, and its value is one that
the field of the name reads. -/
structure Fits (fields : List (Field σ)) (entries : List (Node × Node)) : Prop where
  named : ∀ e ∈ entries, e.1.name? ≠ none
  once : ∀ f ∈ fields, entries.countP (·.1.name? == some f.name) ≤ 1
  typed : ∀ f ∈ fields, ∀ e ∈ entries, e.1.name? = some f.name → ∀ s, f.read e.2 s ≠ none

/-- The entries after a first one fit as well. -/
theorem Fits.tail {fields : List (Field σ)} {e : Node × Node} {entries : List (Node × Node)}
    (h : Fits fields (e :: entries)) : Fits fields entries where
  named := fun d hd => h.named d (List.mem_cons_of_mem _ hd)
  once := fun f hf => Nat.le_trans ((List.sublist_cons_self e entries).countP_le ..) (h.once f hf)
  typed := fun f hf d hd => h.typed f hf d (List.mem_cons_of_mem _ hd)

/-! ### Fields -/

/-- Of the fields, those of a name read values of a kind into one place, and the other ones leave that place as
it is. -/
structure Holds (fields : List (Field σ)) (name : String) (get : σ → Option α) (item : Reader α) : Prop where
  known : ∃ f ∈ fields, f.name = name
  isSet : ∀ f ∈ fields, f.name = name → ∀ s, f.isSet s = (get s).isSome
  read : ∀ f ∈ fields, f.name = name → ∀ v s, (f.read v s).map get = (item v).map some
  leaves : ∀ f ∈ fields, f.name ≠ name → ∀ v s s', f.read v s = some s' → get s' = get s

/-- Every field has a place of its own. -/
def Separate (fields : List (Field σ)) : Prop :=
  ∀ f ∈ fields, ∃ (α : Type) (get : σ → Option α) (item : Reader α), Holds fields f.name get item

section

variable {fields : List (Field σ)}

/-- A field that is held as an option, if putting values of other fields leaves its place as it is. -/
theorem holds_option (hnames : (fields.map (·.name)).Nodup) {name : String} {get : σ → Option α}
    {put : σ → α → σ} {item : Reader α} (hmem : .option name get put item ∈ fields)
    (hput : ∀ s x, get (put s x) = some x)
    (hleaves : ∀ f ∈ fields, f.name ≠ name → ∀ v s s', f.read v s = some s' → get s' = get s) :
    Holds fields name get item := by
  -- there is no other field of the name
  have hunique : ∀ f ∈ fields, f.name = name → f = .option name get put item := fun f hf hname =>
    List.inj_on_of_nodup_map hnames hf hmem hname
  refine ⟨⟨_, hmem, rfl⟩, ?_, ?_, hleaves⟩
  · intro f hf hname s
    rw [hunique f hf hname]
    rfl
  · intro f hf hname v s
    rw [hunique f hf hname]
    cases hx : item v <;> simp [Field.option, hx, hput]

/-- A field that is read leaves unset what was unset, other than itself. -/
theorem Separate.isSet_of_read (hsep : Separate fields) {f g : Field σ} (hf : f ∈ fields) (hg : g ∈ fields)
    (hne : f.name ≠ g.name) {v : Node} {s s' : σ} (h : f.read v s = some s') : g.isSet s' = g.isSet s := by
  obtain ⟨α, get, item, hold⟩ := hsep g hg
  rw [hold.isSet g hg rfl, hold.isSet g hg rfl, hold.leaves f hf hne v s s' h]

/-! ### Reading -/

/-- Entries that fit are read, if none of their fields has been read before. -/
theorem exists_readEntries (hsep : Separate fields) {entries : List (Node × Node)} (h : Fits fields entries)
    {acc : σ} (hunset : ∀ f ∈ fields, valueOf? f.name entries ≠ none → f.isSet acc = false) :
    ∃ d, readEntries fields acc entries = some d := by
  -- by induction on the entries; what is set grows, but the names that are left have not been read
  induction entries generalizing acc with
  | nil => exact ⟨acc, rfl⟩
  | cons e entries ih =>
    obtain ⟨key, v⟩ := e
    cases key with
    | sequence items => exact absurd rfl (h.named _ List.mem_cons_self)
    | mapping es => exact absurd rfl (h.named _ List.mem_cons_self)
    | scalar style k =>
      cases hfind : fields.find? (·.name == k) with
      | none =>
        -- a name that is not known is passed over
        have hother : ∀ f ∈ fields, f.name ≠ k := by simpa using hfind
        have hrest : ∃ d, readEntries fields acc entries = some d := ih h.tail fun f hf hv =>
          hunset f hf <| by rwa [valueOf?_cons_of_ne (by simpa [name?] using (hother f hf).symm)]
        simpa only [readEntries, hfind] using hrest
      | some f =>
        -- the field of the name reads the value, and is set from now on
        have hf : f ∈ fields := List.mem_of_find?_eq_some hfind
        obtain rfl : f.name = k := by simpa using List.find?_some hfind
        have hset : f.isSet acc = false := hunset f hf (by rw [valueOf?_cons_of_eq rfl]; simp)
        obtain ⟨acc', hread⟩ := Option.ne_none_iff_exists'.mp (h.typed f hf _ List.mem_cons_self rfl acc)
        have hrest : ∃ d, readEntries fields acc' entries = some d := by
          refine ih h.tail fun g hg hv => ?_
          have hne : f.name ≠ g.name := by
            -- the name of `f` does not come again
            intro heq
            have honce := h.once f hf
            rw [List.countP_cons_of_pos (by simp [name?])] at honce
            exact hv (heq ▸ valueOf?_of_count_zero (by omega))
          rw [hsep.isSet_of_read hf hg hne hread]
          exact hunset g hg (by rwa [valueOf?_cons_of_ne (by simpa [name?] using hne)])
        simpa [readEntries, hfind, hset, hread] using hrest

/-- What is in the place of a field when all entries have been read: what was there before, or what is read of
the entry of its name. -/
theorem get_of_readEntries {name : String} {get : σ → Option α} {item : Reader α}
    (hold : Holds fields name get item) {entries : List (Node × Node)} {acc d : σ}
    (h : readEntries fields acc entries = some d) : get d = (get acc).or (given item name entries) := by
  -- by induction on the entries: each of them fills the place, or leaves it to those after it
  induction entries generalizing acc with
  | nil => simp [← Option.some.inj h, given, valueOf?]
  | cons e entries ih =>
    obtain ⟨key, v⟩ := e
    cases key with
    | sequence items => exact nomatch h
    | mapping es => exact nomatch h
    | scalar style k =>
      cases hfind : fields.find? (·.name == k) with
      | none =>
        -- the name is not known, but the field of the place is, so the entry is not its own
        simp only [readEntries, hfind] at h
        obtain ⟨f, hf, rfl⟩ := hold.known
        have hne : k ≠ f.name := by simpa using (List.find?_eq_none.mp hfind f hf ∘ beq_iff_eq.mpr ∘ Eq.symm)
        rw [ih h, given, given, valueOf?_cons_of_ne (by simpa [name?] using hne)]
      | some f =>
        have hf : f ∈ fields := List.mem_of_find?_eq_some hfind
        obtain rfl : f.name = k := by simpa using List.find?_some hfind
        cases hset : f.isSet acc with
        -- a name that comes again would have refused the section
        | true => simp [readEntries, hfind, hset] at h
        | false =>
          cases hread : f.read v acc with
          | none => simp [readEntries, hfind, hset, hread] at h
          | some acc' =>
            simp only [readEntries, hfind, hset, hread, Bool.false_eq_true, if_false, Option.bind_eq_bind,
              Option.bind_some] at h
            by_cases hname : f.name = name
            · -- the place was empty, and holds now what has been read
              have hnone : get acc = none := by simpa [hset] using (hold.isSet f hf hname acc).symm
              have hsome : (item v).map some = some (get acc') := by
                rw [← hold.read f hf hname v acc, hread, Option.map_some]
              obtain ⟨x, hx, hget⟩ := Option.map_eq_some_iff.mp hsome
              have hvalue : valueOf? name ((.scalar style f.name, v) :: entries) = some v :=
                valueOf?_cons_of_eq (by simpa [name?] using hname) entries
              simp [ih h, given, hvalue, hnone, ← hget, hx]
            · rw [ih h, hold.leaves f hf hname v acc acc' hread, given, given,
                valueOf?_cons_of_ne (by simpa [name?] using hname)]

end

/-! ### Sections -/

/-- A section that is not written, or the mapping of entries that fit. -/
inductive IsSection (fields : List (Field σ)) : Node → Prop
  | absent : IsSection fields .absent
  | mapping {entries : List (Node × Node)} (h : Fits fields entries) : IsSection fields (.mapping entries)

/-- The entries of a section; one that is not written has none. -/
def entries : Node → List (Node × Node)
  | .mapping es => es
  | _ => []

/-- The entries of the section of a name; a section that is not there has none. -/
def sectionOf (name : String) (doc : List (Node × Node)) : List (Node × Node) :=
  ((valueOf? name doc).map entries).getD []

/-- A section is read, and every place then holds what is read of the entry of its name. -/
theorem exists_readSection {fields : List (Field σ)} (hsep : Separate fields) {blank : σ}
    (hblank : ∀ f ∈ fields, f.isSet blank = false) {n : Node} (h : IsSection fields n) :
    ∃ d, readSection fields blank n = some d ∧
      ∀ {α : Type} {name : String} {get : σ → Option α} {item : Reader α}, Holds fields name get item →
        get d = given item name n.entries := by
  -- no place holds anything before
  have hnone : ∀ {α : Type} {name : String} {get : σ → Option α} {item : Reader α},
      Holds fields name get item → get blank = none := by
    intro α name get item hold
    obtain ⟨f, hf, hname⟩ := hold.known
    simpa [hblank f hf] using (hold.isSet f hf hname blank).symm
  cases h with
  | absent => exact ⟨blank, rfl, fun hold => hnone hold⟩
  | @mapping es hes =>
    obtain ⟨d, hd⟩ := exists_readEntries hsep hes fun f hf _ => hblank f hf
    refine ⟨d, hd, fun hold => ?_⟩
    -- what was read fills a place that held nothing
    rw [get_of_readEntries hold hd, hnone hold, Option.none_or]
    rfl

/-- In a section, a known name comes at most once. -/
theorem IsSection.once {fields : List (Field σ)} {n : Node} (h : IsSection fields n) {f : Field σ}
    (hf : f ∈ fields) : n.entries.countP (·.1.name? == some f.name) ≤ 1 := by
  cases h with
  | absent => exact Nat.zero_le 1
  | mapping hes => exact hes.once f hf

/-- So it does in the section of a name. -/
theorem once_sectionOf {fields : List (Field σ)} {name : String} {doc : List (Node × Node)}
    (hdoc : ∀ e ∈ doc, e.1.name? = some name → IsSection fields e.2) {f : Field σ} (hf : f ∈ fields) :
    (sectionOf name doc).countP (·.1.name? == some f.name) ≤ 1 := by
  unfold sectionOf
  cases hvalue : valueOf? name doc with
  | none => exact Nat.zero_le 1
  | some v =>
    obtain ⟨e, he, hname, rfl⟩ := exists_of_valueOf? hvalue
    exact (hdoc e he hname).once hf

/-- What a section is read as is given by the entries of the section, if that holds of every section that may
stand under the name. -/
theorem getD_given_readSection {β : Type} {fields : List (Field σ)} {blank : σ} {name : String}
    {doc : List (Node × Node)} (hdoc : ∀ e ∈ doc, e.1.name? = some name → IsSection fields e.2)
    {f : σ → β} {g : List (Node × Node) → β}
    (h : ∀ {n : Node}, IsSection fields n → ∃ d, readSection fields blank n = some d ∧ f d = g n.entries) :
    f ((given (readSection fields blank) name doc).getD blank) = g (sectionOf name doc) := by
  rw [given, sectionOf]
  cases hvalue : valueOf? name doc with
  | none =>
    -- a section that is not there is read as one that is not written
    obtain ⟨d, hread, heq⟩ := h .absent
    obtain rfl : blank = d := Option.some.inj hread
    exact heq
  | some v =>
    obtain ⟨e, he, hname, rfl⟩ := exists_of_valueOf? hvalue
    obtain ⟨d, hread, heq⟩ := h (hdoc e he hname)
    simpa [hread] using heq

/-! ### Order -/

/-- The entries whose names are among the given ones. -/
def named (names : List String) (entries : List (Node × Node)) : List (Node × Node) :=
  entries.filter fun e => e.1.name?.any names.contains

/-- Both have the same entries of some names, perhaps in another order and among other ones. -/
def Rearranged (names : List String) (entries entries' : List (Node × Node)) : Prop :=
  (named names entries).Perm (named names entries')

/-- What is read of a name that comes at most once does not depend on the order of the entries, nor on what
stands under other names. -/
theorem given_of_rearranged {names : List String} {entries entries' : List (Node × Node)}
    (h : Rearranged names entries entries') {name : String} (hname : name ∈ names)
    (honce : entries.countP (·.1.name? == some name) ≤ 1) (item : Reader α) :
    given item name entries = given item name entries' := by
  -- the entries of the name are among those of the names
  have hfilter : ∀ es : List (Node × Node), es.filter (·.1.name? == some name) =
      (named names es).filter (·.1.name? == some name) := by
    -- keeping the entries of the names first drops none of the name
    intro es
    rw [named, List.filter_filter]
    refine List.filter_congr fun e _ => ?_
    by_cases he : e.1.name? = some name
    · simp [he, hname]
    · simp [he]
  have hperm : (entries.filter (·.1.name? == some name)).Perm
      (entries'.filter (·.1.name? == some name)) := by
    rw [hfilter entries, hfilter entries']
    exact h.filter _
  -- at most one entry can stand in one order only
  have heq : entries.filter (·.1.name? == some name) = entries'.filter (·.1.name? == some name) := by
    rw [List.countP_eq_length_filter] at honce
    -- no entry, one entry, or more than the name may have
    generalize entries.filter (·.1.name? == some name) = es at hperm honce
    match es with
    | [] => exact hperm.nil_eq
    | [e] => exact (List.perm_singleton.mp hperm.symm).symm
    | _ :: _ :: _ => simp at honce
  have hfind : ∀ es : List (Node × Node), valueOf? name es =
      ((es.filter (·.1.name? == some name)).head?).map (·.2) := by
    intro es
    rw [valueOf?, List.head?_filter]
  rw [given, given, hfind, hfind, heq]

end Node

end EventLog.Yaml
