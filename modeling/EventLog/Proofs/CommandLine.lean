import EventLog.Admin.Command
import EventLog.Proofs.TagText

/-!
# Arguments that are taken

Whatever order the arguments of a command come in, each value is judged by the taker of its option. So what
every taker keeps holds of everything that is read, such as the tags of a reading being valid.

## Key results

- `Form.Keeps.readFrom`: what all takers of a form keep holds of what is read
- `Command.validate_of_parse`: the tags of a reading are valid
-/

namespace EventLog.Admin

variable {σ : Type} {P : σ → Prop}

/-- What comes of two steps comes of what the first one gave. -/
theorem exists_of_bind {ε α β : Type} {x : Except ε α} {f : α → Except ε β} {b : β}
    (h : (x >>= f) = .ok b) : ∃ a, x = .ok a ∧ f a = .ok b := by
  cases x with
  | error e => cases h
  | ok a => exact ⟨a, rfl, h⟩

/-! ### What takers keep -/

/-- Taking a value keeps a property. -/
def Taker.Keeps (P : σ → Prop) (take : Taker σ) : Prop := ∀ v x y, P x → take v x = .ok y → P y

/-- Judging what is pending keeps a property. -/
def Pending.Keeps (P : σ → Prop) : Pending σ → Prop
  | .nothing => True
  | .awaiting take => Taker.Keeps P take
  | .given take _ => Taker.Keeps P take

/-- All that a form takes keeps a property. -/
structure Form.Keeps (P : σ → Prop) (f : Form σ) : Prop where
  option : ∀ name take, f.option? name = some take → Taker.Keeps P take
  positional : ∀ take, f.positional? = some take → Taker.Keeps P take

/-- What is pending is settled by its taker, so the property is kept. -/
theorem Pending.Keeps.settle {p : Pending σ} (hp : p.Keeps P) {x y : σ} (hx : P x) (h : p.settle x = .ok y) :
    P y := by
  cases p with
  | nothing =>
    obtain rfl := Except.ok.inj h
    exact hx
  | awaiting take => cases h
  | given take value => exact hp value x y hx h

namespace Form.Keeps

/-- Without its positional argument a form takes less. -/
theorem withoutPositional {f : Form σ} (hf : f.Keeps P) : Form.Keeps P { f with positional? := none } where
  option := hf.option
  positional := fun _ h => nomatch h

/-- A property that everything keeps holds of the positional arguments that are read. -/
theorem readWords {f : Form σ} (hf : f.Keeps P) {pending : Pending σ} (hp : pending.Keeps P)
    {args : List String} {x y : σ} (hx : P x) (h : f.readWords x pending args = .ok y) : P y := by
  -- by induction on the arguments; after the first word the form has no positional argument any more
  induction args generalizing f pending x with
  | nil => exact hp.settle hx h
  | cons a args ih =>
    rw [Form.readWords] at h
    split at h
    · cases h
    · rename_i take htake
      obtain ⟨x', hx', h⟩ := exists_of_bind h
      have hgiven : Pending.Keeps P (.given take a) := hf.positional take htake
      exact ih hf.withoutPositional hgiven (hp.settle hx hx') h

/-- A property that everything keeps holds of what is read. -/
theorem readFrom {f : Form σ} (hf : f.Keeps P) {pending : Pending σ} (hp : pending.Keeps P)
    {args : List String} {x y : σ} (hx : P x) (h : f.readFrom x pending args = .ok y) : P y := by
  -- by induction on the arguments, for every form, since a word that is taken uses up the positional argument
  induction args generalizing f pending x with
  | nil => exact hp.settle hx h
  | cons a args ih =>
    rw [Form.readFrom] at h
    split at h
    · exact hf.readWords hp hx h
    · -- a short argument is never taken
      split at h
      · obtain ⟨_, -, h⟩ := exists_of_bind h
        cases h
      · cases h
    · rename_i name value _
      -- an option that the form does not have is an error, whether the pending one is settled or not
      split at h
      · split at h
        · cases h
        · obtain ⟨_, -, h⟩ := exists_of_bind h
          cases h
      · split at h
        · cases h
        · rename_i take htake
          have htake : Taker.Keeps P take := hf.option name take htake
          obtain ⟨x', hx', h⟩ := exists_of_bind h
          have hx' := hp.settle hx hx'
          cases value with
          | some v =>
            -- the value stands behind the name and is judged at once
            obtain ⟨x'', hx'', h⟩ := exists_of_bind h
            exact @ih f hf .nothing trivial x'' (htake v _ _ hx' hx'') h
          | none => exact @ih f hf (.awaiting take) htake x' hx' h
    · rename_i text _
      -- a word is the value of an option that waits for one, or else the positional argument
      split at h
      · rename_i take
        exact @ih f hf (.given take text) hp x hx h
      · cases h
      · rename_i take _ htake
        obtain ⟨x', hx', h⟩ := exists_of_bind h
        have hgiven : Pending.Keeps P (.given take text) := hf.positional take htake
        exact ih hf.withoutPositional hgiven (hp.settle hx hx') h

/-- A property that everything keeps holds of what a command line is read as. -/
theorem read {f : Form σ} (hf : f.Keeps P) {blank y : σ} (hblank : P blank) {args : List String}
    (h : f.read blank args = .ok y) : P y := by
  have hnothing : Pending.Keeps P (.nothing : Pending σ) := trivial
  exact hf.readFrom hnothing hblank h

end Form.Keeps

namespace ReadArgs

/-! ### Readings -/

/-- The tags that have been taken are valid. -/
def Draft.Valid (d : Draft) : Prop := ∀ t ∈ d.tags, t.validate = .ok ()

/-- Taking a tag keeps the tags valid, since only text that reads as a valid tag is taken. -/
theorem keeps_takeTag : Taker.Keeps Draft.Valid takeTag := by
  intro v d d' hd h
  unfold takeTag at h
  split at h
  · rename_i t hparse
    obtain rfl := Except.ok.inj h
    have ht : t.validate = .ok () := (Tag.encode_of_parse hparse).2
    intro u hu
    rcases List.mem_append.mp hu with hu | hu
    · exact hd u hu
    · rwa [List.mem_singleton.mp hu]
  · cases h

/-- An option that puts no tags keeps them. -/
theorem keeps_single {α : Type} {get : Draft → Option α} {put : Draft → α → Draft}
    {item : String → Option α} (hput : ∀ d x, (put d x).tags = d.tags) :
    Taker.Keeps Draft.Valid (single get put item) := by
  intro v d d' hd h
  unfold single at h
  split at h
  · cases h
  · -- an option that is given twice is refused; otherwise one field is put
    split at h
    · obtain rfl := Except.ok.inj h
      unfold Draft.Valid
      rwa [hput]
    · cases h

/-- All options of a reading keep the tags valid, and it has no positional arguments. -/
theorem keeps_form : form.Keeps Draft.Valid where
  option := by
    intro name take h
    simp only [form] at h
    split at h
    · obtain rfl := Option.some.inj h
      intro v d d' hd hd'
      obtain rfl := Except.ok.inj hd'
      exact hd
    · obtain rfl := Option.some.inj h
      exact keeps_takeTag
    · obtain rfl := Option.some.inj h
      exact keeps_single fun _ _ => rfl
    · obtain rfl := Option.some.inj h
      exact keeps_single fun _ _ => rfl
    · cases h
  positional := by simp [form]

/-- The tags of a reading are valid. -/
theorem validate_of_parse {args : List String} {a : ReadArgs} (h : parse args = .ok a) :
    ∀ t ∈ a.tags, t.validate = .ok () := by
  unfold parse at h
  cases hread : form.read {} args with
  | error e => simp [hread, Except.map] at h
  | ok d =>
    simp only [hread, Except.map, Except.ok.injEq] at h
    -- there are no tags to begin with
    have hd : d.Valid := keeps_form.read (by simp [Draft.Valid]) hread
    rw [← h]
    exact hd

end ReadArgs

namespace Command

/-- A command without arguments is read as that command. -/
theorem eq_of_bare {c c' : Command} {args : List String} (h : bare c args = .ok c') : c' = c := by
  unfold bare at h
  cases hread : ({ option? := fun _ => none, positional? := none } : Form Unit).read () args with
  | error e => simp [hread, Except.map] at h
  | ok u => simpa [hread, Except.map, eq_comm] using h

/-- A traced event is all that the arguments of that command are read as. -/
theorem exists_of_parseTrace {c : Command} {args : List String} (h : parseTrace args = .ok c) :
    ∃ id, c = .trace id := by
  obtain ⟨taken, -, h⟩ := exists_of_bind h
  cases taken with
  | none => cases h
  | some id => exact ⟨id, (Except.ok.inj h).symm⟩

/-- A command line is a reading only if its other arguments are read as one. -/
theorem exists_of_parse {argv : List String} {a : ReadArgs} (h : parse argv = .ok (.read a)) :
    ∃ args, ReadArgs.parse args = .ok a := by
  cases argv with
  | nil => cases h
  | cons first args =>
    rw [parse] at h
    split at h
    · unfold parseEscaped at h
      split at h <;> cases h
    · cases eq_of_bare h
    · cases eq_of_bare h
    · obtain ⟨id, hid⟩ := exists_of_parseTrace h
      cases hid
    · refine ⟨args, ?_⟩
      cases hread : ReadArgs.parse args with
      | error e => simp [hread, Except.map] at h
      | ok a' => simpa [hread, Except.map] using h
    · unfold parseHelp at h
      split at h <;> cases h
    · cases h
    · unfold parseOption at h
      split at h <;> cases h

/-- The tags of a reading on a command line are valid. -/
theorem validate_of_parse {argv : List String} {a : ReadArgs} (h : parse argv = .ok (.read a)) :
    ∀ t ∈ a.tags, t.validate = .ok () := by
  obtain ⟨args, hargs⟩ := exists_of_parse h
  exact ReadArgs.validate_of_parse hargs

end Command

end EventLog.Admin
