import EventLog.Projection.Slots

/-!
# Slots fold on their own

A set of projectors folds events in one pass over all of its slots. As long as no transition refuses an
event, this is what each slot does by itself: the set succeeds exactly if the projector of every slot
folds all events, and then every slot holds the state of its own fold. The highest position that was
applied depends only on which events some query selects.

## Key results

- `applyBatch_append`: batches applied one after the other are one batch
- `applyBatch_eq_ok_iff`: a batch is applied exactly if every slot folds it
- `applyBatch_of_folds`: the slots and the highest position in the end
-/

namespace EventLog

variable {σ : Type}

/-! ### Folds of one projector -/

/-- Folding two lists of events one after the other is folding them at once. -/
theorem Projector.foldFrom_append (p : Projector σ) (x : σ) (es fs : List Event) :
    p.foldFrom x (es ++ fs) = (p.foldFrom x es).bind fun y => p.foldFrom y fs := by
  -- by induction on the first list, whose first refusal refuses both sides
  induction es generalizing x with
  | nil => rfl
  | cons e es ih =>
    simp only [List.cons_append, foldFrom, bind, Except.bind]
    cases p.apply x e with
    | error err => rfl
    | ok y => exact ih y

/-- A fold of one event applies it. -/
theorem Projector.foldFrom_singleton (p : Projector σ) (x : σ) (e : Event) :
    p.foldFrom x [e] = p.apply x e := by
  simp only [foldFrom, bind, Except.bind]
  cases p.apply x e <;> rfl

namespace Slot

/-- The projector of the slot folds the events from the state of the slot on. -/
def Folds (s : Slot σ) (es : List Event) : Prop :=
  ∃ x y, s.state = some x ∧ s.projector.foldFrom x es = .ok y

/-- The slot after its projector has folded the events. -/
def folded (es : List Event) (s : Slot σ) : Slot σ :=
  { s with state := s.state.bind fun x => (s.projector.foldFrom x es).toOption }

/-- A slot with a state folds no events, and keeps its state. -/
theorem folds_nil {s : Slot σ} (h : s.state.isSome = true) : s.Folds [] ∧ s.folded [] = s := by
  obtain ⟨x, hx⟩ := Option.isSome_iff_exists.mp h
  refine ⟨⟨x, x, hx, rfl⟩, ?_⟩
  obtain ⟨index, id, projector, state⟩ := s
  obtain rfl : state = some x := hx
  rfl

/-- A slot folds events one after the other exactly if it folds them at once. -/
theorem folds_append (s : Slot σ) (es fs : List Event) :
    s.Folds (es ++ fs) ↔ s.Folds es ∧ (s.folded es).Folds fs := by
  constructor
  · rintro ⟨x, z, hx, hz⟩
    rw [Projector.foldFrom_append] at hz
    cases hy : s.projector.foldFrom x es with
    | error err => rw [hy] at hz; exact nomatch hz
    | ok y =>
      rw [hy] at hz
      -- the state in the middle is the one from which the second fold starts
      exact ⟨⟨x, y, hx, hy⟩, y, z, by simp [folded, hx, hy, Except.toOption], hz⟩
  · -- the state in the middle is the same for both folds
    rintro ⟨⟨x, y, hx, hy⟩, y', z, hy', hz⟩
    obtain rfl : y = y' := by simpa [folded, hx, hy, Except.toOption] using hy'
    exact ⟨x, z, hx, by rw [Projector.foldFrom_append, hy]; exact hz⟩

/-- The slot after two lists of events, whether or not its projector folds them. -/
theorem folded_append (s : Slot σ) (es fs : List Event) :
    s.folded (es ++ fs) = (s.folded es).folded fs := by
  cases hx : s.state with
  | none => simp [folded, hx]
  | some x =>
    cases hy : s.projector.foldFrom x es <;>
      simp [folded, hx, hy, Projector.foldFrom_append, Except.toOption, Except.bind]

/-- A slot that has folded events has a state. -/
theorem isSome_state_folded {s : Slot σ} {es : List Event} (h : s.Folds es) :
    (s.folded es).state.isSome = true := by
  obtain ⟨x, y, hx, hy⟩ := h
  simp [folded, hx, hy, Except.toOption]

/-- A query of one of the slots selects the event. -/
def anySelects (slots : List (Slot σ)) (e : Event) : Bool :=
  slots.any fun s => s.projector.query.selects e

theorem anySelects_map_folded (es : List Event) (slots : List (Slot σ)) :
    anySelects (slots.map (folded es)) = anySelects slots := by
  funext e
  simp only [anySelects, List.any_map]
  rfl

/-! ### One event -/

/-- An event that a slot folds goes through it: it is absorbed or passed over. -/
theorem absorb_of_folds {s : Slot σ} {e : Event} (h : s.Folds [e])
    (hsel : s.projector.query.selects e = true) : s.absorb e = (s.folded [e], .ok ()) := by
  obtain ⟨x, y, hx, hy⟩ := h
  have hy' := hy
  rw [Projector.foldFrom_singleton, Projector.apply, if_pos hsel] at hy'
  simp [absorb, folded, hx, hy, hy', Except.toOption]

/-- A slot is left alone by an event that its query does not select. -/
theorem folded_of_not_selects {s : Slot σ} {e : Event}
    (hsel : s.projector.query.selects e = false) : s.folded [e] = s := by
  have hfold : ∀ x, s.projector.foldFrom x [e] = .ok x := fun x => by
    rw [Projector.foldFrom_singleton, Projector.apply, if_neg (by simp [hsel])]
  obtain ⟨index, id, projector, state⟩ := s
  cases state with
  | none => rfl
  | some x => simp [folded, hfold, Except.toOption]

/-- A slot with a state folds an event that its query does not select. -/
theorem folds_of_not_selects {s : Slot σ} {e : Event} (hstate : s.state.isSome = true)
    (hsel : s.projector.query.selects e = false) : s.Folds [e] := by
  obtain ⟨x, hx⟩ := Option.isSome_iff_exists.mp hstate
  refine ⟨x, x, hx, ?_⟩
  rw [Projector.foldFrom_singleton, Projector.apply, if_neg (by simp [hsel])]

/-- A slot that absorbs an event folds it. -/
theorem folds_of_absorb {s : Slot σ} {e : Event} (hsel : s.projector.query.selects e = true)
    (h : (s.absorb e).2 = .ok ()) : s.Folds [e] := by
  unfold absorb at h
  split at h
  · exact nomatch h
  · rename_i x hx
    split at h
    · rename_i y hy
      refine ⟨x, y, hx, ?_⟩
      rw [Projector.foldFrom_singleton, Projector.apply, if_pos hsel, hy]
    · exact nomatch h

/-- An event that every slot folds advances all of them. -/
theorem advance_of_folds {e : Event} {slots : List (Slot σ)} (h : ∀ s ∈ slots, s.Folds [e]) :
    advance e slots = (slots.map (folded [e]), .ok (anySelects slots e)) := by
  -- by induction on the slots, each of which lets the event through
  induction slots with
  | nil => rfl
  | cons s slots ih =>
    have hs := h s List.mem_cons_self
    have hrest := ih fun x hx => h x (List.mem_cons_of_mem _ hx)
    cases hsel : s.projector.query.selects e with
    | true =>
      simp [advance, hsel, absorb_of_folds hs hsel, hrest, anySelects, Except.map]
    | false =>
      -- a slot that is passed over is left as it is, which is what it folds to
      simp [advance, hsel, hrest, folded_of_not_selects hsel, anySelects]

/-- If an event advances all slots then every one of them folds it. -/
theorem folds_of_advance {e : Event} {slots : List (Slot σ)}
    (hstate : ∀ s ∈ slots, s.state.isSome = true) {b : Bool}
    (h : (advance e slots).2 = .ok b) : ∀ s ∈ slots, s.Folds [e] := by
  -- by induction on the slots: all of them were advanced, or none of the rest would have been
  induction slots generalizing b with
  | nil => simp
  | cons s slots ih =>
    have hs := hstate s List.mem_cons_self
    have ih := fun {b} => @ih (fun x hx => hstate x (List.mem_cons_of_mem _ hx)) b
    refine List.forall_mem_cons.mpr ?_
    simp only [advance] at h
    split at h
    · rename_i hsel
      split at h
      · exact nomatch h
      · -- the slot absorbed the event, and so did those after it
        rename_i s' habsorb
        cases hr : (advance e slots).2 with
        | error err => rw [hr] at h; exact nomatch h
        | ok b' => exact ⟨folds_of_absorb hsel (by rw [habsorb]), ih hr⟩
    · rename_i hsel
      exact ⟨folds_of_not_selects hs (by simpa using hsel), ih h⟩

end Slot

namespace ProjectionSet

/-! ### Batches -/

/-- The highest of `p` and the positions of the events that a query selects. -/
def highest (slots : List (Slot σ)) (p : Position) (es : List Event) : Position :=
  es.foldl (fun p e => if Slot.anySelects slots e then max p e.position else p) p

/-- Two batches applied one after the other are one batch; the first refusal ends it. -/
theorem applyBatch_append (p : ProjectionSet σ) (es fs : List Event) :
    p.applyBatch (es ++ fs) = match p.applyBatch es with
      | (p, .ok ()) => p.applyBatch fs
      | (p, .error err) => (p, .error err) := by
  -- by induction on the first batch, with the set as it is after each event
  induction es generalizing p with
  | nil => rfl
  | cons e es ih =>
    simp only [List.cons_append, applyBatch]
    split
    · rfl
    · rename_i p' _
      exact ih p'

/-- A set whose slots all fold an event applies it. -/
theorem apply_of_folds {p : ProjectionSet σ} {e : Event} (h : ∀ s ∈ p.slots, s.Folds [e]) :
    p.apply e = (⟨p.slots.map (Slot.folded [e]), highest p.slots p.observed [e]⟩, .ok ()) := by
  simp only [apply, Slot.advance_of_folds h, highest, List.foldl_cons, List.foldl_nil]

/-- A set whose slots all fold a batch applies it: each slot holds its own fold in the end. -/
theorem applyBatch_of_folds {p : ProjectionSet σ} {es : List Event}
    (hstate : ∀ s ∈ p.slots, s.state.isSome = true) (h : ∀ s ∈ p.slots, s.Folds es) :
    p.applyBatch es = (⟨p.slots.map (Slot.folded es), highest p.slots p.observed es⟩, .ok ()) := by
  induction es generalizing p with
  | nil =>
    -- no events leave the slots as they are, as they have states
    have hself : p.slots.map (Slot.folded []) = p.slots := by
      rw [List.map_congr_left fun s hs => (Slot.folds_nil (hstate s hs)).2]
      exact List.map_id' p.slots
    simp only [applyBatch, highest, List.foldl_nil, hself]
  | cons e es ih =>
    -- each slot folds the first event, and the rest from there
    have hfirst : ∀ s ∈ p.slots, s.Folds [e] :=
      fun s hs => ((Slot.folds_append s [e] es).mp (h s hs)).1
    -- the set after the first event, to which the induction hypothesis applies
    let q : ProjectionSet σ := ⟨p.slots.map (Slot.folded [e]), highest p.slots p.observed [e]⟩
    have hq := @ih q
      (by
        intro s hs
        obtain ⟨t, ht, rfl⟩ := List.mem_map.mp hs
        exact Slot.isSome_state_folded (hfirst t ht))
      (by
        intro s hs
        obtain ⟨t, ht, rfl⟩ := List.mem_map.mp hs
        exact ((Slot.folds_append t [e] es).mp (h t ht)).2)
    have hmap : q.slots.map (Slot.folded es) = p.slots.map (Slot.folded (e :: es)) := by
      rw [List.map_map]
      exact List.map_congr_left fun s _ => (Slot.folded_append s [e] es).symm
    simp only [applyBatch, apply_of_folds hfirst]
    rw [hq, hmap]
    simp only [highest, q, Slot.anySelects_map_folded, List.foldl_cons, List.foldl_nil]

/-- If a set applies an event then every one of its slots folds it. -/
theorem folds_of_apply {p : ProjectionSet σ} {e : Event}
    (hstate : ∀ s ∈ p.slots, s.state.isSome = true) (h : (p.apply e).2 = .ok ()) :
    ∀ s ∈ p.slots, s.Folds [e] := by
  unfold apply at h
  split at h
  · exact nomatch h
  · rename_i slots b hadv
    exact Slot.folds_of_advance hstate (b := b) (by rw [hadv])

/-- A set applies a batch exactly if every one of its slots folds it. -/
theorem applyBatch_eq_ok_iff {p : ProjectionSet σ} {es : List Event}
    (hstate : ∀ s ∈ p.slots, s.state.isSome = true) :
    (p.applyBatch es).2 = .ok () ↔ ∀ s ∈ p.slots, s.Folds es := by
  refine ⟨fun h => ?_, fun h => by rw [applyBatch_of_folds hstate h]⟩
  -- by induction on the events; a slot that folds the first one has a state for the rest
  induction es generalizing p with
  | nil => exact fun s hs => (Slot.folds_nil (hstate s hs)).1
  | cons e es ih =>
    unfold applyBatch at h
    split at h
    · exact nomatch h
    · rename_i q hq
      -- the event was applied, so it is known what the set holds after it
      have hfirst := folds_of_apply hstate (by rw [hq])
      rw [apply_of_folds hfirst] at hq
      obtain ⟨rfl, -⟩ := Prod.mk.inj hq
      have hrest := ih
        (by
          intro s hs
          obtain ⟨t, ht, rfl⟩ := List.mem_map.mp hs
          exact Slot.isSome_state_folded (hfirst t ht)) h
      intro s hs
      exact (Slot.folds_append s [e] es).mpr
        ⟨hfirst s hs, hrest _ (List.mem_map_of_mem hs)⟩

end ProjectionSet

end EventLog
