import EventLog.Proofs.IndependentProjections

/-!
# One fold for several projectors

A set of projectors folds a list of events in one pass, batch after batch. Events that no projector selects
go through it without a trace, and where the batches are cut makes no difference. So the pass is the folds
of the projectors, each over the events that its own query selects, as long as none of them refuses an event;
otherwise it ends with the first refusal.

## Key results

- `Projector.foldFrom_eq_foldlM`: a projector folds the events that its query selects
- `ProjectionSet.applyBatch_filter`: events that no query selects leave no trace
- `ProjectionSet.applyBatches_eq`: batches are folded like the events in them
- `ProjectionSet.shared_fold`: the shared fold and the separate folds
-/

namespace EventLog

variable {σ : Type}

/-- A projector folds the events that its query selects with its transition. -/
theorem Projector.foldFrom_eq_foldlM (p : Projector σ) (x : σ) (es : List Event) :
    p.foldFrom x es = (es.filter p.query.selects).foldlM p.transition x := by
  -- by induction on the events: one that is selected takes a step, any other one leaves the state
  induction es generalizing x with
  | nil => rfl
  | cons e es ih =>
    cases hsel : p.query.selects e with
    | true => simp only [foldFrom, apply, hsel, if_true, ih, List.filter_cons, List.foldlM_cons]
    | false =>
      simp only [foldFrom, apply, hsel, Bool.false_eq_true, if_false, ih, List.filter_cons]
      rfl

/-! ### Events without a trace -/

namespace Slot

/-- An event that no query selects leaves all slots as they are. -/
theorem advance_of_not_anySelects {e : Event} {slots : List (Slot σ)}
    (h : anySelects slots e = false) : advance e slots = (slots, .ok false) := by
  induction slots with
  | nil => rfl
  | cons s slots ih =>
    obtain ⟨hs, hrest⟩ := Bool.or_eq_false_iff.mp h
    simp only [advance, hs, Bool.false_eq_true, if_false, ih hrest]

/-- A slot that absorbs an event keeps its projector, whether or not it refuses the event. -/
theorem projector_absorb (s : Slot σ) (e : Event) : (s.absorb e).1.projector = s.projector := by
  unfold absorb
  split
  · rfl
  · split <;> rfl

/-- Slots keep their queries, whatever an event does to them. -/
theorem anySelects_advance (e : Event) (slots : List (Slot σ)) :
    anySelects (advance e slots).1 = anySelects slots := by
  have hcons : ∀ (s t : Slot σ) (rest rest' : List (Slot σ)), t.projector = s.projector →
      anySelects rest' = anySelects rest → anySelects (t :: rest') = anySelects (s :: rest) := by
    intro s t rest rest' hproj hrest
    funext d
    have hd := congrFun hrest d
    simp only [anySelects, List.any_cons] at hd ⊢
    rw [hproj, hd]
  induction slots with
  | nil => rfl
  | cons s slots ih =>
    have hs := projector_absorb s e
    simp only [advance]
    split
    · split <;> rename_i habsorb <;> rw [habsorb] at hs
      · -- the slot refuses, and those after it are not touched
        exact hcons _ _ _ _ hs rfl
      · -- the slot absorbs the event, and the others follow
        exact hcons _ _ _ _ hs ih
    · exact hcons _ _ _ _ rfl ih

end Slot

namespace ProjectionSet

/-- An event that no query selects leaves a set as it is. -/
theorem apply_of_not_anySelects {p : ProjectionSet σ} {e : Event}
    (h : Slot.anySelects p.slots e = false) : p.apply e = (p, .ok ()) := by
  simp only [apply, Slot.advance_of_not_anySelects h, Bool.false_eq_true, if_false]

/-- A set keeps its queries, whether or not an event is refused. -/
theorem anySelects_apply (p : ProjectionSet σ) (e : Event) :
    Slot.anySelects (p.apply e).1.slots = Slot.anySelects p.slots := by
  rw [← Slot.anySelects_advance e p.slots]
  unfold apply
  split <;> rename_i hadv <;> rw [hadv]

/-- Events that no query selects can be left out of a batch. -/
theorem applyBatch_filter (p : ProjectionSet σ) (es : List Event) :
    p.applyBatch (es.filter (Slot.anySelects p.slots)) = p.applyBatch es := by
  induction es generalizing p with
  | nil => rfl
  | cons e es ih =>
    cases hsel : Slot.anySelects p.slots e with
    | true =>
      -- the set after the event has the same queries
      have hqueries := anySelects_apply p e
      rw [List.filter_cons_of_pos hsel]
      simp only [applyBatch]
      split
      · rfl
      · rename_i q happly
        rw [happly] at hqueries
        rw [← ih q, hqueries]
    | false =>
      -- the event that is left out would have left the set as it is
      rw [List.filter_cons_of_neg (by simp [hsel]), ih]
      simp only [applyBatch, apply_of_not_anySelects hsel]

/-- Batches with the same selected events have the same effect. -/
theorem applyBatch_congr {p : ProjectionSet σ} {es fs : List Event}
    (h : es.filter (Slot.anySelects p.slots) = fs.filter (Slot.anySelects p.slots)) :
    p.applyBatch es = p.applyBatch fs := by
  rw [← applyBatch_filter p es, h, applyBatch_filter]

/-! ### Batches -/

/-- Applies batches in order; the first refusal is the last event applied. -/
def applyBatches (p : ProjectionSet σ) :
    List (List Event) → ProjectionSet σ × Except ProjectionError Unit
  | [] => (p, .ok ())
  | es :: batches =>
    match p.applyBatch es with
    | (p, .error err) => (p, .error err)
    | (p, .ok ()) => p.applyBatches batches

/-- It makes no difference where batches are cut. -/
theorem applyBatches_eq (p : ProjectionSet σ) (batches : List (List Event)) :
    p.applyBatches batches = p.applyBatch batches.flatten := by
  -- by induction on the batches: one that is refused ends both sides
  induction batches generalizing p with
  | nil => rfl
  | cons es batches ih =>
    rw [List.flatten_cons, applyBatch_append, applyBatches]
    rcases p.applyBatch es with ⟨q, err | u⟩
    · rfl
    · exact ih q

/-! ### The highest position -/

/-- The highest of `p` and the positions of the selected events. -/
theorem highest_eq_foldl (slots : List (Slot σ)) (p : Position) (es : List Event) :
    highest slots p es = ((es.filter (Slot.anySelects slots)).map (·.position)).foldl max p := by
  rw [List.foldl_map, List.foldl_filter]
  rfl

end ProjectionSet

/-- The highest of positive positions, 0 if there are none. -/
theorem foldl_max_zero_of_pos {ps : List Position} (h : ∀ p ∈ ps, 0 < p) :
    ps.foldl max 0 = ps.max?.getD 0 := by
  cases ps with
  | nil => rfl
  | cons p ps =>
    -- the first position is above 0, so starting from it gives the same
    have hp : max 0 p = p := Int.max_eq_right (Int.le_of_lt (h p List.mem_cons_self))
    rw [List.max?_cons', List.foldl_cons, hp]
    rfl

namespace ProjectionSet

variable {ps : List (NamedProjector σ)}

/-- The slots of projectors select what one of the projectors selects. -/
theorem anySelects_slots_ofProjectors :
    Slot.anySelects (ofProjectors ps).slots = fun e => ps.any (·.projector.query.selects e) := by
  funext e
  rw [Bool.eq_iff_iff, ofProjectors, ofSlots, Slot.anySelects_ofProjectors, List.any_eq_true]
  rfl

/-- The union of the queries of projectors selects all that one of them selects, even if there are none. -/
theorem filter_any_filter_union (es : List Event) :
    (es.filter (Query.union (ps.map (·.projector.query))).selects).filter
      (fun e => ps.any (·.projector.query.selects e)) =
        es.filter fun e => ps.any (·.projector.query.selects e) := by
  rw [List.filter_filter]
  refine List.filter_congr fun e _ => ?_
  -- what one of the projectors selects is selected by the union already
  rw [Bool.and_eq_left_iff_imp]
  intro hsel
  obtain ⟨p, hp, he⟩ := List.any_eq_true.mp hsel
  refine (Query.selects_union ?_ e).mpr ⟨_, List.mem_map_of_mem hp, he⟩
  simpa using List.ne_nil_of_mem hp

/-- Projectors that fold all events have a state each. -/
theorem exists_states_of_fold {es : List Event} (h : ∀ p ∈ ps, ∃ x, p.projector.fold es = .ok x) :
    ∃ xs : List σ, ps.map (·.projector.fold es) = xs.map .ok := by
  induction ps with
  | nil => exact ⟨[], rfl⟩
  | cons p ps ih =>
    obtain ⟨⟨x, hx⟩, hrest⟩ := List.forall_mem_cons.mp h
    obtain ⟨xs, hxs⟩ := ih hrest
    exact ⟨x :: xs, by rw [List.map_cons, List.map_cons, hx, hxs]⟩

/-- A fresh set has lost no state. -/
theorem isSome_state_of_mem_ofProjectors :
    ∀ s ∈ (ofProjectors ps).slots, s.state.isSome = true :=
  fun _ hs => (Slot.index_of_mem_ofProjectors hs).2

/-- A fresh set applies events exactly if every projector folds them by itself. -/
theorem ofProjectors_eq_ok_iff {es : List Event} :
    ((ofProjectors ps).applyBatch es).2 = .ok () ↔ ∀ p ∈ ps, ∃ x, p.projector.fold es = .ok x := by
  -- no event is left out by a filter that keeps all
  have hall : (∀ slot ∈ Slot.ofProjectors 0 ps, slot.Folds (es.filter fun _ => true)) ↔
      ∀ p ∈ ps, ∃ x, p.projector.fold es = .ok x := Slot.folds_ofProjectors_iff fun _ _ => rfl
  rw [List.filter_true] at hall
  rw [applyBatch_eq_ok_iff isSome_state_of_mem_ofProjectors, ← hall]
  rfl

/-- A fresh set after events that all of its projectors fold. -/
theorem ofProjectors_of_fold {es : List Event} (h : ∀ p ∈ ps, ∃ x, p.projector.fold es = .ok x) :
    ((ofProjectors ps).applyBatch es).1 = folded (Slot.ofProjectors 0 ps) es := by
  have hfolds := (applyBatch_eq_ok_iff isSome_state_of_mem_ofProjectors).mp (ofProjectors_eq_ok_iff.mpr h)
  rw [applyBatch_of_folds isSome_state_of_mem_ofProjectors hfolds]
  rfl

/-- Projectors, and events at positive positions that are applied to them in batches.
* All batches are applied exactly if each projector folds all events by itself.
* Then each name has, in the order of the projectors, the state of that fold, which is what the transition
  makes of the events that the query of the projector selects; and the highest position is that of the
  events that one of the queries selects, 0 if there are none.
* Any batches with the same selected events lead to the same set with the same answer, in particular
  those events in one batch that the union of the queries selects.
* If not all batches are applied, the error is that of the first event that a projector refuses, and of the
  first projector that refuses it. -/
theorem shared_fold (ps : List (NamedProjector σ)) {batches : List (List Event)}
    (hpos : ∀ e ∈ batches.flatten, 0 < e.position) :
    let es := batches.flatten
    let selected := fun e : Event => ps.any (·.projector.query.selects e)
    let out := (ofProjectors ps).applyBatches batches
    (out.2 = .ok () ↔ ∀ p ∈ ps, ∃ x, p.projector.fold es = .ok x) ∧
      (out.2 = .ok () → ∃ xs : List σ, ps.map (·.projector.fold es) = xs.map .ok ∧
        (ps.map fun p => (es.filter p.projector.query.selects).foldlM p.projector.transition
          p.projector.initial) = xs.map .ok ∧
        out.1.states = (ps.map (·.id)).zip xs ∧
        out.1.observed = ((es.filter selected).map (·.position)).max?.getD 0) ∧
      (∀ batches' : List (List Event), batches'.flatten.filter selected = es.filter selected →
        (ofProjectors ps).applyBatches batches' = out) ∧
      (ofProjectors ps).applyBatches [es.filter (Query.union (ps.map (·.projector.query))).selects] =
        out ∧
      ∀ err, out.2 = .error err ↔ FirstRefusal NamedProjector.fold ps es err := by
  intro es selected out
  have hout : out = (ofProjectors ps).applyBatch es := applyBatches_eq _ _
  -- both are folded as one batch, and that batch depends on the selected events alone
  have hsame : ∀ batches' : List (List Event), batches'.flatten.filter selected = es.filter selected →
      (ofProjectors ps).applyBatches batches' = out := by
    intro batches' h
    rw [hout, applyBatches_eq]
    refine applyBatch_congr ?_
    rw [anySelects_slots_ofProjectors]
    exact h
  rw [hout] at hsame ⊢
  refine ⟨ofProjectors_eq_ok_iff, fun hok => ?_, hsame, hsame _ ?_, fun err => ofProjectors_eq_error_iff⟩
  · have hfolds := ofProjectors_eq_ok_iff.mp hok
    obtain ⟨xs, hxs⟩ := exists_states_of_fold hfolds
    rw [ofProjectors_of_fold hfolds]
    refine ⟨xs, hxs, ?_, states_ofProjectors hxs, ?_⟩
    · -- the separate folds, over the events that each query selects
      rw [← hxs]
      exact List.map_congr_left fun p _ => (Projector.foldFrom_eq_foldlM _ _ _).symm
    · have hslots : Slot.anySelects (Slot.ofProjectors 0 ps) = selected := anySelects_slots_ofProjectors
      -- the highest position, which starts from 0, below all positions
      rw [folded, highest_eq_foldl, hslots]
      refine foldl_max_zero_of_pos fun p hp => ?_
      obtain ⟨e, he, rfl⟩ := List.mem_map.mp hp
      exact hpos e (List.mem_filter.mp he).1
  · -- the union of the queries keeps what is selected
    rw [List.flatten_singleton]
    exact filter_any_filter_union es

/-- Deposits are counted while another projector waits for a closing, in two batches whose last event none
of them selects. So the highest position is that of the deposit, which could as well have come alone. -/
theorem shared_fold_of_deposits :
    let opened : Event := { (default : Event) with eventType := "Opened", position := 1 }
    let deposited : Event := { (default : Event) with eventType := "Deposited", position := 2 }
    let renamed : Event := { (default : Event) with eventType := "Renamed", position := 3 }
    let ps := [depositCount, Store.refusing "Closed"]
    let out := (ofProjectors ps).applyBatches [[opened, deposited], [renamed]]
    (∀ e ∈ [[opened, deposited], [renamed]].flatten, 0 < e.position) ∧ out.2 = .ok () ∧
      out.1.states = [("deposits", 1), ("Closed", 0)] ∧ out.1.observed = 2 ∧
      (ofProjectors ps).applyBatches [[deposited]] = out := by
  intro opened deposited renamed ps out
  have hpos : ∀ e ∈ [[opened, deposited], [renamed]].flatten, 0 < e.position := by decide
  obtain ⟨hok, hstates, hsame, -⟩ := shared_fold ps hpos
  have hout : out.2 = .ok () := by
    refine hok.mpr fun p hp => ?_
    rcases List.mem_cons.mp hp with rfl | hp
    · exact ⟨1, by decide +kernel⟩
    · obtain rfl := List.mem_singleton.mp hp
      exact ⟨0, by decide +kernel⟩
  obtain ⟨xs, hxs, -, hzip, hobserved⟩ := hstates hout
  have hfolds : xs.map (Except.ok (ε := ProjectionError)) = [1, 0].map .ok :=
    hxs.symm.trans (by decide +kernel)
  obtain rfl := (List.map_injective_iff.mpr fun _ _ => Except.ok.inj) hfolds
  exact ⟨hpos, hout, hzip, hobserved, hsame _ rfl⟩

end ProjectionSet

end EventLog
