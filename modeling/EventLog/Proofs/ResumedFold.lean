import EventLog.Proofs.SharedFold

/-!
# Folding on after a refusal

A set of projectors that has refused an event can be given more events. What the refusal leaves is half
done: the slots before the one that refused have absorbed the event, that slot has lost its state, and
those after it never saw the event. The calls that follow act on this. So each slot folds the events that
came to it, which are those that no slot before it refused, and it has a state as long as its transition
refuses none of them.

## Key results

- `Slot.refusal?`: why a slot refuses an event
- `ProjectionSet.apply_cases`: all that one call can do
- `ProjectionSet.slots_resume`: what a slot holds after any number of calls
- `ProjectionSet.observed_resume`: only calls that succeed count for the highest position
- `ProjectionSet.resumed_fold`: projectors that fold on after refusals
-/

namespace EventLog

variable {σ : Type}

namespace Slot

/-! ### One event -/

/-- Why the slot refuses an event, if it does: its query selects the event, and its state is lost or its
transition refuses the event. -/
def refusal? (s : Slot σ) (e : Event) : Option ProjectionError :=
  if s.projector.query.selects e then
    match s.state with
    | none => some (s.lost e)
    | some x =>
      match s.projector.transition x e with
      | .ok _ => none
      | .error err => some err
  else none

variable {s : Slot σ} {e : Event} {err : ProjectionError}

/-- A slot does not refuse an event that its query leaves out. -/
theorem refusal?_of_not_selects (h : s.projector.query.selects e = false) : s.refusal? e = none := by
  simp only [refusal?, h, Bool.false_eq_true, if_false]

/-- Only an event that its query selects is refused by a slot. -/
theorem selects_of_refusal (h : s.refusal? e = some err) : s.projector.query.selects e = true := by
  cases hsel : s.projector.query.selects e with
  | true => rfl
  | false => exact nomatch (refusal?_of_not_selects hsel).symm.trans h

/-- A slot that an event comes to and that selects it folds the event, and answers with its refusal. -/
theorem absorb_eq (h : s.projector.query.selects e = true) :
    s.absorb e = (s.folded [e], (s.refusal? e).elim (.ok ()) .error) := by
  -- a lost state refuses; otherwise the transition decides both the state and the answer
  obtain ⟨index, id, projector, state⟩ := s
  cases state with
  | none => simp [absorb, refusal?, h, folded]
  | some x =>
    have hfold : projector.foldFrom x [e] = projector.transition x e := by
      rw [Projector.foldFrom_singleton, Projector.apply, if_pos h]
    cases hx : projector.transition x e <;>
      simp [absorb, refusal?, h, folded, hfold, hx, Except.toOption]

/-- A slot has a state after an event exactly if it had one and did not refuse the event. -/
theorem isSome_state_folded_iff :
    (s.folded [e]).state.isSome = true ↔ s.state.isSome = true ∧ s.refusal? e = none := by
  cases hsel : s.projector.query.selects e with
  | false => simp [folded_of_not_selects hsel, refusal?_of_not_selects hsel]
  | true =>
    cases hx : s.state with
    | none => simp [folded, hx]
    | some x =>
      have hfold : s.projector.foldFrom x [e] = s.projector.transition x e := by
        rw [Projector.foldFrom_singleton, Projector.apply, if_pos hsel]
      cases hy : s.projector.transition x e <;>
        simp [folded, refusal?, hsel, hx, hfold, hy, Except.toOption]

/-- A slot that refuses an event has no state afterwards. -/
theorem folded_of_refusal (h : s.refusal? e = some err) : s.folded [e] = { s with state := none } := by
  have hnone : (s.folded [e]).state = none := by
    -- a state would mean that the event was not refused
    refine Option.not_isSome_iff_eq_none.mp fun hsome => ?_
    exact nomatch h.symm.trans (isSome_state_folded_iff.mp hsome).2
  simp only [folded] at hnone ⊢
  rw [hnone]

/-- A slot without a state gets none, whatever events come to it. -/
theorem state_folded_of_none (h : s.state = none) (es : List Event) : (s.folded es).state = none := by
  simp [folded, h]

/-- An event gets through slots that do not refuse it, and comes to those after them. -/
theorem advance_append {pre : List (Slot σ)} (h : ∀ t ∈ pre, t.refusal? e = none)
    (rest : List (Slot σ)) :
    advance e (pre ++ rest) = (pre.map (folded [e]) ++ (advance e rest).1,
      (advance e rest).2.map fun selected => anySelects pre e || selected) := by
  -- by induction on the slots that let the event through
  induction pre with
  | nil =>
    rcases hrest : advance e rest with ⟨slots, err | selected⟩ <;> simp [hrest, anySelects, Except.map]
  | cons t pre ih =>
    obtain ⟨ht, hpre⟩ := List.forall_mem_cons.mp h
    have ih := ih hpre
    cases hsel : t.projector.query.selects e with
    | true =>
      have habsorb := absorb_eq hsel
      rw [ht] at habsorb
      -- the answer of `t` is dropped when a later slot refuses, and joined with the others when none does
      simp only [List.cons_append, advance, hsel, if_true, habsorb, Option.elim_none, ih]
      cases (advance e rest).2 <;> simp [anySelects, hsel, Except.map]
    | false =>
      simp only [List.cons_append, advance, hsel, Bool.false_eq_true, if_false, ih, List.map_cons,
        folded_of_not_selects hsel]
      simp [anySelects, hsel]

/-- An event that no slot refuses comes to all of them. -/
theorem advance_of_passes {slots : List (Slot σ)} (h : ∀ t ∈ slots, t.refusal? e = none) :
    advance e slots = (slots.map (folded [e]), .ok (anySelects slots e)) := by
  have hall := advance_append h []
  rw [List.append_nil] at hall
  rw [hall]
  simp [advance, Except.map]

/-- The first slot that refuses an event ends the call. It loses its state, and the slots after it are left
alone. -/
theorem advance_of_refusal {pre post : List (Slot σ)} (hpre : ∀ t ∈ pre, t.refusal? e = none)
    (hs : s.refusal? e = some err) :
    advance e (pre ++ s :: post) =
      (pre.map (folded [e]) ++ { s with state := none } :: post, .error err) := by
  have habsorb := absorb_eq (selects_of_refusal hs)
  -- the slot itself, after which nothing is looked at
  rw [hs, folded_of_refusal hs] at habsorb
  have hrest : advance e (s :: post) = ({ s with state := none } :: post, .error err) := by
    simp only [advance, selects_of_refusal hs, if_true, habsorb, Option.elim_some]
  rw [advance_append hpre, hrest]
  rfl

/-- The slots of projectors, numbered as they stand. -/
theorem ofProjectors_eq_map (start : Nat) (ps : List (NamedProjector σ)) :
    ofProjectors start ps = (ps.zipIdx start).map fun p => ofProjector p.2 p.1 := by
  induction ps generalizing start with
  | nil => rfl
  | cons p ps ih => rw [ofProjectors, ih, List.zipIdx_cons, List.map_cons]

end Slot

namespace ProjectionSet

/-- No slot refuses an event, or there is a first one that does. -/
theorem passes_or_refuses (p : ProjectionSet σ) (e : Event) :
    (∀ s ∈ p.slots, s.refusal? e = none) ∨
    ∃ pre s post err, p.slots = pre ++ s :: post ∧ (∀ t ∈ pre, t.refusal? e = none) ∧
      s.refusal? e = some err := by
  -- by induction on the slots: the first one decides, or passes the question on
  generalize p.slots = slots
  induction slots with
  | nil => exact .inl (by simp)
  | cons t slots ih =>
    cases ht : t.refusal? e with
    | some err => exact .inr ⟨[], t, slots, err, rfl, by simp, ht⟩
    | none =>
      rcases ih with hall | ⟨pre, s, post, err, rfl, hpre, hs⟩
      · exact .inl (List.forall_mem_cons.mpr ⟨ht, hall⟩)
      · exact .inr ⟨t :: pre, s, post, err, rfl, List.forall_mem_cons.mpr ⟨ht, hpre⟩, hs⟩

/-- All that a call can do. If no slot refuses the event, all slots fold it. Otherwise the first slot that
does ends the call with its refusal: the slots before it have folded the event, it has lost its state, and
nothing else has changed. -/
theorem apply_cases (p : ProjectionSet σ) (e : Event) :
    ((∀ s ∈ p.slots, s.refusal? e = none) ∧
      p.apply e = (⟨p.slots.map (Slot.folded [e]), highest p.slots p.observed [e]⟩, .ok ())) ∨
    ∃ pre s post err, p.slots = pre ++ s :: post ∧ (∀ t ∈ pre, t.refusal? e = none) ∧
      s.refusal? e = some err ∧
      p.apply e =
        (⟨pre.map (Slot.folded [e]) ++ { s with state := none } :: post, p.observed⟩, .error err) := by
  rcases passes_or_refuses p e with hall | ⟨pre, s, post, err, hslots, hpre, hs⟩
  · refine .inl ⟨hall, ?_⟩
    simp only [apply, Slot.advance_of_passes hall, highest, List.foldl_cons, List.foldl_nil]
  · refine .inr ⟨pre, s, post, err, hslots, hpre, hs, ?_⟩
    simp only [apply, hslots, Slot.advance_of_refusal hpre hs]

/-! ### Events that come to a slot -/

/-- The event comes to the `i`-th slot: no slot before it refuses the event. -/
def comesTo (p : ProjectionSet σ) (i : Nat) (e : Event) : Bool :=
  (p.slots.take i).all fun s => (s.refusal? e).isNone

/-- The `i`-th slot is the one that refuses the event. -/
def RefusesAt (p : ProjectionSet σ) (i : Nat) (e : Event) : Prop :=
  p.comesTo i e = true ∧ ∃ s err, p.slots[i]? = some s ∧ s.refusal? e = some err

/-- Applies events one after the other, and goes on after refusals. -/
def resume (p : ProjectionSet σ) (es : List Event) : ProjectionSet σ :=
  es.foldl (fun p e => (p.apply e).1) p

/-- The events that come to the `i`-th slot when they are applied one after the other. -/
def comingTo (p : ProjectionSet σ) (i : Nat) : List Event → List Event
  | [] => []
  | e :: es =>
    if p.comesTo i e then e :: (p.apply e).1.comingTo i es else (p.apply e).1.comingTo i es

/-- The events whose calls succeed when they are applied one after the other. -/
def applied (p : ProjectionSet σ) : List Event → List Event
  | [] => []
  | e :: es =>
    match p.apply e with
    | (p, .ok ()) => e :: p.applied es
    | (p, .error _) => p.applied es

theorem resume_cons (p : ProjectionSet σ) (e : Event) (es : List Event) :
    p.resume (e :: es) = (p.apply e).1.resume es := rfl

/-- An event that comes to the slot that refuses it comes to the slots up to that one. -/
theorem comesTo_iff_of_refusal {p : ProjectionSet σ} {pre post : List (Slot σ)} {s : Slot σ} {e : Event}
    {err : ProjectionError} (hslots : p.slots = pre ++ s :: post) (hpre : ∀ t ∈ pre, t.refusal? e = none)
    (hs : s.refusal? e = some err) (i : Nat) : p.comesTo i e = true ↔ i ≤ pre.length := by
  simp only [comesTo, hslots, List.all_eq_true, Option.isNone_iff_eq_none]
  constructor
  · intro h
    -- beyond the refusing slot, that slot is among those that would have to let the event through
    by_contra hlt
    have hmem : s ∈ (pre ++ s :: post).take i := by
      obtain ⟨n, rfl⟩ := Nat.exists_eq_add_of_lt (Nat.lt_of_not_le hlt)
      rw [Nat.add_assoc, List.take_length_add_append]
      exact List.mem_append_right _ List.mem_cons_self
    exact nomatch hs.symm.trans (h s hmem)
  · intro hle t ht
    rw [List.take_append_of_le_length hle] at ht
    exact hpre t (List.mem_of_mem_take ht)

/-- One call: a slot folds the event if it comes to it, and else is left alone. -/
theorem slots_apply (p : ProjectionSet σ) (e : Event) (i : Nat) :
    (p.apply e).1.slots[i]? =
      p.slots[i]?.map fun s => if p.comesTo i e then s.folded [e] else s := by
  rcases apply_cases p e with ⟨hall, happly⟩ | ⟨pre, s, post, err, hslots, hpre, hs, happly⟩
  · have hcomes : p.comesTo i e = true := by
      simp only [comesTo, List.all_eq_true, Option.isNone_iff_eq_none]
      exact fun s hs => hall s (List.mem_of_mem_take hs)
    rw [happly, hcomes]
    exact List.getElem?_map
  · have hcomes := comesTo_iff_of_refusal hslots hpre hs i
    rw [happly, hslots]
    rcases Nat.lt_trichotomy i pre.length with hlt | rfl | hlt
    · -- the slots before the one that refuses have folded the event
      rw [List.getElem?_append_left (by simpa using hlt), List.getElem?_append_left hlt,
        List.getElem?_map, hcomes.mpr (Nat.le_of_lt hlt)]
      rfl
    · -- the one that refuses has lost its state, as folding the event would have made it
      rw [hcomes.mpr (Nat.le_refl _), ← Slot.folded_of_refusal hs]
      simp
    · -- the slots after the one that refuses do not see the event
      have hnot : p.comesTo i e = false := by
        rw [← Bool.not_eq_true, hcomes]
        omega
      obtain ⟨n, rfl⟩ := Nat.exists_eq_add_of_lt hlt
      rw [hnot, List.getElem?_append_right (by simp; omega), List.getElem?_append_right (by omega)]
      have hsub : pre.length + n + 1 - pre.length = n + 1 := by omega
      simp [hsub]

/-- Any number of calls: a slot folds the events that come to it. -/
theorem slots_resume (p : ProjectionSet σ) (es : List Event) (i : Nat) :
    (p.resume es).slots[i]? = p.slots[i]?.map fun s => s.folded (p.comingTo i es) := by
  induction es generalizing p with
  | nil =>
    have hself : ∀ s : Slot σ, s.folded [] = s := by
      rintro ⟨index, id, projector, state⟩
      cases state <;> rfl
    simp only [resume, List.foldl_nil, comingTo, hself, Option.map_id']
  -- one call decides whether the event is folded, and the rest folds on from there
  | cons e es ih =>
    rw [resume_cons, ih, slots_apply, Option.map_map, comingTo]
    refine congrArg (Option.map · _) (funext fun s => ?_)
    simp only [Function.comp_apply]
    split
    · exact (Slot.folded_append s [e] _).symm
    · rfl

/-- A slot has lost its state exactly if it is the one that refused an event. -/
theorem state_resume_eq_none_iff {p : ProjectionSet σ} {i : Nat} {s : Slot σ} (hs : p.slots[i]? = some s)
    (hstate : s.state.isSome = true) (es : List Event) :
    (s.folded (p.comingTo i es)).state = none ↔
      ∃ before e after, es = before ++ e :: after ∧ (p.resume before).RefusesAt i e := by
  -- a state is lost in one call, and the calls after it do not bring it back
  induction es generalizing p s with
  | nil =>
    obtain ⟨x, hx⟩ := Option.isSome_iff_exists.mp hstate
    simp [comingTo, Slot.folded, hx, Projector.foldFrom, Except.toOption]
  | cons e es ih =>
    have hnext := slots_apply p e i
    rw [hs, Option.map_some] at hnext
    have hrest : (s.folded (p.comingTo i (e :: es))).state =
        ((if p.comesTo i e then s.folded [e] else s).folded ((p.apply e).1.comingTo i es)).state := by
      rw [comingTo]
      split
      · exact congrArg Slot.state (Slot.folded_append s [e] _)
      · rfl
    rw [hrest]
    by_cases hrefuses : p.RefusesAt i e
    · -- the first event takes the state, and it stays lost
      obtain ⟨hcomes, t, err, ht, herr⟩ := hrefuses
      obtain rfl := Option.some.inj (hs.symm.trans ht)
      rw [if_pos hcomes, Slot.folded_of_refusal herr]
      refine ⟨fun _ => ⟨[], e, es, rfl, hcomes, s, err, hs, herr⟩, fun _ => ?_⟩
      exact Slot.state_folded_of_none rfl _
    · -- the first event leaves the state, so a later one must take it
      have hkept : (if p.comesTo i e then s.folded [e] else s).state.isSome = true := by
        split
        · rename_i hcomes
          refine Slot.isSome_state_folded_iff.mpr ⟨hstate, Option.eq_none_iff_forall_ne_some.mpr ?_⟩
          exact fun err herr => hrefuses ⟨hcomes, s, err, hs, herr⟩
        · exact hstate
      rw [ih hnext hkept]
      constructor
      · rintro ⟨before, d, after, rfl, h⟩
        exact ⟨e :: before, d, after, rfl, h⟩
      · rintro ⟨before, d, after, hes, h⟩
        -- the event that takes the state is not the first one, which was just excluded
        cases before with
        | nil =>
          obtain ⟨rfl, -⟩ := List.cons.inj hes
          exact absurd h hrefuses
        | cons d' before =>
          obtain ⟨rfl, rfl⟩ := List.cons.inj hes
          exact ⟨before, d, after, rfl, h⟩

/-- An event that comes to a slot without a state and that the slot selects is refused as what it is. -/
theorem apply_of_lost {p : ProjectionSet σ} {i : Nat} {s : Slot σ} {e : Event}
    (hs : p.slots[i]? = some s) (hstate : s.state = none) (hsel : s.projector.query.selects e = true)
    (hcomes : p.comesTo i e = true) : (p.apply e).2 = .error (s.lost e) := by
  have hlost : s.refusal? e = some (s.lost e) := by
    simp only [Slot.refusal?, hsel, if_true, hstate]
  rcases apply_cases p e with ⟨hall, -⟩ | ⟨pre, t, post, err, hslots, hpre, ht, happly⟩
  · -- some slot refuses, so the call cannot have passed them all
    exact nomatch hlost.symm.trans (hall s (List.mem_of_getElem? hs))
  · -- the slot that ends the call is not before this one, and this one refuses the event
    have hle := (comesTo_iff_of_refusal hslots hpre ht i).mp hcomes
    rw [hslots] at hs
    rcases Nat.lt_or_eq_of_le hle with hlt | rfl
    · rw [List.getElem?_append_left hlt] at hs
      exact nomatch hlost.symm.trans (hpre s (List.mem_of_getElem? hs))
    · rw [List.getElem?_append_right (Nat.le_refl _), Nat.sub_self, List.getElem?_cons_zero] at hs
      obtain rfl := Option.some.inj hs
      obtain rfl := Option.some.inj (hlost.symm.trans ht)
      rw [happly]

/-! ### The highest position -/

/-- Only the events whose calls succeed count for the highest position. -/
theorem observed_resume (p : ProjectionSet σ) (es : List Event) :
    (p.resume es).observed = highest p.slots p.observed (p.applied es) := by
  -- a call that fails keeps the highest position, and no call changes the queries
  induction es generalizing p with
  | nil => rfl
  | cons e es ih =>
    have hqueries := anySelects_apply p e
    rw [resume_cons, ih]
    rcases apply_cases p e with ⟨-, happly⟩ | ⟨pre, s, post, err, -, -, -, happly⟩ <;>
      rw [happly] at hqueries
    · simp only [applied, happly, highest, List.foldl_cons, List.foldl_nil, hqueries]
    · simp only [applied, happly, highest, hqueries]

/-- A set keeps its queries, whatever is refused. -/
theorem anySelects_resume (p : ProjectionSet σ) (es : List Event) :
    Slot.anySelects (p.resume es).slots = Slot.anySelects p.slots := by
  induction es generalizing p with
  | nil => rfl
  | cons e es ih => rw [resume_cons, ih, anySelects_apply]

/-- The highest position does not go down. -/
theorem observed_le_resume (p : ProjectionSet σ) (es : List Event) :
    p.observed ≤ (p.resume es).observed := by
  rw [observed_resume]
  exact position_le_highest.1

/-! ### Projectors -/

/-- The slots that projectors start with. -/
theorem slots_ofProjectors (ps : List (NamedProjector σ)) :
    (ofProjectors ps).slots = ps.zipIdx.map fun p => Slot.ofProjector p.2 p.1 :=
  Slot.ofProjectors_eq_map 0 ps

/-- The slots of projectors after any number of calls: each has folded the events that came to it. -/
theorem slots_resume_ofProjectors (ps : List (NamedProjector σ)) (es : List Event) :
    ((ofProjectors ps).resume es).slots = ps.zipIdx.map fun p =>
      (Slot.ofProjector p.2 p.1).folded ((ofProjectors ps).comingTo p.2 es) := by
  refine List.ext_getElem? fun i => ?_
  rw [slots_resume, slots_ofProjectors, List.getElem?_map, List.getElem?_map, List.getElem?_zipIdx]
  cases ps[i]? with
  | none => rfl
  | some p => simp

/-- What a slot of a projector holds: the fold of the events that came to it and that its query selects. -/
theorem state_folded_ofProjector (p : NamedProjector σ) (i : Nat) (es : List Event) :
    ((Slot.ofProjector i p).folded es).state =
      ((es.filter p.projector.query.selects).foldlM p.projector.transition
        p.projector.initial).toOption := by
  rw [← Projector.foldFrom_eq_foldlM]
  rfl

/-- The states of projectors after any number of calls, in their order. -/
theorem states_resume_ofProjectors (ps : List (NamedProjector σ)) (es : List Event) :
    ((ofProjectors ps).resume es).states = ps.zipIdx.filterMap fun p =>
      ((((ofProjectors ps).comingTo p.2 es).filter p.1.projector.query.selects).foldlM
        p.1.projector.transition p.1.projector.initial).toOption.map fun x => (p.1.id, x) := by
  have hslots := slots_resume_ofProjectors ps es
  -- the slots keep the order of their numbers, so sorting the states moves nothing
  have hord : ((ofProjectors ps).resume es).slots.Pairwise fun a b => a.index < b.index := by
    have hstart := Slot.pairwise_ofProjectors 0 ps
    rw [Slot.ofProjectors_eq_map, List.pairwise_map] at hstart
    rw [hslots, List.pairwise_map]
    exact hstart
  have hstates := states_of_perm (.refl _) hord ((ofProjectors ps).resume es).observed
  refine hstates.trans ?_
  rw [hslots, List.filterMap_map]
  refine List.filterMap_congr fun p _ => ?_
  rw [← state_folded_ofProjector p.1 p.2]
  rfl

/-- Projectors that are given one event after the other, also after refusals.
* A call fails exactly if a slot that selects the event has lost its state or has a transition that refuses
  the event. The first such slot decides the error and has no state then; the slots before it have folded
  the event, those after it and the highest position are as before.
* A slot holds what its transition makes of the events that came to it and that it selects. It has lost its
  state exactly if it is the slot that refused an event, and then it rejects every later event that comes to
  it and that it selects.
* The states are those of the slots that have one, in the order of the projectors.
* The highest position is that of the selected events whose calls succeeded, 0 if there are none. It does
  not go down. -/
theorem resumed_fold (ps : List (NamedProjector σ)) (es : List Event) :
    let start := ofProjectors ps
    let set := start.resume es
    let selected := fun e : Event => ps.any (·.projector.query.selects e)
    let folds := fun (p : NamedProjector σ) (i : Nat) =>
      ((start.comingTo i es).filter p.projector.query.selects).foldlM p.projector.transition
        p.projector.initial
    (∀ e : Event, ((∀ s ∈ set.slots, s.refusal? e = none) ∧
        set.apply e = (⟨set.slots.map (Slot.folded [e]),
          if selected e then max set.observed e.position else set.observed⟩, .ok ())) ∨
      ∃ pre s post err, set.slots = pre ++ s :: post ∧ (∀ t ∈ pre, t.refusal? e = none) ∧
        s.refusal? e = some err ∧ set.apply e =
          (⟨pre.map (Slot.folded [e]) ++ { s with state := none } :: post, set.observed⟩, .error err)) ∧
    (∀ i p, ps[i]? = some p → ∃ s, set.slots[i]? = some s ∧ s.id = p.id ∧ s.projector = p.projector ∧
      s.state = (folds p i).toOption ∧
      (s.state = none ↔ ∃ before e after, es = before ++ e :: after ∧
        (start.resume before).RefusesAt i e) ∧
      (s.state = none → ∀ (more : List Event) (e : Event), p.projector.query.selects e = true →
        (set.resume more).comesTo i e = true →
        ((set.resume more).apply e).2 = .error (.rejected e.eventType e.position
          ("state of projector `" ++ p.id ++ "` lost after an earlier failure")))) ∧
    set.states = (ps.zipIdx.filterMap fun (p, i) => (folds p i).toOption.map fun x => (p.id, x)) ∧
    set.observed = (((start.applied es).filter selected).map (·.position)).foldl max 0 ∧
    ∀ more, set.observed ≤ (set.resume more).observed := by
  intro start set selected folds
  have hselected : Slot.anySelects start.slots = selected := anySelects_slots_ofProjectors
  have hqueries : Slot.anySelects set.slots = selected := by
    rw [← hselected]
    exact anySelects_resume start es
  refine ⟨fun e => ?_, fun i p hp => ?_, states_resume_ofProjectors ps es, ?_, observed_le_resume set⟩
  · have hhighest : highest set.slots set.observed [e] =
        if selected e then max set.observed e.position else set.observed := by
      simp only [highest, List.foldl_cons, List.foldl_nil, hqueries]
    rw [← hhighest]
    exact apply_cases set e
  · have hslot : start.slots[i]? = some (Slot.ofProjector i p) := by
      rw [slots_ofProjectors, List.getElem?_map, List.getElem?_zipIdx, hp]
      simp
    have hset := slots_resume start es i
    rw [hslot, Option.map_some] at hset
    refine ⟨_, hset, rfl, rfl, state_folded_ofProjector p i _,
      state_resume_eq_none_iff hslot rfl es, fun hnone more e hsel hcomes => ?_⟩
    -- the state is still lost when the event comes
    have hlater := slots_resume set more i
    rw [hset, Option.map_some] at hlater
    exact apply_of_lost hlater (Slot.state_folded_of_none hnone _) hsel hcomes
  · rw [observed_resume, highest_eq_foldl, hselected]
    rfl

/-- Deposits are counted next to a projector that refuses openings. The opening that comes first takes its
state, so the second one is rejected for the loss; the count and its position stay. -/
theorem resumed_fold_of_two_openings :
    let opened : Event := { (default : Event) with eventType := "Opened", position := 1 }
    let deposited : Event := { (default : Event) with eventType := "Deposited", position := 2 }
    let reopened : Event := { (default : Event) with eventType := "Opened", position := 3 }
    let start := ofProjectors [depositCount, Store.refusing "Opened"]
    let set := start.resume [opened, deposited]
    (start.apply opened).2 = .error (.rejected "Opened" 1 "unexpected") ∧
      set.states = [("deposits", 1)] ∧ set.observed = 2 ∧
      (set.apply reopened).2 = .error (.rejected "Opened" 3
        "state of projector `Opened` lost after an earlier failure") := by
  intro opened deposited reopened start set
  obtain ⟨-, hslots, hstates, hobserved, -⟩ :=
    resumed_fold [depositCount, Store.refusing "Opened"] [opened, deposited]
  obtain ⟨s, -, -, -, -, hlost, hlater⟩ := hslots 1 (Store.refusing "Opened") rfl
  have hfirst : start.RefusesAt 1 opened :=
    ⟨by decide +kernel, .ofProjector 1 (Store.refusing "Opened"), .rejected "Opened" 1 "unexpected", rfl,
      by decide +kernel⟩
  have hnone : s.state = none := hlost.mpr ⟨[], opened, [deposited], rfl, hfirst⟩
  refine ⟨by decide +kernel, hstates.trans (by decide +kernel), hobserved.trans (by decide +kernel), ?_⟩
  exact hlater hnone [] reopened (by decide +kernel) (by decide +kernel)

end ProjectionSet

end EventLog
