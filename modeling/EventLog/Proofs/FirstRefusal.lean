import EventLog.Proofs.FanOutCorrect

/-!
# The first refusal

A fold in place stops at the first refusal: of the events in order the first that a projector refuses, and
of the projectors in order the first that refuses it. Workers only know the first refusals of their own
projectors, and one of those is the error of the projection. So it is the first refusal of all projectors
if those that refuse anything were dealt to one worker.

## Key results

- `ProjectionSet.ofProjectors_eq_error_iff`: a fold in place ends with the first refusal
- `Folder.ends_eq_error`: a run of a projection fails with the first refusal of a worker's projectors
- `Folder.ends_eq_error_iff`: if one worker has all that refuse something, that is the first refusal of all
-/

namespace EventLog

variable {σ : Type}

/-- Of several folds over the same events `err` is the first refusal: all of them fold the events before
some event, the ones before some fold also fold this event, and that fold refuses it. -/
def FirstRefusal {α β : Type} (fold : α → List Event → Except ProjectionError β) (xs : List α)
    (es : List Event) (err : ProjectionError) : Prop :=
  ∃ before e after pre x post, es = before ++ e :: after ∧ xs = pre ++ x :: post ∧
    (∀ y ∈ xs, ∃ z, fold y before = .ok z) ∧
    (∀ y ∈ pre, ∃ z, fold y (before ++ [e]) = .ok z) ∧
    fold x (before ++ [e]) = .error err

namespace FirstRefusal

variable {α β γ : Type} {fold : α → List Event → Except ProjectionError β}

/-- What comes after the first refusal does not matter. -/
theorem append {xs : List α} {es : List Event} {err : ProjectionError}
    (h : FirstRefusal fold xs es err) (more : List Event) : FirstRefusal fold xs (es ++ more) err := by
  obtain ⟨before, e, after, pre, x, post, rfl, hxs, hbefore, hpre, hx⟩ := h
  exact ⟨before, e, after ++ more, pre, x, post, by simp, hxs, hbefore, hpre, hx⟩

/-- The first refusal of folds that are given as others. -/
theorem map_iff {fold' : γ → List Event → Except ProjectionError β} {f : γ → α} {ys : List γ}
    (hf : ∀ y ∈ ys, fold' y = fold (f y)) {es : List Event} {err : ProjectionError} :
    FirstRefusal fold (ys.map f) es err ↔ FirstRefusal fold' ys es err := by
  constructor
  · rintro ⟨before, e, after, pre, x, post, hes, hys, hbefore, hpre, hx⟩
    -- the list is split where its image is
    obtain ⟨pre, rest, rfl, rfl, hrest⟩ := List.map_eq_append_iff.mp hys
    obtain ⟨y, post, rfl, rfl, rfl⟩ := List.map_eq_cons_iff.mp hrest
    refine ⟨before, e, after, pre, y, post, hes, rfl, fun z hz => ?_, fun z hz => ?_, ?_⟩
    · rw [hf z hz]
      exact hbefore _ (List.mem_map_of_mem hz)
    · rw [hf z (List.mem_append_left _ hz)]
      exact hpre _ (List.mem_map_of_mem hz)
    · rw [hf y (List.mem_append_right _ List.mem_cons_self)]
      exact hx
  · rintro ⟨before, e, after, pre, y, post, hes, rfl, hbefore, hpre, hy⟩
    refine ⟨before, e, after, pre.map f, f y, post.map f, hes, by simp, ?_, ?_, ?_⟩
    · intro x hx
      obtain ⟨z, hz, rfl⟩ := List.mem_map.mp hx
      rw [← hf z hz]
      exact hbefore z hz
    · intro x hx
      obtain ⟨z, hz, rfl⟩ := List.mem_map.mp hx
      rw [← hf z (List.mem_append_left _ hz)]
      exact hpre z hz
    · rw [← hf y (List.mem_append_right _ List.mem_cons_self)]
      exact hy

end FirstRefusal

namespace Slot

/-! ### One event -/

/-- The fold of the projector of a slot from the state of the slot on. -/
def fold (s : Slot σ) (es : List Event) : Except ProjectionError σ :=
  s.state.elim (.error default) fun x => s.projector.foldFrom x es

/-- A slot folds events exactly if its projector has a state to give for them. -/
theorem folds_iff {s : Slot σ} {es : List Event} : s.Folds es ↔ ∃ y, s.fold es = .ok y := by
  unfold Folds fold
  cases s.state with
  | none => simp
  | some x => simp

/-- A slot that has folded events goes on from its new state. -/
theorem fold_append {s : Slot σ} {es : List Event} (h : s.Folds es) (fs : List Event) :
    s.fold (es ++ fs) = (s.folded es).fold fs := by
  obtain ⟨x, y, hx, hy⟩ := h
  simp [fold, folded, hx, hy, Projector.foldFrom_append, Except.bind, Except.toOption]

/-- Slots that fold an event do not stop it. -/
theorem advance_cons_of_folds {s : Slot σ} {e : Event} (h : s.Folds [e]) (slots : List (Slot σ))
    (err : ProjectionError) :
    (advance e (s :: slots)).2 = .error err ↔ (advance e slots).2 = .error err := by
  cases hsel : s.projector.query.selects e with
  | true =>
    simp only [advance, hsel, if_true, absorb_of_folds h hsel]
    cases (advance e slots).2 <;> simp [Except.map]
  | false => simp only [advance, hsel, Bool.false_eq_true, if_false]

/-- A slot that refuses an event ends the round with its refusal. -/
theorem advance_cons_of_refuses {s : Slot σ} {e : Event} {err : ProjectionError}
    (hstate : s.state.isSome = true) (h : s.fold [e] = .error err) (slots : List (Slot σ)) :
    (advance e (s :: slots)).2 = .error err := by
  obtain ⟨x, hx⟩ := Option.isSome_iff_exists.mp hstate
  simp only [fold, hx, Option.elim_some, Projector.foldFrom_singleton, Projector.apply] at h
  cases hsel : s.projector.query.selects e with
  | true =>
    rw [if_pos hsel] at h
    simp only [advance, hsel, if_true, absorb, hx, h]
  | false =>
    -- an event that is passed over is not refused
    rw [hsel] at h
    cases h

/-- An event does not get through slots exactly if one of them refuses it and those before it do not. -/
theorem advance_eq_error_iff {e : Event} {slots : List (Slot σ)}
    (hstate : ∀ s ∈ slots, s.state.isSome = true) {err : ProjectionError} :
    (advance e slots).2 = .error err ↔ ∃ pre s post, slots = pre ++ s :: post ∧
      (∀ t ∈ pre, t.Folds [e]) ∧ s.fold [e] = .error err := by
  -- a slot that folds the event leaves the answer to those after it, another one is the answer
  induction slots with
  | nil => simp [advance]
  | cons s slots ih =>
    have hs := hstate s List.mem_cons_self
    have ih := ih fun t ht => hstate t (List.mem_cons_of_mem _ ht)
    cases hfold : s.fold [e] with
    | ok y =>
      have hfolds : s.Folds [e] := folds_iff.mpr ⟨y, hfold⟩
      rw [advance_cons_of_folds hfolds, ih]
      constructor
      · -- the refusal stands behind this slot
        rintro ⟨pre, t, post, rfl, hpre, ht⟩
        exact ⟨s :: pre, t, post, rfl, List.forall_mem_cons.mpr ⟨hfolds, hpre⟩, ht⟩
      · rintro ⟨pre, t, post, hslots, hpre, ht⟩
        cases pre with
        | nil =>
          obtain ⟨rfl, rfl⟩ := List.cons.inj hslots
          rw [hfold] at ht
          cases ht
        | cons u pre =>
          obtain ⟨rfl, rfl⟩ := List.cons.inj hslots
          exact ⟨pre, t, post, rfl, (List.forall_mem_cons.mp hpre).2, ht⟩
    | error err' =>
      rw [advance_cons_of_refuses hs hfold]
      constructor
      · rintro ⟨⟩
        exact ⟨[], s, slots, rfl, by simp, hfold⟩
      · rintro ⟨pre, t, post, hslots, hpre, ht⟩
        cases pre with
        -- this slot folds the event, so it is not the one that refuses
        | nil =>
          obtain ⟨rfl, rfl⟩ := List.cons.inj hslots
          obtain rfl := Except.error.inj (hfold.symm.trans ht)
          rfl
        | cons u pre =>
          obtain ⟨rfl, rfl⟩ := List.cons.inj hslots
          obtain ⟨y, hy⟩ := folds_iff.mp (hpre s List.mem_cons_self)
          rw [hfold] at hy
          cases hy

/-! ### All events -/

/-- An event that all slots fold is not the first that one of them refuses. -/
theorem firstRefusal_cons_iff {e : Event} {slots : List (Slot σ)} (h : ∀ s ∈ slots, s.Folds [e])
    {es : List Event} {err : ProjectionError} :
    FirstRefusal fold slots (e :: es) err ↔ FirstRefusal fold (slots.map (folded [e])) es err := by
  have hfold : ∀ s ∈ slots, (fun fs => s.fold (e :: fs)) = (s.folded [e]).fold :=
    fun s hs => funext fun fs => fold_append (h s hs) fs
  rw [FirstRefusal.map_iff hfold]
  constructor
  · -- the event is folded, so the first refusal is not at it and may be looked for behind
    rintro ⟨before, d, after, pre, s, post, hes, rfl, hbefore, hpre, hs⟩
    cases before with
    | nil =>
      obtain ⟨rfl, -⟩ := List.cons.inj hes
      obtain ⟨y, hy⟩ := folds_iff.mp (h s (List.mem_append_right _ List.mem_cons_self))
      exact nomatch hy.symm.trans hs
    | cons d' before =>
      obtain ⟨rfl, hrest⟩ := List.cons.inj hes
      exact ⟨before, d, after, pre, s, post, hrest, rfl, hbefore, hpre, hs⟩
  · rintro ⟨before, d, after, pre, s, post, rfl, rfl, hbefore, hpre, hs⟩
    exact ⟨e :: before, d, after, pre, s, post, rfl, rfl, hbefore, hpre, hs⟩

/-- Of events that slots do not all fold, the first one is the first that is refused if it is not folded
by all of them. -/
theorem firstRefusal_cons_of_not_folds {e : Event} {slots : List (Slot σ)}
    (hstate : ∀ s ∈ slots, s.state.isSome = true) (h : ¬∀ s ∈ slots, s.Folds [e]) {es : List Event}
    {err : ProjectionError} :
    FirstRefusal fold slots (e :: es) err ↔ ∃ pre s post, slots = pre ++ s :: post ∧
      (∀ t ∈ pre, t.Folds [e]) ∧ s.fold [e] = .error err := by
  constructor
  · rintro ⟨before, d, after, pre, s, post, hes, hslots, hbefore, hpre, hs⟩
    cases before with
    | nil =>
      obtain ⟨rfl, -⟩ := List.cons.inj hes
      exact ⟨pre, s, post, hslots, fun t ht => folds_iff.mpr (hpre t ht), hs⟩
    | cons d' before =>
      obtain ⟨rfl, -⟩ := List.cons.inj hes
      -- a later refusal would need all slots to fold the first event
      refine absurd (fun t ht => ?_) h
      exact ((folds_append t [e] before).mp (folds_iff.mpr (hbefore t ht))).1
  · rintro ⟨pre, s, post, hslots, hpre, hs⟩
    refine ⟨[], e, es, pre, s, post, rfl, hslots, fun t ht => ?_, fun t ht => ?_, hs⟩
    · exact folds_iff.mp (folds_nil (hstate t ht)).1
    · exact folds_iff.mp (hpre t ht)

end Slot

namespace ProjectionSet

/-- A fold of a batch fails exactly with the first refusal. -/
theorem applyBatch_eq_error_iff {p : ProjectionSet σ} {es : List Event} {err : ProjectionError}
    (hstate : ∀ s ∈ p.slots, s.state.isSome = true) :
    (p.applyBatch es).2 = .error err ↔ FirstRefusal Slot.fold p.slots es err := by
  -- the slots fold from their own states, so what they have folded before is not lost on them
  induction es generalizing p with
  | nil =>
    refine ⟨fun h => (nomatch h), ?_⟩
    rintro ⟨before, e, after, -, -, -, hes, -⟩
    exact absurd hes (by simp)
  | cons e es ih =>
    by_cases hall : ∀ s ∈ p.slots, s.Folds [e]
    · -- the event is applied, and the first refusal is among the later ones
      have hstate' : ∀ s ∈ p.slots.map (Slot.folded [e]), s.state.isSome = true := by
        intro s hs
        obtain ⟨t, ht, rfl⟩ := List.mem_map.mp hs
        exact Slot.isSome_state_folded (hall t ht)
      simp only [applyBatch, apply_of_folds hall]
      rw [Slot.firstRefusal_cons_iff hall]
      exact ih (p := ⟨p.slots.map (Slot.folded [e]), highest p.slots p.observed [e]⟩) hstate'
    · -- this event is the one, and the slots are asked in order
      rw [Slot.firstRefusal_cons_of_not_folds hstate hall, ← Slot.advance_eq_error_iff hstate]
      simp only [applyBatch, apply]
      rcases hadv : Slot.advance e p.slots with ⟨slots, err' | selected⟩
      · simp only [Except.error.injEq]
      · exact absurd (Slot.folds_of_advance hstate (congrArg Prod.snd hadv)) hall

end ProjectionSet

/-! ### Projectors -/

namespace NamedProjector

/-- The fold of a projector that takes part in a decision. -/
def fold (p : NamedProjector σ) (es : List Event) : Except ProjectionError σ := p.projector.fold es

/-- The projectors of each worker of a projection; one worker has all of them. -/
def shares (ps : List (NamedProjector σ)) (workers : Nat) : List (List (NamedProjector σ)) :=
  if 1 < min workers ps.length then deal (min workers ps.length) ps else [ps]

/-- A projector that folds events folds the first ones of them. -/
theorem exists_fold_of_append {p : NamedProjector σ} {es fs : List Event}
    (h : ∃ y, p.fold (es ++ fs) = .ok y) : ∃ y, p.fold es = .ok y := by
  obtain ⟨z, hz⟩ := h
  rw [fold, Projector.fold, Projector.foldFrom_append] at hz
  rw [fold, Projector.fold]
  -- the rest of the events is only folded if these are
  cases hy : p.projector.foldFrom p.projector.initial es with
  | ok y => exact ⟨y, rfl⟩
  | error err => rw [hy] at hz; exact nomatch hz

/-- A refusal is not taken back by the events after it. -/
theorem fold_append_of_error {p : NamedProjector σ} {es : List Event} {err : ProjectionError}
    (h : p.fold es = .error err) (fs : List Event) : p.fold (es ++ fs) = .error err := by
  rw [fold, Projector.fold] at h
  rw [fold, Projector.fold, Projector.foldFrom_append, h]
  rfl

section

variable {ps share : List (NamedProjector σ)} {workers : Nat}

/-- Every worker keeps the order of its projectors. -/
theorem sublist_of_mem_shares (h : share ∈ shares ps workers) : share.Sublist ps := by
  unfold shares at h
  split at h
  · exact sublist_of_mem_deal h
  · exact List.mem_singleton.mp h ▸ .refl ps

/-- Every projector has a worker. -/
theorem exists_mem_shares {p : NamedProjector σ} (hp : p ∈ ps) (workers : Nat) :
    ∃ share ∈ shares ps workers, p ∈ share := by
  unfold shares
  split
  · rename_i hcount
    have hpos : 0 < min workers ps.length := Nat.lt_trans Nat.zero_lt_one hcount
    exact List.mem_flatten.mp ((flatten_deal_perm hpos ps).mem_iff.mpr hp)
  · exact ⟨ps, List.mem_singleton_self ps, hp⟩

/-- No projector has two workers. -/
theorem eq_of_mem_shares (hnodup : ps.Nodup) {share' : List (NamedProjector σ)}
    (h : share ∈ shares ps workers) (h' : share' ∈ shares ps workers) {p : NamedProjector σ}
    (hp : p ∈ share) (hp' : p ∈ share') : share = share' := by
  unfold shares at h h'
  split at h <;> rename_i hcount
  · rw [if_pos hcount] at h'
    have hpos : 0 < min workers ps.length := Nat.lt_trans Nat.zero_lt_one hcount
    have hflat : (deal (min workers ps.length) ps).flatten.Nodup :=
      (flatten_deal_perm hpos ps).nodup_iff.mpr hnodup
    -- a projector in two different shares would stand twice among all that are dealt
    have hapart := (List.pairwise_flatten.mp hflat).2
    by_contra hne
    have hsymm : Std.Symm fun xs ys : List (NamedProjector σ) => ∀ x ∈ xs, ∀ y ∈ ys, x ≠ y :=
      ⟨fun _ _ h x hx y hy => (h y hy x hx).symm⟩
    exact hapart.forall h h' hne p hp p hp' rfl
  · rw [if_neg hcount] at h'
    rw [List.mem_singleton.mp h, List.mem_singleton.mp h']

/-- The first refusal is one of a projector's own. -/
theorem exists_refusal {es : List Event} {err : ProjectionError} (h : FirstRefusal fold ps es err) :
    ∃ p ∈ ps, p.fold es = .error err := by
  obtain ⟨before, e, after, pre, p, post, rfl, rfl, -, -, hp⟩ := h
  refine ⟨p, List.mem_append_right _ List.mem_cons_self, ?_⟩
  -- the refusal is of a prefix, and the events behind it do not undo it
  have hall := fold_append_of_error hp after
  rwa [List.append_assoc] at hall

/-- The first refusal of some of the projectors is that of all, if the others refuse nothing. -/
theorem firstRefusal_of_sublist (hnodup : ps.Nodup) (hsub : share.Sublist ps) {es : List Event}
    (hrest : ∀ p ∈ ps, p ∉ share → ∃ y, p.fold es = .ok y) {err : ProjectionError}
    (h : FirstRefusal fold share es err) : FirstRefusal fold ps es err := by
  obtain ⟨before, e, after, pre, p, post, rfl, rfl, hbefore, hpre, hp⟩ := h
  -- where the projector that refuses stands among all
  obtain ⟨qs, tail, rfl, hqs, htail⟩ := List.append_sublist_iff.mp hsub
  obtain ⟨mid, rs, rfl, hmid, hrs⟩ := List.cons_sublist_iff.mp htail
  obtain ⟨us, vs, rfl⟩ := List.append_of_mem hmid
  have hps : qs ++ (us ++ p :: vs ++ rs) = (qs ++ us) ++ p :: (vs ++ rs) := by simp
  rw [hps] at hnodup hrest ⊢
  have hother : ∀ q ∈ (qs ++ us) ++ p :: (vs ++ rs), q ∉ pre ++ p :: post →
      ∃ y, q.fold (before ++ [e]) = .ok y := by
    intro q hq hout
    have hall := hrest q hq hout
    have hes : before ++ e :: after = (before ++ [e]) ++ after := by simp
    rw [hes] at hall
    exact exists_fold_of_append hall
  refine ⟨before, e, after, qs ++ us, p, vs ++ rs, rfl, rfl, fun q hq => ?_, fun q hq => ?_, hp⟩
  · -- before the event all fold: those of the share as they did, the others since they fold everything
    by_cases hin : q ∈ pre ++ p :: post
    · exact hbefore q hin
    · exact exists_fold_of_append (hother q hq hin)
  · by_cases hin : q ∈ pre ++ p :: post
    · rcases List.mem_append.mp hin with hin | hin
      · exact hpre q hin
      · -- a projector of the share that stands after the one that refuses does not stand before it
        have hlater : q ∈ p :: (vs ++ rs) := by
          rcases List.mem_cons.mp hin with rfl | hin
          · exact List.mem_cons_self
          · exact List.mem_cons_of_mem _ (List.mem_append_right _ (hrs.subset hin))
        exact absurd rfl ((List.nodup_append.mp hnodup).2.2 q hq q hlater)
    · exact hother q (List.mem_append_left _ hq) hin

end

end NamedProjector

namespace Slot

/-- The projector of a slot with its name. -/
def named (s : Slot σ) : NamedProjector σ := ⟨s.id, s.projector⟩

/-- The slots of projectors bear their names. -/
theorem map_named_ofProjectors (start : Nat) (ps : List (NamedProjector σ)) :
    (ofProjectors start ps).map named = ps := by
  induction ps generalizing start with
  | nil => rfl
  | cons p ps ih => rw [ofProjectors, List.map_cons, ih]; rfl

/-- Before any event a slot folds as its projector does. -/
theorem fold_of_mem_ofProjectors {start : Nat} {ps : List (NamedProjector σ)} {s : Slot σ}
    (h : s ∈ ofProjectors start ps) : s.fold = s.named.fold := by
  induction ps generalizing start with
  | nil => exact absurd h List.not_mem_nil
  | cons p ps ih =>
    rcases List.mem_cons.mp h with rfl | h
    · rfl
    · exact ih h

end Slot

/-- A fold in place of projectors fails exactly with their first refusal. -/
theorem ProjectionSet.ofProjectors_eq_error_iff {ps : List (NamedProjector σ)} {es : List Event}
    {err : ProjectionError} :
    ((ofProjectors ps).applyBatch es).2 = .error err ↔ FirstRefusal NamedProjector.fold ps es err := by
  -- before any event all slots have a state, and fold as their projectors do
  have hstate : ∀ s ∈ (ofProjectors ps).slots, s.state.isSome = true :=
    fun s hs => (Slot.index_of_mem_ofProjectors hs).2
  have hmap : FirstRefusal NamedProjector.fold ((Slot.ofProjectors 0 ps).map Slot.named) es err ↔
      FirstRefusal Slot.fold (Slot.ofProjectors 0 ps) es err :=
    FirstRefusal.map_iff fun s hs => Slot.fold_of_mem_ofProjectors hs
  rw [Slot.map_named_ofProjectors] at hmap
  rw [applyBatch_eq_error_iff hstate, hmap]
  rfl

namespace NamedProjector

variable {ps share : List (NamedProjector σ)} {workers : Nat} {es : List Event}
  {err err' : ProjectionError}

/-- There is at most one first refusal. -/
theorem firstRefusal_unique (h : FirstRefusal fold ps es err) (h' : FirstRefusal fold ps es err') :
    err = err' := by
  -- both are what the fold in place fails with
  have hfold := ProjectionSet.ofProjectors_eq_error_iff.mpr h
  have hfold' := ProjectionSet.ofProjectors_eq_error_iff.mpr h'
  exact Except.error.inj (hfold.symm.trans hfold')

/-- One worker has all projectors that refuse one of the events. -/
def RefuseTogether (ps : List (NamedProjector σ)) (workers : Nat) (es : List Event) : Prop :=
  ∃ share ∈ shares ps workers, ∀ p ∈ ps, (∃ err, p.fold es = .error err) → p ∈ share

/-- A single worker has all projectors. -/
theorem refuseTogether_one (ps : List (NamedProjector σ)) (es : List Event) : RefuseTogether ps 1 es := by
  have hshares : shares ps 1 = [ps] := if_neg (by omega)
  exact ⟨ps, hshares ▸ List.mem_singleton_self ps, fun p hp _ => hp⟩

/-- A projector that is alone in refusing something has one worker. -/
theorem refuseTogether_of_alone
    (h : ∀ p ∈ ps, ∀ q ∈ ps, (∃ err, p.fold es = .error err) → (∃ err, q.fold es = .error err) → p = q) :
    RefuseTogether ps workers es := by
  by_cases hsome : ∃ p ∈ ps, ∃ err, p.fold es = .error err
  · obtain ⟨p, hp, hrefused⟩ := hsome
    obtain ⟨share, hshare, hmem⟩ := exists_mem_shares hp workers
    exact ⟨share, hshare, fun q hq hrefused' => h p hp q hq hrefused hrefused' ▸ hmem⟩
  · -- with no refusal at all, any worker will do
    cases ps with
    | nil => exact ⟨[], by simp [shares], fun p hp => absurd hp List.not_mem_nil⟩
    | cons p ps =>
      obtain ⟨share, hshare, -⟩ := exists_mem_shares (List.mem_cons_self (a := p) (l := ps)) workers
      exact ⟨share, hshare, fun q hq hrefused => absurd ⟨q, hq, hrefused⟩ hsome⟩

/-- If one worker has all projectors that refuse something, a first refusal of a worker is that of all. -/
theorem RefuseTogether.firstRefusal (htogether : RefuseTogether ps workers es) (hnodup : ps.Nodup)
    (hshare : share ∈ shares ps workers) (h : FirstRefusal fold share es err) :
    FirstRefusal fold ps es err := by
  obtain ⟨share', hshare', hall⟩ := htogether
  have hsub := sublist_of_mem_shares hshare
  -- the worker that refuses is the one that has them
  obtain ⟨p, hp, hrefused⟩ := exists_refusal h
  obtain rfl := eq_of_mem_shares hnodup hshare hshare' hp (hall p (hsub.subset hp) ⟨err, hrefused⟩)
  refine firstRefusal_of_sublist hnodup hsub (fun q hq hout => ?_) h
  cases hfold : q.fold es with
  | ok y => exact ⟨y, rfl⟩
  | error err' => exact absurd (hall q hq ⟨err', hfold⟩) hout

end NamedProjector

namespace Folder

variable {ps : List (NamedProjector σ)} {workers : Nat}

/-- The slots of a worker are those of its projectors. -/
theorem map_named_mem_shares {share : List (Slot σ)} (h : share ∈ (start ps workers).shares) :
    share.map Slot.named ∈ NamedProjector.shares ps workers := by
  simp only [start] at h
  simp only [NamedProjector.shares]
  split at h <;> rename_i hcount
  · -- dealing slots is dealing their projectors, as it does not look at what is dealt
    rw [if_pos hcount]
    simp only [shares, FanOut.start, List.map_map] at h
    obtain ⟨dealt, hdealt, rfl⟩ := List.mem_map.mp h
    have hmap := deal_map Slot.named (min workers ps.length) (Slot.ofProjectors 0 ps)
    rw [Slot.map_named_ofProjectors] at hmap
    rw [hmap]
    exact List.mem_map_of_mem (List.mem_filter.mp hdealt).1
  · rw [if_neg hcount]
    obtain rfl := List.mem_singleton.mp h
    exact List.mem_singleton.mpr (Slot.map_named_ofProjectors 0 ps)

/-- Every projector has a slot, which folds events exactly if the projector does. -/
theorem exists_fold_of_folds {es : List Event} (h : ∀ s ∈ Slot.ofProjectors 0 ps, s.Folds es) :
    ∀ p ∈ ps, ∃ x, p.fold es = .ok x := by
  intro p hp
  rw [← Slot.map_named_ofProjectors 0 ps] at hp
  obtain ⟨s, hs, rfl⟩ := List.mem_map.mp hp
  rw [← Slot.fold_of_mem_ofProjectors hs]
  exact Slot.folds_iff.mp (h s hs)

/-- A run of a projection that fails does so with the first refusal of the projectors of a worker. -/
theorem ends_eq_error {batches : List (List Event)} {err : ProjectionError}
    (h : (start ps workers).Ends batches (.error err)) :
    ∃ share ∈ NamedProjector.shares ps workers,
      FirstRefusal NamedProjector.fold share batches.flatten err := by
  rcases ends_cases h with ⟨-, hok⟩ | ⟨share, hshare, err', fed, ⟨more, rfl⟩, hfail, herr⟩
  · exact nomatch hok
  -- the worker has not been fed all batches, but what comes after its refusal does not matter
  · obtain rfl := Except.error.inj herr
    have hmem : ∀ s ∈ share, s ∈ Slot.ofProjectors 0 ps :=
      fun s hs => mem_ofProjectors_of_mem_shares hshare hs
    have hfirst := (ProjectionSet.applyBatch_eq_error_iff (p := .ofSlots share) fun s hs =>
      (Slot.index_of_mem_ofProjectors (hmem s hs)).2).mp hfail
    refine ⟨_, map_named_mem_shares hshare, ?_⟩
    rw [FirstRefusal.map_iff fun s hs => Slot.fold_of_mem_ofProjectors (hmem s hs), List.flatten_append]
    exact hfirst.append more.flatten

/-- If one worker has all projectors that refuse something, then a run fails exactly with the first
refusal of all projectors, whatever the order in which the workers get on. -/
theorem ends_eq_error_iff (hnodup : ps.Nodup) {batches : List (List Event)}
    (htogether : NamedProjector.RefuseTogether ps workers batches.flatten)
    {r : Except ProjectionError (List (String × σ) × Position)}
    (h : (start ps workers).Ends batches r) {err : ProjectionError} :
    r = .error err ↔ FirstRefusal NamedProjector.fold ps batches.flatten err := by
  -- any error of the run is the first refusal of all, and there is only one
  have hforward : ∀ err', r = .error err' →
      FirstRefusal NamedProjector.fold ps batches.flatten err' := by
    rintro err' rfl
    obtain ⟨share, hshare, hfirst⟩ := ends_eq_error h
    exact htogether.firstRefusal hnodup hshare hfirst
  refine ⟨hforward err, fun hfirst => ?_⟩
  cases r with
  | error err' => rw [NamedProjector.firstRefusal_unique (hforward err' rfl) hfirst]
  | ok out =>
    -- a run that succeeds has no refusal at all
    obtain ⟨p, hp, hrefused⟩ := NamedProjector.exists_refusal hfirst
    obtain ⟨x, hx⟩ := exists_fold_of_folds ((ends_eq_ok_iff h).mp rfl).1 p hp
    exact nomatch hx.symm.trans hrefused

end Folder

end EventLog
