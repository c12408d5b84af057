import EventLog.Proofs.DecisionRefusal

/-!
# A decision is its projections

A decision reads the log once for all of its projectors, and only what one of them selects. Still each of
them gets what it would get alone: the state that it folds from the whole log. The condition of the
decision is put together from what the projectors ask for and from how far each of them has seen.

## Key results

- `Projector.foldFrom_filter`: a fold of selected events is a fold of all events
- `ProjectionSet.highest_ofProjectors`: projectors together see as far as the one that sees furthest
- `Store.project_eq_ok_iff`, `Store.decide_of_fold`: projections and decisions in terms of the whole log
- `Store.decide_agrees_with_projections`: a decision and the projections of its projectors
-/

namespace EventLog

open Database Sql

variable {σ : Type}

/-! ### States by name -/

/-- A state is put among the others, or over one. -/
theorem mem_insertState {id : String} {x : σ} {states : List (String × σ)} {entry : String × σ}
    (h : entry ∈ insertState id x states) : entry = (id, x) ∨ entry ∈ states := by
  induction states with
  | nil => exact .inl (List.mem_singleton.mp h)
  | cons first rest ih =>
    simp only [insertState] at h
    split at h
    · exact List.mem_cons.mp h
    · -- the first entry has this name and is put over, or a later place is looked for
      split at h
      · exact (List.mem_cons.mp h).imp_right (List.mem_cons_of_mem _)
      · rcases List.mem_cons.mp h with rfl | h
        · exact .inr List.mem_cons_self
        · exact (ih h).imp_right (List.mem_cons_of_mem _)

/-- A state with a new name is added to the others. -/
theorem insertState_perm {id : String} {x : σ} {states : List (String × σ)}
    (h : id ∉ states.map (·.1)) : (insertState id x states).Perm ((id, x) :: states) := by
  induction states with
  | nil => exact .refl _
  | cons first rest ih =>
    have hne : id ≠ first.1 := List.ne_of_not_mem_cons h
    have hrest : id ∉ rest.map (·.1) := List.not_mem_of_not_mem_cons h
    simp only [insertState]
    split
    · -- the name comes before the first one, or after it; by hypothesis it is not the same
      exact .refl _
    · exact ((ih hrest).cons first).trans (.swap _ _ rest)

/-- Names stay in order when a state is put among them. -/
theorem pairwise_insertState {id : String} {x : σ} {states : List (String × σ)}
    (h : states.Pairwise fun a b => a.1 < b.1) :
    (insertState id x states).Pairwise fun a b => a.1 < b.1 := by
  induction states with
  | nil => exact List.pairwise_singleton _ _
  | cons first rest ih =>
    obtain ⟨hfirst, hrest⟩ := List.pairwise_cons.mp h
    simp only [insertState]
    split
    · rename_i hlt
      refine List.pairwise_cons.mpr ⟨List.forall_mem_cons.mpr ⟨hlt, fun b hb => ?_⟩, h⟩
      exact String.lt_trans hlt (hfirst b hb)
    · rename_i hnlt
      split
      · rename_i heq
        exact List.pairwise_cons.mpr ⟨fun b hb => heq ▸ hfirst b hb, hrest⟩
      · rename_i hne
        refine List.pairwise_cons.mpr ⟨fun b hb => ?_, ih hrest⟩
        rcases mem_insertState hb with rfl | hb
        · -- a name that is neither before another one nor equal to it is after it
          refine Classical.byContradiction fun hngt => hne ?_
          exact String.le_antisymm (String.not_lt.mp hngt) (String.not_lt.mp hnlt)
        · exact hfirst b hb

/-- Sorting states by name keeps them in order of names. -/
theorem pairwise_sortStates (states : List (String × σ)) :
    (sortStates states).Pairwise fun a b => a.1 < b.1 := by
  -- whatever was sorted before
  have hfrom : ∀ acc : List (String × σ), (acc.Pairwise fun a b => a.1 < b.1) →
      (states.foldl (fun acc s => insertState s.1 s.2 acc) acc).Pairwise fun a b => a.1 < b.1 := by
    induction states with
    | nil => exact fun _ h => h
    | cons first rest ih => exact fun acc h => ih _ (pairwise_insertState h)
  exact hfrom [] .nil

/-- Sorting states of different names loses none of them. -/
theorem sortStates_perm {states : List (String × σ)} (h : (states.map (·.1)).Nodup) :
    (sortStates states).Perm states := by
  -- the states that are sorted already count as well
  have hfrom : ∀ acc : List (String × σ), ((states ++ acc).map (·.1)).Nodup →
      (states.foldl (fun acc s => insertState s.1 s.2 acc) acc).Perm (states ++ acc) := by
    clear h
    induction states with
    | nil => exact fun acc _ => .refl acc
    | cons first rest ih =>
      intro acc h
      obtain ⟨hnew, hrest⟩ := List.nodup_cons.mp h
      have hacc : first.1 ∉ acc.map (·.1) := by
        intro hmem
        obtain ⟨entry, hentry, hid⟩ := List.mem_map.mp hmem
        exact hnew (List.mem_map.mpr ⟨entry, List.mem_append_right rest hentry, hid⟩)
      have hinsert := insertState_perm (x := first.2) hacc
      have hmiddle : (rest ++ insertState first.1 first.2 acc).Perm (first :: rest ++ acc) :=
        (hinsert.append_left rest).trans List.perm_middle
      exact (ih _ ((hmiddle.map _).nodup_iff.mpr h)).trans hmiddle
  have hall := hfrom []
  rw [List.append_nil] at hall
  exact hall h

/-! ### The whole log -/

/-- A fold passes over the events that its query does not select, so they can be left out before. -/
theorem Projector.foldFrom_filter {p : Projector σ} {f : Event → Bool}
    (h : ∀ e, p.query.selects e = true → f e = true) (x : σ) (es : List Event) :
    p.foldFrom x (es.filter f) = p.foldFrom x es := by
  -- by induction on the events: one that `f` leaves out is not selected, and leaves the state alone
  induction es generalizing x with
  | nil => rfl
  | cons e es ih =>
    cases hf : f e with
    | true =>
      rw [List.filter_cons_of_pos hf]
      simp only [foldFrom, bind, Except.bind, ih]
    | false =>
      have hsel : p.query.selects e = false :=
        Bool.eq_false_iff.mpr fun hsel => Bool.false_ne_true (hf.symm.trans (h e hsel))
      rw [List.filter_cons_of_neg (by simp [hf]), ih]
      simp only [foldFrom, apply, hsel, Bool.false_eq_true, if_false, bind, Except.bind]

/-- The highest position of the events that a query selects, 0 if there are none. -/
def Query.highest (q : Query) (es : List Event) : Position :=
  es.foldl (fun p e => if q.selects e then max p e.position else p) 0

/-- The highest position is not before all events. -/
theorem Query.highest_nonneg (q : Query) (es : List Event) : 0 ≤ q.highest es := by
  have hfrom : ∀ p : Position,
      p ≤ es.foldl (fun p e => if q.selects e then max p e.position else p) p := by
    induction es with
    | nil => exact fun p => Int.le_refl p
    | cons e es ih =>
      refine fun p => Int.le_trans (b := if q.selects e then max p e.position else p) ?_ (ih _)
      split
      · exact Int.le_max_left p e.position
      · exact Int.le_refl p
  exact hfrom 0

/-- The highest of positions that are not negative. -/
theorem max?_eq_foldr_of_nonneg {ps : List Position} (hne : ps ≠ []) (h : ∀ p ∈ ps, 0 ≤ p) :
    ps.max? = some (ps.foldr max 0) := by
  induction ps with
  | nil => exact absurd rfl hne
  | cons p ps ih =>
    -- a single position is its own maximum, also over 0
    obtain ⟨hp, hrest⟩ := List.forall_mem_cons.mp h
    rw [List.max?_cons, List.foldr_cons]
    cases ps with
    | nil => exact congrArg some (Int.max_eq_left hp).symm
    | cons q ps => rw [ih (List.cons_ne_nil q ps) hrest]; rfl

/-- The highest of positions is after all of them only if one is. -/
theorem foldr_max_pos_iff {ps : List Position} (h : ∀ p ∈ ps, 0 ≤ p) :
    0 < ps.foldr max 0 ↔ ¬∀ p ∈ ps, p = 0 := by
  induction ps with
  | nil => simp
  | cons p ps ih =>
    obtain ⟨hp, hrest⟩ := List.forall_mem_cons.mp h
    rw [List.foldr_cons, List.forall_mem_cons, not_and_or, ← ih hrest]
    simp only [Position] at *
    omega

namespace ProjectionSet

/-- The highest position depends only on the events that a query selects. -/
theorem highest_filter {slots : List (Slot σ)} {f : Event → Bool}
    (h : ∀ e, Slot.anySelects slots e = true → f e = true) (p : Position) (es : List Event) :
    highest slots p (es.filter f) = highest slots p es := by
  -- an event that is left out would not have moved the position
  have hstep : (fun (p : Position) (e : Event) =>
      if f e = true then (if Slot.anySelects slots e then max p e.position else p) else p) =
        fun p e => if Slot.anySelects slots e then max p e.position else p := by
    funext p e
    cases hf : f e with
    | true => rfl
    | false =>
      have hsel : Slot.anySelects slots e = false :=
        Bool.eq_false_iff.mpr fun hsel => Bool.false_ne_true (hf.symm.trans (h e hsel))
      simp [hsel]
  rw [highest, List.foldl_filter, hstep]
  rfl

/-- The highest position that a single slot sees is that of its query. -/
theorem highest_singleton (s : Slot σ) (es : List Event) :
    highest [s] 0 es = s.projector.query.highest es := by
  simp only [highest, Slot.anySelects, List.any_cons, List.any_nil, Bool.or_false]
  rfl

/-- The highest position that projectors see is the highest that one of them sees. -/
theorem highest_ofProjectors (start : Nat) (ps : List (NamedProjector σ)) (es : List Event) :
    highest (Slot.ofProjectors start ps) 0 es =
      (ps.map fun p => p.projector.query.highest es).foldr max 0 := by
  induction ps generalizing start with
  | nil => exact highest_nil 0 es
  | cons p ps ih =>
    have hcons := highest_append [Slot.ofProjector start p] (Slot.ofProjectors (start + 1) ps) 0 0 es
    rw [Int.max_self, highest_singleton, ih] at hcons
    exact hcons

/-- The names and states of projectors that have folded events, in their order. -/
theorem states_ofProjectors {ps : List (NamedProjector σ)} {es : List Event} {xs : List σ}
    (h : ps.map (·.projector.fold es) = xs.map .ok) :
    (folded (Slot.ofProjectors 0 ps) es).states = (ps.map (·.id)).zip xs := by
  rw [states_folded (Slot.pairwise_ofProjectors 0 ps)]
  -- the slots of the projectors after the first one do not start at 0
  generalize 0 = start
  induction ps generalizing start xs with
  | nil => rfl
  | cons p ps ih =>
    cases xs with
    | nil => exact nomatch h
    | cons x xs =>
      obtain ⟨hfirst, hrest⟩ := List.cons.inj h
      have hslot : ((Slot.ofProjector start p).folded es).result? = some (p.id, x) := by
        simp only [Projector.fold] at hfirst
        simp [Slot.result?, Slot.folded, Slot.ofProjector, hfirst, Except.toOption]
      rw [Slot.ofProjectors, List.filterMap_cons, hslot, ih hrest]
      rfl

end ProjectionSet

/-- Slots fold the events that a query selects exactly if their projectors fold all events, as long as the
query selects what the projectors select. -/
theorem Slot.folds_ofProjectors_iff {start : Nat} {ps : List (NamedProjector σ)} {f : Event → Bool}
    (h : ∀ e, NamedProjector.anySelects ps e → f e = true) {es : List Event} :
    (∀ slot ∈ Slot.ofProjectors start ps, slot.Folds (es.filter f)) ↔
      ∀ p ∈ ps, ∃ x, p.projector.fold es = .ok x := by
  induction ps generalizing start with
  | nil => simp [Slot.ofProjectors]
  | cons p ps ih =>
    have hp : ∀ e, p.projector.query.selects e = true → f e = true :=
      fun e hsel => h e ⟨p, List.mem_cons_self, hsel⟩
    have hps : ∀ e, NamedProjector.anySelects ps e → f e = true := by
      rintro e ⟨q, hq, hsel⟩
      exact h e ⟨q, List.mem_cons_of_mem _ hq, hsel⟩
    have hfirst : (Slot.ofProjector start p).Folds (es.filter f) ↔
        ∃ x, p.projector.fold es = .ok x := by
      rw [Slot.folds_iff]
      simp only [Slot.fold, Slot.ofProjector, Option.elim_some, Projector.foldFrom_filter hp]
      rfl
    rw [Slot.ofProjectors, List.forall_mem_cons, List.forall_mem_cons, hfirst, ih hps]

/-- Projectors whose names are different and not empty, and whose queries are valid, are acceptable. -/
theorem validateProjectors_of_names {ps : List (NamedProjector σ)} (hne : ps ≠ [])
    (hnames : ∀ p ∈ ps, p.id ≠ "") (hdistinct : (ps.map (·.id)).Nodup)
    (hqueries : ∀ p ∈ ps, p.projector.query.validate = .ok ()) : validateProjectors ps = .ok () := by
  -- the names that were seen by then come before those of the rest
  have hfrom : ∀ (ps : List (NamedProjector σ)) (seen : List String), (∀ p ∈ ps, p.id ≠ "") →
      (ps.map (·.id)).Nodup → (∀ p ∈ ps, p.id ∉ seen) →
      (∀ p ∈ ps, p.projector.query.validate = .ok ()) → validateNames seen ps = .ok () := by
    intro ps
    induction ps with
    | nil => exact fun _ _ _ _ _ => rfl
    | cons p ps ih =>
      intro seen hnames hdistinct hnew hqueries
      obtain ⟨hname, hnames⟩ := List.forall_mem_cons.mp hnames
      obtain ⟨hother, hdistinct⟩ := List.nodup_cons.mp hdistinct
      obtain ⟨hpnew, hnew⟩ := List.forall_mem_cons.mp hnew
      obtain ⟨hquery, hqueries⟩ := List.forall_mem_cons.mp hqueries
      have hlater : ∀ q ∈ ps, q.id ∉ p.id :: seen := by
        intro q hq hmem
        rcases List.mem_cons.mp hmem with heq | hmem
        · exact hother (List.mem_map.mpr ⟨q, hq, heq⟩)
        · exact hnew q hq hmem
      have hrest := ih (p.id :: seen) hnames hdistinct hlater hqueries
      simp [validateNames, hname, hpnew, Query.check_eq_ok hquery, hrest, bind, Except.bind]
  rw [validateProjectors, if_neg (by simpa using hne)]
  exact hfrom ps [] hnames hdistinct (fun _ _ => List.not_mem_nil) hqueries

/-! ### Projections of a log -/

namespace Store

section

variable {s : Store} {ps : List (NamedProjector σ)} {query : Query}

/-- A projection of a log succeeds only if all of its projectors fold the log. -/
theorem exists_fold_of_runProjection (h : s.FreeToProject) (ht : s.table.Sound)
    (hvalid : validateProjectors ps = .ok ()) (hquery : query.validate = .ok ())
    (hsel : ∀ e, NamedProjector.anySelects ps e → query.selects e = true) {out : Projected σ}
    (hrun : (s.runProjection ps query).1 = .ok out) :
    ∀ p ∈ ps, ∃ x, p.projector.fold (s.table.map Row.event) = .ok x := by
  rcases runProjection_cases h ht.decodable hvalid query with ⟨hfolds, -⟩ | ⟨_, _, -, -, -, herr⟩
  · rw [ht.map_event_rows hquery] at hfolds
    exact (Slot.folds_ofProjectors_iff hsel).mp hfolds
  · exact nomatch hrun.symm.trans herr

/-- A projection of a log whose projectors all fold it gives their states and how far they have seen. -/
theorem runProjection_of_folds (h : s.FreeToProject) (ht : s.table.Sound)
    (hvalid : validateProjectors ps = .ok ()) (hquery : query.validate = .ok ())
    (hsel : ∀ e, NamedProjector.anySelects ps e → query.selects e = true) {xs : List σ}
    (hxs : ps.map (·.projector.fold (s.table.map Row.event)) = xs.map .ok) :
    (s.runProjection ps query).1 = .ok ⟨(ps.map (·.id)).zip xs,
      (ps.map fun p => p.projector.query.highest (s.table.map Row.event)).foldr max 0, s.table.head⟩ := by
  -- the list of states has one for each projector
  have hfolds : ∀ p ∈ ps, ∃ x, p.projector.fold (s.table.map Row.event) = .ok x := by
    intro p hp
    have hmem := List.mem_map_of_mem (f := fun p => p.projector.fold (s.table.map Row.event)) hp
    rw [hxs] at hmem
    obtain ⟨x, -, hx⟩ := List.mem_map.mp hmem
    exact ⟨x, hx.symm⟩
  rcases runProjection_cases h ht.decodable hvalid query with ⟨-, hrun⟩ | ⟨cut, _, hcut, -, hout, -⟩
  · rw [hrun, ht.map_event_rows hquery]
    have hfiltered : ps.map (·.projector.fold ((s.table.map Row.event).filter query.selects)) =
        xs.map .ok := by
      rw [← hxs]
      refine List.map_congr_left fun p hp => ?_
      exact Projector.foldFrom_filter (fun e he => hsel e ⟨p, hp, he⟩) _ _
    have hobserved : (ProjectionSet.folded (Slot.ofProjectors 0 ps)
        ((s.table.map Row.event).filter query.selects)).observed =
          (ps.map fun p => p.projector.query.highest (s.table.map Row.event)).foldr max 0 :=
      (ProjectionSet.highest_filter (fun e he => hsel e (Slot.anySelects_ofProjectors.mp he)) 0 _).trans
        (ProjectionSet.highest_ofProjectors 0 ps _)
    rw [ProjectionSet.states_ofProjectors hfiltered, hobserved]
  · -- the other way to end is out, as the projectors fold what they are fed
    rw [ht.map_event_rows hquery] at hcut
    have hfed : ∀ slot ∈ Slot.ofProjectors 0 ps, slot.Folds cut.flatten :=
      hcut ▸ (Slot.folds_ofProjectors_iff hsel).mpr hfolds
    obtain ⟨out, hok⟩ := Folder.exists_outcome_of_folds s.settings.maxWorkers hfed
    exact nomatch hout.symm.trans hok

/-- A projector that projects a log alone folds all of it, and has seen the last event that it selects. -/
theorem project_eq_ok_iff {p : Projector σ} (h : s.FreeToProject) (ht : s.table.Sound)
    (hquery : p.query.validate = .ok ()) {out : σ × Position} :
    (s.project p).1 = .ok out ↔ p.fold (s.table.map Row.event) = .ok out.1 ∧
      out.2 = p.query.highest (s.table.map Row.event) := by
  have hvalid : validateProjectors [⟨"projector", p⟩] = .ok () :=
    validateProjectors_of_names (by simp) (by simp) (by simp) (by simpa using hquery)
  have hsel : ∀ e, NamedProjector.anySelects [⟨"projector", p⟩] e → p.query.selects e = true := by
    rintro e ⟨q, hq, he⟩
    obtain rfl := List.mem_singleton.mp hq
    exact he
  -- a fold of the log decides how the projection ends
  have hrun : ∀ x, p.fold (s.table.map Row.event) = .ok x →
      (s.project p).1 = .ok (x, p.query.highest (s.table.map Row.event)) := by
    intro x hx
    have hxs : [(⟨"projector", p⟩ : NamedProjector σ)].map
        (·.projector.fold (s.table.map Row.event)) = [x].map .ok := by simp [hx]
    have hout := runProjection_of_folds h ht hvalid hquery hsel hxs
    have hpos : max (p.query.highest (s.table.map Row.event)) 0 =
        p.query.highest (s.table.map Row.event) := Int.max_eq_left (Query.highest_nonneg _ _)
    simp only [project, hout]
    simp [Except.bind, hpos]
  constructor
  · -- a projection that gives anything has folded the log, and then its outcome is known
    intro hok
    obtain ⟨r, hr⟩ : ∃ r, (s.runProjection [⟨"projector", p⟩] p.query).1 = .ok r := by
      cases hr : (s.runProjection [⟨"projector", p⟩] p.query).1 with
      | ok r => exact ⟨r, rfl⟩
      | error e =>
        simp only [project, hr] at hok
        cases hok
    obtain ⟨x, hx⟩ := exists_fold_of_runProjection h ht hvalid hquery hsel hr _ (List.mem_singleton_self _)
    obtain rfl := Except.ok.inj ((hrun x hx).symm.trans hok)
    exact ⟨hx, rfl⟩
  · rintro ⟨hfold, hseen⟩
    rw [hrun _ hfold, ← hseen]

/-- A decision succeeds only if all of its projectors fold the log. -/
theorem exists_fold_of_decide (h : s.FreeToProject) (ht : s.table.Sound)
    (hvalid : validateProjectors ps = .ok ()) {m : DecisionModel σ} (hok : (s.decide ps).1 = .ok m) :
    ∀ p ∈ ps, ∃ x, p.projector.fold (s.table.map Row.event) = .ok x := by
  cases hr : (s.runProjection ps (Query.union (ps.map (·.projector.query)))).1 with
  | ok out =>
    exact exists_fold_of_runProjection h ht hvalid (validateProjectors_eq_ok hvalid).2.2
      (fun _ => (NamedProjector.selects_union_iff hvalid).mpr) hr
  | error e =>
    simp only [decide, hr] at hok
    cases hok

/-- What a decision gives if all of its projectors fold the log. -/
theorem decide_of_fold (h : s.FreeToProject) (ht : s.table.Sound)
    (hvalid : validateProjectors ps = .ok ()) {xs : List σ}
    (hxs : ps.map (·.projector.fold (s.table.map Row.event)) = xs.map .ok) :
    let top := (ps.map fun p => p.projector.query.highest (s.table.map Row.event)).foldr max 0
    (s.decide ps).1 = .ok ⟨sortStates ((ps.map (·.id)).zip xs),
      ⟨Query.union (ps.map (·.projector.query)), if 0 < top then top else s.table.head⟩⟩ := by
  have hrun := runProjection_of_folds h ht hvalid (validateProjectors_eq_ok hvalid).2.2
    (fun _ => (NamedProjector.selects_union_iff hvalid).mpr) hxs
  simp only [decide, hrun]
  rfl

/-- What the projections of several projectors give if all of them fold the log, each alone. -/
theorem exists_projections (h : s.FreeToProject) (ht : s.table.Sound)
    (hqueries : ∀ p ∈ ps, p.projector.query.validate = .ok ())
    (hfolds : ∀ p ∈ ps, ∃ x, p.projector.fold (s.table.map Row.event) = .ok x) :
    ∃ outs : List (σ × Position), ps.map (fun p => (s.project p.projector).1) = outs.map .ok ∧
      ps.map (·.projector.fold (s.table.map Row.event)) = (outs.map (·.1)).map .ok ∧
      ps.map (fun p => p.projector.query.highest (s.table.map Row.event)) = outs.map (·.2) := by
  -- by induction on the projectors, each of which projects the whole log by itself
  induction ps with
  | nil => exact ⟨[], rfl, rfl, rfl⟩
  | cons p ps ih =>
    obtain ⟨hquery, hqueries⟩ := List.forall_mem_cons.mp hqueries
    obtain ⟨⟨x, hx⟩, hfolds⟩ := List.forall_mem_cons.mp hfolds
    obtain ⟨outs, hprojects, hstates, htops⟩ := ih hqueries hfolds
    let out : σ × Position := (x, p.projector.query.highest (s.table.map Row.event))
    have hproject : (s.project p.projector).1 = .ok out :=
      (project_eq_ok_iff h ht hquery).mpr ⟨hx, rfl⟩
    exact ⟨out :: outs, by simp [hproject, hprojects], by simpa [hx, out] using hstates,
      by simp [htops, out]⟩

/-- Projectors project a log, each alone, exactly if each of them folds it. -/
theorem forall_fold_iff_forall_project (h : s.FreeToProject) (ht : s.table.Sound)
    (hqueries : ∀ p ∈ ps, p.projector.query.validate = .ok ()) :
    (∀ p ∈ ps, ∃ x, p.projector.fold (s.table.map Row.event) = .ok x) ↔
      ∀ p ∈ ps, ∃ out, (s.project p.projector).1 = .ok out := by
  refine forall₂_congr fun p hp => ?_
  constructor
  · rintro ⟨x, hx⟩
    refine ⟨(x, p.projector.query.highest (s.table.map Row.event)), ?_⟩
    exact (project_eq_ok_iff h ht (hqueries p hp)).mpr ⟨hx, rfl⟩
  · rintro ⟨out, hout⟩
    exact ⟨_, ((project_eq_ok_iff h ht (hqueries p hp)).mp hout).1⟩

end

/-- A decision on a log, and the projections of its projectors on the same log, each alone; the two stores
may fetch rows in batches of different sizes and have different numbers of workers.
* The decision succeeds exactly if each of the projections does.
* If it does, then it has one state for each name, in order of names: the state that the projection of
  that projector gives, which is what the projector folds from all events of the log.
* The query of its condition selects what one of the projectors selects.
* The condition stands at the highest of the positions that the projections give, or at the head of the
  log if all of those are 0. -/
theorem decide_agrees_with_projections {t : Table} (ht : Table.Reaches [] t) {s s' : Store}
    (hs : s.table = t) (hs' : s'.table = t) (h : s.FreeToProject) (h' : s'.FreeToProject)
    {ps : List (NamedProjector σ)} (hne : ps ≠ []) (hnames : ∀ p ∈ ps, p.id ≠ "")
    (hdistinct : (ps.map (·.id)).Nodup) (hqueries : ∀ p ∈ ps, p.projector.query.validate = .ok ()) :
    ((∃ m, (s.decide ps).1 = .ok m) ↔ ∀ p ∈ ps, ∃ out, (s'.project p.projector).1 = .ok out) ∧
      ∀ m, (s.decide ps).1 = .ok m →
        ∃ (log : List Event) (outs : List (σ × Position)) (top : Position), Row.toEvents t = .ok log ∧
          ps.map (fun p => (s'.project p.projector).1) = outs.map .ok ∧
          ps.map (·.projector.fold log) = (outs.map (·.1)).map .ok ∧
          m.states.Perm ((ps.map (·.id)).zip (outs.map (·.1))) ∧
          (m.states.Pairwise fun a b => a.1 < b.1) ∧
          (∀ e, m.condition.failIfEventsMatch.selects e = true ↔
            ∃ p ∈ ps, p.projector.query.selects e = true) ∧
          (outs.map (·.2)).max? = some top ∧
          m.condition.afterPosition = if ∀ out ∈ outs, out.2 = 0 then t.head else top := by
  have hvalid := validateProjectors_of_names hne hnames hdistinct hqueries
  have hsound' : s'.table.Sound := hs'.symm ▸ Table.sound_nil.reaches ht
  subst hs'
  have hsound : s.table.Sound := hs.symm ▸ hsound'
  -- whatever succeeds, the projectors fold the log, and then all of it does
  have hiff := forall_fold_iff_forall_project h' hsound' hqueries
  have hfold : ∀ m, (s.decide ps).1 = .ok m →
      ∀ p ∈ ps, ∃ x, p.projector.fold (s'.table.map Row.event) = .ok x :=
    fun m hm => hs ▸ exists_fold_of_decide h hsound hvalid hm
  refine ⟨⟨fun ⟨m, hm⟩ => hiff.mp (hfold m hm), fun hall => ?_⟩, fun m hm => ?_⟩
  · obtain ⟨outs, -, hstates, -⟩ := exists_projections h' hsound' hqueries (hiff.mpr hall)
    exact ⟨_, decide_of_fold h hsound hvalid (hs.symm ▸ hstates)⟩
  · obtain ⟨outs, hprojects, hstates, htops⟩ :=
      exists_projections h' hsound' hqueries (hfold m hm)
    have hmodel := decide_of_fold h hsound hvalid (hs.symm ▸ hstates)
    rw [hs, htops] at hmodel
    obtain rfl := Except.ok.inj (hm.symm.trans hmodel)
    have hnonneg : ∀ p ∈ outs.map (·.2), (0 : Position) ≤ p := by
      intro q hq
      rw [← htops] at hq
      obtain ⟨p, -, rfl⟩ := List.mem_map.mp hq
      exact Query.highest_nonneg _ _
    -- there is a highest position, as there are projectors
    have houts : outs.map (·.2) ≠ [] := by
      rw [← htops]
      simpa using hne
    refine ⟨_, outs, _, Row.toEvents_eq_ok hsound'.decodable, hprojects, hstates, ?_,
      pairwise_sortStates _, fun e => NamedProjector.selects_union_iff hvalid,
      max?_eq_foldr_of_nonneg houts hnonneg, ?_⟩
    · -- one state for each name, so sorting loses none
      have hlen : (ps.map (·.id)).length ≤ (outs.map (·.1)).length := by
        have hlen := congrArg List.length hstates
        simp only [List.length_map] at hlen ⊢
        exact Nat.le_of_eq hlen
      refine sortStates_perm ?_
      rw [List.map_fst_zip hlen]
      exact hdistinct
    · simp only [foldr_max_pos_iff hnonneg, List.forall_mem_map, ite_not]

/-- On a log of two events, with one worker or two, the deposits and all events are counted together and
alone. Both counts end at the second event, so the condition stands there. -/
theorem decide_agrees_with_projections_on_counts :
    let ps := [depositCount, Folder.countUpTo "events" 2]
    (∀ p ∈ ps, ∃ out, ((withWorkers 1 openedAndDeposited).project p.projector).1 = .ok out) ∧
      ∃ m, ((withWorkers 2 openedAndDeposited).decide ps).1 = .ok m ∧
        m.states.Perm [("deposits", 1), ("events", 2)] ∧ m.condition.afterPosition = 2 := by
  intro ps
  have htable : ∀ workers, (withWorkers workers openedAndDeposited).table = openedAndDeposited :=
    fun _ => rfl
  have hfree : ∀ workers, (withWorkers workers openedAndDeposited).FreeToProject := fun _ =>
    ⟨Nat.zero_lt_succ _, ready_facing _, Nat.zero_lt_succ _⟩
  have hne : ps ≠ [] := List.cons_ne_nil _ _
  have hsound : (withWorkers 1 openedAndDeposited).table.Sound := sound_openedAndDeposited
  have hqueries : ∀ p ∈ ps, p.projector.query.validate = .ok () := by decide +kernel
  have hdeposits : ((withWorkers 1 openedAndDeposited).project depositCount.projector).1 = .ok (1, 2) :=
    (project_eq_ok_iff (hfree 1) hsound rfl).mpr (by decide +kernel)
  have hevents : ((withWorkers 1 openedAndDeposited).project (Folder.countUpTo "events" 2).projector).1 =
      .ok (2, 2) := (project_eq_ok_iff (hfree 1) hsound rfl).mpr (by decide +kernel)
  have hall : ∀ p ∈ ps, ∃ out, ((withWorkers 1 openedAndDeposited).project p.projector).1 = .ok out := by
    simp [ps, hdeposits, hevents]
  obtain ⟨hiff, hmodel⟩ := decide_agrees_with_projections reaches_openedAndDeposited (htable 2)
    (htable 1) (hfree 2) (hfree 1) hne (by decide +kernel) (by decide +kernel) hqueries
  obtain ⟨m, hm⟩ := hiff.mpr hall
  obtain ⟨log, outs, top, -, hprojects, -, hstates, -, -, htop, hanchor⟩ := hmodel m hm
  -- the two projections are known, so the outcomes are theirs
  have houts : outs = [(1, 2), (2, 2)] := by
    have hmap : outs.map (Except.ok (ε := StoreError)) = [(1, 2), (2, 2)].map .ok := by
      rw [← hprojects]
      simp [ps, hdeposits, hevents]
    exact (List.map_injective_iff.mpr fun _ _ => Except.ok.inj) hmap
  subst houts
  obtain rfl : top = 2 := (Option.some.inj htop).symm
  exact ⟨hall, m, hm, hstates, by simpa using hanchor⟩

end Store

end EventLog
