import EventLog.Proofs.Dealing
import EventLog.Proofs.WorkerOrder

/-!
# Workers and one fold agree

Whatever the number of workers, the cut into batches and the order in which the workers get on, a
projection succeeds exactly if all projectors fold all events, and it gives what one fold in place gives.
If it fails then with a refusal that one of the workers came to by itself.

## Key results

- `Folder.ends_eq_ok_iff`: when and with what a run of a projection succeeds
- `Folder.ends_cases`: how a run of a projection ends
- `Folder.fan_out_agrees`: workers give what one fold in place gives
-/

namespace EventLog

variable {σ : Type}

namespace ProjectionSet

/-! ### The highest position -/

/-- The highest position is that of an event, or it is the one before all events. -/
theorem highest_eq_or_mem (slots : List (Slot σ)) (p : Position) (es : List Event) :
    highest slots p es = p ∨ ∃ e ∈ es, highest slots p es = e.position := by
  -- by induction on the events, from every position on: each one moves it up or leaves it
  induction es generalizing p with
  | nil => exact .inl rfl
  | cons e es ih =>
    have hrec : highest slots p (e :: es) =
        highest slots (if Slot.anySelects slots e then max p e.position else p) es := rfl
    rw [hrec]
    rcases ih (if Slot.anySelects slots e then max p e.position else p) with h | ⟨x, hx, h⟩
    · rw [h]
      split
      · rcases Int.le_total p e.position with hle | hle
        · exact .inr ⟨e, List.mem_cons_self, Int.max_eq_right hle⟩
        · exact .inl (Int.max_eq_left hle)
      · exact .inl rfl
    · exact .inr ⟨x, List.mem_cons_of_mem _ hx, h⟩

/-- The highest position is not below that of an event that a query selects. -/
theorem position_le_highest {slots : List (Slot σ)} {p : Position} {es : List Event} :
    p ≤ highest slots p es ∧
      ∀ e ∈ es, Slot.anySelects slots e = true → e.position ≤ highest slots p es := by
  induction es generalizing p with
  | nil => exact ⟨Int.le_refl p, by simp⟩
  | cons e es ih =>
    have hrec : highest slots p (e :: es) =
        highest slots (if Slot.anySelects slots e then max p e.position else p) es := rfl
    rw [hrec]
    obtain ⟨hstart, hrest⟩ := @ih (if Slot.anySelects slots e then max p e.position else p)
    refine ⟨Int.le_trans ?_ hstart, List.forall_mem_cons.mpr ⟨fun hsel => ?_, hrest⟩⟩
    · -- the position never goes down, so what one event brings it to is a bound for it
      split
      · exact Int.le_max_left p e.position
      · exact Int.le_refl p
    · rw [if_pos hsel] at hstart ⊢
      exact Int.le_trans (Int.le_max_right p e.position) hstart

/-! ### The highest position of several sets -/

/-- The order of slots has no part in the highest position. -/
theorem highest_perm {slots slots' : List (Slot σ)} (h : slots.Perm slots') (p : Position)
    (es : List Event) : highest slots p es = highest slots' p es := by
  have hany : Slot.anySelects slots = Slot.anySelects slots' := by
    funext e
    exact h.any_eq
  simp only [highest, hany]

/-- The highest position of two sets is the higher one of theirs. -/
theorem highest_append (a b : List (Slot σ)) (p q : Position) (es : List Event) :
    highest (a ++ b) (max p q) es = max (highest a p es) (highest b q es) := by
  have hmax : ∀ p q x : Position, max (max p q) x = max (max p x) (max q x) ∧
      max (max p q) x = max (max p x) q ∧ max (max p q) x = max p (max q x) := by
    intro p q x
    simp only [Position] at *
    omega
  induction es generalizing p q with
  | nil => rfl
  | cons e es ih =>
    -- a union is selected if one of the sets does, so four cases are left, and all are about maxima
    have hor : Slot.anySelects (a ++ b) e = (Slot.anySelects a e || Slot.anySelects b e) := by
      simp [Slot.anySelects]
    have hstep : (if Slot.anySelects (a ++ b) e then max (max p q) e.position else max p q) =
        max (if Slot.anySelects a e then max p e.position else p)
          (if Slot.anySelects b e then max q e.position else q) := by
      obtain ⟨hboth, hleft, hright⟩ := hmax p q e.position
      rw [hor]
      cases Slot.anySelects a e <;> cases Slot.anySelects b e
      · rfl
      · exact hright
      · exact hleft
      · exact hboth
    have := ih (if Slot.anySelects a e then max p e.position else p)
      (if Slot.anySelects b e then max q e.position else q)
    simpa only [highest, List.foldl_cons, hstep] using this

/-- No slot, no position. -/
theorem highest_nil (p : Position) (es : List Event) : highest ([] : List (Slot σ)) p es = p := by
  induction es with
  | nil => rfl
  | cons e es ih => exact ih

/-- The highest position of sets put together is the highest of theirs. -/
theorem highest_flatten (shares : List (List (Slot σ))) (es : List Event) :
    highest shares.flatten 0 es = (shares.map (highest · 0 es)).foldr max 0 := by
  induction shares with
  | nil => exact highest_nil 0 es
  | cons share shares ih =>
    have := highest_append share shares.flatten 0 0 es
    rw [List.flatten_cons, List.map_cons, List.foldr_cons, ← ih, ← this, Int.max_self]

/-- The set of slots that have folded events, each on its own. -/
def folded (slots : List (Slot σ)) (es : List Event) : ProjectionSet σ :=
  ⟨slots.map (Slot.folded es), highest slots 0 es⟩

/-- The states of slots in order that have folded events. -/
theorem states_folded {ordered : List (Slot σ)}
    (hord : ordered.Pairwise fun a b => a.index < b.index) (es : List Event) :
    (folded ordered es).states = ordered.filterMap fun s => (s.folded es).result? := by
  have hmap : (ordered.map (Slot.folded es)).Pairwise fun a b => a.index < b.index :=
    List.pairwise_map.mpr hord
  rw [folded, states_of_perm (.refl _) hmap, List.filterMap_map]
  rfl

/-- Sets whose slots have folded events are, put together, the slots of all after the same events. -/
theorem states_flatten_folded {shares : List (List (Slot σ))} {ordered : List (Slot σ)}
    (hperm : shares.flatten.Perm ordered) (hord : ordered.Pairwise fun a b => a.index < b.index)
    (es : List Event) :
    (ofSlots (shares.flatMap fun share => (folded share es).slots)).states =
      (folded ordered es).states := by
  -- folding one by one and putting together may be exchanged, and the numbers give the order back
  have hflat : (shares.flatMap fun share => (folded share es).slots) =
      shares.flatten.map (Slot.folded es) := by
    rw [List.map_flatten, List.flatMap_def]
    rfl
  have hmap : (ordered.map (Slot.folded es)).Pairwise fun a b => a.index < b.index :=
    List.pairwise_map.mpr hord
  rw [hflat, ofSlots, states_of_perm (hperm.map _) hmap, states_folded hord, List.filterMap_map]
  rfl

/-- The highest position of those sets is that of the slots of all. -/
theorem observed_flatten_folded {shares : List (List (Slot σ))} {ordered : List (Slot σ)}
    (hperm : shares.flatten.Perm ordered) (es : List Event) :
    (shares.map fun share => (folded share es).observed).foldr max 0 =
      (folded ordered es).observed := by
  have := highest_perm hperm 0 es
  rw [highest_flatten] at this
  exact this

end ProjectionSet

/-- A worker that has not stopped holds what its slots have folded. -/
theorem Worker.feed_of_running {slots : List (Slot σ)} {es : List Event}
    (hstate : ∀ s ∈ slots, s.state.isSome = true)
    (hrun : ((Worker.ofSlots slots).feed es).failure = none) :
    (∀ s ∈ slots, s.Folds es) ∧
      (Worker.ofSlots slots).feed es = ⟨ProjectionSet.folded slots es, none⟩ := by
  -- a refusal of the set would have stopped the worker
  have hok : ((ProjectionSet.ofSlots slots).applyBatch es).2 = .ok () := by
    cases hr : ((ProjectionSet.ofSlots slots).applyBatch es).2 with
    | ok u => rfl
    | error err =>
      have := (Worker.failure_feed_ofSlots slots es err).mpr hr
      rw [hrun] at this
      exact nomatch this
  have hfolds := (ProjectionSet.applyBatch_eq_ok_iff (p := .ofSlots slots) hstate).mp hok
  refine ⟨hfolds, ?_⟩
  simp only [Worker.ofSlots, Worker.feed]
  rw [ProjectionSet.applyBatch_of_folds (p := .ofSlots slots) hstate hfolds]
  rfl

namespace Folder

/-! ### Shares -/

/-- The slots of every worker; one fold in place has a single share. -/
def shares : Folder σ → List (List (Slot σ))
  | .inPlace set => [set.slots]
  | .dealt fan => fan.workers.map (·.set.slots)

/-- One worker folds in place. -/
theorem start_one (ps : List (NamedProjector σ)) : start ps 1 = .inPlace (.ofProjectors ps) :=
  if_neg (by omega)

/-- A projection starts in place, or with workers that have what was dealt to them. -/
theorem start_cases (ps : List (NamedProjector σ)) (workers : Nat) :
    start ps workers = .inPlace (.ofProjectors ps) ∨
    ∃ shares : List (List (Slot σ)), shares.flatten.Perm (Slot.ofProjectors 0 ps) ∧
      start ps workers = .dealt ⟨shares.map .ofSlots⟩ := by
  simp only [start]
  split
  · rename_i hcount
    refine .inr ⟨_, ?_, rfl⟩
    rw [flatten_filter_not_isEmpty]
    -- there are several workers, so there are buckets to deal to
    exact flatten_deal_perm (by omega) _
  · exact .inl rfl

/-! ### Results -/

/-- One fold in place succeeds exactly if its set applies all events. -/
theorem outcome_inPlace (set : ProjectionSet σ) (batches : List (List Event)) :
    (inPlace set).outcome batches =
      (set.applyBatch batches.flatten).2.map fun _ =>
        ((set.applyBatch batches.flatten).1.states, (set.applyBatch batches.flatten).1.observed) := by
  induction batches generalizing set with
  | nil => rfl
  | cons b bs ih =>
    rw [List.flatten_cons, ProjectionSet.applyBatch_append]
    -- a batch that is refused ends both, one that is taken leads on from the set after it
    rcases hq : set.applyBatch b with ⟨q, _ | _⟩
    · simp only [outcome, feedAll, feed, hq]
      rfl
    · have : (inPlace set).outcome (b :: bs) = (inPlace q).outcome bs := by
        simp only [outcome, feedAll, feed, hq]
        rfl
      rw [this, ih]

/-- A projection in place succeeds exactly if every slot folds all events. -/
theorem outcome_inPlace_eq_ok_iff {slots : List (Slot σ)}
    (hstate : ∀ s ∈ slots, s.state.isSome = true) {batches : List (List Event)}
    {out : List (String × σ) × Position} :
    (inPlace (.ofSlots slots)).outcome batches = .ok out ↔
      (∀ s ∈ slots, s.Folds batches.flatten) ∧
        out = ((ProjectionSet.folded slots batches.flatten).states,
          (ProjectionSet.folded slots batches.flatten).observed) := by
  have hiff : ((ProjectionSet.ofSlots slots).applyBatch batches.flatten).2 = .ok () ↔
      ∀ s ∈ slots, s.Folds batches.flatten := ProjectionSet.applyBatch_eq_ok_iff hstate
  rw [outcome_inPlace]
  constructor
  · -- the outcome follows that of the set: an error is passed on, and a success has folded everything
    intro h
    cases hr : ((ProjectionSet.ofSlots slots).applyBatch batches.flatten).2 with
    | error err => rw [hr] at h; exact nomatch h
    | ok u =>
      have hfolds := hiff.mp hr
      rw [ProjectionSet.applyBatch_of_folds hstate hfolds] at h
      exact ⟨hfolds, (Except.ok.inj h).symm⟩
  · rintro ⟨hfolds, rfl⟩
    rw [ProjectionSet.applyBatch_of_folds hstate hfolds]
    rfl

/-- Workers that have folded all events, put together. -/
theorem finish_folded {shares : List (List (Slot σ))} {ordered : List (Slot σ)} {es : List Event}
    (hperm : shares.flatten.Perm ordered) (hord : ordered.Pairwise fun a b => a.index < b.index)
    (hstate : ∀ s ∈ ordered, s.state.isSome = true)
    (hrun : ∀ share ∈ shares, ((Worker.ofSlots share).feed es).failure = none) :
    (∀ s ∈ ordered, s.Folds es) ∧
      (FanOut.mk ((shares.map Worker.ofSlots).map (·.feed es))).finish =
        .ok ((ProjectionSet.folded ordered es).states, (ProjectionSet.folded ordered es).observed) := by
  -- each worker by itself
  have hshare : ∀ share ∈ shares, (∀ s ∈ share, s.Folds es) ∧
      (Worker.ofSlots share).feed es = ⟨ProjectionSet.folded share es, none⟩ := by
    intro share hmem
    refine Worker.feed_of_running (fun s hs => hstate s (hperm.mem_iff.mp ?_)) (hrun share hmem)
    exact List.mem_flatten.mpr ⟨share, hmem, hs⟩
  refine ⟨fun s hs => ?_, ?_⟩
  · obtain ⟨share, hmem, hs⟩ := List.mem_flatten.mp (hperm.mem_iff.mpr hs)
    exact (hshare share hmem).1 s hs
  · -- all of them together
    have hworkers : (shares.map Worker.ofSlots).map (·.feed es) =
        shares.map fun share => ⟨ProjectionSet.folded share es, none⟩ := by
      rw [List.map_map]
      exact List.map_congr_left fun share hmem => (hshare share hmem).2
    have hgather := @Worker.gather_of_running _
      (shares.map fun share => ⟨ProjectionSet.folded share es, none⟩) (by simp)
    rw [hworkers, FanOut.finish, hgather]
    simp only [List.flatMap_map, List.map_map, Function.comp_def, bind, Except.bind, pure,
      Except.pure]
    rw [ProjectionSet.states_flatten_folded hperm hord, ProjectionSet.observed_flatten_folded hperm]

/-- A run of a projection ends in one of two ways: all slots have folded all events, and their states are
put together; or it fails with what the slots of one worker have refused among the batches it took. -/
theorem ends_cases {ps : List (NamedProjector σ)} {workers : Nat} {batches : List (List Event)}
    {r : Except ProjectionError (List (String × σ) × Position)}
    (h : (start ps workers).Ends batches r) :
    ((∀ s ∈ Slot.ofProjectors 0 ps, s.Folds batches.flatten) ∧
      r = .ok ((ProjectionSet.folded (Slot.ofProjectors 0 ps) batches.flatten).states,
        (ProjectionSet.folded (Slot.ofProjectors 0 ps) batches.flatten).observed)) ∨
    ∃ share ∈ (start ps workers).shares, ∃ err fed, fed <+: batches ∧
      ((ProjectionSet.ofSlots share).applyBatch fed.flatten).2 = .error err ∧ r = .error err := by
  have hord := Slot.pairwise_ofProjectors 0 ps
  have hstate : ∀ s ∈ Slot.ofProjectors 0 ps, s.state.isSome = true :=
    fun s hs => (Slot.index_of_mem_ofProjectors hs).2
  rcases start_cases ps workers with hstart | ⟨shares, hperm, hstart⟩
  · rw [hstart] at h ⊢
    cases h with
    | refl =>
      cases hr : ((ProjectionSet.ofProjectors ps).applyBatch batches.flatten).2 with
      | ok u =>
        have hok := outcome_inPlace (.ofProjectors ps) batches
        rw [hr] at hok
        have := (outcome_inPlace_eq_ok_iff hstate).mp hok
        exact .inl ⟨this.1, hok.trans (congrArg _ this.2)⟩
      | error err =>
        refine .inr ⟨_, List.mem_singleton_self _, err, batches, List.prefix_refl _, hr, ?_⟩
        rw [outcome_inPlace, hr]
        rfl
  · -- with workers a run that ended either has them all running or has one that stopped
    rw [hstart] at h ⊢
    obtain ⟨g, hrun, hends⟩ := h
    rcases hends.outcome (Flow.inv_of_run hrun) with ⟨hrunning, rfl⟩ | ⟨w, hw, err, fed, hpre, hfail, rfl⟩
    · exact .inl (finish_folded hperm hord hstate (by simpa using hrunning))
    · obtain ⟨share, hmem, rfl⟩ := List.mem_map.mp hw
      refine .inr ⟨share, ?_, err, fed, hpre, (Worker.failure_feed_ofSlots _ _ _).mp hfail, rfl⟩
      exact List.mem_map.mpr ⟨_, hw, rfl⟩

/-- A worker has slots of the projectors and no others. -/
theorem mem_ofProjectors_of_mem_shares {ps : List (NamedProjector σ)} {workers : Nat}
    {share : List (Slot σ)} {s : Slot σ} (hshare : share ∈ (start ps workers).shares) (hs : s ∈ share) :
    s ∈ Slot.ofProjectors 0 ps := by
  -- what is dealt is the slots of the projectors in another order
  rcases start_cases ps workers with hstart | ⟨shares, hperm, hstart⟩
  · rw [hstart] at hshare
    obtain rfl := List.mem_singleton.mp hshare
    exact hs
  · rw [hstart, Folder.shares, List.map_map] at hshare
    obtain ⟨share', hmem, rfl⟩ := List.mem_map.mp hshare
    exact hperm.mem_iff.mp (List.mem_flatten.mpr ⟨share', hmem, hs⟩)

/-- A run succeeds exactly if every projector folds all events, and then it has one result. -/
theorem ends_eq_ok_iff {ps : List (NamedProjector σ)} {workers : Nat} {batches : List (List Event)}
    {r : Except ProjectionError (List (String × σ) × Position)}
    (h : (start ps workers).Ends batches r) {out : List (String × σ) × Position} :
    r = .ok out ↔ (∀ s ∈ Slot.ofProjectors 0 ps, s.Folds batches.flatten) ∧
      out = ((ProjectionSet.folded (Slot.ofProjectors 0 ps) batches.flatten).states,
        (ProjectionSet.folded (Slot.ofProjectors 0 ps) batches.flatten).observed) := by
  rcases ends_cases h with ⟨hfolds, rfl⟩ | ⟨share, hshare, err, fed, ⟨more, hmore⟩, hfail, rfl⟩
  · refine ⟨fun h => ⟨hfolds, (Except.ok.inj h).symm⟩, ?_⟩
    rintro ⟨-, rfl⟩
    rfl
  · refine ⟨fun h => (nomatch h), fun h => ?_⟩
    -- what a share has refused is not folded by all of its slots
    have hok : ((ProjectionSet.ofSlots share).applyBatch fed.flatten).2 = .ok () := by
      refine (ProjectionSet.applyBatch_eq_ok_iff fun s hs => ?_).mpr fun s hs => ?_
      · exact (Slot.index_of_mem_ofProjectors (mem_ofProjectors_of_mem_shares hshare hs)).2
      · have hfolds := h.1 s (mem_ofProjectors_of_mem_shares hshare hs)
        rw [← hmore, List.flatten_append] at hfolds
        exact ((Slot.folds_append s _ _).mp hfolds).1
    rw [hfail] at hok
    exact nomatch hok

/-- If every projector folds all events then they are folded, whatever the number of workers. -/
theorem exists_outcome_of_folds {ps : List (NamedProjector σ)} (workers : Nat)
    {batches : List (List Event)} (h : ∀ s ∈ Slot.ofProjectors 0 ps, s.Folds batches.flatten) :
    ∃ out, (start ps workers).outcome batches = .ok out :=
  ⟨_, (ends_eq_ok_iff (ends_outcome (start ps workers) batches)).mpr ⟨h, rfl⟩⟩

/-- For any projectors, any number of workers, any batches and any other cut of the same events, a
projection that is dealt to workers agrees with one fold in place:
* feeding batch after batch is one of the runs, and however far a run has got, it can be brought to an
  end;
* a run that ends succeeds exactly if the fold in place does, and then with the same states in the order
  of the projectors and the same highest position;
* a run that fails does so with an error that the fold of one worker's own slots gives on batches that
  it was fed. -/
theorem fan_out_agrees (ps : List (NamedProjector σ)) (workers : Nat) {batches cut : List (List Event)}
    (hcut : cut.flatten = batches.flatten) :
    (start ps workers).Ends batches ((start ps workers).outcome batches) ∧
      (∀ fan f, start ps workers = .dealt fan → (Flow.start fan.workers batches).Run f →
        ∃ g r, f.Run g ∧ g.Ends r) ∧
      ∀ r, (start ps workers).Ends batches r →
        (∀ out, r = .ok out ↔ (inPlace (.ofProjectors ps)).outcome cut = .ok out) ∧
        ∀ err, r = .error err → ∃ share ∈ (start ps workers).shares, ∃ fed, fed <+: batches ∧
          ((ProjectionSet.ofSlots share).applyBatch fed.flatten).2 = .error err := by
  refine ⟨ends_outcome _ batches, fun fan f _ h => Flow.exists_ends (Flow.inv_of_run h), ?_⟩
  intro r hr
  refine ⟨fun out => ?_, ?_⟩
  · -- the criterion does not mention the number of workers, and one worker folds in place
    have hone := @ends_eq_ok_iff _ ps 1 cut _ (ends_outcome _ cut) out
    rw [start_one] at hone
    rw [ends_eq_ok_iff hr, hone, hcut]
  · rintro err rfl
    rcases ends_cases hr with ⟨-, h⟩ | ⟨share, hshare, err', fed, hpre, hfail, h⟩
    · exact nomatch h
    · obtain rfl := Except.error.inj h
      exact ⟨share, hshare, fed, hpre, hfail⟩

/-- Counts events, but refuses those after the position `last`. -/
def countUpTo (id : String) (last : Position) : NamedProjector Nat where
  id := id
  projector :=
    { query := .all
      initial := 0
      transition := fun n e =>
        if e.position ≤ last then .ok (n + 1) else .error (e.rejected "too late") }

/-- Two events in a batch each, and in one batch: two workers count them as one fold in place does, and
a worker that refuses the second one is the reason that a run fails. -/
theorem fan_out_agrees_on_two_events :
    let e : Event := { (default : Event) with position := 1 }
    let e' : Event := { (default : Event) with eventType := "Deposited", position := 2 }
    [[e, e']].flatten = [[e], [e']].flatten ∧
      (start [countUpTo "a" 2, countUpTo "b" 2] 2).outcome [[e], [e']] =
        .ok ([("a", 2), ("b", 2)], 2) ∧
      ∃ share ∈ (start [countUpTo "a" 2, countUpTo "b" 1] 2).shares, ∃ fed, fed <+: [[e], [e']] ∧
        ((ProjectionSet.ofSlots share).applyBatch fed.flatten).2 =
          .error (.rejected "Deposited" 2 "too late") := by
  intro e e'
  have hcut : [[e, e']].flatten = [[e], [e']].flatten := rfl
  refine ⟨hcut, ?_, ?_⟩
  · -- the outcome is a run, and a run has the result of the fold in place
    obtain ⟨hrun, -, hends⟩ := fan_out_agrees [countUpTo "a" 2, countUpTo "b" 2] 2 hcut
    refine ((hends _ hrun).1 _).mpr ?_
    -- what the slots hold in the end; by merge sort they do not evaluate by themselves
    let counted (index : Nat) (id : String) : Slot Nat :=
      ⟨index, id, (countUpTo id 2).projector, some 2⟩
    have hstates := ProjectionSet.states_of_perm (.refl [counted 0 "a", counted 1 "b"])
      (by simp [counted]) 2
    exact congrArg (fun states => Except.ok (states, 2)) hstates
  · obtain ⟨hrun, -, hends⟩ := fan_out_agrees [countUpTo "a" 2, countUpTo "b" 1] 2 hcut
    refine (hends _ hrun).2 _ ?_
    decide +kernel

end Folder

end EventLog
