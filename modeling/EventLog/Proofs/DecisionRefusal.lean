import EventLog.Proofs.DecisionGuard
import EventLog.Proofs.FirstRefusal

/-!
# Decisions that are refused

How many workers fold a decision, and how many rows are fetched at once, makes no difference to whether it
fails. It does to the error: one worker fails with the first refusal in the order of the events, and
several with the first refusal of one of them, which can be the refusal of a later event.

## Key results

- `Store.decide_eq_error`: the errors of a decision
- `Store.decide_error_agrees`: the errors of two decisions on the same log
- `Store.decide_error_depends_on_workers`: two decisions with different errors
-/

namespace EventLog

open Database

variable {σ : Type} {ps : List (NamedProjector σ)}

namespace Store

/-- A decision that fails because of its projectors does so with the first refusal of the projectors of
one worker. That is the first refusal of all projectors if one worker has all that refuse something. -/
theorem decide_eq_error {s : Store} (h : s.Unhindered) (hvalid : validateProjectors ps = .ok ()) :
    ((∀ p ∈ ps, ∃ x, p.fold (s.table.selectedBy ps) = .ok x) ∧
      (s.decide ps).1 = .ok (.onTable ps s.table)) ∨
    ((∃ p ∈ ps, ∃ err, p.fold (s.table.selectedBy ps) = .error err) ∧
      ∃ err, (s.decide ps).1 = .error (.projection err) ∧
        (∃ share ∈ NamedProjector.shares ps s.settings.maxWorkers,
          FirstRefusal NamedProjector.fold share (s.table.selectedBy ps) err) ∧
        (NamedProjector.RefuseTogether ps s.settings.maxWorkers (s.table.selectedBy ps) →
          FirstRefusal NamedProjector.fold ps (s.table.selectedBy ps) err)) := by
  rcases decide_cases h hvalid with ⟨hfolds, hdecide⟩ | ⟨cut, err, hcut, -, hout, hdecide⟩
  · exact .inl ⟨Folder.exists_fold_of_folds hfolds, hdecide⟩
  · -- feeding batch after batch is one of the runs
    have hends := Folder.ends_outcome (Folder.start ps s.settings.maxWorkers) cut
    rw [hout] at hends
    obtain ⟨share, hshare, hfirst⟩ := Folder.ends_eq_error hends
    -- projectors with different names are different, so none of them has two workers
    have hnodup : ps.Nodup :=
      (List.pairwise_map.mp (validateProjectors_eq_ok hvalid).2.1).imp fun h heq => h (congrArg _ heq)
    have hiff := fun htogether => @Folder.ends_eq_error_iff _ _ _ hnodup _ htogether _ hends err
    rw [hcut] at hfirst hiff
    obtain ⟨p, hp, hrefused⟩ := NamedProjector.exists_refusal hfirst
    have hmem : p ∈ ps := (NamedProjector.sublist_of_mem_shares hshare).subset hp
    exact .inr ⟨⟨p, hmem, err, hrefused⟩, err, hdecide, ⟨share, hshare, hfirst⟩,
      fun htogether => (hiff htogether).mp rfl⟩

/-- The fold of what the projectors select, cut into batches, decides how a decision fails. -/
theorem decide_of_outcome {s : Store} (h : s.Unhindered) (hvalid : validateProjectors ps = .ok ())
    {cut : List (List Event)} (hcut : cut.flatten = s.table.selectedBy ps)
    (hof : Batches.OfSize s.settings.fetchBatchSize cut) {err : ProjectionError}
    (hout : (Folder.start ps s.settings.maxWorkers).outcome cut = .error err) :
    (s.decide ps).1 = .error (.projection err) := by
  rcases decide_cases h hvalid with ⟨hfolds, -⟩ | ⟨cut', err', hcut', hof', hout', hdecide⟩
  · -- a fold that succeeds as a whole has no outcome that is an error
    obtain ⟨out, hok⟩ := Folder.exists_outcome_of_folds s.settings.maxWorkers (hcut ▸ hfolds)
    exact nomatch hout.symm.trans hok
  · -- there is only one way to cut them
    obtain rfl := hof.unique hof' (hcut.trans hcut'.symm)
    obtain rfl := Except.error.inj (hout.symm.trans hout')
    exact hdecide

/-- Two stores with settings of their own make the same decision on the same log, unhindered.
* If the projectors are not acceptable, both fail with the same error.
* Otherwise both succeed with the same decision model, exactly if every projector folds the events that
  one of them selects, or both fail, each with the first refusal of the projectors of one of its workers.
* If of the workers of a store one has all projectors that refuse something, as a single worker does, its
  error is that of a fold in place: of the first event that is refused and the first projector that
  refuses it. Two such stores fail with the same error. -/
theorem decide_error_agrees {s s' : Store} (htable : s.table = s'.table) (h : s.Unhindered)
    (h' : s'.Unhindered) (ps : List (NamedProjector σ)) :
    (∀ err, validateProjectors ps = .error err →
      (s.decide ps).1 = .error err ∧ (s'.decide ps).1 = .error err) ∧
    (validateProjectors ps = .ok () →
      let es := s.table.selectedBy ps
      ((∀ p ∈ ps, ∃ x, p.fold es = .ok x) ∧
        (s.decide ps).1 = .ok (.onTable ps s.table) ∧ (s'.decide ps).1 = .ok (.onTable ps s.table)) ∨
      ((∃ p ∈ ps, ∃ err, p.fold es = .error err) ∧
        ∃ err err', (s.decide ps).1 = .error (.projection err) ∧
          (s'.decide ps).1 = .error (.projection err') ∧
          (∃ share ∈ NamedProjector.shares ps s.settings.maxWorkers,
            FirstRefusal NamedProjector.fold share es err) ∧
          (∃ share ∈ NamedProjector.shares ps s'.settings.maxWorkers,
            FirstRefusal NamedProjector.fold share es err') ∧
          (NamedProjector.RefuseTogether ps s.settings.maxWorkers es →
            ((ProjectionSet.ofProjectors ps).applyBatch es).2 = .error err ∧
            FirstRefusal NamedProjector.fold ps es err ∧
            (NamedProjector.RefuseTogether ps s'.settings.maxWorkers es → err' = err)))) := by
  -- unacceptable projectors are refused before the log is read
  refine ⟨fun err herr => ⟨decide_of_invalid h.place herr, decide_of_invalid h'.place herr⟩,
    fun hvalid => ?_⟩
  have hone := decide_eq_error h hvalid
  have hother := decide_eq_error h' hvalid
  rw [← htable] at hother
  -- the projectors fold the same events, so both succeed or both fail
  rcases hone with ⟨hfold, hdecide⟩ | ⟨⟨p, hp, err₀, hrefused⟩, err, hdecide, hshare, hall⟩
  · rcases hother with ⟨-, hdecide'⟩ | ⟨⟨p, hp, err, hrefused⟩, -⟩
    · exact .inl ⟨hfold, hdecide, hdecide'⟩
    · -- one store folds what the other one refuses, though the events are the same
      obtain ⟨x, hx⟩ := hfold p hp
      exact nomatch hx.symm.trans hrefused
  · rcases hother with ⟨hfold, -⟩ | ⟨-, err', hdecide', hshare', hall'⟩
    · obtain ⟨x, hx⟩ := hfold p hp
      exact nomatch hx.symm.trans hrefused
    · refine .inr ⟨⟨p, hp, err₀, hrefused⟩, err, err', hdecide, hdecide', hshare, hshare',
        fun htogether => ⟨?_, hall htogether, fun htogether' => ?_⟩⟩
      · -- the fold in place is that of a single worker
        exact ProjectionSet.ofProjectors_eq_error_iff.mpr (hall htogether)
      · exact NamedProjector.firstRefusal_unique (hall' htogether') (hall htogether)

/-- A store without faults with a number of workers. -/
def withWorkers (workers : Nat) (t : Table) : Store :=
  { facing t with settings := { maxWorkers := workers } }

/-- A store over a sound table is unhindered if its settings are accepted. -/
theorem unhindered_withWorkers {t : Table} (ht : t.Sound) {workers : Nat}
    (h : (withWorkers workers t).settings.validate = .ok ()) : (withWorkers workers t).Unhindered where
  settings := h
  decodable := ht.decodable
  ready := ready_facing t
  place := Nat.zero_lt_succ _

/-- The table of a log with two events of different types. -/
def openedAndDeposited : Table :=
  ((facing []).append [.new "Opened" [] (.object []), .new "Deposited" [] (.object [])] none .new).2.table

/-- Refuses all events of a type. -/
def refusing (eventType : String) : NamedProjector Nat where
  id := eventType
  projector :=
    { query := ⟨[⟨[eventType], []⟩]⟩
      initial := 0
      transition := fun _ e => .error (e.rejected "unexpected") }

/-- The two events were written by a call of a store. -/
theorem reaches_openedAndDeposited : Table.Reaches [] openedAndDeposited :=
  .single ⟨_, _, rfl,
    .append [.new "Opened" [] (.object []), .new "Deposited" [] (.object [])] none .new, rfl⟩

theorem sound_openedAndDeposited : openedAndDeposited.Sound :=
  Table.sound_nil.reaches reaches_openedAndDeposited

/-- Deposits are counted by one projector and refused by another one, which is alone in that: a single
worker and two workers fail with the same error. -/
theorem decide_error_agrees_on_one_refusal :
    let ps := [depositCount, refusing "Deposited"]
    ∃ err, ((withWorkers 1 openedAndDeposited).decide ps).1 = .error (.projection err) ∧
      ((withWorkers 2 openedAndDeposited).decide ps).1 = .error (.projection err) := by
  intro ps
  have hvalid : validateProjectors ps = .ok () := rfl
  -- the deposit is the only event that is selected
  have hcounted : depositCount.fold (openedAndDeposited.selectedBy ps) = .ok 1 := by
    rw [sound_openedAndDeposited.selectedBy_eq hvalid]
    decide +kernel
  have hrefused : ∃ err, (refusing "Deposited").fold (openedAndDeposited.selectedBy ps) = .error err := by
    rw [sound_openedAndDeposited.selectedBy_eq hvalid]
    exact ⟨.rejected "Deposited" 2 "unexpected", by decide +kernel⟩
  -- of two workers one has all that refuse something, since only one projector does
  have htogether : NamedProjector.RefuseTogether ps 2 (openedAndDeposited.selectedBy ps) := by
    refine NamedProjector.refuseTogether_of_alone ?_
    have halone : ∀ p ∈ ps, (∃ err, p.fold (openedAndDeposited.selectedBy ps) = .error err) →
        p = refusing "Deposited" := by
      rintro p hp ⟨err, herr⟩
      rcases List.mem_cons.mp hp with rfl | hp
      · exact nomatch hcounted.symm.trans herr
      · exact List.mem_singleton.mp hp
    intro p hp q hq herr herr'
    rw [halone p hp herr, halone q hq herr']
  obtain ⟨-, hagree⟩ := @decide_error_agrees _ (withWorkers 1 openedAndDeposited)
    (withWorkers 2 openedAndDeposited) rfl (unhindered_withWorkers sound_openedAndDeposited rfl)
    (unhindered_withWorkers sound_openedAndDeposited rfl) ps
  -- the first alternative is out, as the deposit is refused
  rcases hagree hvalid with ⟨hfold, -⟩ | ⟨-, err, err', hone, htwo, -, -, hsame⟩
  · obtain ⟨x, hx⟩ := hfold (refusing "Deposited") (List.mem_cons_of_mem _ List.mem_cons_self)
    obtain ⟨err, herr⟩ := hrefused
    exact nomatch hx.symm.trans herr
  · obtain ⟨-, -, heq⟩ := hsame (NamedProjector.refuseTogether_one ps _)
    obtain rfl := heq htogether
    exact ⟨_, hone, htwo⟩

/-- On a short log of which all events are selected, those are folded at once. -/
theorem decide_withWorkers {t : Table} (ht : t.Sound) (hne : t ≠ []) (hlen : t.length ≤ 1000)
    {workers : Nat} (hsettings : (withWorkers workers t).settings.validate = .ok ())
    (hvalid : validateProjectors ps = .ok ()) (hselected : t.selectedBy ps = t.map Row.event)
    {err : ProjectionError} (hout : (Folder.start ps workers).outcome [t.map Row.event] = .error err) :
    ((withWorkers workers t).decide ps).1 = .error (.projection err) := by
  have hcut : [t.map Row.event].flatten = t.selectedBy ps := by
    rw [hselected]
    exact List.append_nil _
  -- one batch that is not empty and no larger than a fetch
  have hof : Batches.OfSize 1000 [t.map Row.event] := by
    refine .singleton (by simpa using hne) ?_
    rw [List.length_map]
    exact hlen
  exact decide_of_outcome (unhindered_withWorkers ht hsettings) hvalid hcut hof hout

/-- A projector refuses the second event and one after it the first. A single worker fails with the
refusal of the first event, as a fold in place does, but two workers with that of the second. -/
theorem decide_error_depends_on_workers :
    let ps := [refusing "Deposited", refusing "Opened"]
    Table.Reaches [] openedAndDeposited ∧
      ((withWorkers 1 openedAndDeposited).decide ps).1 =
        .error (.projection (.rejected "Opened" 1 "unexpected")) ∧
      ((withWorkers 2 openedAndDeposited).decide ps).1 =
        .error (.projection (.rejected "Deposited" 2 "unexpected")) ∧
      ((ProjectionSet.ofProjectors ps).applyBatch (openedAndDeposited.selectedBy ps)).2 =
        .error (.rejected "Opened" 1 "unexpected") := by
  intro ps
  have hselected : openedAndDeposited.selectedBy ps = openedAndDeposited.map Row.event :=
    sound_openedAndDeposited.selectedBy_eq rfl
  have hne : openedAndDeposited ≠ [] := by decide +kernel
  have hlen : openedAndDeposited.length ≤ 1000 := by decide +kernel
  -- both events are fetched at once, so each of two workers refuses its own, and the first worker reports
  refine ⟨reaches_openedAndDeposited, ?_, ?_, ?_⟩
  · exact decide_withWorkers sound_openedAndDeposited hne hlen rfl rfl hselected (by decide +kernel)
  · exact decide_withWorkers sound_openedAndDeposited hne hlen rfl rfl hselected (by decide +kernel)
  · rw [hselected]
    decide +kernel

end Store

end EventLog
