import Mathlib.Data.List.Basic
import Mathlib.Logic.Relation
import EventLog.Proofs.SlotFold
import EventLog.Projection.FanOut

/-!
# Workers in any order

Workers run beside the reader. The reader puts every batch into the queue of one worker after the other,
waits while a queue is full, and stops reading when it finds a worker stopped. A worker takes a batch from
its queue whenever it has none in hand, which makes room in the queue, and folds it whenever it likes. In
the end the reader waits for the workers in their order. So one projection has many runs, and
`FanOut.feed`, where each worker folds a batch at once, is one of them.

## Key results

- `Flow.inv_of_run`: in every run a worker has folded what was taken from its queue, and has been sent
  all batches unless some worker has stopped
- `Flow.Step.load_lt`, `Flow.exists_step`: runs are finite, and only an end has no step
- `Flow.Ends.outcome`: a run ends with the merge of all folds or with the refusal of one worker
- `Folder.ends_outcome`: feeding batch after batch is one of the runs
-/

namespace EventLog

variable {σ : Type}

namespace Worker

/-! ### Feeding and gathering -/

@[simp] theorem feed_nil (w : Worker σ) : w.feed [] = w := by
  obtain ⟨set, failure⟩ := w
  cases failure <;> rfl

/-- Two batches fed one after the other are one batch. -/
theorem feed_append (w : Worker σ) (es fs : List Event) : w.feed (es ++ fs) = (w.feed es).feed fs := by
  obtain ⟨set, failure⟩ := w
  cases failure with
  | some err => rfl
  | none =>
    simp only [feed, ProjectionSet.applyBatch_append]
    obtain ⟨q, r⟩ := set.applyBatch es
    cases r <;> rfl

/-- However events are cut into batches, a worker has folded all of them in the end. -/
theorem foldl_feed (w : Worker σ) (batches : List (List Event)) :
    batches.foldl feed w = w.feed batches.flatten := by
  induction batches generalizing w with
  | nil => exact (feed_nil w).symm
  | cons b bs ih => rw [List.foldl_cons, ih, List.flatten_cons, feed_append]

/-- A worker that was fed a batch has stopped exactly if its set refuses the batch. -/
theorem failure_feed_ofSlots (slots : List (Slot σ)) (es : List Event) (err : ProjectionError) :
    ((ofSlots slots).feed es).failure = some err ↔
      ((ProjectionSet.ofSlots slots).applyBatch es).2 = .error err := by
  simp only [ofSlots, feed]
  split <;> rename_i h <;> simp [h]

theorem length_feedAll (b : List Event) (ws : List (Worker σ)) :
    (feedAll b ws).1.length = ws.length := by
  induction ws with
  | nil => rfl
  | cons w ws ih =>
    unfold feedAll
    split
    · rfl
    · simp [ih]

/-- Workers of which none has stopped are put together. -/
theorem gather_of_running {ws : List (Worker σ)} (h : ∀ w ∈ ws, w.failure = none) :
    gather ws = .ok (ws.flatMap (·.set.slots), (ws.map (·.set.observed)).foldr max 0) := by
  induction ws with
  | nil => rfl
  | cons w ws ih =>
    rw [gather, h w List.mem_cons_self, ih fun x hx => h x (List.mem_cons_of_mem _ hx)]
    rfl

/-- Workers of which one has stopped are not put together, and the refusal of a worker is given. -/
theorem gather_of_stopped {ws : List (Worker σ)} (h : ∃ w ∈ ws, w.failure ≠ none) :
    ∃ w ∈ ws, ∃ err, w.failure = some err ∧ gather ws = .error err := by
  induction ws with
  | nil => exact absurd h (by simp)
  | cons w ws ih =>
    cases hw : w.failure with
    | some err => exact ⟨w, List.mem_cons_self, err, hw, by rw [gather, hw]⟩
    | none =>
      obtain ⟨x, hx, err, hfail, hrest⟩ := ih (by simpa [hw] using h)
      exact ⟨x, List.mem_cons_of_mem _ hx, err, hfail, by rw [gather, hw, hrest]; rfl⟩

end Worker

/-! ### Runs -/

/-- A worker, the batch that it has in hand, and the batches that wait for it. -/
structure Lane (σ : Type) where
  worker : Worker σ
  hand : Option (List Event)
  queue : List (List Event)

namespace Lane

/-- The most batches that wait for one worker; the one in hand is not among them. -/
def depth : Nat := 2

/-- A worker with no batch in hand, and none that waits for it. -/
def idle (w : Worker σ) : Lane σ := ⟨w, none, []⟩

/-- The batches that a worker was sent and has not folded, in order. -/
def pending (l : Lane σ) : List (List Event) := l.hand.toList ++ l.queue

/-- How much a worker has to do: a batch that waits has two steps to go, one in hand has one. -/
def load (l : Lane σ) : Nat := 2 * l.queue.length + l.hand.toList.length

/-- How much all workers have to do. -/
def loads : List (Lane σ) → Nat
  | [] => 0
  | l :: ls => l.load + loads ls

/-- A reader that waits for the workers in order has nothing to wait for: up to the first stopped worker
no batch is pending. -/
def drained : List (Lane σ) → Bool
  | [] => true
  | l :: ls => l.worker.failure.isSome || (l.pending.isEmpty && drained ls)

end Lane

/-- Workers at work, and the batches that the reader has yet to send, each with the index of the worker
it is for. -/
structure Flow (σ : Type) where
  lanes : List (Lane σ)
  sends : List (Nat × List Event)

namespace Flow

/-- What can happen next. -/
inductive Step : Flow σ → Flow σ → Prop
  /-- The next batch goes into a queue that has room. -/
  | send {f : Flow σ} {i : Nat} {b : List Event} {sends : List (Nat × List Event)} {l : Lane σ} :
    f.sends = (i, b) :: sends → f.lanes[i]? = some l → l.worker.failure = none →
    l.queue.length < Lane.depth →
    Step f ⟨f.lanes.set i ⟨l.worker, l.hand, l.queue ++ [b]⟩, sends⟩
  /-- The next batch is for a worker that has stopped, and the reader sends no more. -/
  | stop {f : Flow σ} {i : Nat} {b : List Event} {sends : List (Nat × List Event)} {l : Lane σ} :
    f.sends = (i, b) :: sends → f.lanes[i]? = some l → l.worker.failure.isSome = true →
    Step f ⟨f.lanes, []⟩
  /-- A worker with nothing in hand takes the first batch of its queue. -/
  | take {f : Flow σ} {i : Nat} {b : List Event} {queue : List (List Event)} {l : Lane σ} :
    f.lanes[i]? = some l → l.worker.failure = none → l.hand = none → l.queue = b :: queue →
    Step f ⟨f.lanes.set i ⟨l.worker, some b, queue⟩, f.sends⟩
  /-- A worker folds the batch in hand. -/
  | fold {f : Flow σ} {i : Nat} {b : List Event} {l : Lane σ} :
    f.lanes[i]? = some l → l.worker.failure = none → l.hand = some b →
    Step f ⟨f.lanes.set i ⟨l.worker.feed b, none, l.queue⟩, f.sends⟩

/-- Any number of steps. -/
def Run : Flow σ → Flow σ → Prop := Relation.ReflTransGen Step

/-- The sends of a batch to `count` workers from the one with index `start` on. -/
def broadcast (start count : Nat) (b : List Event) : List (Nat × List Event) :=
  (List.range' start count).map fun i => (i, b)

/-- Workers to which batches are to be sent. -/
def start (workers : List (Worker σ)) (batches : List (List Event)) : Flow σ :=
  ⟨workers.map .idle, batches.flatMap (broadcast 0 workers.length)⟩

/-- The reader has sent all that it will send, waited for the workers, and put together `r`. -/
def Ends (f : Flow σ) (r : Except ProjectionError (List (String × σ) × Position)) : Prop :=
  f.sends = [] ∧ Lane.drained f.lanes = true ∧ r = (FanOut.mk (f.lanes.map (·.worker))).finish

end Flow

namespace Folder

/-- Feeds batches until no further one is wanted. -/
def feedAll (f : Folder σ) : List (List Event) → Except ProjectionError (Folder σ)
  | [] => .ok f
  | b :: bs => do
    let (f, more) ← f.feed b
    if more then f.feedAll bs else return f

/-- What a projection gives for batches. -/
def outcome (f : Folder σ) (batches : List (List Event)) :
    Except ProjectionError (List (String × σ) × Position) := do
  (← f.feedAll batches).finish

/-- Some run of the projection over batches ends with `r`. -/
def Ends (f : Folder σ) (batches : List (List Event))
    (r : Except ProjectionError (List (String × σ) × Position)) : Prop :=
  match f with
  | .inPlace _ => r = f.outcome batches
  | .dealt fan => ∃ g, (Flow.start fan.workers batches).Run g ∧ g.Ends r

end Folder

namespace Flow

/-! ### What every run keeps -/

/-- The batches among the sends that are for the worker with index `i`. -/
def due (i : Nat) (sends : List (Nat × List Event)) : List (List Event) :=
  sends.filterMap fun s => if s.1 = i then some s.2 else none

@[simp] theorem due_nil (i : Nat) : due i [] = [] := rfl

theorem due_cons_self (i : Nat) (b : List Event) (sends : List (Nat × List Event)) :
    due i ((i, b) :: sends) = b :: due i sends := by
  simp [due]

theorem due_cons_of_ne {i j : Nat} (h : i ≠ j) (b : List Event) (sends : List (Nat × List Event)) :
    due j ((i, b) :: sends) = due j sends := by
  simp [due, h]

/-- What is kept: every worker has folded some batches; with those that are pending and those that are yet
to be sent to it they are the first batches of all, and no batch is missing unless some worker has
stopped. -/
structure Inv (workers : List (Worker σ)) (batches : List (List Event)) (f : Flow σ) : Prop where
  length_lanes : f.lanes.length = workers.length
  lane : ∀ {i : Nat} {l : Lane σ} {w : Worker σ}, f.lanes[i]? = some l → workers[i]? = some w →
    ∃ folded missing, l.worker = folded.foldl Worker.feed w ∧
      folded ++ l.pending ++ due i f.sends ++ missing = batches ∧
      ((∀ m ∈ f.lanes, m.worker.failure = none) → missing = [])
  sends_lt : ∀ s ∈ f.sends, s.1 < f.lanes.length

/-- A lane is still there after another one was set. -/
private theorem mem_set_or_eq {lanes : List (Lane σ)} {i : Nat} {l : Lane σ}
    (hl : lanes[i]? = some l) (l' : Lane σ) {m : Lane σ} (hm : m ∈ lanes) :
    m = l ∨ m ∈ lanes.set i l' := by
  obtain ⟨j, hj⟩ := List.getElem?_of_mem hm
  by_cases hij : i = j
  · subst hij
    exact .inl (Option.some.inj (hj.symm.trans hl))
  · refine .inr (List.mem_of_getElem? (i := j) ?_)
    rw [List.getElem?_set_ne hij, hj]

/-- If no worker has stopped after the lane of a running worker was set, none had before. -/
private theorem failure_eq_none_of_set {lanes : List (Lane σ)} {i : Nat} {l l' : Lane σ}
    (hl : lanes[i]? = some l) (hrun : l.worker.failure = none)
    (h : ∀ m ∈ lanes.set i l', m.worker.failure = none) :
    ∀ m ∈ lanes, m.worker.failure = none := by
  intro m hm
  rcases mem_set_or_eq hl l' hm with rfl | hm
  · exact hrun
  · exact h m hm

/-- What two lists of sends are due to a worker is due to it together. -/
theorem due_append (i : Nat) (sends more : List (Nat × List Event)) :
    due i (sends ++ more) = due i sends ++ due i more :=
  List.filterMap_append

/-- A batch for several workers is due once to each of them, and to no other. -/
theorem due_broadcast (i start count : Nat) (b : List Event) :
    due i (broadcast start count b) = if start ≤ i ∧ i < start + count then [b] else [] := by
  induction count generalizing start with
  | zero =>
    rw [if_neg (by omega)]
    rfl
  | succ n ih =>
    have hcons : broadcast start (n + 1) b = (start, b) :: broadcast (start + 1) n b := rfl
    by_cases h : start = i
    · subst h
      rw [hcons, due_cons_self, ih, if_neg (by omega), if_pos (by omega)]
    · rw [hcons, due_cons_of_ne h, ih]
      exact if_congr (by omega) rfl rfl

/-- In the beginning every batch is due to every worker. -/
theorem due_start {i count : Nat} (h : i < count) (batches : List (List Event)) :
    due i (batches.flatMap (broadcast 0 count)) = batches := by
  induction batches with
  | nil => rfl
  | cons b bs ih =>
    rw [List.flatMap_cons, due_append, ih, due_broadcast, if_pos (by omega)]
    rfl

/-- In the beginning nothing has been folded. -/
theorem inv_start (workers : List (Worker σ)) (batches : List (List Event)) :
    Inv workers batches (start workers batches) where
  length_lanes := by simp [start]
  lane := by
    intro i l w hl hw
    have hlt : i < workers.length := (List.getElem?_eq_some_iff.mp hw).1
    have hidle : l = .idle w := by
      simp only [start, List.getElem?_map, hw] at hl
      exact (Option.some.inj hl).symm
    refine ⟨[], [], by rw [hidle]; rfl, ?_, fun _ => rfl⟩
    rw [hidle]
    simp only [start, Lane.idle, Lane.pending, Option.toList_none, List.nil_append, List.append_nil,
      due_start hlt]
  sends_lt := by
    intro s hs
    simp only [start, List.mem_flatMap, broadcast, List.mem_map, List.mem_range'_1] at hs
    obtain ⟨b, -, i, hi, rfl⟩ := hs
    simpa [start] using hi.2

/-- It is kept if one running worker folds some of its batches, and what it then has pending and is due to it
is what was so before, without these. -/
theorem Inv.set {workers : List (Worker σ)} {batches : List (List Event)} {f : Flow σ}
    (hf : Inv workers batches f) {i : Nat} {l l' : Lane σ} {sends : List (Nat × List Event)}
    (hl : f.lanes[i]? = some l) (hrun : l.worker.failure = none) (moved : List (List Event))
    (hworker : l'.worker = moved.foldl Worker.feed l.worker)
    (hmoved : moved ++ l'.pending ++ due i sends = l.pending ++ due i f.sends)
    (hdue : ∀ j, i ≠ j → due j sends = due j f.sends) (hsends : sends ⊆ f.sends) :
    Inv workers batches ⟨f.lanes.set i l', sends⟩ where
  length_lanes := by simpa using hf.length_lanes
  lane := by
    have hlt : i < f.lanes.length := (List.getElem?_eq_some_iff.mp hl).1
    intro j m w hm hw
    by_cases hij : i = j
    · subst hij
      obtain rfl : l' = m := by simpa [List.getElem?_set_self hlt] using hm
      obtain ⟨folded, missing, hfold, hall, hnone⟩ := hf.lane hl hw
      refine ⟨folded ++ moved, missing, ?_, ?_, fun h => hnone (failure_eq_none_of_set hl hrun h)⟩
      · rw [hworker, hfold, List.foldl_append]
      · rw [← hall]
        simpa using congrArg (fun bs => folded ++ (bs ++ missing)) hmoved
    · -- the lanes of the other workers, and what is due to them, are as before
      rw [List.getElem?_set_ne hij] at hm
      obtain ⟨folded, missing, hfold, hall, hnone⟩ := hf.lane hm hw
      rw [← hdue j hij] at hall
      exact ⟨folded, missing, hfold, hall, fun h => hnone (failure_eq_none_of_set hl hrun h)⟩
  sends_lt := by
    intro s hs
    rw [List.length_set]
    exact hf.sends_lt s (hsends hs)

/-- Every step keeps it. -/
theorem Inv.step {workers : List (Worker σ)} {batches : List (List Event)} {f g : Flow σ}
    (hf : Inv workers batches f) (h : Step f g) : Inv workers batches g := by
  cases h with
  | @send i b sends l hsends hl hrun hroom =>
    -- the batch moves from what is due to one worker to what waits for it
    refine hf.set hl hrun [] rfl ?_ (fun j hij => ?_) ?_
    · simp [hsends, due_cons_self, Lane.pending]
    · rw [hsends, due_cons_of_ne hij]
    · rw [hsends]
      exact List.subset_cons_self _ _
  | @stop i b sends l hsends hl hstopped =>
    refine ⟨hf.length_lanes, ?_, by simp⟩
    intro j m w hm hw
    obtain ⟨folded, missing, hfold, hall, -⟩ := hf.lane hm hw
    refine ⟨folded, due j f.sends ++ missing, hfold, by simpa using hall, fun h => ?_⟩
    -- what is not sent any more goes missing, but a worker has stopped
    rw [h l (List.mem_of_getElem? hl)] at hstopped
    exact nomatch hstopped
  | @take i b queue l hl hrun hhand hqueue =>
    -- a batch that is taken stays pending
    refine hf.set hl hrun [] rfl ?_ (fun _ _ => rfl) (List.Subset.refl _)
    simp [Lane.pending, hhand, hqueue]
  | @fold i b l hl hrun hhand =>
    -- the batch moves from what is pending to what the worker has folded
    refine hf.set hl hrun [b] rfl ?_ (fun _ _ => rfl) (List.Subset.refl _)
    simp [Lane.pending, hhand]

/-- So it holds in every run. -/
theorem inv_of_run {workers : List (Worker σ)} {batches : List (List Event)} {f : Flow σ}
    (h : (start workers batches).Run f) : Inv workers batches f := by
  induction h with
  | refl => exact inv_start workers batches
  | tail _ hstep ih => exact ih.step hstep

/-! ### Runs are finite -/

/-- How much there is to do: a batch that is yet to be sent has three steps to go. -/
def load (f : Flow σ) : Nat := 3 * f.sends.length + Lane.loads f.lanes

/-- How much the workers have to do after the lane of one was set. -/
private theorem loads_set {lanes : List (Lane σ)} {i : Nat} {l : Lane σ} (hl : lanes[i]? = some l)
    (l' : Lane σ) : Lane.loads (lanes.set i l') + l.load = Lane.loads lanes + l'.load := by
  induction lanes generalizing i with
  | nil => simp at hl
  | cons m lanes ih =>
    cases i with
    | zero =>
      obtain rfl : m = l := by simpa using hl
      simp only [List.set_cons_zero, Lane.loads]
      omega
    | succ i =>
      have hrest := ih (i := i) (by simpa using hl)
      simp only [List.set_cons_succ, Lane.loads]
      omega

/-- Every step leaves less to do. -/
theorem Step.load_lt {f g : Flow σ} (h : Step f g) : g.load < f.load := by
  cases h with
  | @send i b sends l hsends hl hrun hroom =>
    -- a step less for the batch, which waits now
    have hloads := loads_set hl ⟨l.worker, l.hand, l.queue ++ [b]⟩
    simp only [load, Lane.load, hsends, List.length_cons, List.length_append, List.length_nil] at hloads ⊢
    omega
  | @stop i b sends l hsends hl hstopped =>
    simp only [load, hsends, List.length_cons, List.length_nil]
    omega
  | @take i b queue l hl hrun hhand hqueue =>
    have hloads := loads_set hl ⟨l.worker, some b, queue⟩
    simp only [load, Lane.load, hhand, hqueue, Option.toList_none, Option.toList_some, List.length_cons,
      List.length_nil] at hloads ⊢
    omega
  | @fold i b l hl hrun hhand =>
    have hloads := loads_set hl ⟨l.worker.feed b, none, l.queue⟩
    simp only [load, Lane.load, hhand, Option.toList_none, Option.toList_some, List.length_cons,
      List.length_nil] at hloads ⊢
    omega

/-- If the reader has to wait then a running worker has a batch pending. -/
theorem exists_pending {lanes : List (Lane σ)} (h : Lane.drained lanes = false) :
    ∃ l ∈ lanes, l.worker.failure = none ∧ l.pending ≠ [] := by
  induction lanes with
  | nil => exact nomatch h
  | cons l lanes ih =>
    simp only [Lane.drained, Bool.or_eq_false_iff, Option.isSome_eq_false_iff,
      Option.isNone_iff_eq_none] at h
    obtain ⟨hrun, h⟩ := h
    by_cases hpending : l.pending = []
    · obtain ⟨m, hm, hrest⟩ := ih (by simpa [hpending] using h)
      exact ⟨m, List.mem_cons_of_mem _ hm, hrest⟩
    · exact ⟨l, List.mem_cons_self, hrun, hpending⟩

/-- A running worker with a batch pending can go on: it folds the one in hand, or takes one into its hand. -/
theorem exists_step_of_pending {f : Flow σ} {i : Nat} {l : Lane σ} (hl : f.lanes[i]? = some l)
    (hrun : l.worker.failure = none) (hpending : l.pending ≠ []) : ∃ g, Step f g := by
  cases hhand : l.hand with
  | some b => exact ⟨_, .fold hl hrun hhand⟩
  | none =>
    cases hqueue : l.queue with
    | nil => exact absurd (by simp [Lane.pending, hhand, hqueue]) hpending
    | cons b queue => exact ⟨_, .take hl hrun hhand hqueue⟩

/-- Something can happen until the reader has sent and waited for everything. -/
theorem exists_step {f : Flow σ} (hlt : ∀ s ∈ f.sends, s.1 < f.lanes.length)
    (h : ¬(f.sends = [] ∧ Lane.drained f.lanes = true)) : ∃ g, Step f g := by
  cases hsends : f.sends with
  | nil =>
    -- the reader has sent everything and waits for a worker
    have hwait : Lane.drained f.lanes = false := by simpa [hsends] using h
    obtain ⟨l, hmem, hrun, hpending⟩ := exists_pending hwait
    obtain ⟨i, hl⟩ := List.getElem?_of_mem hmem
    exact exists_step_of_pending hl hrun hpending
  | cons s sends =>
    obtain ⟨i, b⟩ := s
    have hi : i < f.lanes.length := hlt (i, b) (hsends ▸ List.mem_cons_self)
    have hl : f.lanes[i]? = some f.lanes[i] := List.getElem?_eq_getElem hi
    cases hfail : f.lanes[i].worker.failure with
    | some err => exact ⟨_, .stop hsends hl (by simp [hfail])⟩
    | none =>
      by_cases hroom : f.lanes[i].queue.length < Lane.depth
      · exact ⟨_, .send hsends hl hfail hroom⟩
      · -- the reader waits for room, but then the worker has something to do
        refine exists_step_of_pending hl hfail fun hnone => hroom ?_
        have hempty : f.lanes[i].queue = [] := (List.append_eq_nil_iff.mp hnone).2
        simp [hempty, Lane.depth]

/-- However far it has got, a run can be brought to an end. -/
theorem exists_ends {workers : List (Worker σ)} {batches : List (List Event)} {f : Flow σ}
    (hf : Inv workers batches f) : ∃ g r, f.Run g ∧ g.Ends r := by
  by_cases h : f.sends = [] ∧ Lane.drained f.lanes = true
  · exact ⟨f, _, .refl, h.1, h.2, rfl⟩
  · obtain ⟨g, hg⟩ := exists_step hf.sends_lt h
    have := hg.load_lt
    obtain ⟨g', r, hrun, hr⟩ := exists_ends (hf.step hg)
    exact ⟨g', r, .head hg hrun, hr⟩
termination_by f.load

/-! ### How runs end -/

/-- If a reader has nothing to wait for and no worker has stopped then no batch is pending. -/
theorem pending_eq_nil_of_drained {lanes : List (Lane σ)} (h : Lane.drained lanes = true)
    (hrun : ∀ l ∈ lanes, l.worker.failure = none) : ∀ l ∈ lanes, l.pending = [] := by
  induction lanes with
  | nil => simp
  | cons l lanes ih =>
    have hl := hrun l List.mem_cons_self
    simp only [Lane.drained, hl, Option.isSome_none, Bool.false_or, Bool.and_eq_true,
      List.isEmpty_iff] at h
    exact List.forall_mem_cons.mpr
      ⟨h.1, ih h.2 fun m hm => hrun m (List.mem_cons_of_mem _ hm)⟩

/-- A run ends in one of two ways. Either every worker has folded all batches, and what they hold is put
together; or the result is the refusal with which some worker has stopped after some of the batches. -/
theorem Ends.outcome {workers : List (Worker σ)} {batches : List (List Event)} {f : Flow σ}
    {r : Except ProjectionError (List (String × σ) × Position)} (hf : Inv workers batches f)
    (h : f.Ends r) :
    ((∀ w ∈ workers, (w.feed batches.flatten).failure = none) ∧
      r = (FanOut.mk (workers.map (·.feed batches.flatten))).finish) ∨
    ∃ w ∈ workers, ∃ err fed, fed <+: batches ∧ (w.feed fed.flatten).failure = some err ∧
      r = .error err := by
  obtain ⟨hsends, hdrained, rfl⟩ := h
  by_cases hrun : ∀ l ∈ f.lanes, l.worker.failure = none
  · left
    have hpending := pending_eq_nil_of_drained hdrained hrun
    have hlane : ∀ {i : Nat} {l : Lane σ} {w : Worker σ}, f.lanes[i]? = some l →
        workers[i]? = some w → l.worker = w.feed batches.flatten := by
      intro i l w hl hw
      obtain ⟨folded, missing, hfold, hall, hnone⟩ := hf.lane hl hw
      have hl := List.mem_of_getElem? hl
      -- nothing is pending, due or missing, so the batches that were folded are all of them
      simp only [hpending l hl, hsends, hnone hrun, due_nil, List.append_nil] at hall
      rw [hfold, hall, Worker.foldl_feed]
    have hall : f.lanes.map (·.worker) = workers.map (·.feed batches.flatten) := by
      refine List.ext_getElem (by simp [hf.length_lanes]) fun i hi hi' => ?_
      simp only [List.length_map] at hi hi'
      simpa using hlane (List.getElem?_eq_getElem hi) (List.getElem?_eq_getElem hi')
    refine ⟨fun w hw => ?_, by rw [hall]⟩
    have hmem : w.feed batches.flatten ∈ f.lanes.map (·.worker) := hall ▸ List.mem_map_of_mem hw
    obtain ⟨l, hl, hlw⟩ := List.mem_map.mp hmem
    exact hlw ▸ hrun l hl
  · right
    -- the reader gives the refusal of the first worker in order that has stopped
    have hstopped : ∃ w ∈ f.lanes.map (·.worker), w.failure ≠ none := by simpa using hrun
    obtain ⟨w', hw', err, hfail, hgather⟩ := Worker.gather_of_stopped hstopped
    obtain ⟨l, hl, rfl⟩ := List.mem_map.mp hw'
    obtain ⟨i, hi⟩ := List.getElem?_of_mem hl
    have hlt : i < workers.length := hf.length_lanes ▸ (List.getElem?_eq_some_iff.mp hi).1
    obtain ⟨folded, missing, hfold, hall, -⟩ := hf.lane hi (List.getElem?_eq_getElem hlt)
    refine ⟨workers[i], List.getElem_mem hlt, err, folded, ?_, ?_, ?_⟩
    · exact ⟨l.pending ++ due i f.sends ++ missing, by simpa using hall⟩
    · rw [← Worker.foldl_feed, ← hfold, hfail]
    · rw [FanOut.finish, hgather]
      rfl

end Flow

/-! ### Feeding at once -/

namespace Flow

/-- Feeding a batch to workers in order is a run in which each worker folds the batch as soon as it is
sent. `before` are the workers that have folded it already. -/
theorem run_feedAll (b : List Event) (rest : List (Nat × List Event)) (ws before : List (Worker σ)) :
    Run ⟨(before ++ ws).map .idle, broadcast before.length ws.length b ++ rest⟩
      ⟨(before ++ (Worker.feedAll b ws).1).map .idle,
        if (Worker.feedAll b ws).2 then rest else []⟩ := by
  induction ws generalizing before with
  | nil => exact .refl
  | cons w ws ih =>
    have hsends : broadcast before.length (w :: ws).length b ++ rest =
        (before.length, b) :: (broadcast (before.length + 1) ws.length b ++ rest) := rfl
    have hlane : ((before ++ w :: ws).map Lane.idle)[before.length]? = some (.idle w) := by simp
    unfold Worker.feedAll
    split
    · rename_i hstopped
      exact .single (.stop hsends hlane hstopped)
    · rename_i hrun
      have hrun : w.failure = none := by simpa using hrun
      -- three steps for this worker, and the others are fed with it among those before
      have hrest := ih (before ++ [w.feed b])
      simp only [List.length_append, List.length_cons, List.length_nil, List.append_assoc,
        List.cons_append, List.nil_append, Nat.zero_add] at hrest
      refine .head (.send hsends hlane hrun (by simp [Lane.idle, Lane.depth])) ?_
      refine .head (.take (i := before.length) (l := ⟨w, none, [b]⟩) (by simp [Lane.idle]) hrun rfl rfl) ?_
      refine .head (.fold (i := before.length) (l := ⟨w, some b, []⟩) (by simp) hrun rfl) ?_
      simpa [List.set_append_right, Lane.idle, Run] using hrest

end Flow

namespace Folder

/-- One run of a projection over batches is feeding it batch after batch. -/
theorem ends_outcome (f : Folder σ) (batches : List (List Event)) :
    f.Ends batches (f.outcome batches) := by
  cases f with
  | inPlace set => exact rfl
  | dealt fan =>
    obtain ⟨workers⟩ := fan
    have hdrained : ∀ ws : List (Worker σ), Lane.drained (ws.map .idle) = true := by
      intro ws
      induction ws with
      | nil => rfl
      | cons w ws ih => simp [Lane.drained, ih, Lane.idle, Lane.pending]
    have hfinish : ∀ ws : List (Worker σ),
        Flow.Ends ⟨ws.map .idle, []⟩ (FanOut.mk ws).finish := by
      intro ws
      refine ⟨rfl, hdrained ws, ?_⟩
      rw [List.map_map, show (Lane.worker ∘ Lane.idle : Worker σ → Worker σ) = id from rfl,
        List.map_id]
    induction batches generalizing workers with
    | nil => exact ⟨_, .refl, hfinish workers⟩
    | cons b bs ih =>
      -- the first batch goes round, and the reader stops there or goes on with the other ones
      have hrun := Flow.run_feedAll b (bs.flatMap (Flow.broadcast 0 workers.length)) workers []
      simp only [List.length_nil, List.nil_append] at hrun
      have houtcome : (dealt ⟨workers⟩).outcome (b :: bs) =
          if (Worker.feedAll b workers).2 then (dealt ⟨(Worker.feedAll b workers).1⟩).outcome bs
          else (FanOut.mk (Worker.feedAll b workers).1).finish := by
        simp only [outcome, feedAll, feed, FanOut.feed]
        cases (Worker.feedAll b workers).2 <;> rfl
      rw [houtcome]
      cases hopen : (Worker.feedAll b workers).2 with
      | true =>
        obtain ⟨g, hg, hends⟩ := ih (Worker.feedAll b workers).1
        refine ⟨g, hrun.trans ?_, hends⟩
        simpa [hopen, Flow.start, Flow.Run, Worker.length_feedAll] using hg
      | false =>
        refine ⟨_, hrun, ?_⟩
        simpa [hopen] using hfinish (Worker.feedAll b workers).1

end Folder

end EventLog
