import EventLog.Proofs.AdmissionGate
import EventLog.Proofs.AppendDecision
import EventLog.Proofs.DecisionRefusal

/-!
# Admission

A projection takes a place at the gate before anything else and gives it back on every way out: when its
projectors are refused, when a transition fails, when a row is corrupt, when the database or a deadline ends
it, and when it succeeds. So the places that are taken between calls are those that callers hold themselves.

## Key results

- `Db.FailsOnly`: how an action fails, if it does
- `Projected.failsOnly_ofLog`: how a projection fails once it is admitted
- `Store.Admission`: what admission makes of a call
- `Store.Holding.gate`: places that are free and places that are held make up the gate
- `Store.places_in_flight_are_held`: projections take no place, and only a full gate refuses them
-/

namespace EventLog

open Database Sql

variable {α β σ : Type}

/-! ### How actions fail -/

namespace Database.Db

/-- If the action fails, whatever the client, then with an error that satisfies `P`. -/
def FailsOnly (P : StoreError → Prop) (x : Db α) : Prop := ∀ c e, (x.runOn c).1 = .error e → P e

variable {P : StoreError → Prop}

/-- An action that succeeds on every client does not fail at all. -/
theorem failsOnly_of_ok {x : Db α} (h : ∀ c, ∃ a, (x.runOn c).1 = .ok a) : FailsOnly P x := by
  intro c e he
  obtain ⟨a, ha⟩ := h c
  exact nomatch ha.symm.trans he

theorem failsOnly_pure (x : α) : FailsOnly P (pure x) := failsOnly_of_ok fun _ => ⟨x, rfl⟩

/-- A failing action fails with its own error. -/
theorem failsOnly_fail {e : StoreError} (h : P e) : FailsOnly P (fail e : Db α) := by
  intro c e' he
  exact Except.error.inj he ▸ h

/-- An action that goes on fails like one of its parts. -/
theorem FailsOnly.bind_of {x : Db α} {f : α → Db β} (hx : x.FailsOnly P)
    (hf : ∀ c a, (x.runOn c).1 = .ok a → (f a).FailsOnly P) : (x >>= f).FailsOnly P := by
  intro c e he
  rcases hrun : x.runOn c with ⟨e' | a, c'⟩
  · -- the first part failed, and nothing ran after it
    rw [runOn_bind_error hrun] at he
    obtain rfl := Except.error.inj he
    exact hx c e' (congrArg Prod.fst hrun)
  · -- the first part gave a value, and what failed is the continuation, on the client it left
    rw [runOn_bind_ok hrun] at he
    exact hf c a (congrArg Prod.fst hrun) c' e he

/-- The parts of an action may be treated one by one. -/
theorem FailsOnly.bind {x : Db α} {f : α → Db β} (hx : x.FailsOnly P) (hf : ∀ a, (f a).FailsOnly P) :
    (x >>= f).FailsOnly P := hx.bind_of fun _ a _ => hf a

/-- What goes on after an attempt may fail with the error that was met. -/
theorem FailsOnly.attempt_bind {x : Db α} {f : Except StoreError α → Db β} (hx : x.FailsOnly P)
    (hok : ∀ a, (f (.ok a)).FailsOnly P) (herror : ∀ e, P e → (f (.error e)).FailsOnly P) :
    (attempt x >>= f).FailsOnly P := by
  refine FailsOnly.bind_of (failsOnly_of_ok fun c => ⟨_, rfl⟩) fun c r hr => ?_
  rw [runOn_attempt] at hr
  obtain rfl := Except.ok.inj hr
  rcases hrun : (x.runOn c).1 with e | a
  · exact herror e (hx c e hrun)
  · exact hok a

/-- A result that is taken over fails with its wrapped error. -/
theorem failsOnly_ofExcept {ε : Type} {wrap : ε → StoreError} (h : ∀ e, P (wrap e))
    (r : Except ε α) : FailsOnly P (ofExcept wrap r) := by
  cases r with
  | error e => exact failsOnly_fail (h e)
  | ok x => exact failsOnly_pure x

/-- A deadline adds no failure of its own: it strikes in the statements of the action. -/
theorem FailsOnly.within {x : Db α} (h : x.FailsOnly P) (operation : Operation) (limit : Nat) :
    (within operation limit x).FailsOnly P := fun _ e he => h _ e he

theorem failsOnly_release : FailsOnly P release := failsOnly_of_ok fun _ => ⟨(), rfl⟩

theorem failsOnly_table : FailsOnly P table := failsOnly_of_ok fun c => ⟨c.server.table, rfl⟩

theorem failsOnly_update (f : Server → Server) : FailsOnly P (update f) :=
  failsOnly_of_ok fun _ => ⟨(), rfl⟩

/-- Giving up a transaction passes on what ended it. -/
theorem FailsOnly.orRollBack {x : Db α} (h : x.FailsOnly P) : (orRollBack x).FailsOnly P := by
  refine h.attempt_bind (fun a => failsOnly_pure a) fun e he => ?_
  -- giving up a transaction does not fail
  have habandon : FailsOnly P abandon :=
    (failsOnly_of_ok fun c => ⟨_, rfl⟩).bind fun _ => failsOnly_release
  exact habandon.bind fun _ => failsOnly_fail he

section

variable (hP : ∀ e : StoreError, e.isDisturbance = true → P e)

include hP

/-- A statement fails only by a disturbance. -/
theorem failsOnly_send (stmt : Statement) : FailsOnly P (send stmt) := fun _ e he =>
  hP e (isDisturbance_of_send (Prod.ext he rfl))

/-- A transaction is begun, or the client is disturbed. -/
theorem failsOnly_begin : FailsOnly P begin := by
  refine FailsOnly.bind (fun _ e he => hP e (isDisturbance_of_acquire (Prod.ext he rfl))) fun _ => ?_
  -- a refused start gives the session back and passes the refusal on
  refine (failsOnly_send hP _).attempt_bind (fun u => failsOnly_pure u) fun e he => ?_
  exact failsOnly_release.bind fun _ => failsOnly_fail he

/-- A commit fails only by a disturbance, which includes the constraints that are checked late. -/
theorem failsOnly_commit (inserted : List Row) : FailsOnly P (commit inserted) := by
  refine (failsOnly_send hP _).bind fun _ => failsOnly_table.bind fun t => ?_
  refine FailsOnly.bind (fun _ e he => hP e (isDisturbance_of_refuse (Prod.ext he rfl))) fun _ => ?_
  exact (failsOnly_update _).bind fun _ => failsOnly_release

theorem failsOnly_head : FailsOnly P head :=
  (failsOnly_send hP _).bind fun _ => failsOnly_table.bind fun _ => failsOnly_pure _

end

end Database.Db

open Database.Db (FailsOnly failsOnly_pure failsOnly_ofExcept failsOnly_table failsOnly_send
  failsOnly_begin failsOnly_commit failsOnly_head)

/-- The error ends a projection that was admitted: a disturbance, a corrupt row, or a transition that
fails. -/
def StoreError.EndsFold (e : StoreError) : Prop :=
  e.isDisturbance = true ∨ (∃ c, e = .corruptRow c) ∨ ∃ err, e = .projection err

open StoreError (EndsFold)

namespace Projected

theorem endsFold_of_isDisturbance (e : StoreError) (h : e.isDisturbance = true) : EndsFold e := .inl h

/-- Decoding rows fails only with a corrupt one. -/
theorem failsOnly_rows (rows : List Row) :
    FailsOnly EndsFold (Db.ofExcept .corruptRow (Row.toEvents rows)) :=
  failsOnly_ofExcept (fun c => .inr (.inl ⟨c, rfl⟩)) _

/-- Feeding events to projectors fails only with the error of a transition. -/
theorem failsOnly_transitions (r : Except ProjectionError α) :
    FailsOnly EndsFold (Db.ofExcept .projection r) :=
  failsOnly_ofExcept (fun err => .inr (.inr ⟨err, rfl⟩)) _

/-- A fetch fails by a disturbance or with a corrupt row. -/
theorem failsOnly_fetch (cursor : Cursor) (count timeout : Nat) :
    FailsOnly EndsFold (cursor.fetch count timeout) :=
  ((failsOnly_send endsFold_of_isDisturbance _).within _ _).bind fun _ =>
    (failsOnly_rows _).bind fun _ => failsOnly_pure _

/-- The loop over a cursor fails like a fetch or like a transition. -/
theorem failsOnly_feedAll (fuel batchSize timeout : Nat) (cursor : Cursor) (folder : Folder σ) :
    FailsOnly EndsFold (feedAll fuel batchSize timeout cursor folder) := by
  -- by induction on the fuel, with the cursor and the folders left free: both change from batch to batch
  induction fuel generalizing cursor folder with
  | zero => exact failsOnly_pure _
  | succ fuel ih =>
    refine (failsOnly_fetch _ _ _).bind ?_
    rintro ⟨events, cursor⟩
    -- the loop goes on in the same way whether a batch was fed or was empty
    have hmore : ∀ p : Folder σ × Bool, FailsOnly EndsFold (
        if p.2 && !decide (events.length < batchSize) then
          feedAll fuel batchSize timeout cursor p.1
        else return p.1) := by
      intro p
      split
      · exact ih _ _
      · exact failsOnly_pure _
    dsimp only
    split
    · exact (failsOnly_pure _).bind hmore
    · exact (failsOnly_transitions _).bind hmore

/-- Once it is admitted a projection fails only by a disturbance, a corrupt row or a transition. -/
theorem failsOnly_ofLog (settings : StoreSettings) (ps : List (NamedProjector σ)) (query : Query) :
    FailsOnly EndsFold (ofLog settings ps query) := by
  have hsend := failsOnly_send endsFold_of_isDisturbance
  -- one transaction: its statements, the head, the loop over the cursor, the statements that close it
  have hfold : ∀ folder : Folder σ, FailsOnly EndsFold (fold settings query folder) := by
    intro folder
    refine (failsOnly_begin endsFold_of_isDisturbance).bind fun _ => FailsOnly.orRollBack ?_
    refine (hsend _).bind fun _ => (failsOnly_head endsFold_of_isDisturbance).bind fun _ => ?_
    refine ((hsend _).bind fun _ => failsOnly_table.bind fun _ => failsOnly_pure _).bind fun _ => ?_
    refine (failsOnly_feedAll _ _ _ _ _).bind fun _ => ?_
    exact ((hsend _).bind fun _ => failsOnly_commit endsFold_of_isDisturbance _).bind fun _ =>
      failsOnly_pure _
  -- around it stands the deadline, and after it the states are handed out
  exact FailsOnly.within ((hfold _).bind fun _ => (failsOnly_transitions _).bind fun _ =>
    failsOnly_pure _) _ _

end Projected

/-! ### Calls that project -/

namespace Store

/-- What admission makes of a call: the table and the gate are as before, and it is refused for the gate
exactly if that is full. -/
structure Admission (s : Store) (call : Except StoreError α × Store) : Prop where
  table : call.2.table = s.table
  limiter : call.2.limiter = s.limiter
  full : s.limiter.inFlight = s.limiter.capacity →
    call.1 = .error (.tooManyProjections s.limiter.capacity s.limiter.capacity)
  free : s.limiter.inFlight ≠ s.limiter.capacity →
    ∀ max current, call.1 ≠ .error (.tooManyProjections max current)

/-- What is made of a result after the call has nothing to do with the gate. -/
theorem Admission.bind {s : Store} {call : Except StoreError α × Store} (h : s.Admission call)
    {f : α → Except StoreError β} (hf : ∀ a max current, f a ≠ .error (.tooManyProjections max current)) :
    s.Admission (call.1.bind f, call.2) := by
  refine ⟨h.table, h.limiter, fun hfull => by rw [h.full hfull]; rfl, fun hfree max current herr => ?_⟩
  rcases hcall : call.1 with e | a <;> rw [hcall] at herr
  · obtain rfl := Except.error.inj herr
    exact h.free hfree max current hcall
  · exact hf a max current herr

section

variable (s : Store) (ps : List (NamedProjector σ)) (query : Query)

/-- A projection gives back the place that it takes. -/
theorem limiter_runProjection : (s.runProjection ps query).2.limiter = s.limiter := by
  unfold runProjection
  split
  · rfl
  · rename_i limiter hplace
    -- whether the projectors are refused or run
    split <;> exact (Limiter.tryAdmit_eq_ok_iff.mp hplace).symm

/-- Once it has a place a projection is not refused for the gate. -/
theorem runProjection_ne_tooManyProjections {s : Store} (hplace : 0 < s.limiter.available)
    (max current : Nat) : (s.runProjection ps query).1 ≠ .error (.tooManyProjections max current) := by
  obtain ⟨limiter, hplaced⟩ := tryAdmit_of_available hplace
  simp only [runProjection, hplaced]
  -- projectors that are refused are answered with an error of their own
  cases hvalid : validateProjectors ps with
  | error e =>
    intro h
    obtain rfl := Except.error.inj h
    rcases validateProjectors_eq_error hvalid with ⟨reason, h⟩ | ⟨v, h⟩ <;> cases h
  | ok u =>
    intro h
    -- a fold that ran ends in one of three ways, and none of them is the gate
    rcases Projected.failsOnly_ofLog s.settings ps query s.client _ h with h | ⟨c, h⟩ | ⟨err, h⟩ <;>
      cases h

/-- A projection finds a full gate or a free place. -/
theorem admission_runProjection {s : Store} (hgate : s.limiter.available ≤ s.limiter.capacity) :
    s.Admission (s.runProjection ps query) := by
  refine ⟨table_runProjection s ps query, limiter_runProjection s ps query, fun hfull => ?_,
    fun hfree => runProjection_ne_tooManyProjections ps query ?_⟩
  · -- as many in flight as there are places: none is free
    have hnone : s.limiter.available = 0 := by
      rw [Limiter.inFlight] at hfull
      omega
    have hrefused := Limiter.tryAdmit_eq_error_iff.mpr ⟨hnone, rfl⟩
    simp only [runProjection, hrefused]
  · refine Nat.pos_of_ne_zero fun hnone => hfree ?_
    rw [Limiter.inFlight, hnone, Nat.sub_zero]

/-- A projection with one projector is admitted like any other. -/
theorem admission_project {s : Store} (hgate : s.limiter.available ≤ s.limiter.capacity)
    (p : Projector σ) : s.Admission (s.project p) := by
  refine (admission_runProjection [⟨"projector", p⟩] p.query hgate).bind fun out max current h => ?_
  split at h <;> cases h

/-- A decision is admitted like the projection that it makes. -/
theorem admission_decide {s : Store} (hgate : s.limiter.available ≤ s.limiter.capacity) :
    s.Admission (s.decide ps) := by
  let union := Query.union (ps.map (·.projector.query))
  let model (out : Projected σ) : DecisionModel σ := ⟨sortStates out.states, ⟨union, out.anchor⟩⟩
  -- deciding is projecting over the union, with a model built from what comes of it
  have hbind : s.decide ps =
      ((s.runProjection ps union).1.bind fun out => .ok (model out), (s.runProjection ps union).2) := by
    simp only [decide]
    cases (s.runProjection ps union).1 <;> rfl
  rw [hbind]
  refine (admission_runProjection ps union hgate).bind fun out max current h => ?_
  cases h

end

/-! ### Calls that do not hold places -/

/-- The other store has the same gate and the same settings. -/
def SameGate (s s' : Store) : Prop := s'.limiter = s.limiter ∧ s'.settings = s.settings

theorem SameGate.refl (s : Store) : s.SameGate s := ⟨rfl, rfl⟩

theorem SameGate.trans {s s' s'' : Store} (h : s.SameGate s') (h' : s'.SameGate s'') : s.SameGate s'' :=
  ⟨h'.1.trans h.1, h'.2.trans h.2⟩

theorem sameGate_run (x : Db α) (s : Store) : s.SameGate (s.run x).2 := ⟨rfl, rfl⟩

end Store

namespace Batches

/-- Taking the next batch leaves the gate alone. -/
theorem sameGate_next (b : Batches) (s : Store) : s.SameGate (b.next s).2.2 := by
  have h := Store.sameGate_run (b.take s.settings) s
  unfold next
  split <;> rename_i hrun <;> rw [hrun] at h <;> exact h

/-- Dropping batches leaves the gate alone. -/
theorem sameGate_drop (b : Batches) (s : Store) : s.SameGate (b.drop s) := by
  -- only an opened cursor has a transaction that is given up
  cases b with
  | opened cursor batchSize => exact Store.sameGate_run Db.abandon s
  | unopened q o => exact .refl s
  | finished => exact .refl s

/-- Reading a number of batches leaves the gate alone. -/
theorem sameGate_collect (count : Nat) (b : Batches) (s : Store) : s.SameGate (b.collect count s).2.2 := by
  induction count generalizing b s with
  | zero => exact sameGate_drop b s
  | succ count ih =>
    have h := sameGate_next b s
    unfold collect
    split <;> rename_i hnext <;> rw [hnext] at h
    · exact h
    · exact h
    · exact h.trans (ih _ _)

end Batches

namespace Store

/-- Streaming leaves the gate alone. -/
theorem sameGate_stream {s s' : Store} {q : Query} {o : ReadOptions} {count : Option Nat}
    {streamed : Streamed} (h : s.stream q o count = some (streamed, s')) : s.SameGate s' := by
  -- a stream is one action: its start, and the delivery of what the consumer takes
  have hrun := sameGate_run (do Streamed.deliver count (← Streamed.start s.settings q o)) s
  unfold stream at h
  split at h
  · exact nomatch h
  · split at h
    · cases h
      exact .refl s
    · split at h <;> rename_i heq <;> cases h <;> rw [heq] at hrun <;> exact hrun

/-- An append leaves the gate alone. -/
theorem sameGate_append (s : Store) (events : List InputEvent) (condition : Option AppendCondition)
    (lineage : Lineage) : s.SameGate (s.append events condition lineage).2 := by
  refine ⟨limiter_append s events condition lineage, ?_⟩
  unfold append
  split <;> rfl

/-- A projection leaves the gate as it was. -/
theorem sameGate_runProjection (s : Store) (ps : List (NamedProjector σ)) (query : Query) :
    s.SameGate (s.runProjection ps query).2 := by
  refine ⟨limiter_runProjection s ps query, ?_⟩
  unfold runProjection
  split
  · rfl
  · split <;> rfl

/-- A call by which the caller neither takes a place at the gate nor gives one back, and the store after
it. -/
inductive PlainCall (s : Store) : Store → Prop
  | append (events : List InputEvent) (condition : Option AppendCondition) (lineage : Lineage) :
    PlainCall s (s.append events condition lineage).2
  | headPosition : PlainCall s s.headPosition.2
  | read (q : Query) (o : ReadOptions) : PlainCall s (s.read q o).2
  | linked (link : Link) (id : EventId) : PlainCall s (s.linked link id).2
  | readBatches (q : Query) (o : ReadOptions) (count : Option Nat) :
    PlainCall s (s.readBatches q o count).2.2
  | nextBatch (b : Batches) : PlainCall s (b.next s).2.2
  | dropBatches (b : Batches) : PlainCall s (b.drop s)
  | stream {q : Query} {o : ReadOptions} {count : Option Nat} {streamed : Streamed} {s' : Store}
    (h : s.stream q o count = some (streamed, s')) : PlainCall s s'
  | project {σ : Type} (p : Projector σ) : PlainCall s (s.project p).2
  | decide {σ : Type} (ps : List (NamedProjector σ)) : PlainCall s (s.decide ps).2
  | migrate : PlainCall s s.migrate.2

/-- Whatever becomes of such a call, the gate is as before. -/
theorem PlainCall.sameGate {s s' : Store} (h : s.PlainCall s') : s.SameGate s' := by
  cases h with
  | append events condition lineage => exact sameGate_append s events condition lineage
  | headPosition => exact sameGate_run _ s
  | read q o =>
    unfold Store.read
    split
    · exact .refl s
    · exact sameGate_run _ s
  | linked link id => exact sameGate_run _ s
  | readBatches q o count => exact Batches.sameGate_collect _ _ s
  | nextBatch b => exact Batches.sameGate_next b s
  | dropBatches b => exact Batches.sameGate_drop b s
  | stream h => exact sameGate_stream h
  | project p => exact sameGate_runProjection s _ _
  | decide ps => exact sameGate_runProjection s _ _
  | migrate => exact sameGate_run _ s

/-! ### Places that callers hold -/

/-- A store that was opened, used in any order for calls of all kinds, and has as many places held by its
callers. In between the database may be changed by others. -/
inductive Holding : Store → Nat → Prop
  | start {settings : StoreSettings} {client : Client} {mint : Nat → EventId} {now : Instant} {s : Store}
    (h : Store.start settings client mint now = .ok (some s)) : Holding s 0
  | held {s : Store} {places : Nat} (h : Holding s places) (hok : s.hold.1 = .ok ()) :
    Holding s.hold.2 (places + 1)
  | refused {s : Store} {places : Nat} {e : StoreError} (h : Holding s places)
    (herr : s.hold.1 = .error e) : Holding s.hold.2 places
  | released {s : Store} {places : Nat} (h : Holding s (places + 1)) : Holding s.release places
  | called {s s' : Store} {places : Nat} (h : Holding s places) (hcall : s.PlainCall s') :
    Holding s' places
  | elsewhere {s : Store} {places : Nat} (h : Holding s places) (server : Server) :
    Holding { s with client := { s.client with server } } places

/-- A store is opened with a gate of free places, as many as the settings ask. -/
theorem limiter_of_start {settings : StoreSettings} {client : Client} {mint : Nat → EventId}
    {now : Instant} {s : Store} (h : Store.start settings client mint now = .ok (some s)) :
    s.limiter = ⟨settings.maxProjections, settings.maxProjections⟩ ∧ s.settings = settings := by
  unfold Store.start at h
  cases hvalid : settings.validate with
  | error e => rw [hvalid] at h; exact nomatch h
  | ok u =>
    rw [hvalid] at h
    obtain ⟨limiter, hlimiter, rfl⟩ := Option.map_eq_some_iff.mp (Except.ok.inj h)
    unfold Limiter.new? at hlimiter
    split at hlimiter
    · exact ⟨(Option.some.inj hlimiter).symm, rfl⟩
    · exact nomatch hlimiter

/-- The free places and those that are held make up the gate, which is as large as the settings ask. -/
theorem Holding.gate {s : Store} {places : Nat} (h : s.Holding places) :
    s.limiter.available + places = s.limiter.capacity ∧ s.limiter.capacity = s.settings.maxProjections := by
  -- by induction on the history: taking and giving back move one place, the other steps move none
  induction h with
  | start h =>
    obtain ⟨hlimiter, hsettings⟩ := limiter_of_start h
    rw [hlimiter, hsettings]
    exact ⟨rfl, rfl⟩
  | @held s places h hok ih =>
    cases hplace : s.limiter.tryAdmit with
    | error e => simp only [hold, hplace] at hok; exact nomatch hok
    | ok limiter =>
      -- the gate of before is the new one with a place more
      rw [Limiter.tryAdmit_eq_ok_iff.mp hplace] at ih
      simp only [hold, hplace]
      exact ⟨(Nat.succ_add_eq_add_succ _ _).symm.trans ih.1, ih.2⟩
  | @refused s places e h herr ih =>
    cases hplace : s.limiter.tryAdmit with
    -- a full gate changes nothing
    | error e => simpa only [hold, hplace] using ih
    | ok limiter => simp only [hold, hplace] at herr; exact nomatch herr
  | released h ih => exact ⟨(Nat.succ_add_eq_add_succ _ _).trans ih.1, ih.2⟩
  | called h hcall ih =>
    obtain ⟨hlimiter, hsettings⟩ := hcall.sameGate
    rw [hlimiter, hsettings]
    exact ih
  | elsewhere h server ih => exact ih

/-- Projections neither keep places nor are admitted beyond them.
* Whatever the projectors are and however the call ends, a projection or a decision leaves the table and the
  gate as they were. If the gate is full it is refused with the size of the gate, twice; if not, it is never
  refused for the gate.
* After any sequence of calls on a store that was opened, the places that are taken are those that callers
  hold, and they are at most as many as the settings allow. -/
theorem places_in_flight_are_held :
    (∀ s : Store, s.limiter.available ≤ s.limiter.capacity →
      ∀ σ : Type, (∀ p : Projector σ, s.Admission (s.project p)) ∧
        ∀ ps : List (NamedProjector σ), s.Admission (s.decide ps)) ∧
    ∀ (s : Store) (places : Nat), s.Holding places →
      s.limiter.inFlight = places ∧ places ≤ s.limiter.capacity ∧
        s.limiter.available ≤ s.limiter.capacity ∧ s.limiter.capacity = s.settings.maxProjections := by
  refine ⟨fun s hgate σ => ⟨admission_project hgate, fun ps => admission_decide ps hgate⟩, ?_⟩
  intro s places h
  -- both bounds are read off the sum
  obtain ⟨hsum, hsize⟩ := h.gate
  refine ⟨?_, by omega, by omega, hsize⟩
  rw [Limiter.inFlight, ← hsum, Nat.add_sub_cancel_left]

/-- With one place: an empty set of projectors is refused and takes no place. While a caller holds the place
the same decision is refused for the gate, and one whose transitions would fail is as well; afterwards the
place is free. -/
theorem places_in_flight_are_held_with_one_place :
    ∃ s, Store.start { maxProjections := 1 } (facing openedAndDeposited).client .ofNat default =
        .ok (some s) ∧
      (∃ reason, (s.decide ([] : List (NamedProjector Nat))).1 = .error (.invalidProjectors reason)) ∧
      (s.decide ([] : List (NamedProjector Nat))).2.limiter.inFlight = 0 ∧
      (s.decide [refusing "Deposited"]).2.limiter.inFlight = 0 ∧
      s.hold.2.limiter.inFlight = 1 ∧
      (s.hold.2.decide ([] : List (NamedProjector Nat))).1 = .error (.tooManyProjections 1 1) ∧
      (s.hold.2.decide [refusing "Deposited"]).1 = .error (.tooManyProjections 1 1) ∧
      s.hold.2.release.limiter.inFlight = 0 := by
  obtain ⟨s, hs⟩ : ∃ s, Store.start { maxProjections := 1 } (facing openedAndDeposited).client .ofNat
      default = .ok (some s) := ⟨_, rfl⟩
  obtain ⟨hcalls, hplaces⟩ := places_in_flight_are_held
  -- one place is taken and given back, with an empty decision and a failing one before and meanwhile
  obtain ⟨hlimiter, -⟩ := limiter_of_start hs
  have hhold : s.hold.1 = .ok () := by simp only [hold, hlimiter, Limiter.tryAdmit]
  have hheld : s.hold.2.Holding 1 := (Holding.start hs).held hhold
  obtain ⟨hnone, -, hgate, -⟩ := hplaces s 0 (.start hs)
  obtain ⟨hone, -, hgate', -⟩ := hplaces s.hold.2 1 hheld
  have hcapacity : s.hold.2.limiter.capacity = 1 := by simp only [hold, hlimiter, Limiter.tryAdmit]
  have hfull : s.hold.2.limiter.inFlight = s.hold.2.limiter.capacity := hone.trans hcapacity.symm
  obtain ⟨-, hdecide⟩ := hcalls s hgate Nat
  obtain ⟨-, hdecide'⟩ := hcalls s.hold.2 hgate' Nat
  refine ⟨s, hs, ⟨_, decide_of_invalid ?_ rfl⟩, ?_, ?_, hone, ?_, ?_, (hplaces _ 0 hheld.released).1⟩
  · rw [hlimiter]
    exact Nat.one_pos
  · rw [(hdecide []).limiter, hnone]
  · rw [(hdecide [refusing "Deposited"]).limiter, hnone]
  · rw [(hdecide' []).full hfull, hcapacity]
  · rw [(hdecide' [refusing "Deposited"]).full hfull, hcapacity]

end Store

end EventLog
