import EventLog.Database.Client

/-!
# What actions do to the table

An action of the client either keeps the table, or it is the commit of an insertion. How an action ends
can depend on faults and deadlines, but only in one way: it has its own result, or a disturbance of the
database or of a deadline ends it and the table is as before. A client that no fault awaits is not
disturbed.

## Key results

- `Db.Keeps`: the table is the same afterwards, whatever happens
- `Db.Computes`: the result and the table afterwards, unless the action is disturbed
- `Db.Computes.bind`, `Db.Computes.orRollBack`, `Db.Computes.within`: how actions are put together
-/

namespace EventLog.Database

open Sql

variable {α β : Type}

/-! ### Clients -/

namespace Client

/-- No fault awaits a statement. -/
def Quiet (c : Client) : Prop := ∀ f ∈ c.server.faults, f.spent = true

/-- No fault awaits a statement, and the pool has a session to give. So the server refuses nothing but what
the table does not admit. -/
def Ready (c : Client) : Prop := c.Quiet ∧ c.busy < c.maxConnections

end Client

/-- A spent fault meets no statement. -/
theorem Fault.trigger_of_spent {faults : List Fault} (h : ∀ f ∈ faults, f.spent = true)
    (text : List Char) : trigger text faults = (faults, none) := by
  -- by induction on the faults, none of which is triggered
  induction faults with
  | nil => rfl
  | cons f fs ih =>
    simp only [trigger, h f List.mem_cons_self, Bool.not_true, Bool.false_and, Bool.false_eq_true,
      if_false, ih fun g hg => h g (List.mem_cons_of_mem _ hg)]

@[simp] theorem Server.receive_table (s : Server) (stmt : Statement) :
    (s.receive stmt).1.table = s.table := by
  simp only [receive]
  split <;> rfl

/-- A server without faults in wait takes note of a statement, and nothing else happens. -/
theorem Server.receive_of_spent {s : Server} (h : ∀ f ∈ s.faults, f.spent = true)
    (stmt : Statement) :
    s.receive stmt = ({ s with transcript := s.transcript ++ [stmt] }, none) := by
  simp only [receive]
  -- a statement that is not looked at meets no fault either
  split
  · rfl
  · rw [Fault.trigger_of_spent h]

@[simp] theorem Server.greet_table (s : Server) (startup : Startup) :
    (s.greet startup).table = s.table := by
  unfold greet
  split <;> rfl

/-- A session that introduces itself meets no fault. -/
@[simp] theorem Server.greet_faults (s : Server) (startup : Startup) :
    (s.greet startup).faults = s.faults := by
  unfold greet
  split <;> rfl

end EventLog.Database

namespace EventLog

/-- The reason of an error is the database or a deadline. -/
def StoreError.isDisturbance : StoreError → Bool
  | .timeout _ _ => true
  | .database _ => true
  | _ => false

end EventLog

namespace EventLog.Database.Db

open Sql

variable {α β : Type}

/-! ### Running actions -/

@[simp] theorem runOn_ofFunction (f : Client → Except StoreError α × Client) (c : Client) :
    (ofFunction f).runOn c = f c := rfl

/-- An action goes on with the value of the one before, or with its error. -/
theorem runOn_bind (x : Db α) (f : α → Db β) (c : Client) :
    (x >>= f).runOn c = match x.runOn c with
      | (.ok a, c) => (f a).runOn c
      | (.error e, c) => (.error e, c) := by
  -- an action is a function of the client under the two transformers
  simp only [runOn, ExceptT.run, StateT.run, Id.run, bind, ExceptT.bind, ExceptT.mk, StateT.bind]
  rcases x c with ⟨_ | _, c'⟩ <;> rfl

/-- An action that succeeds is followed by the next one. -/
theorem runOn_bind_ok {x : Db α} {f : α → Db β} {c c' : Client} {a : α}
    (h : x.runOn c = (.ok a, c')) : (x >>= f).runOn c = (f a).runOn c' := by
  rw [runOn_bind, h]

/-- An action that fails is followed by nothing. -/
theorem runOn_bind_error {x : Db α} {f : α → Db β} {c c' : Client} {e : StoreError}
    (h : x.runOn c = (.error e, c')) : (x >>= f).runOn c = (.error e, c') := by
  rw [runOn_bind, h]

/-- A result that is at hand needs no client. -/
theorem runOn_ofExcept {ε : Type} (wrap : ε → StoreError) (r : Except ε α) (c : Client) :
    (ofExcept wrap r).runOn c = (r.mapError wrap, c) := by
  cases r <;> rfl

/-- An attempt does not fail; it gives the outcome. -/
theorem runOn_attempt (x : Db α) (c : Client) :
    (attempt x).runOn c = (.ok (x.runOn c).1, (x.runOn c).2) := rfl

/-- A deadline is put behind the others, and taken away when the action has ended. -/
theorem runOn_within (operation : Operation) (limit : Nat) (x : Db α) (c : Client) :
    (within operation limit x).runOn c =
      let p := x.runOn { c with deadlines := c.deadlines ++ [⟨operation, limit, 0⟩] }
      (p.1, { p.2 with deadlines := p.2.deadlines.take c.deadlines.length }) := rfl

/-- A session is had if the pool has one to give. -/
theorem runOn_acquire (c : Client) :
    acquire.runOn c =
      if c.busy < c.maxConnections then
        (.ok (), { c with busy := c.busy + 1, server := c.server.greet c.startup })
      else (do pass c.acquireTimeout; fail (.database .poolTimedOut) : Db Unit).runOn c := by
  have hget : (get : Db Client).runOn c = (.ok c, c) := rfl
  -- whether there is a session is seen from the client as it is
  rw [acquire, runOn_bind_ok hget]
  split <;> rfl

/-- A statement that is sent is received, and suffers from the fault that it meets. -/
theorem runOn_send (stmt : Statement) (c : Client) :
    (send stmt).runOn c = (suffer (c.server.receive stmt).2).runOn
      { c with server := (c.server.receive stmt).1 } := rfl

/-- A statement that no fault awaits is noted, and nothing else happens. -/
theorem runOn_send_of_quiet {c : Client} (hc : c.Quiet) (stmt : Statement) :
    (send stmt).runOn c =
      (.ok (), { c with server := { c.server with transcript := c.server.transcript ++ [stmt] } }) := by
  rw [runOn_send, Server.receive_of_spent hc]
  rfl

/-! ### Actions that keep the table -/

/-- The table is the same afterwards, whatever happens. -/
def Keeps (x : Db α) : Prop := ∀ c, (x.runOn c).2.server.table = c.server.table

theorem keeps_pure (x : α) : Keeps (pure x) := fun _ => rfl

theorem keeps_fail (e : StoreError) : Keeps (fail e : Db α) := fun _ => rfl

/-- Two actions in a row keep the table if both do. -/
theorem Keeps.bind {x : Db α} {f : α → Db β} (hx : x.Keeps) (hf : ∀ a, (f a).Keeps) :
    (x >>= f).Keeps := by
  intro c
  have hc := hx c
  -- an error ends the action where the first part has left the client
  rcases h : x.runOn c with ⟨_ | a, c'⟩ <;> rw [h] at hc
  · rw [runOn_bind_error h]
    exact hc
  · rw [runOn_bind_ok h]
    exact (hf a c').trans hc

theorem keeps_get : Keeps (get : Db Client) := fun _ => rfl

theorem keeps_table : Keeps table := fun _ => rfl

theorem keeps_update {f : Server → Server} (h : ∀ s, (f s).table = s.table) : Keeps (update f) :=
  fun c => h c.server

theorem keeps_ofExcept {ε : Type} (wrap : ε → StoreError) (r : Except ε α) :
    Keeps (ofExcept wrap r) := by
  cases r with
  | error e => exact keeps_fail _
  | ok x => exact keeps_pure x

theorem Keeps.attempt {x : Db α} (h : x.Keeps) : (attempt x).Keeps := h

theorem Keeps.within {x : Db α} (h : x.Keeps) (operation : Operation) (limit : Nat) :
    (within operation limit x).Keeps := fun _ => h _

/-- Time that passes is no change of the table, even if a deadline is met. -/
theorem keeps_pass (millis : Nat) : Keeps (pass millis) := by
  intro c
  simp only [pass, runOn_ofFunction]
  split <;> rfl

theorem keeps_release : Keeps release := fun _ => rfl

/-- Neither a session nor the wait for one is a change of the table. -/
theorem keeps_acquire : Keeps acquire := by
  intro c
  rw [runOn_acquire]
  split
  · exact Server.greet_table _ _
  · -- without one, the client waits and fails
    exact (keeps_pass _).bind (fun _ => keeps_fail _) c

theorem keeps_refuse (reason : Option String) : Keeps (refuse reason) := by
  cases reason with
  | none => exact keeps_pure ()
  | some r => exact keeps_fail _

/-- A fault delays a statement, refuses it, or both, and keeps the table. -/
theorem keeps_suffer (fault : Option Fault) : Keeps (suffer fault) := by
  cases fault with
  | none => exact keeps_pure ()
  | some f =>
    simp only [suffer]
    split
    · exact (keeps_pass _).bind fun _ => keeps_refuse f.refusal
    · exact keeps_refuse f.refusal

/-- A statement that is sent keeps the table, whatever fault it meets. -/
theorem keeps_send (stmt : Statement) : Keeps (send stmt) := by
  intro c
  rw [runOn_send]
  -- the table is that of the server once it has received the statement
  exact (keeps_suffer _ _).trans (Server.receive_table _ _)

/-- A session around an action keeps the table if the action does. -/
theorem Keeps.inSession {x : Db α} (h : x.Keeps) : (inSession x).Keeps :=
  keeps_acquire.bind fun _ => h.attempt.bind fun _ => keeps_release.bind fun _ => keeps_ofExcept _ _

/-- Giving a transaction up keeps the table, also if the rollback fails. -/
theorem keeps_abandon : Keeps abandon :=
  (keeps_send _).attempt.bind fun _ => keeps_release

/-- What is rolled back when it fails keeps the table if the action does. -/
theorem Keeps.orRollBack {x : Db α} (h : x.Keeps) : (orRollBack x).Keeps :=
  h.attempt.bind fun r => match r with
    | .ok x => keeps_pure x
    | .error e => keeps_abandon.bind fun _ => keeps_fail e

/-- Beginning a transaction keeps the table, also if it fails. -/
theorem keeps_begin : Keeps begin :=
  keeps_acquire.bind fun _ => (keeps_send _).attempt.bind fun r => match r with
    | .ok () => keeps_pure ()
    | .error e => keeps_release.bind fun _ => keeps_fail e

/-- A commit without an insertion. -/
theorem keeps_commit_nil : Keeps (commit []) :=
  (keeps_send _).bind fun _ => keeps_table.bind fun _ => (keeps_refuse _).bind fun _ =>
    (keeps_update fun _ => List.append_nil _).bind fun _ => keeps_release

theorem keeps_head : Keeps head := (keeps_send _).bind fun _ => keeps_table.bind fun _ => keeps_pure _

theorem keeps_select (s : Selection) : Keeps (select s) :=
  (keeps_send _).bind fun _ => keeps_table.bind fun _ => keeps_pure _

theorem keeps_lookup (link : Link) (id : EventId) : Keeps (lookup link id) :=
  (keeps_send _).bind fun _ => keeps_table.bind fun _ => keeps_pure _

/-! ### Disturbances -/

/-- When time passes only a deadline can end an action. -/
theorem isDisturbance_of_pass {millis : Nat} {c c' : Client} {e : StoreError}
    (h : (pass millis).runOn c = (.error e, c')) : e.isDisturbance = true := by
  simp only [pass, runOn_ofFunction] at h
  split at h
  · obtain ⟨rfl, -⟩ : _ ∧ _ := by simpa using h
    rfl
  · exact nomatch (Prod.mk.inj h).1

/-- A refusal is one of the database. -/
theorem isDisturbance_of_refuse {reason : Option String} {c c' : Client} {e : StoreError}
    (h : (refuse reason).runOn c = (.error e, c')) : e.isDisturbance = true := by
  cases reason with
  | none => exact nomatch (Prod.mk.inj h).1
  | some r =>
    obtain rfl := Except.error.inj (Prod.mk.inj h).1
    rfl

/-- Only the database and deadlines make a statement fail. -/
theorem isDisturbance_of_send {stmt : Statement} {c c' : Client} {e : StoreError}
    (h : (send stmt).runOn c = (.error e, c')) : e.isDisturbance = true := by
  rw [runOn_send] at h
  -- nothing is known of the fault that is met, nor of the client by then
  generalize (c.server.receive stmt).2 = fault at h
  generalize { c with server := (c.server.receive stmt).1 } = d at h
  cases fault with
  | none => exact nomatch (Prod.mk.inj h).1
  | some f =>
    simp only [suffer] at h
    -- a fault with a delay lets time pass before it refuses
    split at h
    · rcases hp : (pass f.stall).runOn d with ⟨e' | u, d'⟩
      · rw [runOn_bind_error hp] at h
        obtain rfl := Except.error.inj (Prod.mk.inj h).1
        exact isDisturbance_of_pass hp
      · rw [runOn_bind_ok hp] at h
        exact isDisturbance_of_refuse h
    · exact isDisturbance_of_refuse h

/-- Only the pool and deadlines keep an action from a session. -/
theorem isDisturbance_of_acquire {c c' : Client} {e : StoreError}
    (h : acquire.runOn c = (.error e, c')) : e.isDisturbance = true := by
  rw [runOn_acquire] at h
  split at h
  · exact nomatch (Prod.mk.inj h).1
  · rcases hp : (pass c.acquireTimeout).runOn c with ⟨e' | u, d⟩
    · -- the wait for a session passes a deadline
      rw [runOn_bind_error hp] at h
      obtain rfl := Except.error.inj (Prod.mk.inj h).1
      exact isDisturbance_of_pass hp
    · -- the wait ends, and the pool has timed out
      rw [runOn_bind_ok hp] at h
      obtain rfl := Except.error.inj (Prod.mk.inj h).1
      rfl

/-! ### Actions with one result -/

/-- The action failed, and not because of the log. -/
def Disturbed (r : Except StoreError α) : Prop := ∃ e, r = .error e ∧ e.isDisturbance = true

/-- On a client whose table is `t` the action gives `r` and leaves the table `t'`, or else it is disturbed
and leaves `t`. It is not disturbed if `P` holds of the client, and then no fault awaits the client
afterwards. -/
structure Computes (P : Client → Prop) (x : Db α) (t : Table) (r : Except StoreError α)
    (t' : Table) : Prop where
  calm : ∀ c, c.server.table = t → P c →
    ∃ c', x.runOn c = (r, c') ∧ c'.server.table = t' ∧ c'.Quiet
  any : ∀ c, c.server.table = t → ∃ r' c', x.runOn c = (r', c') ∧
    (r' = r ∧ c'.server.table = t' ∨ Disturbed r' ∧ c'.server.table = t)

namespace Computes

variable {P : Client → Prop} {t t' : Table}

/-- Of an action that keeps the table and that only disturbances make fail, success is the result. -/
theorem any_of_keeps {x : Db Unit} (hkeep : x.Keeps)
    (hfail : ∀ {c c' : Client} {e : StoreError}, x.runOn c = (.error e, c') →
      e.isDisturbance = true) :
    ∀ c, c.server.table = t → ∃ r' c', x.runOn c = (r', c') ∧
      (r' = .ok () ∧ c'.server.table = t ∨ Disturbed r' ∧ c'.server.table = t) := by
  intro c ht
  -- the table is kept in any case, so only the result is in question
  have hkept := (hkeep c).trans ht
  rcases hrun : x.runOn c with ⟨e | u, c'⟩ <;> rw [hrun] at hkept
  · exact ⟨_, c', rfl, .inr ⟨⟨e, rfl, hfail hrun⟩, hkept⟩⟩
  · exact ⟨_, c', rfl, .inl ⟨rfl, hkept⟩⟩

/-- A result that depends on nothing. -/
theorem of_runOn {x : Db α} {r : Except StoreError α} (h : ∀ c, x.runOn c = (r, c)) :
    Computes Client.Quiet x t r t where
  calm := fun c ht hc => ⟨c, h c, ht, hc⟩
  any := fun c ht => ⟨r, c, h c, .inl ⟨rfl, ht⟩⟩

protected theorem pure (x : α) : Computes Client.Quiet (pure x) t (.ok x) t := of_runOn fun _ => rfl

protected theorem ofExcept {ε : Type} (wrap : ε → StoreError) (r : Except ε α) :
    Computes Client.Quiet (ofExcept wrap r) t (r.mapError wrap) t :=
  of_runOn fun _ => runOn_ofExcept wrap r _

/-- A look at the table. -/
protected theorem table : Computes Client.Quiet table t (.ok t) t where
  calm := fun c ht hc => ⟨c, by rw [← ht]; rfl, ht, hc⟩
  any := fun c ht => ⟨.ok t, c, by rw [← ht]; rfl, .inl ⟨rfl, ht⟩⟩

/-- An action that keeps the table, and another one after it. -/
protected theorem bind {x : Db α} {f : α → Db β} {a : α} {r : Except StoreError β}
    (hx : Computes P x t (.ok a) t) (hf : Computes Client.Quiet (f a) t r t') :
    Computes P (x >>= f) t r t' where
  calm := by
    intro c ht hc
    -- the first action leaves a quiet client, on which the second one is calm
    obtain ⟨c₁, hrun, ht₁, hc₁⟩ := hx.calm c ht hc
    rw [runOn_bind_ok hrun]
    exact hf.calm c₁ ht₁ hc₁
  any := by
    intro c ht
    obtain ⟨r', c₁, hrun, ⟨rfl, ht₁⟩ | ⟨⟨e, rfl, he⟩, ht₁⟩⟩ := hx.any c ht
    -- what disturbs the first action has left the table, and the second one is not begun
    · rw [runOn_bind_ok hrun]
      exact hf.any c₁ ht₁
    · exact ⟨_, c₁, runOn_bind_error hrun, .inr ⟨⟨e, rfl, he⟩, ht₁⟩⟩

/-- After an action that fails there is no other one. -/
theorem bind_error {x : Db α} {f : α → Db β} {e : StoreError} (hx : Computes P x t (.error e) t') :
    Computes P (x >>= f) t (.error e) t' where
  calm := by
    intro c ht hc
    obtain ⟨c₁, hrun, ht₁, hc₁⟩ := hx.calm c ht hc
    exact ⟨c₁, runOn_bind_error hrun, ht₁, hc₁⟩
  any := by
    intro c ht
    obtain ⟨r', c₁, hrun, ⟨rfl, ht₁⟩ | ⟨⟨e', rfl, he⟩, ht₁⟩⟩ := hx.any c ht
    · -- the failure is the action's own, or a disturbance
      exact ⟨_, c₁, runOn_bind_error hrun, .inl ⟨rfl, ht₁⟩⟩
    · exact ⟨_, c₁, runOn_bind_error hrun, .inr ⟨⟨e', rfl, he⟩, ht₁⟩⟩

/-- The value of an action under a function; the action may have changed the table. -/
theorem map {x : Db α} {r : Except StoreError α} (hx : Computes P x t r t') {f : α → Db β}
    {g : α → β} (hf : ∀ a, r = .ok a → f a = pure (g a)) : Computes P (x >>= f) t (r.map g) t' := by
  -- a failure has no value, and stays what it is
  have hrun : ∀ {c c₁ : Client}, x.runOn c = (r, c₁) → (x >>= f).runOn c = (r.map g, c₁) := by
    intro c c₁ hrun
    cases r with
    | error e => exact runOn_bind_error hrun
    | ok a =>
      rw [runOn_bind_ok hrun, hf a rfl]
      rfl
  constructor
  · intro c ht hc
    obtain ⟨c₁, h, ht₁, hc₁⟩ := hx.calm c ht hc
    exact ⟨c₁, hrun h, ht₁, hc₁⟩
  · intro c ht
    obtain ⟨r', c₁, h, ⟨rfl, ht₁⟩ | ⟨⟨e, rfl, he⟩, ht₁⟩⟩ := hx.any c ht
    · exact ⟨_, c₁, hrun h, .inl ⟨rfl, ht₁⟩⟩
    · exact ⟨_, c₁, runOn_bind_error h, .inr ⟨⟨e, rfl, he⟩, ht₁⟩⟩

/-- A deadline can only disturb. -/
theorem within {x : Db α} {r : Except StoreError α} (hx : Computes P x t r t')
    (hP : ∀ c deadlines, P c → P { c with deadlines }) (operation : Operation) (limit : Nat) :
    Computes P (within operation limit x) t r t' where
  calm := by
    intro c ht hc
    obtain ⟨c₁, hrun, ht₁, hc₁⟩ :=
      hx.calm { c with deadlines := c.deadlines ++ [⟨operation, limit, 0⟩] } ht (hP c _ hc)
    refine ⟨{ c₁ with deadlines := c₁.deadlines.take c.deadlines.length }, ?_, ht₁, hc₁⟩
    rw [runOn_within, hrun]
  any := by
    intro c ht
    obtain ⟨r', c₁, hrun, hr⟩ :=
      hx.any { c with deadlines := c.deadlines ++ [⟨operation, limit, 0⟩] } ht
    refine ⟨r', { c₁ with deadlines := c₁.deadlines.take c.deadlines.length }, ?_, hr⟩
    rw [runOn_within, hrun]

/-! ### Statements -/

/-- A statement that is sent can only be disturbed. -/
protected theorem send (stmt : Statement) : Computes Client.Quiet (send stmt) t (.ok ()) t where
  calm := by
    intro c ht hc
    exact ⟨_, runOn_send_of_quiet hc stmt, ht, hc⟩
  any := any_of_keeps (keeps_send stmt) isDisturbance_of_send

/-- A refusal of the table. -/
protected theorem refuse (reason : Option String) :
    Computes Client.Quiet (refuse reason) t
      (reason.elim (.ok ()) fun why => .error (.database (.refused why))) t :=
  of_runOn fun _ => by cases reason <;> rfl

protected theorem release : Computes Client.Quiet release t (.ok ()) t where
  calm := fun _ ht hc => ⟨_, rfl, ht, hc⟩
  any := fun _ ht => ⟨_, _, rfl, .inl ⟨rfl, ht⟩⟩

protected theorem head : Computes Client.Quiet head t (.ok t.head) t :=
  (Computes.send _).bind (Computes.table.bind (.pure _))

/-- A check of a condition answers whether the table conflicts with it. -/
protected theorem conflictCheck (condition : AppendCondition) :
    Computes Client.Quiet (conflictCheck condition) t (.ok (conflicts condition t)) t :=
  (Computes.send _).bind (Computes.table.bind (.pure _))

/-- An insertion is refused by what the table refuses, and keeps the table until the commit. -/
protected theorem insert (rows : List Row) :
    Computes Client.Quiet (insert rows) t
      ((t.insertRefusal? rows).elim (.ok ()) fun why => .error (.database (.refused why))) t :=
  (Computes.send _).bind (Computes.table.bind (.refuse _))

/-! ### Transactions -/

/-- A session is had from a pool that has one to give. -/
protected theorem acquire : Computes Client.Ready acquire t (.ok ()) t where
  calm := by
    intro c ht hc
    refine ⟨{ c with busy := c.busy + 1, server := c.server.greet c.startup }, ?_, ?_, ?_⟩
    · rw [runOn_acquire, if_pos hc.2]
    · exact (Server.greet_table _ _).trans ht
    · simpa [Client.Quiet] using hc.1
  any := any_of_keeps keeps_acquire isDisturbance_of_acquire

/-- A transaction begins in a session of its own. -/
protected theorem begin : Computes Client.Ready begin t (.ok ()) t := by
  refine Computes.acquire.bind ⟨?_, ?_⟩
  · -- only the outcome of the statement is looked at, and it is a success
    intro c ht hc
    obtain ⟨c₁, hrun, ht₁, hc₁⟩ := (Computes.send .begin).calm c ht hc
    refine ⟨c₁, ?_, ht₁, hc₁⟩
    rw [runOn_bind_ok (runOn_attempt _ c), hrun]
    rfl
  · intro c ht
    obtain ⟨r', c₁, hrun, hr⟩ := (Computes.send .begin).any c ht
    rw [runOn_bind_ok (runOn_attempt _ c), hrun]
    -- a transaction that does not begin gives its session back
    rcases hr with ⟨rfl, ht₁⟩ | ⟨⟨e, rfl, he⟩, ht₁⟩
    · exact ⟨_, c₁, rfl, .inl ⟨rfl, ht₁⟩⟩
    · exact ⟨.error e, { c₁ with busy := c₁.busy - 1 }, rfl, .inr ⟨⟨e, rfl, he⟩, ht₁⟩⟩

/-- A transaction is given up in any case. -/
theorem exists_runOn_abandon (c : Client) :
    ∃ c', abandon.runOn c = (.ok (), c') ∧ c'.server.table = c.server.table ∧
      (c.Quiet → c'.Quiet) := by
  refine ⟨(abandon.runOn c).2, rfl, keeps_abandon c, fun hc => ?_⟩
  obtain ⟨c₁, hrun, -, hc₁⟩ := (Computes.send .rollback).calm c rfl hc
  change ((Db.send .rollback).runOn c).2.Quiet
  rwa [hrun]

/-- An action that is rolled back when it fails ends as it does by itself, and with the same table. -/
theorem exists_runOn_orRollBack {x : Db α} {c c₁ : Client} {r : Except StoreError α}
    (h : x.runOn c = (r, c₁)) :
    ∃ c', (Db.orRollBack x).runOn c = (r, c') ∧ c'.server.table = c₁.server.table ∧
      (c₁.Quiet → c'.Quiet) := by
  simp only [Db.orRollBack]
  -- the action is attempted, and its outcome decides what comes after
  rw [runOn_bind_ok (runOn_attempt x c), h]
  cases r with
  | ok a => exact ⟨c₁, rfl, rfl, id⟩
  | error e =>
    -- rolling back does not change the failure
    obtain ⟨c', hrun, ht, hq⟩ := exists_runOn_abandon c₁
    exact ⟨c', runOn_bind_ok hrun, ht, hq⟩

/-- What fails is rolled back and fails in the same way. -/
protected theorem orRollBack {x : Db α} {r : Except StoreError α} (hx : Computes P x t r t') :
    Computes P (orRollBack x) t r t' where
  calm := by
    intro c ht hc
    obtain ⟨c₁, h, ht₁, hc₁⟩ := hx.calm c ht hc
    -- rolling back keeps the table and the quiet that the action left
    obtain ⟨c', hc', ht', hq⟩ := exists_runOn_orRollBack h
    exact ⟨c', hc', ht'.trans ht₁, hq hc₁⟩
  any := by
    intro c ht
    obtain ⟨r', c₁, h, hr⟩ := hx.any c ht
    obtain ⟨c', hc', ht', -⟩ := exists_runOn_orRollBack h
    exact ⟨r', c', hc', ht' ▸ hr⟩

protected theorem rollBack : Computes Client.Quiet rollBack t (.ok ()) t :=
  (Computes.send _).bind .release

/-- A commit puts the inserted rows after the others, unless the table refuses it. -/
protected theorem commit (rows : List Row) :
    Computes Client.Quiet (commit rows) t
      ((t.commitRefusal? rows).elim (.ok ()) fun why => .error (.database (.refused why)))
      ((t.commitRefusal? rows).elim (t ++ rows) fun _ => t) := by
  refine (Computes.send .commit).bind (Computes.table.bind ?_)
  cases t.commitRefusal? rows with
  | some why => exact (Computes.refuse (some why)).bind_error
  | none =>
    -- from here on nothing can fail, so the change of the table stands
    refine (Computes.refuse none).bind ⟨?_, ?_⟩
    · intro c ht hc
      exact ⟨_, rfl, congrArg (· ++ rows) ht, hc⟩
    · intro c ht
      exact ⟨_, _, rfl, .inl ⟨rfl, congrArg (· ++ rows) ht⟩⟩

/-- A commit without an insertion. -/
theorem commit_nil : Computes Client.Quiet (commit []) t (.ok ()) t := by
  simpa [Table.commitRefusal?] using Computes.commit (t := t) []

end Computes

end EventLog.Database.Db
