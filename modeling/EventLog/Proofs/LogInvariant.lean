import Mathlib.Logic.Relation
import EventLog.Proofs.TableSound
import EventLog.Store.Project
import EventLog.Store.Stream

/-!
# Every log is sound

A log is used through any number of stores, each with its own settings, faults and identifiers, one call
after the other. Only appends write, so what every table of a log satisfies is what an append keeps.

## Key results

- `Store.Call.table_eq_or_append`: a call keeps the table, or it is an append that succeeds
- `Table.Reaches`: a table that calls lead to from another one
- `Table.log_invariant`: every table that calls lead to from the empty one is sound
-/

namespace EventLog

open Database Sql

/-! ### Actions that only read -/

namespace Database.Db

/-- Reading rows in a transaction keeps the table. -/
theorem keeps_readRows (level : Isolation) (s : Selection) : Keeps (readRows level s) :=
  keeps_begin.bind fun _ => Keeps.orRollBack <| (keeps_send _).bind fun _ =>
    (keeps_select _).bind fun _ => keeps_commit_nil.bind fun _ => keeps_pure _

end Database.Db

open Database.Db (Keeps keeps_pure keeps_fail keeps_send keeps_table keeps_ofExcept keeps_begin
  keeps_abandon keeps_commit_nil keeps_head keeps_get keeps_update)

namespace Database.Cursor

/-- Declaring a cursor keeps the table, and sees it as it is then. -/
theorem keeps_declare (s : Selection) : Keeps (declare s) :=
  (keeps_send _).bind fun _ => keeps_table.bind fun _ => keeps_pure _

/-- Fetching from a cursor keeps the table. -/
theorem keeps_fetch (cursor : Cursor) (count timeout : Nat) : Keeps (cursor.fetch count timeout) :=
  ((keeps_send _).within _ _).bind fun _ => (keeps_ofExcept _ _).bind fun _ => keeps_pure _

theorem keeps_close : Keeps close := (keeps_send _).bind fun _ => keeps_commit_nil

/-- Opening a cursor in a transaction of its own keeps the table. -/
theorem keeps_openFor (level : Isolation) (s : Selection) : Keeps (openFor level s) :=
  keeps_begin.bind fun _ => Keeps.orRollBack <| (keeps_send _).bind fun _ => keeps_declare s

/-- Taking a batch keeps the table, whether the cursor is closed by it or not. -/
theorem keeps_nextBatch (cursor : Cursor) (batchSize timeout : Nat) :
    Keeps (cursor.nextBatch batchSize timeout) := by
  refine Keeps.orRollBack ((keeps_fetch cursor batchSize timeout).bind ?_)
  rintro ⟨events, cursor⟩
  dsimp only
  split
  · exact keeps_close.bind fun _ => keeps_pure _
  · split
    · exact keeps_close.bind fun _ => keeps_pure _
    · exact keeps_pure _

end Database.Cursor

namespace Batches

/-- Opening the cursor of a reading, or having it open, keeps the table. -/
theorem keeps_openCursor (settings : StoreSettings) (b : Batches) : Keeps (b.openCursor settings) := by
  cases b with
  | unopened q o =>
    exact (keeps_ofExcept _ _).bind fun _ => (Cursor.keeps_openFor _ _).bind fun _ => keeps_pure _
  | opened cursor batchSize => exact keeps_pure _
  | finished => exact keeps_pure _

/-- A batch is taken without a change to the table. -/
theorem keeps_take (settings : StoreSettings) (b : Batches) : Keeps (b.take settings) := by
  refine (keeps_openCursor settings b).bind fun opened => ?_
  rcases opened with _ | ⟨cursor, batchSize⟩
  · exact keeps_pure _
  · exact Cursor.keeps_nextBatch _ _ _

end Batches

namespace Streamed

/-- Starting a stream keeps the table. -/
theorem keeps_start (settings : StoreSettings) (q : Query) (o : ReadOptions) :
    Keeps (start settings q o) :=
  (keeps_ofExcept _ _).bind fun _ => keeps_begin.bind fun _ => Keeps.orRollBack <|
    (keeps_send _).bind fun _ => (Db.keeps_select _).within _ _

/-- Delivering a stream keeps the table, also if the consumer leaves before its end. -/
theorem keeps_deliver (count : Option Nat) (rows : List Row) : Keeps (deliver count rows) := by
  simp only [deliver]
  split
  · -- the transaction is given up if the consumer leaves or a row is corrupt, and committed otherwise
    exact keeps_abandon.bind fun _ => keeps_pure _
  · exact keeps_abandon.bind fun _ => keeps_pure _
  · refine keeps_commit_nil.orRollBack.attempt.bind fun r => ?_
    rcases r with _ | _ <;> exact keeps_pure _

end Streamed

namespace Projected

variable {σ : Type}

/-- The loop that feeds a fold keeps the table. -/
theorem keeps_feedAll (fuel batchSize timeout : Nat) (cursor : Cursor) (folder : Folder σ) :
    Keeps (feedAll fuel batchSize timeout cursor folder) := by
  -- by induction on the fuel, for every cursor and every fold
  induction fuel generalizing cursor folder with
  | zero => exact keeps_pure _
  | succ fuel ih =>
    refine (Cursor.keeps_fetch _ _ _).bind ?_
    rintro ⟨events, cursor⟩
    -- the loop goes on in the same way whether a batch was fed or was empty
    have hmore : ∀ p : Folder σ × Bool, Keeps (
        if p.2 && !decide (events.length < batchSize) then
          feedAll fuel batchSize timeout cursor p.1
        else return p.1) := by
      intro p
      split
      · exact ih _ _
      · exact keeps_pure _
    dsimp only
    split
    · exact (keeps_pure _).bind hmore
    · exact (keeps_ofExcept _ _).bind hmore

/-- A projection keeps the table. -/
theorem keeps_ofLog (settings : StoreSettings) (ps : List (NamedProjector σ)) (query : Query) :
    Keeps (ofLog settings ps query) := by
  have hfold : ∀ folder : Folder σ, Keeps (fold settings query folder) := fun folder =>
    keeps_begin.bind fun _ => Keeps.orRollBack <| (keeps_send _).bind fun _ =>
      keeps_head.bind fun _ => (Cursor.keeps_declare _).bind fun _ =>
        (keeps_feedAll _ _ _ _ _).bind fun _ => Cursor.keeps_close.bind fun _ => keeps_pure _
  exact Keeps.within ((hfold _).bind fun _ => (keeps_ofExcept _ _).bind fun _ => keeps_pure _) _ _

end Projected

namespace Database.Schema

/-- Errors of the bookkeeping are passed on under another name. -/
theorem keeps_bookkeeping {α : Type} {x : Db α} (h : x.Keeps) : Keeps (bookkeeping x) := by
  refine h.attempt.bind fun r => ?_
  split
  · exact keeps_pure _
  · exact keeps_fail _
  · exact keeps_fail _

/-- Running the script changes the schema, not the rows. -/
theorem keeps_runScript : Keeps runScript := by
  refine (keeps_send _).attempt.bind fun r => ?_
  split
  · exact keeps_update fun _ => rfl
  · exact keeps_fail _
  · exact keeps_fail _

/-- Giving up the transaction of a failed script keeps the table. -/
theorem keeps_orGiveUp {x : Db Unit} (h : x.Keeps) : Keeps (orGiveUp x) := by
  refine h.attempt.bind fun r => ?_
  rcases r with e | u
  · exact (keeps_send _).attempt.bind fun _ => keeps_fail e
  · exact keeps_pure _

/-- Applying a migration keeps the table. -/
theorem keeps_apply : Keeps apply := by
  refine (keeps_send _).bind fun _ => (keeps_orGiveUp ?_).bind fun _ => keeps_send _
  exact keeps_runScript.bind fun _ => (keeps_send _).bind fun _ => (keeps_send _).bind fun _ =>
    keeps_update fun _ => rfl

/-- Bringing the schema up to date does not touch the events. -/
theorem keeps_migrate : Keeps migrate := by
  refine keeps_bookkeeping (Keeps.inSession ?_)
  refine (keeps_send _).bind fun _ => (keeps_send _).bind fun _ => (keeps_send _).bind fun _ =>
    (keeps_send _).bind fun _ => keeps_get.bind fun c => ?_
  -- how it ends if the ledger is in order, with the lock given back
  have hend : Keeps (do Db.send (.upkeep .databaseName); Db.send (.upkeep .unlock)) :=
    (keeps_send _).bind fun _ => keeps_send _
  dsimp only
  split
  · exact keeps_fail _
  · refine (keeps_send _).bind fun _ => ?_
    split
    · exact keeps_fail _
    · split
      · exact keeps_apply.bind fun _ => hend
      · exact hend

end Database.Schema

/-! ### Calls -/

namespace Store

/-- A call on a store, and the store after it. -/
inductive Call (s : Store) : Store → Prop
  | append (events : List InputEvent) (condition : Option AppendCondition) (lineage : Lineage) :
    Call s (s.append events condition lineage).2
  | headPosition : Call s s.headPosition.2
  | read (q : Query) (o : ReadOptions) : Call s (s.read q o).2
  | linked (link : Link) (id : EventId) : Call s (s.linked link id).2
  | readBatches (q : Query) (o : ReadOptions) (count : Option Nat) :
    Call s (s.readBatches q o count).2.2
  /-- Takes a batch of a reading that other calls may come between. -/
  | nextBatch (b : Batches) : Call s (b.next s).2.2
  | dropBatches (b : Batches) : Call s (b.drop s)
  | stream {q : Query} {o : ReadOptions} {count : Option Nat} {streamed : Streamed} {s' : Store}
    (h : s.stream q o count = some (streamed, s')) : Call s s'
  | project {σ : Type} (p : Projector σ) : Call s (s.project p).2
  | decide {σ : Type} (ps : List (NamedProjector σ)) : Call s (s.decide ps).2
  | hold : Call s s.hold.2
  | release : Call s s.release
  | migrate : Call s s.migrate.2

/-- A call that does an action keeps the table as the action does. -/
theorem table_run {α : Type} {x : Db α} (h : x.Keeps) (s : Store) : (s.run x).2.table = s.table :=
  h s.client

/-- Looking events up keeps the table. -/
theorem table_linked (s : Store) (link : Link) (id : EventId) : (s.linked link id).2.table = s.table :=
  table_run ((Db.keeps_lookup link id).inSession.bind fun _ => keeps_ofExcept _ _) s

/-- A projection through a store keeps its table, also if it is not admitted. -/
theorem table_runProjection {σ : Type} (s : Store) (ps : List (NamedProjector σ)) (query : Query) :
    (s.runProjection ps query).2.table = s.table := by
  unfold runProjection
  split
  · rfl
  · split
    · rfl
    · exact Projected.keeps_ofLog _ _ _ s.client

end Store

namespace Batches

/-- Taking the next batch keeps the table. -/
theorem table_next (b : Batches) (s : Store) : (b.next s).2.2.table = s.table := by
  have h := Store.table_run (keeps_take s.settings b) s
  unfold next
  split <;> rename_i hrun <;> rw [hrun] at h <;> exact h

/-- Dropping a reading keeps the table. -/
theorem table_drop (b : Batches) (s : Store) : (b.drop s).table = s.table := by
  cases b with
  | opened cursor batchSize => exact Store.table_run keeps_abandon s
  | unopened q o => rfl
  | finished => rfl

/-- Reading a number of batches keeps the table. -/
theorem table_collect (count : Nat) (b : Batches) (s : Store) :
    (b.collect count s).2.2.table = s.table := by
  induction count generalizing b s with
  | zero => exact table_drop b s
  | succ count ih =>
    have h := table_next b s
    unfold collect
    split <;> rename_i hnext <;> rw [hnext] at h
    · exact h
    · exact h
    · exact (ih _ _).trans h

end Batches

namespace Store

/-- A stream keeps the table. -/
theorem table_stream {s s' : Store} {q : Query} {o : ReadOptions} {count : Option Nat}
    {streamed : Streamed} (h : s.stream q o count = some (streamed, s')) : s'.table = s.table := by
  have hkeep := table_run ((Streamed.keeps_start s.settings q o).bind (Streamed.keeps_deliver count)) s
  unfold stream at h
  split at h
  · exact nomatch h
  · split at h
    · cases h
      rfl
    · split at h <;> rename_i hrun <;> cases h <;> rw [hrun] at hkeep <;> exact hkeep

/-- A call keeps the table, or it is an append that succeeds and puts the rows of valid events after the
others. -/
theorem Call.table_eq_or_append {s s' : Store} (h : Call s s') :
    s'.table = s.table ∨ ∃ events condition lineage a,
      s.append events condition lineage = (.ok a, s') ∧
      s.validateAppend events condition = .ok () ∧
      s.table.append (s.prepare events lineage) condition = (.ok a, s'.table) := by
  cases h with
  | append events condition lineage =>
    -- an append that succeeds is the one call that writes, and it was valid
    cases hr : (s.append events condition lineage).1 with
    | ok a =>
      obtain ⟨hvalid, hstep⟩ := append_eq_ok hr
      exact .inr ⟨events, condition, lineage, a, Prod.ext hr rfl, hvalid, hstep⟩
    | error e => exact .inl (table_append_of_error hr)
  | headPosition => exact .inl (table_run keeps_head.inSession s)
  | read q o =>
    left
    unfold Store.read
    split
    · rfl
    · exact table_run (Keeps.within ((Db.keeps_readRows _ _).bind fun _ => keeps_ofExcept _ _) _ _) s
  | linked link id => exact .inl (table_linked s link id)
  | readBatches q o count => exact .inl (Batches.table_collect _ _ s)
  | nextBatch b => exact .inl (Batches.table_next b s)
  | dropBatches b => exact .inl (Batches.table_drop b s)
  | stream h => exact .inl (table_stream h)
  | project p => exact .inl (table_runProjection s _ _)
  | decide ps => exact .inl (table_runProjection s _ _)
  | hold =>
    left
    unfold Store.hold
    split <;> rfl
  | release => exact .inl rfl
  | migrate => exact .inl (table_run Schema.keeps_migrate s)

end Store

namespace Table

/-! ### Logs -/

/-- A call on some store that faces the table leaves the other one. -/
def Step (t u : Table) : Prop := ∃ s s', s.table = t ∧ Store.Call s s' ∧ s'.table = u

/-- Any number of calls, each on a store of its own, lead from one table to the other. -/
def Reaches : Table → Table → Prop := Relation.ReflTransGen Step

/-- Rows that are added do not lower the head. -/
theorem head_le_head_append (t rows : Table) : t.head ≤ (t ++ rows).head := by
  simp only [head, List.foldl_append]
  -- whatever the rows before have come to
  generalize List.foldl _ _ t = p
  induction rows generalizing p with
  | nil => exact Int.le_refl p
  | cons r rows ih => exact Int.le_trans (Int.le_max_left p r.position) (ih (max p r.position))

/-- A longer table has no lower head. -/
theorem head_le_of_isPrefix {t u : Table} (h : t <+: u) : t.head ≤ u.head := by
  obtain ⟨rows, rfl⟩ := h
  exact head_le_head_append t rows

/-- A call neither changes nor removes rows. -/
theorem isPrefix_of_call {s s' : Store} (h : Store.Call s s') : s.table <+: s'.table := by
  rcases h.table_eq_or_append with heq | ⟨events, condition, lineage, a, -, -, hstep⟩
  · exact heq.symm ▸ List.prefix_refl s.table
  · -- an append that succeeds puts its rows behind the others
    have := (append_eq_ok (congrArg Prod.fst hstep)).2.2.1
    rw [hstep] at this
    exact ⟨_, this.symm⟩

/-- A call keeps a sound table sound. -/
theorem Sound.call {s s' : Store} (hs : s.table.Sound) (h : Store.Call s s') : s'.table.Sound := by
  rcases h.table_eq_or_append with heq | ⟨events, condition, lineage, a, -, hvalid, hstep⟩
  · exact heq ▸ hs
  · have hbatch : ∀ p ∈ s.prepare events lineage, Row.WellFormed p.eventType p.tags p.data :=
      fun p hp => Store.wellFormed_of_mem_prepare hvalid hp
    have := hs.append hbatch (congrArg Prod.fst hstep)
    rwa [hstep] at this

/-- Calls neither change nor remove rows. -/
theorem isPrefix_of_reaches {t u : Table} (h : t.Reaches u) : t <+: u := by
  -- by induction on the calls; a prefix of a prefix is one
  induction h with
  | refl => exact List.prefix_refl t
  | tail _ hstep ih =>
    obtain ⟨s, s', rfl, hcall, rfl⟩ := hstep
    exact ih.trans (isPrefix_of_call hcall)

/-- Calls keep a sound table sound. -/
theorem Sound.reaches {t u : Table} (ht : t.Sound) (h : t.Reaches u) : u.Sound := by
  induction h with
  | refl => exact ht
  | tail _ hstep ih =>
    obtain ⟨s, s', rfl, hcall, rfl⟩ := hstep
    exact ih.call hcall

/-- Every table that calls lead to from the empty one is sound, however the stores are set up and
whatever goes wrong. Each further call, and any number of them, leaves its rows as they are and does not
lower the head, and only an append that succeeds changes it at all. -/
theorem log_invariant {t : Table} (h : Reaches [] t) :
    t.Sound ∧
      (∀ s s', s.table = t → Store.Call s s' → t <+: s'.table ∧ t.head ≤ s'.table.head ∧
        (s'.table ≠ t → ∃ events condition lineage a,
          s.append events condition lineage = (.ok a, s'))) ∧
      ∀ u, t.Reaches u → t <+: u ∧ t.head ≤ u.head := by
  refine ⟨sound_nil.reaches h, ?_, fun u hu => ?_⟩
  · rintro s s' rfl hcall
    have hpre := isPrefix_of_call hcall
    refine ⟨hpre, head_le_of_isPrefix hpre, fun hne => ?_⟩
    -- a call that changes the table cannot have kept it
    rcases hcall.table_eq_or_append with heq | ⟨events, condition, lineage, a, happend, -, -⟩
    · exact absurd heq hne
    · exact ⟨events, condition, lineage, a, happend⟩
  · have hpre := isPrefix_of_reaches hu
    exact ⟨hpre, head_le_of_isPrefix hpre⟩

end Table

/-- A store without faults that faces a table. -/
def Store.facing (t : Table) : Store where
  settings := {}
  limiter := ⟨50, 50⟩
  client :=
    { server := .ofTable t, startup := default, maxConnections := 1, acquireTimeout := 0, busy := 0,
      deadlines := [] }
  mint := .ofNat
  minted := t.length + 1
  now := default

theorem Store.table_facing (t : Table) : (facing t).table = t := rfl

theorem Store.ready_facing (t : Table) : (facing t).client.Ready :=
  ⟨fun _ hf => absurd hf List.not_mem_nil, Nat.zero_lt_one⟩

/-- A run of three appends to the same account. The second one asks that nothing has happened to the account,
and is refused for the first; the third one asks that nothing has happened since. So the rows of the second
are not there, and those of the third stand behind that of the first. -/
theorem Table.log_invariant_of_refused_append :
    let account : Tag := ⟨"account", "17"⟩
    let event (eventType : String) := InputEvent.new eventType [account] (.object [])
    let since (p : Position) : AppendCondition := ⟨.single ⟨[], [account]⟩, p⟩
    let opened := (Store.facing []).append [event "Opened"] none .new
    let refused := opened.2.append [event "Opened", event "Deposited"] (some (since 0)) .new
    let deposited := refused.2.append [event "Deposited", event "Withdrawn"] (some (since 1)) .new
    let t := deposited.2.table
    Table.Reaches [] t ∧ t.Sound ∧ refused.1 = .error (.conflict 0) ∧ refused.2.table = opened.2.table ∧
      opened.2.table <+: t ∧ t.map (·.eventType) = ["Opened", "Deposited", "Withdrawn"] ∧
      t.map (·.position) = [1, 2, 3] ∧ t.head = 3 := by
  intro account event since opened refused deposited t
  have hopened : Table.Reaches [] opened.2.table :=
    .single ⟨Store.facing [], _, rfl, .append [event "Opened"] none .new, rfl⟩
  have hrefused : Table.Step opened.2.table refused.2.table :=
    ⟨opened.2, _, rfl, .append [event "Opened", event "Deposited"] (some (since 0)) .new, rfl⟩
  have hdeposited : Table.Step refused.2.table t :=
    ⟨refused.2, _, rfl, .append [event "Deposited", event "Withdrawn"] (some (since 1)) .new, rfl⟩
  -- the rows of the first append are still there after the other two
  obtain ⟨-, -, hstays⟩ := log_invariant hopened
  obtain ⟨hsound, -⟩ := log_invariant ((hopened.tail hrefused).tail hdeposited)
  have herror : refused.1 = .error (.conflict 0) := by decide +kernel
  have hsame : refused.2.table = opened.2.table := Store.table_append_of_error herror
  refine ⟨(hopened.tail hrefused).tail hdeposited, hsound, herror, hsame, ?_, ?_, ?_, ?_⟩
  · exact (hstays t (.tail (.single hrefused) hdeposited)).1
  · decide +kernel
  · decide +kernel
  · decide +kernel

end EventLog
