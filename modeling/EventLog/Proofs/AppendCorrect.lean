import EventLog.Proofs.Transaction
import EventLog.Store.Append

/-!
# An append is one step

However many statements it sends, an append does to the table what `Table.append` does in one step, or
else it is disturbed and the table stays as it is. Without faults it is not disturbed.
-/

namespace EventLog

open Database Sql

/-- What a batch under a condition does to a table: it is refused, or its rows are put after the
others. -/
def Table.append (t : Table) (batch : List PreparedEvent) (condition : Option AppendCondition) :
    Except StoreError Appended × Table :=
  match condition.filter (conflicts · t) with
  | some c => (.error (.conflict c.afterPosition), t)
  | none =>
    let rows := Row.place t.head batch
    match (t.insertRefusal? rows).or (t.commitRefusal? rows) with
    | some why => (.error (.database (.refused why)), t)
    | none => (.ok (Appended.ofBatch t.head batch), t ++ rows)

namespace Table

/-- An append that succeeds found no conflict, and the table refused none of its rows. -/
theorem append_eq_ok {t : Table} {batch : List PreparedEvent} {condition : Option AppendCondition}
    {a : Appended} (h : (t.append batch condition).1 = .ok a) :
    t.insertRefusal? (Row.place t.head batch) = none ∧
      t.commitRefusal? (Row.place t.head batch) = none ∧
      (t.append batch condition).2 = t ++ Row.place t.head batch ∧
      ∀ c, condition = some c → conflicts c t = false := by
  simp only [append] at h ⊢
  -- the condition is asked first, then the table
  cases hc : condition.filter (conflicts · t) with
  | some c => rw [hc] at h; exact nomatch h
  | none =>
    rw [hc] at h
    cases hr : (t.insertRefusal? (Row.place t.head batch)).or
        (t.commitRefusal? (Row.place t.head batch)) with
    | some why => rw [hr] at h; exact nomatch h
    | none =>
      -- neither check of the table has a reason to refuse
      obtain ⟨hinsert, hcommit⟩ := Option.or_eq_none_iff.mp hr
      refine ⟨hinsert, hcommit, rfl, ?_⟩
      rintro c rfl
      simpa [Option.filter] using hc

/-- An append that fails changes nothing. -/
theorem append_of_error {t : Table} {batch : List PreparedEvent} {condition : Option AppendCondition}
    {e : StoreError} (h : (t.append batch condition).1 = .error e) :
    (t.append batch condition).2 = t := by
  simp only [append] at h ⊢
  split
  · rfl
  · rename_i hc
    rw [hc] at h
    simp only at h
    split
    · rfl
    · rename_i hr
      rw [hr] at h
      exact nomatch h

/-- An append is a conflict exactly if its condition is. -/
theorem append_eq_conflict_iff {t : Table} {batch : List PreparedEvent} {c : AppendCondition}
    {p : Position} : (t.append batch (some c)).1 = .error (.conflict p) ↔
      conflicts c t = true ∧ p = c.afterPosition := by
  simp only [append, Option.filter_some]
  cases conflicts c t with
  | true =>
    refine ⟨fun h => ?_, fun h => by rw [h.2]; rfl⟩
    cases h
    exact ⟨rfl, rfl⟩
  -- otherwise the rows are judged, and what comes of that is never a conflict
  | false =>
    refine ⟨fun h => ?_, fun h => nomatch h.1⟩
    simp only [Bool.false_eq_true, if_false] at h
    split at h <;> exact nomatch h

end Table

namespace Appended

variable {t : Table}

/-- The check under the lock finds the condition if it conflicts with the table. -/
theorem computes_violated? (condition : Option AppendCondition) :
    Db.Computes Client.Quiet (violated? condition) t (.ok (condition.filter (conflicts · t))) t := by
  cases condition with
  | none => exact .pure none
  | some c =>
    rw [Option.filter_some]
    refine (Db.Computes.conflictCheck c).bind ?_
    cases conflicts c t with
    | true => exact .pure (some c)
    | false => exact .pure none

/-- Writing is an append without a condition. -/
theorem computes_write (batch : List PreparedEvent) :
    Db.Computes Client.Quiet (write batch) t (t.append batch none).1 (t.append batch none).2 := by
  refine Db.Computes.head.bind ?_
  have hinsert := Db.Computes.insert (t := t) (Row.place t.head batch)
  have hcommit := Db.Computes.commit (t := t) (Row.place t.head batch)
  simp only [Table.append, Option.filter_none]
  cases hi : t.insertRefusal? (Row.place t.head batch) with
  | some why =>
    -- the insertion fails, and the commit is not sent
    rw [hi] at hinsert
    exact hinsert.bind_error
  | none =>
    rw [hi] at hinsert
    refine hinsert.bind ?_
    -- the rows are in the transaction, and what can still fail is its end
    cases hc : t.commitRefusal? (Row.place t.head batch) with
    | some why =>
      rw [hc] at hcommit
      exact hcommit.bind_error
    | none =>
      rw [hc] at hcommit
      exact hcommit.map fun _ _ => rfl

/-- What is done under the lock is done in the transaction. -/
theorem computes_transaction {settings : StoreSettings} {batch : List PreparedEvent}
    {condition : Option AppendCondition} {r : Except StoreError (Except AppendCondition Appended)}
    {t' : Table}
    (h : Db.Computes Client.Quiet (do
      match ← violated? condition with
      | some c =>
        Db.rollBack
        return .error c
      | none => return .ok (← write batch)) t r t') :
    Db.Computes Client.Ready (transaction settings batch condition) t r t' := by
  refine Db.Computes.begin.bind (Db.Computes.orRollBack ?_)
  -- what comes before the check are statements that leave the table alone
  exact (Db.Computes.send _).bind <| (Db.Computes.send _).bind <| (Db.Computes.send _).bind <|
    (Db.Computes.send _).bind h

/-- An append in a transaction is an append in one step. -/
theorem computes_guarded (settings : StoreSettings) (batch : List PreparedEvent)
    (condition : Option AppendCondition) :
    Db.Computes Client.Ready (guarded settings batch condition) t (t.append batch condition).1
      (t.append batch condition).2 := by
  -- the check computes the filter by which the append in one step is defined
  have hviolated := computes_violated? (t := t) condition
  -- a conflict ends the transaction well, and is an error only after it
  cases hc : condition.filter (conflicts · t) with
  | some c =>
    rw [hc] at hviolated
    have hstep : t.append batch condition = (.error (.conflict c.afterPosition), t) := by
      simp only [Table.append, hc]
    rw [hstep]
    refine Db.Computes.bind (a := .error c) ?_ (.of_runOn fun _ => rfl)
    refine computes_transaction (hviolated.bind ?_)
    exact Db.Computes.rollBack.bind (.pure _)
  | none =>
    rw [hc] at hviolated
    have hstep : t.append batch condition = t.append batch none := by
      simp only [Table.append, hc, Option.filter_none]
    -- the outcome passes the transaction as a value and is taken out of it again
    have hmap : (t.append batch none).1 = ((t.append batch none).1.map Except.ok).map
        fun r : Except AppendCondition Appended => r.toOption.getD default := by
      cases (t.append batch none).1 <;> rfl
    rw [hstep, hmap]
    refine Db.Computes.map (computes_transaction (hviolated.bind ?_)) ?_
    · exact (computes_write batch).map fun _ _ => rfl
    · intro a ha
      cases hr : (t.append batch none).1 with
      | error e => rw [hr] at ha; exact nomatch ha
      | ok b =>
        rw [hr] at ha
        obtain rfl := Except.ok.inj ha
        rfl

end Appended

namespace Store

/-- An append that is not valid is refused before anything is sent. -/
theorem append_of_invalid {s : Store} {events : List InputEvent} {condition : Option AppendCondition}
    {e : ValidationError} (h : s.validateAppend events condition = .error e) (lineage : Lineage) :
    s.append events condition lineage = (.error (.invalidEvent e), s) := by
  simp only [append, h]

/-- A valid append is an append in one step, or it is disturbed and changes nothing. -/
theorem append_of_valid {s : Store} {events : List InputEvent} {condition : Option AppendCondition}
    (h : s.validateAppend events condition = .ok ()) (lineage : Lineage) :
    (((s.append events condition lineage).1, (s.append events condition lineage).2.table) =
        s.table.append (s.prepare events lineage) condition ∨
      Db.Disturbed (s.append events condition lineage).1 ∧
        (s.append events condition lineage).2.table = s.table) ∧
      (s.client.Ready →
        ((s.append events condition lineage).1, (s.append events condition lineage).2.table) =
          s.table.append (s.prepare events lineage) condition) := by
  -- the deadline leaves the clients that are ready as they are
  have hspec := (Appended.computes_guarded (t := s.table) s.settings (s.prepare events lineage)
    condition).within (fun _ _ hc => hc) .append s.settings.appendTimeout
  -- a valid call is this action, run on the client of the store
  have hrun : ∀ {r : Except StoreError Appended} {c : Client},
      (Db.within .append s.settings.appendTimeout
        (Appended.guarded s.settings (s.prepare events lineage) condition)).runOn s.client = (r, c) →
      (s.append events condition lineage).1 = r ∧
        (s.append events condition lineage).2.table = c.server.table := by
    intro r c hr
    simp only [append, h, run, hr]
    exact ⟨trivial, rfl⟩
  constructor
  · -- on any client the step is made, or a disturbance is met and the table stays
    obtain ⟨r, c, hr, ⟨rfl, ht⟩ | ⟨hd, ht⟩⟩ := hspec.any s.client rfl
    · exact .inl (Prod.ext (hrun hr).1 ((hrun hr).2.trans ht))
    · exact .inr ⟨(hrun hr).1 ▸ hd, (hrun hr).2.trans ht⟩
  · -- a client that is ready meets none
    intro hready
    obtain ⟨c, hr, ht, -⟩ := hspec.calm s.client rfl hready
    exact Prod.ext (hrun hr).1 ((hrun hr).2.trans ht)

section

variable {s : Store} {events : List InputEvent} {condition : Option AppendCondition} {lineage : Lineage}

/-- An append that succeeds is valid, and is one step of the table. -/
theorem append_eq_ok {a : Appended} (h : (s.append events condition lineage).1 = .ok a) :
    s.validateAppend events condition = .ok () ∧
      s.table.append (s.prepare events lineage) condition =
        (.ok a, (s.append events condition lineage).2.table) := by
  cases hvalid : s.validateAppend events condition with
  | error e =>
    rw [append_of_invalid hvalid] at h
    exact nomatch h
  | ok u =>
    -- an outcome that is good is no disturbance, so the step was made
    rcases (append_of_valid hvalid lineage).1 with hstep | ⟨⟨e, he, -⟩, -⟩
    · exact ⟨rfl, h ▸ hstep.symm⟩
    · exact nomatch h.symm.trans he

/-- An append that fails keeps the table. -/
theorem table_append_of_error {e : StoreError}
    (h : (s.append events condition lineage).1 = .error e) :
    (s.append events condition lineage).2.table = s.table := by
  cases hvalid : s.validateAppend events condition with
  | error e => rw [append_of_invalid hvalid]
  | ok u =>
    -- a step that failed and a step that was never made both keep the table
    rcases (append_of_valid hvalid lineage).1 with hstep | ⟨-, hsame⟩
    · have hfail := (congrArg Prod.fst hstep).symm.trans h
      exact (congrArg Prod.snd hstep).trans (Table.append_of_error hfail)
    · exact hsame

end

/-- A valid append under a condition is a conflict exactly if the condition conflicts with the table. If it
may be disturbed, then it is a conflict only if it has one, and succeeds only if not. -/
theorem append_eq_conflict_iff {s : Store} {events : List InputEvent} {c : AppendCondition}
    (h : s.validateAppend events (some c) = .ok ()) (lineage : Lineage) :
    (s.client.Ready → ((s.append events (some c) lineage).1 = .error (.conflict c.afterPosition) ↔
        conflicts c s.table = true)) ∧
      (∀ p, (s.append events (some c) lineage).1 = .error (.conflict p) →
        conflicts c s.table = true) ∧
      ∀ a, (s.append events (some c) lineage).1 = .ok a → conflicts c s.table = false := by
  obtain ⟨hany, hcalm⟩ := append_of_valid h lineage
  refine ⟨fun hready => ?_, fun p hp => ?_, fun a ha => ?_⟩
  · rw [congrArg Prod.fst (hcalm hready), Table.append_eq_conflict_iff]
    exact and_iff_left rfl
  · rcases hany with heq | ⟨⟨e, he, hdist⟩, -⟩
    · rw [congrArg Prod.fst heq] at hp
      exact (Table.append_eq_conflict_iff.mp hp).1
    · -- a conflict is not a disturbance
      rw [hp] at he
      obtain rfl := Except.error.inj he
      exact nomatch hdist
  · exact (Table.append_eq_ok (congrArg Prod.fst (append_eq_ok ha).2)).2.2.2 c rfl

end Store

end EventLog
