import EventLog.Proofs.RowDecode
import EventLog.Proofs.Transaction

/-!
# What is sent to the database

The server takes note of every statement that it gets. So the transcript tells how an action came to its
result: which statements were sent, in which order, and how often. An action that nothing disturbs sends
what its parts send, one after the other.

## Key results

- `Db.Sends`: the result of an action and the statements that it sends
- `Db.Sends.bind`: an action after another one
- `Db.Sends.begin`, `Db.Sends.commit_nil`: transactions
- `Cursor.sends_declare`, `Cursor.sends_fetch`, `Cursor.sends_close`: cursors
-/

namespace EventLog.Database

open Sql

/-- A session that introduces itself sends no statement. -/
@[simp] theorem Server.greet_transcript (s : Server) (startup : Startup) :
    (s.greet startup).transcript = s.transcript := by
  unfold greet
  split <;> rfl

namespace Db

variable {α β : Type}

/-- On a client whose table is `t` and that satisfies `P` the action gives `a`, has sent the statements,
and leaves the table. No fault awaits the client afterwards. -/
def Sends (P : Client → Prop) (x : Db α) (t : Table) (a : α) (stmts : List Statement) : Prop :=
  ∀ c, c.server.table = t → P c → ∃ c', x.runOn c = (.ok a, c') ∧ c'.server.table = t ∧ c'.Quiet ∧
    c'.server.transcript = c.server.transcript ++ stmts

namespace Sends

variable {P : Client → Prop} {t : Table} {stmts : List Statement}

protected theorem pure (a : α) : Sends Client.Quiet (pure a) t a [] :=
  fun c ht hc => ⟨c, rfl, ht, hc, (List.append_nil _).symm⟩

/-- A look at the table sends nothing. -/
protected theorem table : Sends Client.Quiet table t t [] := fun c ht hc => by
  subst ht
  exact ⟨c, rfl, rfl, hc, (List.append_nil _).symm⟩

theorem of_ok {ε : Type} (wrap : ε → StoreError) (a : α) :
    Sends Client.Quiet (ofExcept wrap (.ok a)) t a [] := Sends.pure a

/-- A statement that is sent stands in the transcript. -/
protected theorem send (stmt : Statement) : Sends Client.Quiet (send stmt) t () [stmt] :=
  fun _ ht hc => ⟨_, runOn_send_of_quiet hc stmt, ht, hc, rfl⟩

/-- An action sends what it sends after the one before it. -/
protected theorem bind {x : Db α} {f : α → Db β} {a : α} {b : β} {more : List Statement}
    (hx : Sends P x t a stmts) (hf : Sends Client.Quiet (f a) t b more) :
    Sends P (x >>= f) t b (stmts ++ more) := by
  intro c ht hc
  -- the second action runs on the client that the first one leaves, and its statements come behind
  obtain ⟨c₁, hrun, ht₁, hc₁, hsent⟩ := hx c ht hc
  obtain ⟨c₂, hrun', ht₂, hc₂, hsent'⟩ := hf c₁ ht₁ hc₁
  refine ⟨c₂, (runOn_bind_ok hrun).trans hrun', ht₂, hc₂, ?_⟩
  rw [hsent', hsent, List.append_assoc]

/-- A statement comes before those of the action after it. -/
theorem cons {x : Db α} {f : α → Db β} {a : α} {b : β} {stmt : Statement} (hx : Sends P x t a [stmt])
    (hf : Sends Client.Quiet (f a) t b stmts) : Sends P (x >>= f) t b (stmt :: stmts) := hx.bind hf

/-- An action after one that sends nothing. -/
theorem nil_bind {x : Db α} {f : α → Db β} {a : α} {b : β} (hx : Sends P x t a [])
    (hf : Sends Client.Quiet (f a) t b stmts) : Sends P (x >>= f) t b stmts := hx.bind hf

/-- An action before one that sends nothing. -/
theorem bind_nil {x : Db α} {f : α → Db β} {a : α} {b : β} (hx : Sends P x t a stmts)
    (hf : Sends Client.Quiet (f a) t b []) : Sends P (x >>= f) t b stmts :=
  List.append_nil stmts ▸ hx.bind hf

/-- A deadline sends nothing. -/
theorem within {x : Db α} {a : α} (hx : Sends P x t a stmts)
    (hP : ∀ c deadlines, P c → P { c with deadlines }) (operation : Operation) (limit : Nat) :
    Sends P (within operation limit x) t a stmts := by
  intro c ht hc
  -- the action runs with one deadline more, which the transcript does not show
  obtain ⟨c₁, hrun, ht₁, hc₁, hsent⟩ :=
    hx { c with deadlines := c.deadlines ++ [⟨operation, limit, 0⟩] } ht (hP c _ hc)
  refine ⟨{ c₁ with deadlines := c₁.deadlines.take c.deadlines.length }, ?_, ht₁, hc₁, hsent⟩
  rw [runOn_within, hrun]

/-! ### Transactions -/

/-- A session of the pool is had without a statement. -/
protected theorem acquire : Sends Client.Ready acquire t () [] := by
  intro c ht hc
  refine ⟨{ c with busy := c.busy + 1, server := c.server.greet c.startup }, ?_, ?_, ?_, ?_⟩
  · rw [runOn_acquire, if_pos hc.2]
  · exact (Server.greet_table _ _).trans ht
  · simpa [Client.Quiet] using hc.1
  · -- a session that introduces itself sends no statement
    rw [List.append_nil]
    exact Server.greet_transcript _ _

/-- A transaction begins with one statement. -/
protected theorem begin : Sends Client.Ready begin t () [.begin] := by
  refine Sends.acquire.nil_bind fun c ht hc => ?_
  -- only the outcome of the statement is looked at, and it is a success
  obtain ⟨c₁, hrun, hrest⟩ := Sends.send .begin c ht hc
  refine ⟨c₁, ?_, hrest⟩
  rw [runOn_bind_ok (runOn_attempt _ c), hrun]
  rfl

/-- What succeeds is not rolled back. -/
theorem orRollBack {x : Db α} {a : α} (hx : Sends P x t a stmts) : Sends P (orRollBack x) t a stmts := by
  intro c ht hc
  obtain ⟨c₁, hrun, hrest⟩ := hx c ht hc
  refine ⟨c₁, ?_, hrest⟩
  simp only [Db.orRollBack]
  rw [runOn_bind_ok (runOn_attempt x c), hrun]
  rfl

/-- A commit without an insertion. -/
theorem commit_nil : Sends Client.Quiet (commit []) t () [.commit] := by
  -- no rows can break a rule
  have hnone : t.commitRefusal? [] = none := by simp [Table.commitRefusal?]
  refine (Sends.send .commit).cons (Sends.table.nil_bind ?_)
  rw [hnone]
  exact fun c ht hc => ⟨_, rfl, (List.append_nil _).trans ht, hc, (List.append_nil _).symm⟩

protected theorem head : Sends Client.Quiet head t t.head [.head] :=
  (Sends.send .head).cons (Sends.table.nil_bind (.pure _))

end Sends

end Db

namespace Cursor

open Db

variable {t : Table}

/-- A cursor is declared with one statement, and holds the rows of its selection. -/
theorem sends_declare (s : Selection) :
    Sends Client.Quiet (declare s) t ⟨s.rows t⟩ [.declareCursor s] :=
  (Sends.send _).cons (Sends.table.nil_bind (.pure _))

/-- Rows that parse are fetched with one statement. -/
theorem sends_fetch {pending : List Row} (h : ∀ r ∈ pending, r.Decodable) (count timeout : Nat) :
    Sends Client.Quiet (fetch ⟨pending⟩ count timeout) t
      ((pending.take count).map Row.event, ⟨pending.drop count⟩) [.fetch count] := by
  -- the rows of the batch parse, so decoding them gives their events
  have hevents : Row.toEvents (pending.take count) = .ok ((pending.take count).map Row.event) :=
    Row.toEvents_eq_ok fun r hr => h r (List.mem_of_mem_take hr)
  refine ((Sends.send (.fetch count)).within (fun _ _ hc => hc) .fetch timeout).cons ?_
  rw [hevents]
  exact (Sends.of_ok _ _).nil_bind (.pure _)

/-- A cursor is closed, and its transaction committed. -/
theorem sends_close : Sends Client.Quiet close t () [.closeCursor, .commit] :=
  (Sends.send _).cons Sends.commit_nil

end Cursor

end EventLog.Database
