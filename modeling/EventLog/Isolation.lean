/-!
# Isolation levels

How far a transaction is kept from the effects of others.
-/

namespace EventLog

/-- The isolation of a transaction. -/
inductive Isolation
  | readCommitted
  | repeatableRead
  | serializable
deriving DecidableEq, Repr, Inhabited

namespace Isolation

/-- The name of a level in settings. -/
def name : Isolation → String
  | .readCommitted => "read_committed"
  | .repeatableRead => "repeatable_read"
  | .serializable => "serializable"

/-- The level of a name. -/
def ofName? (s : String) : Option Isolation :=
  [readCommitted, repeatableRead, serializable].find? (·.name == s)

/-- The statement that sets the level of a transaction. -/
def statement : Isolation → String
  | .readCommitted => "SET TRANSACTION ISOLATION LEVEL READ COMMITTED"
  | .repeatableRead => "SET TRANSACTION ISOLATION LEVEL REPEATABLE READ"
  | .serializable => "SET TRANSACTION ISOLATION LEVEL SERIALIZABLE"

theorem ofName?_name (i : Isolation) : ofName? i.name = some i := by cases i <;> decide

end Isolation

end EventLog
