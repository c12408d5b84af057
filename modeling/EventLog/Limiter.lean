import EventLog.Error

/-!
# The admission gate

At most a fixed number of projections run at once. The gate keeps the number of free places: one is
taken at admission and given back when the projection ends. An attempt that finds no place is refused
at once and changes nothing.
-/

namespace EventLog

/-- The gate: its size and the places that are free. -/
structure Limiter where
  capacity : Nat
  available : Nat
deriving DecidableEq, Repr, Inhabited

namespace Limiter

/-- The most places that a gate or a channel can have. -/
def maxPlaces : Nat := 0x1FFFFFFFFFFFFFFF

/-- A gate with every place free, if it can have that many. -/
def new? (capacity : Nat) : Option Limiter :=
  if capacity ≤ maxPlaces then some ⟨capacity, capacity⟩ else none

/-- The places that are taken. -/
def inFlight (l : Limiter) : Nat := l.capacity - l.available

/-- Takes a place. -/
def tryAdmit (l : Limiter) : Except StoreError Limiter :=
  match l.available with
  | 0 => .error (.tooManyProjections l.capacity l.inFlight)
  | n + 1 => .ok { l with available := n }

/-- Gives a place back. -/
def release (l : Limiter) : Limiter := { l with available := l.available + 1 }

end Limiter

end EventLog
