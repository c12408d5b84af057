import EventLog.Row

/-!
# Statement texts and bound values

A statement is written as fragments, literal text and bound values in turn. In its text the bound
values are the placeholders `$1`, `$2`, … in order.
-/

namespace EventLog.Sql

/-- A value bound to a placeholder. -/
inductive Bind
  | number (n : Int)
  | texts (ts : List String)
  | id (id : EventId)
  | ids (ids : List EventId)
  | textLists (tss : List (List String))
  | documents (vs : List Json.Value)
  | numbers (ns : List Int)
  | instants (ts : List Instant)
deriving Repr, Inhabited

/-- A part of a statement. -/
inductive Fragment
  | text (s : String)
  | bind (b : Bind)
deriving Repr, Inhabited

/-- The bound values of a statement in order. -/
def binds : List Fragment → List Bind
  | [] => []
  | .text _ :: fs => binds fs
  | .bind b :: fs => b :: binds fs

/-- The text of fragments whose first placeholder has the number `n`. -/
def renderFrom (n : Nat) : List Fragment → String
  | [] => ""
  | .text s :: fs => s ++ renderFrom n fs
  | .bind _ :: fs => "$" ++ toString n ++ renderFrom (n + 1) fs

/-- The text of a statement. -/
def render (fs : List Fragment) : String := renderFrom 1 fs

/-- The fragments `parts` with the text `sep` between them. -/
def joinWith (sep : String) : List (List Fragment) → List Fragment
  | [] => []
  | [p] => p
  | p :: ps => p ++ .text sep :: joinWith sep ps

end EventLog.Sql
