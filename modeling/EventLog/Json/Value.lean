import EventLog.Number.Binary64

/-!
# JSON values

A value as the library holds it once it has been read. The members of an object stand in ascending
order of their keys, each key once; `Members.insert` keeps that order. An integer that fits 64 bits,
signed or unsigned, is exact, and every other number is a binary64 number.
-/

namespace EventLog.Json

/-- The ways in which a JSON text or value fails to be what is asked of it. -/
inductive Defect
  /-- The text is not JSON, or a numeral or string in it denotes nothing. -/
  | malformed
  /-- The text ends before the value does. -/
  | truncated
  /-- The value is JSON but not of the form that is asked. -/
  | mismatch
deriving DecidableEq, Repr, Inhabited

/-- A JSON number. -/
inductive Number
  | int (n : Int)
  | real (x : Binary64)
deriving DecidableEq, Repr, Inhabited

namespace Number

/-- The least exact integer. -/
def minInt : Int := -0x8000000000000000

/-- The largest exact integer. -/
def maxInt : Int := 0xFFFFFFFFFFFFFFFF

end Number

/-- A JSON value. -/
inductive Value
  | null
  | bool (b : Bool)
  | number (n : Number)
  | string (s : String)
  | array (items : List Value)
  | object (members : List (String × Value))
deriving Repr, Inhabited

/-- The members of an object. -/
abbrev Members := List (String × Value)

/-- Sets the member `key`: in its place in the order of keys, or over the member that has it. -/
def Members.insert (key : String) (v : Value) : Members → Members
  | [] => [(key, v)]
  | (k, w) :: rest =>
    if key < k then (key, v) :: (k, w) :: rest
    else if key = k then (key, v) :: rest
    else (k, w) :: Members.insert key v rest

mutual

/-- The same value with the members of every object in order of their keys. -/
def Value.sorted : Value → Value
  | .array items => .array (sortedItems items)
  | .object members => .object (sortedMembers [] members)
  | v => v

/-- The items of an array, each sorted. -/
def sortedItems : List Value → List Value
  | [] => []
  | v :: vs => v.sorted :: sortedItems vs

/-- The members of an object, each sorted, put into their places among `acc`. -/
def sortedMembers (acc : Members) : Members → Members
  | [] => acc
  | (k, v) :: ms => sortedMembers (Members.insert k v.sorted acc) ms

end

namespace Value

/-- An integer as a value. -/
def int (n : Int) : Value := .number (.int n)

/-- A natural number as a value. -/
def nat (n : Nat) : Value := .number (.int n)

/-- The member `key` of an object. -/
def get? (v : Value) (key : String) : Option Value :=
  match v with
  | .object ms => ms.lookup key
  | _ => none

/-- A payload is an object or an array. -/
def isContainer : Value → Bool
  | .array _ => true
  | .object _ => true
  | _ => false

end Value

end EventLog.Json
