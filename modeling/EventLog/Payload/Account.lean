import EventLog.Payload

/-!
# Account payloads

The payloads of account events: an amount of money, and the owner of an account with the limit of its
overdraft.
-/

namespace EventLog.Payload

/-- An amount of money in the smallest unit. -/
structure Amount where
  amount : Int
deriving DecidableEq, Repr, Inhabited

/-- What has been read of an amount. -/
structure Amount.Draft where
  amount : Option Int := none

/-- The form of an amount. -/
def Amount.record : Record Amount.Draft Amount where
  name := "Amount"
  fields := [⟨"amount", fun v d => (readInt64 v).map fun x => { d with amount := some x }⟩]
  blank := {}
  complete d := (required "amount" d.amount).map Amount.mk

/-- The owner of an account and the limit of its overdraft, which may be left out. -/
structure Owner where
  owner : String
  limit : Option Nat
deriving DecidableEq, Repr, Inhabited

/-- What has been read of an owner. -/
structure Owner.Draft where
  owner : Option String := none
  limit : Option (Option Nat) := none

/-- The form of an owner. -/
def Owner.record : Record Owner.Draft Owner where
  name := "Owner"
  fields := [
    ⟨"owner", fun v d => (readString v).map fun x => { d with owner := some x }⟩,
    ⟨"limit", fun v d => (readOption readNat32 v).map fun x => { d with limit := some x }⟩]
  blank := {}
  complete d := (required "owner" d.owner).map fun o => ⟨o, d.limit.getD none⟩

end EventLog.Payload
