import Exchange.Balance
/-!
# The ledger

The ledger holds every user's balance record. A record comes into being the
first time a credit or an escrow names its user, and stays.

* `Ledger.credit` adds to the available funds of an asset, refused when the
  asset's total (available plus locked) would pass 2^64 - 1. The record is
  created either way; the balance answered is the record after the call.
* `Ledger.escrow` moves an amount of an asset from available to locked,
  refused when less is available. The record is created either way; a refusal
  changes nothing else. Writing an amount, even zero, lists the asset.

Key definitions: `Ledger`, `Ledger.credit`, `Ledger.escrow`, `Ledger.balance?`.
-/

namespace Exchange

/-- Balance records by user, in the order the users first appeared. -/
structure Ledger where
  records : List (String × UserBalance)
  deriving DecidableEq, Inhabited

namespace Ledger

/-- The empty ledger. -/
def empty : Ledger := ⟨[]⟩

/-- A user's record, if there is one. -/
def balance? (l : Ledger) (user : String) : Option UserBalance :=
  (l.records.find? (·.1 == user)).map (·.2)

/-- A user's record, empty when there is none. -/
def entry (l : Ledger) (user : String) : UserBalance := (l.balance? user).getD .empty

/-- Writes a user's record. -/
def put (l : Ledger) (user : String) (b : UserBalance) : Ledger :=
  if l.records.any (·.1 == user) then
    ⟨l.records.map fun e => if e.1 == user then (user, b) else e⟩
  else ⟨l.records ++ [(user, b)]⟩

/-- Whether crediting `amount` of an asset would take its total past
2^64 - 1. -/
def creditOverflows (b : UserBalance) (asset : String) (amount : UInt64) : Bool :=
  b.total asset > UInt64.ofNat (UInt64.size - 1) - amount

/-- Credits a user's available funds. Answers the record after the call and
whether the credit was refused for overflow. -/
def credit (l : Ledger) (user asset : String) (amount : UInt64) : (UserBalance × Bool) × Ledger :=
  let b := l.entry user
  if creditOverflows b asset amount then ((b, true), l.put user b)
  else
    let b' := { b with available := b.available.set asset (b.available.get asset + amount) }
    ((b', false), l.put user b')

/-- Moves funds from available to locked; false when too little is available. -/
def escrow (l : Ledger) (user asset : String) (amount : UInt64) : Bool × Ledger :=
  let b := l.entry user
  if b.available.get asset < amount then (false, l.put user b)
  else
    let b' : UserBalance :=
      ⟨b.available.set asset (b.available.get asset - amount),
       b.locked.set asset (b.locked.get asset + amount)⟩
    (true, l.put user b')

end Ledger

end Exchange
