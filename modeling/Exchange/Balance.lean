/-!
# Balances

A user's funds are two tables from asset to amount: what is available to
escrow, and what is locked by admitted orders. A table remembers every asset
ever written to it, even at zero, since the answers list such entries; an asset
never written reads as zero.

Key definitions: `Holdings`, `Holdings.get`, `Holdings.set`, `UserBalance`,
`UserBalance.total`.
-/

namespace Exchange

/-- Amounts per asset, one entry per asset, in the order first written. -/
structure Holdings where
  entries : List (String × UInt64)
  deriving DecidableEq, Inhabited

namespace Holdings

/-- The empty table. -/
def empty : Holdings := ⟨[]⟩

/-- The amount of an asset, zero when never written. -/
def get (h : Holdings) (asset : String) : UInt64 :=
  ((h.entries.find? (·.1 == asset)).map (·.2)).getD 0

/-- Writes an asset's amount: its entry changes in place, or a new entry goes
last. -/
def set (h : Holdings) (asset : String) (v : UInt64) : Holdings :=
  if h.entries.any (·.1 == asset) then
    ⟨h.entries.map fun e => if e.1 == asset then (asset, v) else e⟩
  else ⟨h.entries ++ [(asset, v)]⟩

end Holdings

/-- A user's available and locked funds. -/
structure UserBalance where
  available : Holdings
  locked : Holdings
  deriving DecidableEq, Inhabited

namespace UserBalance

/-- A record with no entries. -/
def empty : UserBalance := ⟨.empty, .empty⟩

/-- Available plus locked funds of an asset, modulo 2^64. -/
def total (b : UserBalance) (asset : String) : UInt64 :=
  b.available.get asset + b.locked.get asset

end UserBalance

end Exchange
