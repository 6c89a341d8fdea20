/-!
# Limit orders

An order buys or sells a market's base asset at a limit price. Sides travel as
free text, so besides `Buy` and `Sell` a side may be any other name; such an
order is refused by `Order.validate` but a book still places it, on the sell
side of the rules (`Side.isBuy` is false).

Quantities are 64-bit words and wrap: `Order.remaining` is `quantity - filled`
modulo 2^64, and an order counts as filled only when `filled = quantity`.

Key definitions: `Side`, `Order`, `Order.remaining`, `Order.isFilled`,
`Order.validate`, `Order.escrow`.
-/

namespace Exchange

/-- The side of an order: the two known sides, or any other name. -/
inductive Side where
  | buy
  | sell
  | other (name : String) (known : name ≠ "Buy" ∧ name ≠ "Sell")
  deriving DecidableEq

namespace Side

/-- The side a name stands for. -/
def ofName (s : String) : Side :=
  if h₁ : s = "Buy" then .buy
  else if h₂ : s = "Sell" then .sell
  else .other s ⟨h₁, h₂⟩

/-- The name of a side as it travels. -/
def name : Side → String
  | .buy => "Buy"
  | .sell => "Sell"
  | .other n _ => n

/-- A side is valid when it is one of the two known ones. -/
def isValid : Side → Bool
  | .other _ _ => false
  | _ => true

/-- Only a buy takes the asks; every other side takes the bids. -/
def isBuy : Side → Bool
  | .buy => true
  | _ => false

/-- The side an order of this side trades against: sell for a buy and buy
for anything else. -/
def opposite (s : Side) : Side :=
  if s.isBuy then .sell else .buy

@[simp] theorem name_ofName (s : String) : (ofName s).name = s := by
  unfold ofName
  split
  · next h => subst h; rfl
  · split
    · next h => subst h; rfl
    · rfl

@[simp] theorem ofName_name (s : Side) : ofName s.name = s := by
  cases s with
  | buy => rfl
  | sell => rfl
  | other n h => simp [name, ofName, h.1, h.2]

end Side

/-- The side an order gets when its message names none. -/
instance : Inhabited Side := ⟨.ofName ""⟩

/-- A limit order: its id, owner, side, limit price, quantity and the part of
it already filled. -/
structure Order where
  id : UInt64
  userId : String
  side : Side
  price : UInt64
  quantity : UInt64
  filled : UInt64
  deriving DecidableEq

/-- The order a failed look-up answers with: every field empty. -/
instance : Inhabited Order := ⟨⟨0, "", default, 0, 0, 0⟩⟩

/-- A refused order, with the reason in words. -/
structure ValidationError where
  message : String
  deriving DecidableEq

namespace Order

/-- The unfilled quantity, modulo 2^64. -/
def remaining (o : Order) : UInt64 := o.quantity - o.filled

/-- An order is filled exactly when its filled part equals its quantity. -/
def isFilled (o : Order) : Bool := o.filled == o.quantity

/-- The checks an order passes before a book may see it, in order: a known
side, an owner, and no more filled than its quantity. -/
def validate (o : Order) : Option ValidationError :=
  if !o.side.isValid then some ⟨"side must be \"Buy\" or \"Sell\""⟩
  else if o.userId == "" then some ⟨"user_id is required"⟩
  else if o.filled > o.quantity then some ⟨"filled must not exceed quantity"⟩
  else none

/-- The asset and amount an order locks: a sell locks its quantity of the base
asset, anything else locks price × quantity of the quote asset, refused when
the product does not fit in 64 bits. -/
def escrow (o : Order) (quote base : String) : Option (String × UInt64) :=
  if o.side = .sell then some (base, o.quantity)
  else if o.price.toNat * o.quantity.toNat < UInt64.size then some (quote, o.price * o.quantity)
  else none

theorem validate_eq_none_iff (o : Order) :
    o.validate = none ↔ o.side.isValid ∧ o.userId ≠ "" ∧ o.filled ≤ o.quantity := by
  unfold validate
  by_cases h₁ : o.side.isValid <;> by_cases h₂ : o.userId = "" <;>
    by_cases h₃ : o.filled ≤ o.quantity <;> simp_all [UInt64.not_lt]

end Order

end Exchange
