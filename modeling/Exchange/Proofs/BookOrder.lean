import Exchange.Proofs.Ladder
/-!
# A book stays in good order

A book is `WellFormed` when its bids are a `Ladder` under `bidBetter` of
resting buy orders, its asks a `Ladder` under `askBetter` of resting sell
orders, and it is not crossed: the best bid is below the best ask. So every
level holds an order, every queued order is unfilled, stands at its level's
price and is on its own side, and no two levels of a side share a price, the
prices running strictly best first.

Orders reach a book checked (`Order.validate`): a known side, and no more
filled than their quantity. From such orders every placement and every
cancellation keeps a book well formed (`place_wellFormed`,
`cancel_wellFormed`), hence so does every session from an empty book
(`session_wellFormed`).

The one clause that needs an argument is the uncrossing. Matching eats the
opposite side from its best level and stops at a price the taker refuses
(`takeLevels_exit`), so the best opposite price only worsens, and is beyond
the limit of a taker that rests; the taker rests at its limit, or behind the
best level of its side.

Key definitions: `Book.Resting`, `Book.WellFormed`, `Book.Call.Valid`.
Key theorems: `Book.place_wellFormed`, `Book.cancel_wellFormed`,
`Book.session_wellFormed`.
-/

namespace Exchange

namespace Book

/-- An order as it may rest on the side of `s`: unfilled, and of side `s`. -/
def Resting (s : Side) (o : Order) : Prop := o.filled < o.quantity ∧ o.side = s

theorem filled_lt_quantity {o : Order} (hle : o.filled ≤ o.quantity) (ho : o.isFilled = false) :
    o.filled < o.quantity := by
  have hne : o.filled ≠ o.quantity := fun e => by
    rw [← Order.isFilled_eq_true, ho] at e
    contradiction
  exact UInt64.lt_of_le_of_ne hle hne

theorem resting_fillStable (s : Side) : FillStable (Resting s) := by
  intro m o ⟨hlt, hside⟩ hfill hunfilled
  exact ⟨filled_lt_quantity (hfill.filled_le (UInt64.le_of_lt hlt)) hunfilled, hfill.side.trans hside⟩

theorem resting_of_fillOf {o t : Order} (hfill : o.FillOf t) (ho : o.filled ≤ o.quantity)
    (ht : t.isFilled = false) : Resting o.side t :=
  ⟨filled_lt_quantity (hfill.filled_le ho) ht, hfill.side⟩

/-- A book in good order: both sides are ladders of resting orders of their
side, and the best bid is below the best ask. -/
structure WellFormed (b : Book) : Prop where
  bids : Ladder bidBetter (Resting .buy) b.bids
  asks : Ladder askBetter (Resting .sell) b.asks
  uncrossed : ∀ bid ∈ b.bids.head?, ∀ ask ∈ b.asks.head?, bid.price < ask.price

theorem empty_wellFormed (market : String) : (empty market).WellFormed :=
  ⟨Ladder.nil, Ladder.nil, by simp [empty]⟩

/-! ### Best prices -/

section Best

variable {P : Order → Prop} {ls ls' : List PriceLevel}

theorem bid_head_le (h : Ladder bidBetter P ls)
    (hsub : ∀ p ∈ ls'.map (·.price), p ∈ ls.map (·.price)) :
    ∀ x ∈ ls'.head?, ∃ y ∈ ls.head?, x.price ≤ y.price := by
  intro x hx
  have hp := hsub x.price (List.mem_map_of_mem (List.mem_of_mem_head? hx))
  cases ls with
  | nil => simp at hp
  | cons y ys =>
    refine ⟨y, rfl, ?_⟩
    rcases List.mem_cons.mp hp with hp | hp
    · exact UInt64.le_of_eq hp
    · have := h.head_better hp
      simp only [bidBetter, decide_eq_true_eq] at this
      exact UInt64.le_of_lt this

theorem ask_head_le (h : Ladder askBetter P ls)
    (hsub : ∀ p ∈ ls'.map (·.price), p ∈ ls.map (·.price)) :
    ∀ x ∈ ls'.head?, ∃ y ∈ ls.head?, y.price ≤ x.price := by
  intro x hx
  have hp := hsub x.price (List.mem_map_of_mem (List.mem_of_mem_head? hx))
  cases ls with
  | nil => simp at hp
  | cons y ys =>
    refine ⟨y, rfl, ?_⟩
    rcases List.mem_cons.mp hp with hp | hp
    · exact UInt64.le_of_eq hp.symm
    · have := h.head_better hp
      simp only [askBetter, decide_eq_true_eq] at this
      exact UInt64.le_of_lt this

end Best

/-! ### Placing and cancelling -/

section Steps

variable {b : Book} (now : String) {o : Order}

/-- A buy order crosses the asks and rests on the bids in good order. -/
theorem place_buy_wellFormed (h : b.WellFormed) (hside : o.side = .buy)
    (ho : o.filled ≤ o.quantity) : (b.place now o).2.WellFormed := by
  have hbuy : o.side.isBuy = true := by rw [hside]; rfl
  simp only [place, hbuy, ↓reduceIte]
  have hfill := takeLevels_fillOf b.market now o b.nextTradeId b.asks
  have hexit := takeLevels_exit b.market now o b.nextTradeId b.asks
  have hleft := ask_head_le h.asks
    (takeLevels_left_prices b.market now o b.nextTradeId b.asks).subset
  refine ⟨?_, takeLevels_ladder b.market now (resting_fillStable .sell) _ _ _ h.asks, ?_⟩
  · split
    · exact h.bids
    · next ht =>
      have hrest := resting_of_fillOf hfill ho (by simpa using ht)
      rw [hside] at hrest
      exact rest_ladder bidBetter_rank hrest _ h.bids
  · intro bid hbid ask hask
    obtain ⟨a0, ha0, ha0le⟩ := hleft ask hask
    split at hbid
    · exact UInt64.lt_of_lt_of_le (h.uncrossed bid hbid a0 ha0) ha0le
    · next ht =>
      have href := hexit (by simpa using ht) ask hask
      simp only [Order.accepts, hfill.side, hside, Side.isBuy, ↓reduceIte, decide_eq_false_iff_not,
        UInt64.not_le, hfill.price] at href
      rcases rest_head _ _ bid hbid with hb | ⟨b0, hb0, hb⟩
      · rw [hb, hfill.price]
        exact href
      · rw [hb]
        exact UInt64.lt_of_lt_of_le (h.uncrossed b0 hb0 a0 ha0) ha0le

/-- A sell order crosses the bids and rests on the asks in good order. -/
theorem place_sell_wellFormed (h : b.WellFormed) (hside : o.side = .sell)
    (ho : o.filled ≤ o.quantity) : (b.place now o).2.WellFormed := by
  have hsell : o.side.isBuy = false := by rw [hside]; rfl
  simp only [place, hsell, Bool.false_eq_true, ↓reduceIte]
  have hfill := takeLevels_fillOf b.market now o b.nextTradeId b.bids
  have hexit := takeLevels_exit b.market now o b.nextTradeId b.bids
  have hleft := bid_head_le h.bids
    (takeLevels_left_prices b.market now o b.nextTradeId b.bids).subset
  refine ⟨takeLevels_ladder b.market now (resting_fillStable .buy) _ _ _ h.bids, ?_, ?_⟩
  · split
    · exact h.asks
    · next ht =>
      have hrest := resting_of_fillOf hfill ho (by simpa using ht)
      rw [hside] at hrest
      exact rest_ladder askBetter_rank hrest _ h.asks
  · intro bid hbid ask hask
    obtain ⟨b0, hb0, hb0le⟩ := hleft bid hbid
    split at hask
    · exact UInt64.lt_of_le_of_lt hb0le (h.uncrossed b0 hb0 ask hask)
    · next ht =>
      have href := hexit (by simpa using ht) bid hbid
      simp only [Order.accepts, hfill.side, hside, Side.isBuy, Bool.false_eq_true, ↓reduceIte,
        decide_eq_false_iff_not, UInt64.not_le, hfill.price] at href
      rcases rest_head _ _ ask hask with ha | ⟨a0, ha0, ha⟩
      · rw [ha, hfill.price]
        exact href
      · rw [ha]
        exact UInt64.lt_of_le_of_lt hb0le (h.uncrossed b0 hb0 a0 ha0)

/-- **Placing a checked order keeps a book well formed.** -/
theorem place_wellFormed (h : b.WellFormed) (hside : o.side = .buy ∨ o.side = .sell)
    (ho : o.filled ≤ o.quantity) : (b.place now o).2.WellFormed := by
  rcases hside with hside | hside
  · exact place_buy_wellFormed now h hside ho
  · exact place_sell_wellFormed now h hside ho

/-- **Cancelling keeps a book well formed.** -/
theorem cancel_wellFormed (h : b.WellFormed) (id : UInt64) : (b.cancel id).2.WellFormed := by
  unfold cancel
  cases hb : removeFromSide id b.bids with
  | some r =>
    obtain ⟨o', bids⟩ := r
    refine ⟨removeFromSide_ladder id h.bids hb, h.asks, ?_⟩
    intro bid hbid ask hask
    obtain ⟨b0, hb0, hle⟩ := bid_head_le h.bids (removeFromSide_prices id hb).subset bid hbid
    exact UInt64.lt_of_le_of_lt hle (h.uncrossed b0 hb0 ask hask)
  | none =>
    cases ha : removeFromSide id b.asks with
    | some r =>
      obtain ⟨o', asks⟩ := r
      refine ⟨h.bids, removeFromSide_ladder id h.asks ha, ?_⟩
      intro bid hbid ask hask
      obtain ⟨a0, ha0, hle⟩ := ask_head_le h.asks (removeFromSide_prices id ha).subset ask hask
      exact UInt64.lt_of_lt_of_le (h.uncrossed bid hbid a0 ha0) hle
    | none => exact h

end Steps

/-! ### Sessions -/

/-- A call a checked caller may make: a placement of an order with a known
side and no more filled than its quantity, or any other call. -/
def Call.Valid : Call → Prop
  | .place _ o => (o.side = .buy ∨ o.side = .sell) ∧ o.filled ≤ o.quantity
  | _ => True

theorem perform_wellFormed {b : Book} (h : b.WellFormed) :
    ∀ c : Call, c.Valid → (b.perform c).2.WellFormed
  | .place now _, ⟨hside, ho⟩ => place_wellFormed now h hside ho
  | .cancel id, _ => cancel_wellFormed h id
  | .depth, _ => h
  | .bestBid, _ => h
  | .bestAsk, _ => h
  | .tradeCount, _ => h

/-- **A book stays in good order.** Over every session on a new book in which
each placed order has a known side and no more filled than its quantity,
every level holds an order, every queued order is unfilled, at its level's
price and on its own side, the prices of each side run strictly best first,
and the best bid is below the best ask. -/
theorem session_wellFormed (market : String) (calls : List Call)
    (h : ∀ now o, Call.place now o ∈ calls → (o.side = .buy ∨ o.side = .sell) ∧ o.filled ≤ o.quantity) :
    (runCalls perform (empty market) calls).2.WellFormed := by
  have hvalid : ∀ c ∈ calls, c.Valid := by
    intro c hc
    cases c with
    | place now o => exact h now o hc
    | _ => trivial
  exact runCalls_invariant perform Call.Valid WellFormed (fun _ c hc hb => perform_wellFormed hb c hc)
    calls _ hvalid (empty_wellFormed market)

/-- A buy that rests, a sell that fills against it in part, a sell that rests
partly filled beforehand, and the cancellation of the first buy. -/
theorem session_wellFormed_crossing :
    (∀ now o, Call.place now o ∈
        [.place "t0" ⟨1, "ann", .buy, 100, 5, 0⟩, .place "t1" ⟨2, "bob", .sell, 99, 3, 0⟩,
          .place "t2" ⟨3, "cy", .sell, 101, 4, 1⟩, .cancel 1] →
        (o.side = .buy ∨ o.side = .sell) ∧ o.filled ≤ o.quantity) ∧
      (runCalls perform (empty "BTC_USDT")
        [.place "t0" ⟨1, "ann", .buy, 100, 5, 0⟩, .place "t1" ⟨2, "bob", .sell, 99, 3, 0⟩,
          .place "t2" ⟨3, "cy", .sell, 101, 4, 1⟩, .cancel 1]).2.WellFormed := by
  have h : ∀ now o, Call.place now o ∈
      [.place "t0" ⟨1, "ann", .buy, 100, 5, 0⟩, .place "t1" ⟨2, "bob", .sell, 99, 3, 0⟩,
        .place "t2" ⟨3, "cy", .sell, 101, 4, 1⟩, .cancel 1] →
      (o.side = .buy ∨ o.side = .sell) ∧ o.filled ≤ o.quantity := by
    intro now o ho
    simp only [List.mem_cons, Call.place.injEq, List.not_mem_nil, or_false, reduceCtorEq] at ho
    rcases ho with ⟨-, rfl⟩ | ⟨-, rfl⟩ | ⟨-, rfl⟩ <;> decide
  exact ⟨h, session_wellFormed "BTC_USDT" _ h⟩

end Book

end Exchange
