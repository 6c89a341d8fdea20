import Exchange.Proofs.Admission
import Exchange.Proofs.Placement
/-!
# What a depth reports

A level of the depth, and the best bid or ask, reports the unfilled quantity
resting at its price as a sum of 64-bit words: the remainders of its orders
added with wrapping addition (`PriceLevel.remaining`). So the report is the
total over the naturals modulo 2^64 (`PriceLevel.remaining_toNat`).

On every engine reached from a new one, every book is in good order
(`Engine.session_booksWellFormed`): the engine places only orders that pass
their checks. In a book in good order the orders resting at a level's price
on its side are exactly the level's orders (`Book.filter_price_of_ladder`),
each unfilled, so their total `N` is positive. Hence
(`Engine.session_depthTotals`): every reported level's quantity is `N`
modulo 2^64, which is `N`, and so not zero, exactly when `N` fits 64 bits.

Escrow bounds each user's own holdings, not the sum over users: two users'
sells at one price can rest 2^64 units together, and the level then reports
zero (`Engine.session_depthWraps`).

Key definitions: `Engine.BooksWellFormed`.
Key theorems: `PriceLevel.remaining_toNat`, `Book.filter_price_of_ladder`,
`Engine.session_booksWellFormed`, `Engine.session_depthTotals`,
`Engine.session_depthWraps`.
-/

namespace Exchange

/-- A sum of 64-bit words, folded with wrapping addition, is their sum over the
naturals modulo 2^64. -/
theorem toNat_foldr_add (xs : List UInt64) :
    (xs.foldr (· + ·) 0).toNat = (xs.map UInt64.toNat).sum % 2 ^ 64 := by
  induction xs with
  | nil => rfl
  | cons x xs ih =>
    rw [List.foldr_cons, UInt64.toNat_add, ih, List.map_cons, List.sum_cons, Nat.add_mod_mod]

theorem Side.isValid_iff (s : Side) : s.isValid = true ↔ s = .buy ∨ s = .sell := by
  cases s <;> simp [Side.isValid]

namespace PriceLevel

/-- **A level reports its total modulo 2^64.** -/
theorem remaining_toNat (l : PriceLevel) :
    l.remaining.toNat = (l.orders.map fun o => o.remaining.toNat).sum % 2 ^ 64 := by
  rw [remaining, toNat_foldr_add, List.map_map]
  rfl

end PriceLevel

namespace Book

theorem sum_remaining_toNat {os : List Order} (h : ∀ o ∈ os, o.filled ≤ o.quantity) :
    (os.map fun o => o.remaining.toNat).sum = remainders os := by
  induction os with
  | nil => rfl
  | cons o os ih =>
    have hrest : ∀ o' ∈ os, o'.filled ≤ o'.quantity := fun o' ho' => h o' (List.mem_cons_of_mem o ho')
    rw [List.map_cons, List.sum_cons, ih hrest, remainders_cons,
      Order.remaining_toNat (h o List.mem_cons_self)]

theorem remainders_pos {os : List Order} (hne : os ≠ []) (h : ∀ o ∈ os, o.filled < o.quantity) :
    0 < remainders os := by
  obtain ⟨o, os', rfl⟩ := List.exists_cons_of_ne_nil hne
  have hlt := UInt64.lt_iff_toNat_lt.mp (h o List.mem_cons_self)
  rw [remainders_cons]
  omega

/-- **The orders at a level's price.** On a side in good order under a strict
rule, the orders resting at the price of one of its levels are that level's
orders: every other level stands at another price. -/
theorem filter_price_of_ladder {better : UInt64 → UInt64 → Bool} {P : Order → Prop}
    (hr : StrictRank better) {ls : List PriceLevel} (h : Ladder better P ls) {l : PriceLevel}
    (hl : l ∈ ls) : (ls.flatMap (·.orders)).filter (·.price == l.price) = l.orders := by
  have hbehind : ∀ {l₀ : PriceLevel} {ls' : List PriceLevel}, Ladder better P (l₀ :: ls') →
      ∀ l' ∈ ls', l'.price ≠ l₀.price := by
    intro l₀ ls' h' l' hl' heq
    have hb := h'.head_better (List.mem_map_of_mem hl')
    rw [heq, hr.irrefl] at hb
    cases hb
  induction ls with
  | nil => cases hl
  | cons l₀ ls ih =>
    rw [List.flatMap_cons, List.filter_append]
    rcases List.mem_cons.mp hl with rfl | hl
    · have hown : l.orders.filter (·.price == l.price) = l.orders :=
        List.filter_eq_self.mpr fun o ho => by simp [h.head_priced o ho]
      have hrest : (ls.flatMap (·.orders)).filter (·.price == l.price) = [] := by
        refine List.filter_eq_nil_iff.mpr fun o ho => ?_
        obtain ⟨l', hl', ho'⟩ := List.mem_flatMap.mp ho
        have hprice := (h.tail.priced l' hl' o ho').1
        simp [hprice, hbehind h l' hl']
      rw [hown, hrest, List.append_nil]
    · have hne : l₀.price ≠ l.price := fun heq => hbehind h l hl heq.symm
      have hnone : l₀.orders.filter (·.price == l.price) = [] :=
        List.filter_eq_nil_iff.mpr fun o ho => by simp [h.head_priced o ho, hne]
      rw [hnone, List.nil_append, ih h.tail hl]

/-- **A level of a book in good order.** The orders resting at its price on
its side leave a positive total over the naturals, and the level reports that
total modulo 2^64. -/
theorem total_of_wellFormed {b : Book} (hb : b.WellFormed) (s : Side) {l : PriceLevel}
    (hl : l ∈ b.levelsOf s) :
    0 < remainders ((b.restingOf s).filter (·.price == l.total.price)) ∧
      l.total.quantity.toNat = remainders ((b.restingOf s).filter (·.price == l.total.price)) % 2 ^ 64 := by
  have hladder := wellFormed_levelsOf hb s
  have hat : (b.restingOf s).filter (·.price == l.total.price) = l.orders :=
    filter_price_of_ladder (Side.better_rank s) hladder hl
  have hunfilled : ∀ o ∈ l.orders, o.filled < o.quantity := fun o ho => (hladder.priced l hl o ho).2.1
  rw [hat]
  refine ⟨remainders_pos (hladder.nonempty l hl) hunfilled, ?_⟩
  rw [PriceLevel.total, PriceLevel.remaining_toNat,
    sum_remaining_toNat fun o ho => UInt64.le_of_lt (hunfilled o ho)]

/-- The levels a book reports for a side, in its depth or as its best, are
the totals of that side's levels. -/
theorem mem_reported {b : Book} {ℓ : Level} :
    (ℓ ∈ b.depth.bids ++ b.bestBid.toList → ∃ l ∈ b.levelsOf .buy, ℓ = l.total) ∧
      (ℓ ∈ b.depth.asks ++ b.bestAsk.toList → ∃ l ∈ b.levelsOf .sell, ℓ = l.total) := by
  have hbest : ∀ ls : List PriceLevel, ℓ ∈ ls.map PriceLevel.total ++ (ls.head?.map PriceLevel.total).toList →
      ∃ l ∈ ls, ℓ = l.total := by
    intro ls hmem
    rcases List.mem_append.mp hmem with hmem | hmem
    · obtain ⟨l, hl, rfl⟩ := List.mem_map.mp hmem
      exact ⟨l, hl, rfl⟩
    · cases ls with
      | nil => simp at hmem
      | cons l ls => exact ⟨l, List.mem_cons_self, by simpa using hmem⟩
  exact ⟨hbest b.bids, hbest b.asks⟩

end Book

namespace Engine

/-! ### Every book of a reachable engine is in good order -/

/-- Every book of an engine is in good order. -/
def BooksWellFormed (e : Engine) : Prop := ∀ m b, e.book? m = some b → b.WellFormed

section Books

variable {e : Engine}

theorem addMarket_booksWellFormed (h : e.BooksWellFormed) (m' : String) :
    (e.addMarket m').2.BooksWellFormed := by
  intro m b hb
  rw [book?_addMarket] at hb
  split at hb
  · cases hb
    exact Book.empty_wellFormed m'
  · exact h m b hb

/-- A placement rests only checked orders: a known side, no more filled than
the quantity. -/
theorem placeOrder_booksWellFormed (h : e.BooksWellFormed) (now market : String) (o : Order)
    (base : String) : (e.placeOrder now market o base).2.BooksWellFormed := by
  rcases placeOrder_cases e now market o base with ⟨v, -, heq⟩ | ⟨-, -, heq⟩ | ⟨-, -, -, heq⟩ |
    ⟨b, a, n, -, -, -, -, heq⟩ | ⟨b, a, n, hv, hb, -, -, heq⟩
  · rw [heq]; exact h
  · rw [heq]; exact h
  · rw [heq]; exact h
  · rw [heq]; exact h
  · rw [heq]
    intro m b' hb'
    rw [book?_setBook] at hb'
    split at hb'
    · obtain ⟨-, -, rfl⟩ := Option.map_eq_some_iff.mp hb'
      obtain ⟨hside, -, hle⟩ := (Order.validate_eq_none_iff o).mp hv
      exact Book.place_wellFormed now (h market b hb) ((Side.isValid_iff o.side).mp hside) hle
    · exact h m b' hb'

theorem cancelOrder_booksWellFormed (h : e.BooksWellFormed) (market : String) (id : UInt64) :
    (e.cancelOrder market id).2.BooksWellFormed := by
  unfold cancelOrder
  split
  · exact h
  · next b hb =>
    intro m b' hb'
    rw [book?_setBook] at hb'
    split at hb'
    · obtain ⟨-, -, rfl⟩ := Option.map_eq_some_iff.mp hb'
      exact Book.cancel_wellFormed (h market b hb) id
    · exact h m b' hb'

/-- **One call** keeps every book in good order. -/
theorem perform_booksWellFormed (h : e.BooksWellFormed) (c : Call) : (e.perform c).2.BooksWellFormed := by
  cases c with
  | addMarket m => exact addMarket_booksWellFormed h m
  | addBalance u a n =>
    obtain ⟨r, -, hperform⟩ := perform_addBalance_eq e u a n
    rw [hperform]
    exact h
  | placeOrder now m o base => exact placeOrder_booksWellFormed h now m o base
  | cancelOrder m id => exact cancelOrder_booksWellFormed h m id
  | getDepth m => exact h

/-- Every book of an engine reached from a new one is in good order. -/
theorem session_booksWellFormed (q : String) (calls : List Call) :
    (runCalls perform (create q) calls).2.BooksWellFormed :=
  runCalls_invariant perform (fun _ => True) BooksWellFormed (fun _ c _ h => perform_booksWellFormed h c)
    calls (create q) (fun _ _ => trivial) (fun m b hb => by simp [create, book?] at hb)

end Books

/-! ### Reported levels -/

/-- **What a depth reports.** On every engine reached from a new one, for
every market with a book: the market's depth is the book's, and every level it
reports, and the best bid and ask, has as quantity the total `N` over the
naturals of what rests unfilled at its price on its side, modulo 2^64; `N` is
positive, and the report is `N` exactly when `N` fits 64 bits. -/
theorem session_depthTotals (q : String) (calls : List Call) (m : String) (b : Book)
    (hb : (runCalls perform (create q) calls).2.book? m = some b) :
    (runCalls perform (create q) calls).2.depth m = .ok b.depth ∧
      ∀ (s : Side) (ℓ : Level),
        (s = .buy ∧ ℓ ∈ b.depth.bids ++ b.bestBid.toList ∨ s = .sell ∧ ℓ ∈ b.depth.asks ++ b.bestAsk.toList) →
        0 < Book.remainders ((b.restingOf s).filter (·.price == ℓ.price)) ∧
          ℓ.quantity.toNat = Book.remainders ((b.restingOf s).filter (·.price == ℓ.price)) % 2 ^ 64 ∧
          (ℓ.quantity.toNat = Book.remainders ((b.restingOf s).filter (·.price == ℓ.price)) ↔
            Book.remainders ((b.restingOf s).filter (·.price == ℓ.price)) < 2 ^ 64) := by
  have hwf := session_booksWellFormed q calls m b hb
  refine ⟨by simp [depth, hb], fun s ℓ hℓ => ?_⟩
  obtain ⟨l, hl, rfl⟩ : ∃ l ∈ b.levelsOf s, ℓ = l.total := by
    rcases hℓ with ⟨rfl, hℓ⟩ | ⟨rfl, hℓ⟩
    · exact Book.mem_reported.1 hℓ
    · exact Book.mem_reported.2 hℓ
  obtain ⟨hpos, hmod⟩ := Book.total_of_wellFormed hwf s hl
  refine ⟨hpos, hmod, ?_⟩
  rw [hmod]
  constructor
  · intro heq
    rw [← heq]
    exact Nat.mod_lt _ (by decide)
  · exact Nat.mod_eq_of_lt

/-- Two users' sells resting at one price, of 2^64 - 1 units and of 1, meet
the hypothesis of `session_depthTotals`. -/
theorem session_depthTotals_wrapped :
    let calls : List Call :=
      [.addMarket "BTC/USDT", .addBalance "a" "BTC" 18446744073709551615, .addBalance "b" "BTC" 1,
        .placeOrder "t" "BTC/USDT" ⟨1, "a", .sell, 1, 18446744073709551615, 0⟩ "BTC",
        .placeOrder "t" "BTC/USDT" ⟨2, "b", .sell, 1, 1, 0⟩ "BTC"]
    let b : Book :=
      ⟨"BTC/USDT", [], [⟨1, [⟨1, "a", .sell, 1, 18446744073709551615, 0⟩, ⟨2, "b", .sell, 1, 1, 0⟩]⟩], 0⟩
    (runCalls perform (create "USDT") calls).2.book? "BTC/USDT" = some b ∧
      (runCalls perform (create "USDT") calls).2.depth "BTC/USDT" = .ok b.depth ∧
      ∀ (s : Side) (ℓ : Level),
        (s = .buy ∧ ℓ ∈ b.depth.bids ++ b.bestBid.toList ∨ s = .sell ∧ ℓ ∈ b.depth.asks ++ b.bestAsk.toList) →
        0 < Book.remainders ((b.restingOf s).filter (·.price == ℓ.price)) ∧
          ℓ.quantity.toNat = Book.remainders ((b.restingOf s).filter (·.price == ℓ.price)) % 2 ^ 64 ∧
          (ℓ.quantity.toNat = Book.remainders ((b.restingOf s).filter (·.price == ℓ.price)) ↔
            Book.remainders ((b.restingOf s).filter (·.price == ℓ.price)) < 2 ^ 64) := by
  intro calls b
  have hb : (runCalls perform (create "USDT") calls).2.book? "BTC/USDT" = some b := by decide
  exact ⟨hb, session_depthTotals "USDT" calls "BTC/USDT" b hb⟩

/-- **The depth wraps.** Two users hold 2^64 - 1 and 1 units of the base asset
and sell them at price 1: both sells rest, 2^64 units at one price, and the
depth reports that level with quantity 0. -/
theorem session_depthWraps :
    let e := (runCalls perform (create "USDT")
      [.addMarket "BTC/USDT", .addBalance "a" "BTC" 18446744073709551615, .addBalance "b" "BTC" 1,
        .placeOrder "t" "BTC/USDT" ⟨1, "a", .sell, 1, 18446744073709551615, 0⟩ "BTC",
        .placeOrder "t" "BTC/USDT" ⟨2, "b", .sell, 1, 1, 0⟩ "BTC"]).2
    e.depth "BTC/USDT" = .ok ⟨[], [⟨1, 0⟩]⟩ ∧
      ∃ b, e.book? "BTC/USDT" = some b ∧ Book.remainders ((b.restingOf .sell).filter (·.price == 1)) = 2 ^ 64 := by
  intro e
  have hb : e.book? "BTC/USDT" =
      some ⟨"BTC/USDT", [], [⟨1, [⟨1, "a", .sell, 1, 18446744073709551615, 0⟩, ⟨2, "b", .sell, 1, 1, 0⟩]⟩], 0⟩ := by
    decide
  refine ⟨?_, _, hb, by decide⟩
  simp only [depth, hb]
  exact congrArg Except.ok (by decide)

end Engine

end Exchange
