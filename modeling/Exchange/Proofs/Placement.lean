import Exchange.Proofs.Sweep
import Exchange.Proofs.TradeNumbering
/-!
# What a placement does to a book

An order of side `s` rests on the levels of `s` (`Book.levelsOf`: the bids
for a buy, the asks for any other side) and meets the orders resting on the
other side, in priority order (`Book.restingOf s.opposite`: best level
first, each level in arrival order). A placement is the sweep of the taker
over those orders (`Book.place_sweep`), then the taker rests at the back of
its level when it is not filled.

On a book in good order, with a taker of a known side filled no further than
its quantity:

* **price-time priority** (`Book.place_priceTimePriority`): the trades are
  made, in order, against a prefix of the other side's orders in priority
  order, each at its resting order's price, which the taker accepts, for a
  positive quantity, named after the taker and the book's market; their
  prices run up for a buy and down for a sell; every resting order reached
  but the last is filled and removed, and the last stays at the head of the
  side exactly when it is not filled; the ids run on from the trade count,
  which ends past the last; and the taker rests at its price exactly when it
  is not filled;
* **conservation of quantity** (`Book.place_conservesQuantity`): over the
  naturals, the taker is filled by the sum of the trades, within its
  quantity; each resting order reached is filled by its trade, within its
  quantity; the remainders of the other side drop by that sum, and those of
  the taker's side grow by what is left of the taker.

Key definitions: `Side.better`, `Book.levelsOf`, `Book.restingOf`,
`Book.remainders`.
Key theorems: `Book.place_levels`, `Book.place_sweep`,
`Book.place_priceTimePriority`, `Book.place_conservesQuantity`.
-/

namespace Exchange

/-- The rule by which the levels an order of side `s` rests on run best
first: highest price first for a buy, lowest first for any other side. -/
def Side.better (s : Side) : UInt64 → UInt64 → Bool := if s.isBuy then Book.bidBetter else Book.askBetter

theorem Side.better_rank (s : Side) : Book.StrictRank s.better := by
  unfold Side.better
  split
  · exact Book.bidBetter_rank
  · exact Book.askBetter_rank

namespace Book

/-- The levels on which orders of side `s` rest: the bids for a buy, the asks
for any other side. -/
def levelsOf (b : Book) (s : Side) : List PriceLevel := if s.isBuy then b.bids else b.asks

/-- The orders resting on the levels of side `s`, in priority order: best
level first, each level in arrival order. -/
def restingOf (b : Book) (s : Side) : List Order := (b.levelsOf s).flatMap (·.orders)

/-- The unfilled quantity of a list of orders, over the naturals. -/
def remainders (os : List Order) : Nat := (os.map fun o => o.quantity.toNat - o.filled.toNat).sum

@[simp] theorem remainders_nil : remainders [] = 0 := rfl

@[simp] theorem remainders_cons (o : Order) (os : List Order) :
    remainders (o :: os) = (o.quantity.toNat - o.filled.toNat) + remainders os := by
  simp [remainders]

@[simp] theorem remainders_append (os os' : List Order) :
    remainders (os ++ os') = remainders os + remainders os' := by
  simp [remainders]

/-! ### A placement as a sweep -/

/-- **A placement, side by side.** It sweeps the taker over the levels of the
other side, answers with the trades and the taker, leaves what the sweep left
of that side, rests an unfilled taker on its own levels and moves the trade
count on. -/
theorem place_levels (b : Book) (now : String) (o : Order) :
    (b.place now o).1 = ⟨(takeLevels b.market now o b.nextTradeId (b.levelsOf o.side.opposite)).trades,
        (takeLevels b.market now o b.nextTradeId (b.levelsOf o.side.opposite)).taker⟩ ∧
      (b.place now o).2.levelsOf o.side.opposite =
        (takeLevels b.market now o b.nextTradeId (b.levelsOf o.side.opposite)).left ∧
      (b.place now o).2.levelsOf o.side =
        (if (takeLevels b.market now o b.nextTradeId (b.levelsOf o.side.opposite)).taker.isFilled then
          b.levelsOf o.side
        else rest o.side.better (takeLevels b.market now o b.nextTradeId (b.levelsOf o.side.opposite)).taker
          (b.levelsOf o.side)) ∧
      (b.place now o).2.nextTradeId = (takeLevels b.market now o b.nextTradeId (b.levelsOf o.side.opposite)).next ∧
      (b.place now o).2.market = b.market := by
  unfold place levelsOf Side.opposite Side.better
  cases o.side.isBuy <;> simp [Side.isBuy]

theorem wellFormed_levelsOf {b : Book} (hb : b.WellFormed) (s : Side) :
    Ladder s.better (Resting (if s.isBuy then .buy else .sell)) (b.levelsOf s) := by
  unfold levelsOf Side.better
  cases s.isBuy
  · exact hb.asks
  · exact hb.bids

theorem resting_unfilled {b : Book} (hb : b.WellFormed) (s : Side) :
    ∀ m ∈ b.restingOf s, m.filled < m.quantity := by
  intro m hm
  obtain ⟨l, hl, hm⟩ := List.mem_flatMap.mp hm
  exact ((wellFormed_levelsOf hb s).priced l hl m hm).2.1

/-- **A placement is a sweep** of the taker over the other side's orders in
priority order, whose answer it gives and whose leftover it keeps. -/
theorem place_sweep {b : Book} (hb : b.WellFormed) (now : String) {o : Order}
    (ho : o.filled ≤ o.quantity) :
    Sweep b.market now o (b.restingOf o.side.opposite)
        ⟨(b.place now o).1.order, (b.place now o).1.trades,
          (b.place now o).2.restingOf o.side.opposite, (b.place now o).2.nextTradeId⟩ := by
  obtain ⟨hanswer, hleft, -, hnext, -⟩ := place_levels b now o
  have hsweep := FlatBook.take_sweep b.market now (b.restingOf o.side.opposite) o b.nextTradeId ho
    (resting_unfilled hb o.side.opposite)
  unfold restingOf at hsweep ⊢
  rw [takeLevels_flat b.market now o b.nextTradeId _ (wellFormed_levelsOf hb o.side.opposite)] at hsweep
  rw [hanswer, hleft, hnext]
  exact hsweep

/-! ### What a sweep leaves -/

section Sweeps

variable {market now : String} {t : Order}

theorem prices_of_against {ms : List Order} {ts : List Trade}
    (h : List.Forall₂ (Trade.Against market now t) ms ts) : ts.map (·.price) = ms.map (·.price) := by
  induction h with
  | nil => rfl
  | cons hmt _ ih => simp [hmt.price, ih]

theorem accepts_of_against {ms : List Order} {ts : List Trade}
    (h : List.Forall₂ (Trade.Against market now t) ms ts) : ∀ tr ∈ ts, t.accepts tr.price = true := by
  induction h with
  | nil => simp
  | cons hmt _ ih =>
    intro tr htr
    rcases List.mem_cons.mp htr with rfl | htr
    · rw [hmt.price]
      exact hmt.accepted
    · exact ih tr htr

/-- Each resting order a sweep reached is filled by its trade without
wrapping, within its quantity. -/
theorem filled_of_against {ms : List Order} {ts : List Trade}
    (h : List.Forall₂ (Trade.Against market now t) ms ts) (hms : ∀ m ∈ ms, m.filled < m.quantity) :
    List.Forall₂ (fun m tr => (m.fillBy tr.quantity).filled.toNat = m.filled.toNat + tr.quantity.toNat ∧
      m.filled.toNat + tr.quantity.toNat ≤ m.quantity.toNat) ms ts := by
  induction h with
  | nil => exact .nil
  | cons hmt _ ih =>
    refine .cons ?_ (ih fun m' hm' => hms m' (List.mem_cons_of_mem _ hm'))
    exact Order.fillBy_filled_toNat (UInt64.le_of_lt (hms _ List.mem_cons_self)) hmt.within

/-- The resting orders a sweep reached hold, as their trades left them, their
remainders less the trades, over the naturals. -/
theorem remainders_makersAfter {ms : List Order} {ts : List Trade}
    (h : List.Forall₂ (Trade.Against market now t) ms ts) (hms : ∀ m ∈ ms, m.filled < m.quantity) :
    remainders (makersAfter ms ts) + (ts.map fun tr => tr.quantity.toNat).sum = remainders ms := by
  have hfill := filled_of_against h hms
  clear h hms
  induction hfill with
  | nil => rfl
  | @cons m tr ms ts hmt _ ih =>
    obtain ⟨heq, hle⟩ := hmt
    simp only [makersAfter_cons_cons, remainders_cons, Order.fillBy_quantity, heq, List.map_cons,
      List.sum_cons]
    omega

theorem remainders_filter_unfilled (os : List Order) :
    remainders (os.filter fun m => !m.isFilled) = remainders os := by
  induction os with
  | nil => rfl
  | cons o os ih =>
    by_cases hf : o.isFilled = true
    · have heq : o.filled = o.quantity := Order.isFilled_eq_true.mp hf
      simp [hf, ih, heq]
    · simp [hf, ih]

theorem makersAfter_take (ms : List Order) (ts : List Trade) :
    makersAfter (ms.take ts.length) ts = makersAfter ms ts := by
  induction ms generalizing ts with
  | nil => simp
  | cons m ms ih => cases ts <;> simp [ih]

/-- A sweep takes from the remainders of the resting orders exactly what its
trades carry. -/
theorem Sweep.remainders_left {ms : List Order} {r : Taken Order} (h : Sweep market now t ms r)
    (hms : ∀ m ∈ ms, m.filled < m.quantity) :
    remainders r.left + (r.trades.map fun tr => tr.quantity.toNat).sum = remainders ms := by
  have hmade := remainders_makersAfter h.against fun m hm => hms m (List.mem_of_mem_take hm)
  have hsplit : remainders ms = remainders (ms.take r.trades.length) + remainders (ms.drop r.trades.length) := by
    rw [← remainders_append, List.take_append_drop]
  rw [makersAfter_take] at hmade
  rw [h.left, remainders_append, remainders_filter_unfilled]
  omega

end Sweeps

/-- A side in good order, read in priority order, runs by price: each order
at the price of the one before it or worse. -/
theorem flat_pairwise {better : UInt64 → UInt64 → Bool} {P : Order → Prop} :
    ∀ {ls : List PriceLevel}, Ladder better P ls →
      (ls.flatMap (·.orders)).Pairwise fun x y => x.price = y.price ∨ better x.price y.price = true
  | [], _ => .nil
  | l :: ls, hls => by
    rw [List.flatMap_cons, List.pairwise_append]
    refine ⟨?_, flat_pairwise hls.tail, fun x hx y hy => .inr ?_⟩
    · exact List.pairwise_of_forall_mem_list fun x hx y hy =>
        .inl ((hls.head_priced x hx).trans (hls.head_priced y hy).symm)
    · obtain ⟨l', hl', hy⟩ := List.mem_flatMap.mp hy
      rw [hls.head_priced x hx, (hls.tail.priced l' hl' y hy).1]
      exact hls.head_better (List.mem_map_of_mem hl')

theorem rest_getLast (better : UInt64 → UInt64 → Bool) (o : Order) :
    ∀ ls : List PriceLevel, ∃ l ∈ rest better o ls, l.price = o.price ∧ l.orders.getLast? = some o
  | [] => ⟨⟨o.price, [o]⟩, by simp [rest]⟩
  | l :: ls => by
    by_cases h₁ : l.price = o.price
    · exact ⟨{ l with orders := l.orders ++ [o] }, by simp [rest, h₁]⟩
    · by_cases h₂ : better o.price l.price = true
      · exact ⟨⟨o.price, [o]⟩, by simp [rest, h₁, h₂]⟩
      · obtain ⟨l', hl', hprice, hlast⟩ := rest_getLast better o ls
        exact ⟨l', by simp [rest, h₁, h₂, hl'], hprice, hlast⟩

theorem remainders_perm {os os' : List Order} (h : os.Perm os') : remainders os = remainders os' :=
  (h.map _).sum_eq

theorem insert_perm (better : UInt64 → UInt64 → Bool) (o : Order) :
    ∀ os : List Order, (FlatBook.insert better o os).Perm (o :: os)
  | [] => .refl _
  | x :: xs => by
    unfold FlatBook.insert
    split
    · exact .refl _
    · exact ((insert_perm better o xs).cons x).trans (.swap o x xs)

/-! ### Price-time priority -/

/-- **Price-time priority.** On a book in good order, an order of a known
side filled no further than its quantity makes trades, in order, against a
prefix of the other side's resting orders in priority order: each at its
resting order's price, which the order accepts, for a positive quantity the
resting order had left, naming the order and the book's market. Their prices
run up for a buy and down for a sell. Every resting order reached but the
last is filled and leaves the book; the last stays, at the head of the other
side, exactly when its trade left it unfilled; the orders not reached stay as
they were. The trades carry the ids from the trade count on, and the trade
count ends past the last. The order, as matching left it, rests at the back
of the level at its price on its own side exactly when it is not filled. -/
theorem place_priceTimePriority {b : Book} (hb : b.WellFormed) (now : String) {o : Order}
    (hside : o.side = .buy ∨ o.side = .sell) (ho : o.filled ≤ o.quantity) :
    (b.place now o).1.trades.length ≤ (b.restingOf o.side.opposite).length ∧
      List.Forall₂ (Trade.Against b.market now o)
        ((b.restingOf o.side.opposite).take (b.place now o).1.trades.length) (b.place now o).1.trades ∧
      (o.side = .buy → (∀ tr ∈ (b.place now o).1.trades, tr.price ≤ o.price) ∧
        ((b.place now o).1.trades.map (·.price)).Pairwise (· ≤ ·)) ∧
      (o.side = .sell → (∀ tr ∈ (b.place now o).1.trades, o.price ≤ tr.price) ∧
        ((b.place now o).1.trades.map (·.price)).Pairwise (· ≥ ·)) ∧
      (∀ m ∈ (makersAfter (b.restingOf o.side.opposite) (b.place now o).1.trades).dropLast,
        m.isFilled = true) ∧
      (b.place now o).2.restingOf o.side.opposite =
        (makersAfter (b.restingOf o.side.opposite) (b.place now o).1.trades).filter (fun m => !m.isFilled) ++
          (b.restingOf o.side.opposite).drop (b.place now o).1.trades.length ∧
      (b.place now o).1.trades.map (·.id) =
        (List.range (b.place now o).1.trades.length).map (fun i => b.tradeCount + UInt64.ofNat i) ∧
      (b.place now o).2.tradeCount = b.tradeCount + UInt64.ofNat (b.place now o).1.trades.length ∧
      ((∃ l ∈ (b.place now o).2.levelsOf o.side, l.price = (b.place now o).1.order.price ∧
          l.orders.getLast? = some (b.place now o).1.order) ↔
        (b.place now o).1.order.filled < (b.place now o).1.order.quantity) := by
  have hsweep := place_sweep hb now ho
  obtain ⟨hnum, -⟩ := b.place_numbered now o
  have hprices : ((b.place now o).1.trades.map (·.price)).Pairwise
      fun p q => p = q ∨ o.side.opposite.better p q = true := by
    rw [prices_of_against hsweep.against, List.pairwise_map]
    exact ((flat_pairwise (wellFormed_levelsOf hb o.side.opposite)).sublist (List.take_sublist _ _))
  refine ⟨hsweep.length_le, hsweep.against, fun hbuy => ?_, fun hsell => ?_, hsweep.filled,
    hsweep.left, hnum.ids, hnum.next_eq, ?_⟩
  · refine ⟨fun tr htr => ?_, hprices.imp fun h => ?_⟩
    · simpa [Order.accepts, hbuy, Side.isBuy] using accepts_of_against hsweep.against tr htr
    · simp only [hbuy, Side.opposite, Side.isBuy, ↓reduceIte, Side.better, Bool.false_eq_true,
        askBetter, decide_eq_true_eq] at h
      rcases h with h | h
      · exact UInt64.le_of_eq h
      · exact UInt64.le_of_lt h
  · refine ⟨fun tr htr => ?_, hprices.imp fun h => ?_⟩
    · simpa [Order.accepts, hsell, Side.isBuy] using accepts_of_against hsweep.against tr htr
    · simp only [hsell, Side.opposite, Side.isBuy, Bool.false_eq_true, ↓reduceIte, Side.better,
        bidBetter, decide_eq_true_eq] at h
      rcases h with h | h
      · exact UInt64.le_of_eq h.symm
      · exact UInt64.le_of_lt h
  · obtain ⟨hanswer, -, hown, -, -⟩ := place_levels b now o
    constructor
    · rintro ⟨l, hl, -, hlast⟩
      have hb' := place_wellFormed now hb hside ho
      exact ((wellFormed_levelsOf hb' o.side).priced l hl _ (List.mem_of_getLast? hlast)).2.1
    · intro hlt
      have hunfilled := Order.isFilled_of_lt hlt
      rw [hanswer] at hunfilled ⊢
      rw [hown, if_neg (by simpa using hunfilled)]
      exact rest_getLast _ _ _

/-- A buy for 4 at 101 on a book of two asks, 2 at 100 and 5 at 101: it
fills the first and takes 2 from the second. -/
theorem place_priceTimePriority_twoAsks :
    let b := (((empty "BTC_USDT").place "t0" ⟨1, "ann", .sell, 100, 2, 0⟩).2.place "t1"
      ⟨2, "bob", .sell, 101, 5, 0⟩).2
    let o : Order := ⟨3, "cy", .buy, 101, 4, 0⟩
    b.WellFormed ∧ (o.side = .buy ∨ o.side = .sell) ∧ o.filled ≤ o.quantity ∧
      (b.place "t2" o).1.trades.length ≤ (b.restingOf o.side.opposite).length ∧
      List.Forall₂ (Trade.Against b.market "t2" o)
        ((b.restingOf o.side.opposite).take (b.place "t2" o).1.trades.length) (b.place "t2" o).1.trades ∧
      (o.side = .buy → (∀ tr ∈ (b.place "t2" o).1.trades, tr.price ≤ o.price) ∧
        ((b.place "t2" o).1.trades.map (·.price)).Pairwise (· ≤ ·)) ∧
      (o.side = .sell → (∀ tr ∈ (b.place "t2" o).1.trades, o.price ≤ tr.price) ∧
        ((b.place "t2" o).1.trades.map (·.price)).Pairwise (· ≥ ·)) ∧
      (∀ m ∈ (makersAfter (b.restingOf o.side.opposite) (b.place "t2" o).1.trades).dropLast,
        m.isFilled = true) ∧
      (b.place "t2" o).2.restingOf o.side.opposite =
        (makersAfter (b.restingOf o.side.opposite) (b.place "t2" o).1.trades).filter (fun m => !m.isFilled) ++
          (b.restingOf o.side.opposite).drop (b.place "t2" o).1.trades.length ∧
      (b.place "t2" o).1.trades.map (·.id) =
        (List.range (b.place "t2" o).1.trades.length).map (fun i => b.tradeCount + UInt64.ofNat i) ∧
      (b.place "t2" o).2.tradeCount = b.tradeCount + UInt64.ofNat (b.place "t2" o).1.trades.length ∧
      ((∃ l ∈ (b.place "t2" o).2.levelsOf o.side, l.price = (b.place "t2" o).1.order.price ∧
          l.orders.getLast? = some (b.place "t2" o).1.order) ↔
        (b.place "t2" o).1.order.filled < (b.place "t2" o).1.order.quantity) := by
  intro b o
  have hb : b.WellFormed :=
    place_wellFormed "t1" (place_wellFormed "t0" (empty_wellFormed _) (.inr rfl) (by decide)) (.inr rfl)
      (by decide)
  exact ⟨hb, .inl rfl, by decide, place_priceTimePriority hb "t2" (.inl rfl) (by decide)⟩

/-! ### Conservation of quantity -/

/-- Resting the taker on its own side adds what it has left to that side,
which is nothing when it is filled. -/
theorem place_own_remainders {b : Book} (hb : b.WellFormed) (now : String) (o : Order) :
    remainders ((b.place now o).2.restingOf o.side) = remainders (b.restingOf o.side) +
      ((b.place now o).1.order.quantity.toNat - (b.place now o).1.order.filled.toNat) := by
  obtain ⟨hanswer, -, hown, -, -⟩ := place_levels b now o
  simp only [hanswer]
  unfold restingOf
  rw [hown]
  split
  · rename_i hfilled
    rw [Order.isFilled_eq_true.mp hfilled]
    simp
  · rw [rest_flat o.side.better_rank _ _ (wellFormed_levelsOf hb o.side),
      remainders_perm (insert_perm _ _ _), remainders_cons]
    omega

/-- **Conservation of quantity.** On a book in good order, an order filled no
further than its quantity comes back changed only in its filled part, filled
by the sum of its trades over the naturals, so without wrapping, and by no
more than it had left. Each resting order reached is filled by its trade
without wrapping, within its quantity, and rests on as so filled unless that
fills it. The remainders of the other side drop by the sum of the trades, and
those of the order's own side grow by what is left of the order, nothing when
it is filled. -/
theorem place_conservesQuantity {b : Book} (hb : b.WellFormed) (now : String) {o : Order}
    (ho : o.filled ≤ o.quantity) :
    (b.place now o).1.order = { o with filled := (b.place now o).1.order.filled } ∧
      (b.place now o).1.order.filled.toNat =
        o.filled.toNat + ((b.place now o).1.trades.map fun tr => tr.quantity.toNat).sum ∧
      ((b.place now o).1.trades.map fun tr => tr.quantity.toNat).sum ≤ o.quantity.toNat - o.filled.toNat ∧
      List.Forall₂ (fun m tr => (m.fillBy tr.quantity).filled.toNat = m.filled.toNat + tr.quantity.toNat ∧
          m.filled.toNat + tr.quantity.toNat ≤ m.quantity.toNat)
        ((b.restingOf o.side.opposite).take (b.place now o).1.trades.length) (b.place now o).1.trades ∧
      (b.place now o).2.restingOf o.side.opposite =
        (makersAfter (b.restingOf o.side.opposite) (b.place now o).1.trades).filter (fun m => !m.isFilled) ++
          (b.restingOf o.side.opposite).drop (b.place now o).1.trades.length ∧
      remainders ((b.place now o).2.restingOf o.side.opposite) +
          ((b.place now o).1.trades.map fun tr => tr.quantity.toNat).sum =
        remainders (b.restingOf o.side.opposite) ∧
      remainders ((b.place now o).2.restingOf o.side) =
        remainders (b.restingOf o.side) +
          ((b.place now o).1.order.quantity.toNat - (b.place now o).1.order.filled.toNat) := by
  have hsweep := place_sweep hb now ho
  have hms := resting_unfilled hb o.side.opposite
  have htaker : (b.place now o).1.order.filled.toNat =
      o.filled.toNat + ((b.place now o).1.trades.map fun tr => tr.quantity.toNat).sum :=
    hsweep.taker_filled
  have hfill : o.FillOf (b.place now o).1.order := by
    rw [(place_levels b now o).1]
    exact takeLevels_fillOf b.market now o b.nextTradeId _
  have hle := UInt64.le_iff_toNat_le.mp (hfill.filled_le ho)
  rw [hfill.quantity] at hle
  refine ⟨hsweep.taker, htaker, by omega,
    filled_of_against hsweep.against fun m hm => hms m (List.mem_of_mem_take hm), hsweep.left,
    hsweep.remainders_left hms, place_own_remainders hb now o⟩

/-- The same buy on the same two asks. -/
theorem place_conservesQuantity_twoAsks :
    let b := (((empty "BTC_USDT").place "t0" ⟨1, "ann", .sell, 100, 2, 0⟩).2.place "t1"
      ⟨2, "bob", .sell, 101, 5, 0⟩).2
    let o : Order := ⟨3, "cy", .buy, 101, 4, 0⟩
    b.WellFormed ∧ o.filled ≤ o.quantity ∧
      (b.place "t2" o).1.order = { o with filled := (b.place "t2" o).1.order.filled } ∧
      (b.place "t2" o).1.order.filled.toNat =
        o.filled.toNat + ((b.place "t2" o).1.trades.map fun tr => tr.quantity.toNat).sum ∧
      ((b.place "t2" o).1.trades.map fun tr => tr.quantity.toNat).sum ≤ o.quantity.toNat - o.filled.toNat ∧
      List.Forall₂ (fun m tr => (m.fillBy tr.quantity).filled.toNat = m.filled.toNat + tr.quantity.toNat ∧
          m.filled.toNat + tr.quantity.toNat ≤ m.quantity.toNat)
        ((b.restingOf o.side.opposite).take (b.place "t2" o).1.trades.length) (b.place "t2" o).1.trades ∧
      (b.place "t2" o).2.restingOf o.side.opposite =
        (makersAfter (b.restingOf o.side.opposite) (b.place "t2" o).1.trades).filter (fun m => !m.isFilled) ++
          (b.restingOf o.side.opposite).drop (b.place "t2" o).1.trades.length ∧
      remainders ((b.place "t2" o).2.restingOf o.side.opposite) +
          ((b.place "t2" o).1.trades.map fun tr => tr.quantity.toNat).sum =
        remainders (b.restingOf o.side.opposite) ∧
      remainders ((b.place "t2" o).2.restingOf o.side) =
        remainders (b.restingOf o.side) +
          ((b.place "t2" o).1.order.quantity.toNat - (b.place "t2" o).1.order.filled.toNat) := by
  intro b o
  have hb : b.WellFormed :=
    place_wellFormed "t1" (place_wellFormed "t0" (empty_wellFormed _) (.inr rfl) (by decide)) (.inr rfl)
      (by decide)
  exact ⟨hb, by decide, place_conservesQuantity hb "t2" (by decide)⟩

end Book

end Exchange
