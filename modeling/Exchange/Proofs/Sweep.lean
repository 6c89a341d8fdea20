import Exchange.Proofs.BookRefinement
/-!
# A taker sweeps the resting orders in priority order

Crossing a taker with a list of resting orders (`FlatBook.take`, the list
being one side of a book in priority order) is a sweep: when every resting
order is unfilled and the taker no more filled than its quantity, the `k`
trades it makes are made, in order, against the first `k` resting orders,
each for a positive quantity the resting order had left and at its price,
which the taker accepts (`Trade.Against`); every one of those orders but the
last is filled by its trade, and what is left of the list is the last, if its
trade left it unfilled, and then the orders the taker did not reach; the
taker is filled by the sum of the trades, over the naturals; and the taker
stops only filled, at the end of the list, or at a price it refuses
(`FlatBook.take_sweep`).

Key definitions: `Order.fillBy`, `Trade.Against`, `Book.makersAfter`,
`Book.Sweep`.
Key theorems: `Book.matchWith_of_pos`, `FlatBook.take_sweep`.
-/

namespace Exchange

namespace Order

/-- An order filled further by `q`. -/
def fillBy (o : Order) (q : UInt64) : Order := { o with filled := o.filled + q }

@[simp] theorem fillBy_id (o : Order) (q : UInt64) : (o.fillBy q).id = o.id := rfl
@[simp] theorem fillBy_userId (o : Order) (q : UInt64) : (o.fillBy q).userId = o.userId := rfl
@[simp] theorem fillBy_side (o : Order) (q : UInt64) : (o.fillBy q).side = o.side := rfl
@[simp] theorem fillBy_price (o : Order) (q : UInt64) : (o.fillBy q).price = o.price := rfl
@[simp] theorem fillBy_quantity (o : Order) (q : UInt64) : (o.fillBy q).quantity = o.quantity := rfl
@[simp] theorem fillBy_filled (o : Order) (q : UInt64) : (o.fillBy q).filled = o.filled + q := rfl

@[simp] theorem accepts_fillBy (o : Order) (q p : UInt64) : (o.fillBy q).accepts p = o.accepts p := rfl

theorem remaining_toNat {o : Order} (ho : o.filled ≤ o.quantity) :
    o.remaining.toNat = o.quantity.toNat - o.filled.toNat :=
  UInt64.toNat_sub_of_le _ _ ho

/-- **A fill by at most what is left does not wrap**, and keeps the order
filled no further than its quantity. -/
theorem fillBy_filled_toNat {o : Order} {q : UInt64} (ho : o.filled ≤ o.quantity) (hq : q ≤ o.remaining) :
    (o.fillBy q).filled.toNat = o.filled.toNat + q.toNat ∧ o.filled.toNat + q.toNat ≤ o.quantity.toNat := by
  have hqn : q.toNat ≤ o.quantity.toNat - o.filled.toNat := by
    rw [← remaining_toNat ho]
    exact UInt64.le_iff_toNat_le.mp hq
  have hle := UInt64.le_iff_toNat_le.mp ho
  have hsize : o.quantity.toNat < 2 ^ 64 := UInt64.toNat_lt_size o.quantity
  refine ⟨?_, by omega⟩
  rw [fillBy_filled, UInt64.toNat_add, Nat.mod_eq_of_lt (by omega)]

theorem fillBy_le_quantity {o : Order} {q : UInt64} (ho : o.filled ≤ o.quantity) (hq : q ≤ o.remaining) :
    (o.fillBy q).filled ≤ (o.fillBy q).quantity := by
  obtain ⟨heq, hle⟩ := fillBy_filled_toNat ho hq
  rw [UInt64.le_iff_toNat_le, heq]
  exact hle

theorem remaining_pos {o : Order} (ho : o.filled ≤ o.quantity) (hf : o.isFilled = false) :
    0 < o.remaining := by
  have hne : o.remaining ≠ 0 := fun h => by
    rw [remaining_eq_zero, hf] at h
    cases h
  have hle : o.filled.toNat ≤ o.quantity.toNat := UInt64.le_iff_toNat_le.mp ho
  rw [UInt64.lt_iff_toNat_lt, UInt64.toNat_zero]
  rw [Ne, ← UInt64.toNat_inj, UInt64.toNat_zero] at hne
  omega

theorem isFilled_of_lt {o : Order} (h : o.filled < o.quantity) : o.isFilled = false :=
  Bool.eq_false_iff.mpr fun hf => UInt64.ne_of_lt h (isFilled_eq_true.mp hf)

end Order

namespace Trade

/-- A trade of the taker `t` against the resting order `m` in `market` at
the time `now`: at `m`'s price, which `t` accepts, naming both orders and
their users, for a positive quantity `m` had left. -/
structure Against (market now : String) (t m : Order) (tr : Trade) : Prop where
  market : tr.market = market
  price : tr.price = m.price
  maker : tr.makerOrderId = m.id ∧ tr.makerUserId = m.userId
  taker : tr.takerOrderId = t.id ∧ tr.takerUserId = t.userId
  executedAt : tr.executedAt = now
  positive : 0 < tr.quantity
  within : tr.quantity ≤ m.remaining
  accepted : t.accepts m.price = true

/-- A trade against a taker is one against the taker filled further: it names
the same order and user, and accepts the same prices. -/
theorem Against.of_fillBy {market now : String} {t m : Order} {q : UInt64} {tr : Trade}
    (h : Against market now (t.fillBy q) m tr) : Against market now t m tr :=
  ⟨h.market, h.price, h.maker, h.taker, h.executedAt, h.positive, h.within, h.accepted⟩

end Trade

theorem mem_dropLast_cons {α : Type} {x y : α} {xs : List α} (h : y ∈ (x :: xs).dropLast) :
    y = x ∨ y ∈ xs.dropLast := by
  cases xs with
  | nil => simp at h
  | cons z zs =>
    rw [List.dropLast_cons_of_ne_nil (List.cons_ne_nil z zs)] at h
    exact List.mem_cons.mp h

namespace Book

/-- The resting orders as the trades against them, in order, left them. -/
def makersAfter (ms : List Order) (ts : List Trade) : List Order :=
  List.zipWith (fun m t => m.fillBy t.quantity) ms ts

@[simp] theorem makersAfter_nil (ts : List Trade) : makersAfter [] ts = [] := rfl

@[simp] theorem makersAfter_nil_right (ms : List Order) : makersAfter ms [] = [] :=
  List.zipWith_nil_right

@[simp] theorem makersAfter_cons_cons (m : Order) (ms : List Order) (t : Trade) (ts : List Trade) :
    makersAfter (m :: ms) (t :: ts) = m.fillBy t.quantity :: makersAfter ms ts := rfl

/-- What crossing the taker `t` with the resting orders `ms` did, with `k`
the number of trades it made: the trades were made, in order, against the
first `k` resting orders; each of those but the last was filled by its trade;
what is left of the list is the last, if it was left unfilled, and the orders
not reached; the taker was filled by the sum of the trades, over the naturals;
and it stopped filled, at the end of the list, or at a price it refuses. -/
structure Sweep (market now : String) (t : Order) (ms : List Order) (r : Taken Order) : Prop where
  length_le : r.trades.length ≤ ms.length
  against : List.Forall₂ (Trade.Against market now t) (ms.take r.trades.length) r.trades
  filled : ∀ m ∈ (makersAfter ms r.trades).dropLast, m.isFilled = true
  left : r.left = (makersAfter ms r.trades).filter (fun m => !m.isFilled) ++ ms.drop r.trades.length
  taker : r.taker = { t with filled := r.taker.filled }
  taker_filled : r.taker.filled.toNat = t.filled.toNat + (r.trades.map fun tr => tr.quantity.toNat).sum
  stop : r.taker.isFilled = true ∨ ∀ m ∈ r.left.head?, r.taker.accepts m.price = false

theorem sweep_stop (market now : String) (t : Order) (ms : List Order) (n : UInt64)
    (hstop : t.isFilled = true ∨ ∀ m ∈ ms.head?, t.accepts m.price = false) :
    Sweep market now t ms ⟨t, [], ms, n⟩ where
  length_le := Nat.zero_le _
  against := by simp
  filled := by simp
  left := by simp
  taker := rfl
  taker_filled := by simp
  stop := hstop

theorem sweep_one (market now : String) {t m : Order} (ms : List Order) {tr : Trade} (n : UInt64)
    (hag : Trade.Against market now t m tr)
    (ht : (t.fillBy tr.quantity).filled.toNat = t.filled.toNat + tr.quantity.toNat)
    (hmf : (m.fillBy tr.quantity).isFilled = false) (hfilled : (t.fillBy tr.quantity).isFilled = true) :
    Sweep market now t (m :: ms) ⟨t.fillBy tr.quantity, [tr], m.fillBy tr.quantity :: ms, n⟩ where
  length_le := by simp
  against := by simpa using hag
  filled := by simp
  left := by simp [hmf]
  taker := rfl
  taker_filled := by rw [ht]; simp
  stop := .inl hfilled

/-- A trade that fills the first resting order, then a sweep of the rest by
the taker so filled, is a sweep of them all. -/
theorem Sweep.cons {market now : String} {t m : Order} {ms : List Order} {tr : Trade} {r : Taken Order}
    (hag : Trade.Against market now t m tr)
    (ht : (t.fillBy tr.quantity).filled.toNat = t.filled.toNat + tr.quantity.toNat)
    (hmf : (m.fillBy tr.quantity).isFilled = true) (h : Sweep market now (t.fillBy tr.quantity) ms r) :
    Sweep market now t (m :: ms) { r with trades := [tr] ++ r.trades } := by
  obtain ⟨hlen, hag', hfil, hleft, htk, htkf, hstop⟩ := h
  refine ⟨by simpa using hlen, ?_, ?_, ?_, ?_, ?_, hstop⟩
  · exact .cons hag (hag'.imp fun _ _ h => h.of_fillBy)
  · intro m' hm'
    simp only [List.singleton_append, makersAfter_cons_cons] at hm'
    rcases mem_dropLast_cons hm' with rfl | hm'
    · exact hmf
    · exact hfil m' hm'
  · simp [hleft, hmf]
  · rw [htk]
    rfl
  · simp only [htkf, List.singleton_append, List.map_cons, List.sum_cons, ht]
    omega

/-- The match of an unfilled taker with an unfilled resting order, each
filled no further than its quantity: both are filled by `min` of their
remainders, which is positive, in one trade at the level's price. -/
theorem matchWith_of_pos (market now : String) (price : UInt64) {t m : Order} (n : UInt64)
    (hpos : 0 < min t.remaining m.remaining) :
    matchWith market now price t m n =
      ⟨t.fillBy (min t.remaining m.remaining), m.fillBy (min t.remaining m.remaining),
        [⟨n, market, price, min t.remaining m.remaining, m.id, t.id, m.userId, t.userId, now⟩], n + 1⟩ := by
  simp [matchWith, hpos, Order.fillBy]

theorem min_remaining_pos {t m : Order} (ht : t.filled ≤ t.quantity) (htf : t.isFilled = false)
    (hm : m.filled < m.quantity) : 0 < min t.remaining m.remaining := by
  have h₁ := Order.remaining_pos ht htf
  have h₂ := Order.remaining_pos (UInt64.le_of_lt hm) (Order.isFilled_of_lt hm)
  rcases min_remaining_cases t m with h | h <;> rw [h] <;> assumption

end Book

namespace FlatBook

open Book

/-- **Crossing a list of resting orders is a sweep**, when every resting
order is unfilled and the taker no more filled than its quantity. -/
theorem take_sweep (market now : String) :
    ∀ (ms : List Order) (t : Order) (n : UInt64), t.filled ≤ t.quantity →
      (∀ m ∈ ms, m.filled < m.quantity) → Sweep market now t ms (take market now t n ms)
  | [], t, n, _, _ => sweep_stop market now t [] n (.inr (by simp))
  | m :: ms, t, n, ht, hms => by
    rw [take_cons]
    cases hstop : t.isFilled || !t.accepts m.price with
    | true =>
      refine sweep_stop market now t (m :: ms) n ?_
      rcases Bool.or_eq_true_iff.mp hstop with h | h
      · exact .inl h
      · refine .inr fun m' hm' => ?_
        obtain rfl : m = m' := by simpa using hm'
        simpa using h
    | false =>
      simp only [Bool.false_eq_true, ↓reduceIte]
      obtain ⟨htf, hacc⟩ : t.isFilled = false ∧ t.accepts m.price = true := by simpa using hstop
      have hm : m.filled < m.quantity := hms m List.mem_cons_self
      have hpos := min_remaining_pos ht htf hm
      rw [matchWith_of_pos market now m.price n hpos]
      generalize hq : min t.remaining m.remaining = q at hpos
      have hqt : q ≤ t.remaining := hq ▸ min_le_remaining_left t m
      have hqm : q ≤ m.remaining := hq ▸ min_le_remaining_right t m
      have hagainst : Trade.Against market now t m
          ⟨n, market, m.price, q, m.id, t.id, m.userId, t.userId, now⟩ :=
        ⟨rfl, rfl, ⟨rfl, rfl⟩, ⟨rfl, rfl⟩, rfl, hpos, hqm, hacc⟩
      have htaker := (Order.fillBy_filled_toNat ht hqt).1
      dsimp only
      cases hmf : (m.fillBy q).isFilled with
      | false =>
        simp only [Bool.not_false, ↓reduceIte]
        have hfilled : (t.fillBy q).isFilled = true := by
          have hexit : (matchWith market now m.price t m n).maker.isFilled = false →
              (matchWith market now m.price t m n).taker.isFilled = true :=
            matchWith_exit market now m.price n htf
          rw [matchWith_of_pos market now m.price n (hq ▸ hpos), hq] at hexit
          exact hexit hmf
        exact sweep_one market now ms _ hagainst htaker hmf hfilled
      | true =>
        simp only [Bool.not_true, Bool.false_eq_true, ↓reduceIte]
        exact .cons hagainst htaker hmf (take_sweep market now ms (t.fillBy q) (n + 1)
          (Order.fillBy_le_quantity ht hqt) fun m' hm' => hms m' (List.mem_cons_of_mem m hm'))

end FlatBook

end Exchange
