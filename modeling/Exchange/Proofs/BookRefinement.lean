import Exchange.Proofs.BookOrder
/-!
# The book is a priority list

The reference for a book, `FlatBook`, keeps each side as one list of resting
orders in priority order: bids from the highest price, asks from the lowest,
orders at one price in arrival order. Placing crosses the taker with the head
of the opposite list while the taker is not filled and accepts the head's
price; each match gives `min` of the two remainders (wrapping), makes a trade
at the head's price when that is positive, drops the head when it is filled
and stops otherwise. What is left of the taker then goes after every order of
its side at an equal or better price. Cancelling removes the first order with
the id, bids before asks; the depth groups each list by price.

A book is its reference seen through `Book.flat`, which joins each side's
queues best level first. Levels split the list at price changes, so the
matching loop over levels is the matching loop over the list
(`takeLevels_flat`), resting at a level is inserting by price (`rest_flat`),
removing from a level is removing from the list (`removeFromSide_flat`), and
summing a level is summing a run of one price (`levels_flat`). These need of
the book only that its sides are ladders (`Book.Sorted`), which every
operation keeps, whatever the orders: any side, any filled part, any id.
Hence over every session the book and its reference answer alike
(`session_refines_flat`).

Key definitions: `FlatBook`, `FlatBook.take`, `FlatBook.insert`,
`FlatBook.levels`, `Book.flat`, `Book.Sorted`.
Key theorems: `Book.takeLevels_flat`, `Book.rest_flat`,
`Book.removeFromSide_flat`, `Book.levels_flat`, `Book.session_refines_flat`.
-/

namespace Exchange

/-- The reference book: each side one list of resting orders, best first. -/
structure FlatBook where
  market : String
  bids : List Order
  asks : List Order
  nextTradeId : UInt64
  deriving DecidableEq

namespace FlatBook

/-- An empty reference book for a market. -/
def empty (market : String) : FlatBook := ⟨market, [], [], 0⟩

/-- The taker against the opposite list, head first: while the taker is not
filled and accepts the head's price, each gives `min` of the two remainders, a
trade is made at the head's price when that is positive, and the head goes
when filled; an unfilled head stops the run. -/
def take (market now : String) : Order → UInt64 → List Order → Book.Taken Order
  | t, n, [] => ⟨t, [], [], n⟩
  | t, n, h :: hs =>
    if t.isFilled || !t.accepts h.price then ⟨t, [], h :: hs, n⟩
    else
      let q := min t.remaining h.remaining
      let t₁ : Order := if q > 0 then { t with filled := t.filled + q } else t
      let h₁ : Order := if q > 0 then { h with filled := h.filled + q } else h
      let made : List Trade :=
        if q > 0 then [⟨n, market, h.price, q, h.id, t.id, h.userId, t.userId, now⟩] else []
      let n₁ := if q > 0 then n + 1 else n
      if !h₁.isFilled then ⟨t₁, made, h₁ :: hs, n₁⟩
      else
        let r := take market now t₁ n₁ hs
        { r with trades := made ++ r.trades }

/-- An order joins a list after every order whose price is equal or better:
before the first order whose price it beats under `better`. -/
def insert (better : UInt64 → UInt64 → Bool) (o : Order) : List Order → List Order
  | [] => [o]
  | h :: hs => if better o.price h.price then o :: h :: hs else h :: insert better o hs

/-- Places an order: crosses it with the opposite list, then inserts what is
left of it in its own. -/
def place (b : FlatBook) (now : String) (o : Order) : Placed × FlatBook :=
  if o.side.isBuy then
    let r := take b.market now o b.nextTradeId b.asks
    let bids := if r.taker.isFilled then b.bids else insert Book.bidBetter r.taker b.bids
    (⟨r.trades, r.taker⟩, { b with asks := r.left, bids := bids, nextTradeId := r.next })
  else
    let r := take b.market now o b.nextTradeId b.bids
    let asks := if r.taker.isFilled then b.asks else insert Book.askBetter r.taker b.asks
    (⟨r.trades, r.taker⟩, { b with bids := r.left, asks := asks, nextTradeId := r.next })

/-- Cancels the first order with an id, scanning the bids and then the asks. -/
def cancel (b : FlatBook) (id : UInt64) : Option Order × FlatBook :=
  match Book.removeOrder id b.bids with
  | some (o, bids) => (some o, { b with bids := bids })
  | none =>
    match Book.removeOrder id b.asks with
    | some (o, asks) => (some o, { b with asks := asks })
    | none => (none, b)

/-- A list grouped by price: each run of orders at one price becomes a level
with the sum of their remainders, modulo 2^64. -/
def levels : List Order → List Level
  | [] => []
  | o :: os =>
    match levels os with
    | l :: ls =>
      if l.price = o.price then ⟨o.price, o.remaining + l.quantity⟩ :: ls
      else ⟨o.price, o.remaining⟩ :: l :: ls
    | [] => [⟨o.price, o.remaining⟩]

/-- Both lists grouped by price. -/
def depth (b : FlatBook) : Depth := ⟨levels b.bids, levels b.asks⟩

/-- Answers one call on the reference book. -/
def perform (b : FlatBook) : Book.Call → Book.Answer × FlatBook
  | .place now o => (.placed (b.place now o).1, (b.place now o).2)
  | .cancel id => (.cancelled (b.cancel id).1, (b.cancel id).2)
  | .depth => (.depth b.depth, b)
  | .bestBid => (.level (levels b.bids).head?, b)
  | .bestAsk => (.level (levels b.asks).head?, b)
  | .tradeCount => (.count b.nextTradeId, b)

theorem take_cons (market now : String) (t : Order) (n : UInt64) (h : Order) (hs : List Order) :
    take market now t n (h :: hs) =
      if t.isFilled || !t.accepts h.price then ⟨t, [], h :: hs, n⟩
      else
        let s := Book.matchWith market now h.price t h n
        if !s.maker.isFilled then ⟨s.taker, s.trades, s.maker :: hs, s.next⟩
        else
          let r := take market now s.taker s.next hs
          { r with trades := s.trades ++ r.trades } :=
  rfl

end FlatBook

namespace Book

/-- A book seen as its reference: each side's queues joined, best level
first. -/
def flat (b : Book) : FlatBook :=
  ⟨b.market, b.bids.flatMap (·.orders), b.asks.flatMap (·.orders), b.nextTradeId⟩

/-- A book whose sides are ladders, whatever orders they hold. -/
structure Sorted (b : Book) : Prop where
  bids : Ladder bidBetter (fun _ => True) b.bids
  asks : Ladder askBetter (fun _ => True) b.asks

/-! ### Matching -/

section Matching

variable (market now : String) {better : UInt64 → UInt64 → Bool} {P : Order → Prop}

/-- **A queue is a stretch of the list.** Running the reference over a queue
of orders at one accepted price and then further orders is matching against
the queue, and then, if the queue is used up, the run over the rest. -/
theorem take_append_queue {p : UInt64} (rest : List Order) :
    ∀ (t : Order) (n : UInt64) (ms : List Order), t.accepts p = true → (∀ m ∈ ms, m.price = p) →
      FlatBook.take market now t n (ms ++ rest) =
        if (takeQueue market now p t n ms).left = [] then
          let r := takeQueue market now p t n ms
          let s := FlatBook.take market now r.taker r.next rest
          { s with trades := r.trades ++ s.trades }
        else
          let r := takeQueue market now p t n ms
          { r with left := r.left ++ rest }
  | t, n, [], _, _ => by simp [takeQueue]
  | t, n, m :: ms, ha, hp => by
    have hm : m.price = p := hp m List.mem_cons_self
    rw [List.cons_append, FlatBook.take_cons, takeQueue_cons, hm, ha]
    by_cases ht : t.isFilled = true
    · simp [ht]
    · have ht' : t.isFilled = false := by simpa using ht
      simp only [ht', Bool.not_true, Bool.or_false, Bool.false_eq_true, ↓reduceIte]
      by_cases hmf : (matchWith market now p t m n).maker.isFilled = true
      · simp only [hmf, Bool.not_true, Bool.false_eq_true, ↓reduceIte]
        have ha' : (matchWith market now p t m n).taker.accepts p = true := by
          rw [Order.accepts_of_fillOf (matchWith_taker market now p t m n), ha]
        rw [take_append_queue rest _ _ ms ha' fun m' hm' => hp m' (List.mem_cons_of_mem m hm')]
        split <;> simp [List.append_assoc]
      · have hmf' : (matchWith market now p t m n).maker.isFilled = false := by simpa using hmf
        simp [hmf']

theorem flat_head (h : Ladder better P ls) :
    ∀ y ∈ (ls.flatMap (·.orders)).head?, ∃ l ∈ ls.head?, y.price = l.price := by
  intro y hy
  cases ls with
  | nil => simp at hy
  | cons l ls =>
    obtain ⟨m, ms, hms, hm⟩ := h.head_order
    simp only [List.flatMap_cons, hms, List.cons_append, List.head?_cons, Option.mem_def,
      Option.some.injEq] at hy
    subst hy
    exact ⟨l, rfl, hm⟩

/-- **Matching against a side is matching against its list.** -/
theorem takeLevels_flat :
    ∀ (t : Order) (n : UInt64) (ls : List PriceLevel), Ladder better P ls →
      FlatBook.take market now t n (ls.flatMap (·.orders)) =
        { takeLevels market now t n ls with
          left := (takeLevels market now t n ls).left.flatMap (·.orders) }
  | t, n, [], _ => by simp [takeLevels, FlatBook.take]
  | t, n, l :: ls, hls => by
    rw [List.flatMap_cons]
    cases h : t.isFilled || !t.accepts l.price with
    | true =>
      rw [takeLevels_stop market now n ls h]
      obtain ⟨m, ms, hms, hm⟩ := hls.head_order
      rw [hms, List.cons_append, FlatBook.take_cons, hm, h]
      simp [hms]
    | false =>
      have ha : t.accepts l.price = true := by simp_all
      rw [take_append_queue market now _ t n l.orders ha hls.head_priced]
      cases hl : (takeQueue market now l.price t n l.orders).left with
      | nil =>
        rw [takeLevels_pass market now ls h hl]
        simp only [↓reduceIte]
        rw [takeLevels_flat _ _ ls hls.tail]
      | cons q qs =>
        rw [takeLevels_part market now ls h hl]
        simp [hl]

end Matching

/-! ### Resting, cancelling, grouping -/

section Views

variable {better : UInt64 → UInt64 → Bool} {P : Order → Prop}

/-- Inserting passes orders whose price the order does not beat. -/
theorem insert_append (o : Order) {xs : List Order} (ys : List Order)
    (hx : ∀ x ∈ xs, better o.price x.price = false) :
    FlatBook.insert better o (xs ++ ys) = xs ++ FlatBook.insert better o ys := by
  induction xs with
  | nil => rfl
  | cons x xs ih =>
    have hxo := hx x List.mem_cons_self
    simp only [List.cons_append, FlatBook.insert, hxo, Bool.false_eq_true, ↓reduceIte]
    rw [ih fun x' hx' => hx x' (List.mem_cons_of_mem x hx')]

theorem insert_of_head (o : Order) {ys : List Order}
    (hy : ∀ y ∈ ys.head?, better o.price y.price = true) :
    FlatBook.insert better o ys = o :: ys := by
  cases ys with
  | nil => rfl
  | cons y ys => simp [FlatBook.insert, hy y rfl]

/-- **Resting at a level is inserting in the list.** -/
theorem rest_flat (hr : StrictRank better) (o : Order) :
    ∀ ls : List PriceLevel, Ladder better P ls →
      (rest better o ls).flatMap (·.orders) = FlatBook.insert better o (ls.flatMap (·.orders))
  | [], _ => rfl
  | l :: ls, hls => by
    by_cases h₁ : l.price = o.price
    · simp only [rest, h₁, ↓reduceIte, List.flatMap_cons, List.append_assoc, List.singleton_append]
      rw [insert_append o _ fun x hx => by rw [hls.head_priced x hx, h₁, hr.irrefl]]
      congr 1
      refine (insert_of_head o fun y hy => ?_).symm
      obtain ⟨l', hl', hy'⟩ := flat_head hls.tail y hy
      rw [hy', ← h₁]
      exact hls.head_better (List.mem_map_of_mem (List.mem_of_mem_head? hl'))
    · by_cases h₂ : better o.price l.price = true
      · simp only [rest, h₁, h₂, ↓reduceIte, List.flatMap_cons, List.singleton_append]
        refine (insert_of_head o fun y hy => ?_).symm
        obtain ⟨m, ms, hms, hm⟩ := hls.head_order
        simp only [hms, List.cons_append, List.head?_cons, Option.mem_def, Option.some.injEq] at hy
        subst hy
        rw [hm]
        exact h₂
      · simp only [rest, h₁, h₂, Bool.false_eq_true, ↓reduceIte, List.flatMap_cons]
        rw [insert_append o _ fun x hx => by rw [hls.head_priced x hx]; simpa using h₂,
          rest_flat hr o ls hls.tail]

theorem removeOrder_append (id : UInt64) (ys : List Order) :
    ∀ xs : List Order, Book.removeOrder id (xs ++ ys) =
      match Book.removeOrder id xs with
      | some (o, rest) => some (o, rest ++ ys)
      | none => (Book.removeOrder id ys).map fun r => (r.1, xs ++ r.2)
  | [] => by simp [removeOrder]
  | x :: xs => by
    by_cases hx : x.id = id
    · simp [removeOrder, hx]
    · simp only [List.cons_append, removeOrder, hx, ↓reduceIte, removeOrder_append id ys xs]
      cases Book.removeOrder id xs <;> simp [Function.comp_def]

/-- **Removing from a side is removing from its list.** -/
theorem removeFromSide_flat (id : UInt64) :
    ∀ ls : List PriceLevel, (removeFromSide id ls).map (fun r => (r.1, r.2.flatMap (·.orders))) =
      removeOrder id (ls.flatMap (·.orders))
  | [] => rfl
  | l :: ls => by
    rw [List.flatMap_cons, removeOrder_append]
    cases hr : removeOrder id l.orders with
    | none =>
      simp only [removeFromSide, hr, Option.map_map, ← removeFromSide_flat id ls]
      cases removeFromSide id ls <;> simp
    | some r =>
      obtain ⟨o, rest⟩ := r
      cases rest with
      | nil => simp [removeFromSide, hr]
      | cons q qs => simp [removeFromSide, hr]

theorem levels_cons_of_ne {o : Order} {os : List Order}
    (h : ∀ l ∈ (FlatBook.levels os).head?, l.price ≠ o.price) :
    FlatBook.levels (o :: os) = ⟨o.price, o.remaining⟩ :: FlatBook.levels os := by
  simp only [FlatBook.levels]
  split
  · next l ls hl => simp [hl] at h; simp [h, hl]
  · next hl => simp [hl]

/-- A run of orders at one price, before orders at another, is one level. -/
theorem levels_append_run {p : UInt64} (ys : List Order)
    (hy : ∀ l ∈ (FlatBook.levels ys).head?, l.price ≠ p) :
    ∀ xs : List Order, xs ≠ [] → (∀ x ∈ xs, x.price = p) →
      FlatBook.levels (xs ++ ys) = ⟨p, (xs.map Order.remaining).foldr (· + ·) 0⟩ :: FlatBook.levels ys
  | [], hne, _ => absurd rfl hne
  | [x], _, hx => by
    have hxp : x.price = p := hx x List.mem_cons_self
    rw [List.singleton_append, levels_cons_of_ne (by rw [hxp]; exact hy), hxp]
    simp
  | x :: x' :: xs, _, hx => by
    have hxp : x.price = p := hx x List.mem_cons_self
    have ih := levels_append_run ys hy (x' :: xs) (by simp)
      fun x'' hx'' => hx x'' (List.mem_cons_of_mem x hx'')
    rw [List.cons_append, FlatBook.levels, ih]
    simp [hxp]

/-- **Each level is a run of one price.** A ladder's list grouped by price is
its levels' totals. -/
theorem levels_flat (hr : StrictRank better) :
    ∀ ls : List PriceLevel, Ladder better P ls →
      FlatBook.levels (ls.flatMap (·.orders)) = ls.map PriceLevel.total
  | [], _ => rfl
  | l :: ls, hls => by
    have ih := levels_flat hr ls hls.tail
    rw [List.flatMap_cons, levels_append_run _ ?_ l.orders (hls.nonempty l List.mem_cons_self)
      hls.head_priced, ih]
    · rfl
    · rw [ih]
      intro l' hl' heq
      cases ls with
      | nil => simp at hl'
      | cons l'' ls =>
        simp only [List.map_cons, List.head?_cons, Option.mem_def, Option.some.injEq] at hl'
        have hb := hls.head_better (p := l''.price) (by simp)
        rw [← hl'] at heq
        simp only [PriceLevel.total] at heq
        rw [heq, hr.irrefl] at hb
        contradiction

end Views

/-! ### Sessions -/

section Sessions

variable {b : Book}

theorem fillStable_true : FillStable fun _ => True := fun _ _ _ _ _ => trivial

theorem empty_sorted (market : String) : (empty market).Sorted := ⟨Ladder.nil, Ladder.nil⟩

theorem place_sorted (h : b.Sorted) (now : String) (o : Order) : (b.place now o).2.Sorted := by
  unfold place
  split
  · dsimp only
    refine ⟨?_, takeLevels_ladder _ _ fillStable_true _ _ _ h.asks⟩
    split
    · exact h.bids
    · exact rest_ladder bidBetter_rank trivial _ h.bids
  · dsimp only
    refine ⟨takeLevels_ladder _ _ fillStable_true _ _ _ h.bids, ?_⟩
    split
    · exact h.asks
    · exact rest_ladder askBetter_rank trivial _ h.asks

theorem cancel_sorted (h : b.Sorted) (id : UInt64) : (b.cancel id).2.Sorted := by
  unfold cancel
  cases hb : removeFromSide id b.bids with
  | some r => exact ⟨removeFromSide_ladder id h.bids hb, h.asks⟩
  | none =>
    cases ha : removeFromSide id b.asks with
    | some r => exact ⟨h.bids, removeFromSide_ladder id h.asks ha⟩
    | none => exact h

theorem place_refines (h : b.Sorted) (now : String) (o : Order) :
    b.flat.place now o = ((b.place now o).1, (b.place now o).2.flat) := by
  simp only [place, FlatBook.place, flat]
  split
  · simp only [takeLevels_flat b.market now o b.nextTradeId b.asks h.asks]
    by_cases hf : (takeLevels b.market now o b.nextTradeId b.asks).taker.isFilled = true
    · simp [hf]
    · simp [hf, rest_flat bidBetter_rank _ _ h.bids]
  · simp only [takeLevels_flat b.market now o b.nextTradeId b.bids h.bids]
    by_cases hf : (takeLevels b.market now o b.nextTradeId b.bids).taker.isFilled = true
    · simp [hf]
    · simp [hf, rest_flat askBetter_rank _ _ h.asks]

theorem cancel_refines (b : Book) (id : UInt64) :
    b.flat.cancel id = ((b.cancel id).1, (b.cancel id).2.flat) := by
  simp only [cancel, FlatBook.cancel, flat, ← removeFromSide_flat]
  cases removeFromSide id b.bids with
  | some r => rfl
  | none =>
    cases removeFromSide id b.asks with
    | some r => rfl
    | none => rfl

theorem depth_refines (h : b.Sorted) : b.flat.depth = b.depth := by
  simp only [FlatBook.depth, depth, flat, levels_flat bidBetter_rank _ h.bids,
    levels_flat askBetter_rank _ h.asks]

/-- **A call on a book is the call on its reference**, and keeps its sides
ladders. -/
theorem perform_refines (h : b.Sorted) :
    ∀ c : Call, b.flat.perform c = ((b.perform c).1, (b.perform c).2.flat) ∧ (b.perform c).2.Sorted
  | .place now o => ⟨by simp only [perform, FlatBook.perform, place_refines h], place_sorted h now o⟩
  | .cancel id => ⟨by simp only [perform, FlatBook.perform, cancel_refines], cancel_sorted h id⟩
  | .depth => ⟨by simp only [perform, FlatBook.perform, depth_refines h], h⟩
  | .bestBid => ⟨by simp [perform, FlatBook.perform, flat, bestBid, levels_flat bidBetter_rank _ h.bids], h⟩
  | .bestAsk => ⟨by simp [perform, FlatBook.perform, flat, bestAsk, levels_flat askBetter_rank _ h.asks], h⟩
  | .tradeCount => ⟨rfl, h⟩

/-- **The book refines the priority list.** Over every session from a new
book, whatever its orders (any side, any filled part, repeated ids), the book
and its reference give the same answers to every placement, cancellation,
depth, best bid, best ask and trade count, and the book ends as its reference
does. -/
theorem session_refines_flat (market : String) (calls : List Call) :
    (runCalls perform (empty market) calls).1 =
        (runCalls FlatBook.perform (FlatBook.empty market) calls).1 ∧
      (runCalls perform (empty market) calls).2.flat =
        (runCalls FlatBook.perform (FlatBook.empty market) calls).2 := by
  have hstep : ∀ (b : Book) (f : FlatBook) (c : Call), b.Sorted ∧ b.flat = f →
      (b.perform c).1 = (f.perform c).1 ∧ ((b.perform c).2.Sorted ∧ (b.perform c).2.flat = (f.perform c).2) := by
    rintro b f c ⟨hb, rfl⟩
    obtain ⟨heq, hsorted⟩ := perform_refines hb c
    rw [heq]
    exact ⟨rfl, hsorted, rfl⟩
  obtain ⟨hans, -, hfinal⟩ := runCalls_simulation perform FlatBook.perform
    (fun b f => b.Sorted ∧ b.flat = f) hstep calls (empty market) (FlatBook.empty market)
    ⟨empty_sorted market, rfl⟩
  exact ⟨hans, hfinal⟩

end Sessions

end Book

end Exchange
