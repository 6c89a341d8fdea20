import Exchange.Proofs.Session
/-!
# What matching, resting and cancelling do to a side

A side of a book is a `Ladder` when its levels run strictly best first under
the side's rule on prices, no level is empty, and every order stands at its
level's price with some property `P`. This file says, once for every side,
what the three operations that change a side do to it:

* matching (`takeQueue`, `takeLevels`) fills the taker by at most what it had
  left (`takeLevels_fillOf`), leaves a suffix of the levels whose head may have
  lost orders from its front (`takeLevels_left_prices`, `takeLevels_ladder`),
  and stops with the taker unfilled only at a price it refuses
  (`takeLevels_exit`);
* resting (`rest`) puts the order at its place by price (`rest_ladder`);
* cancelling (`removeFromSide`) keeps a sublist of the levels
  (`removeFromSide_ladder`).

The rules on prices of the two sides are strict total orders (`StrictRank`),
and every statement is made for any such rule.

Key definitions: `Order.FillOf`, `Book.StrictRank`, `Book.Ladder`.
Key theorems: `Book.takeLevels_ladder`, `Book.takeLevels_exit`,
`Book.rest_ladder`, `Book.removeFromSide_ladder`.
-/

namespace Exchange

/-! ### Filling an order -/

namespace Order

theorem isFilled_eq_true {o : Order} : o.isFilled = true ↔ o.filled = o.quantity := by
  simp [isFilled]

theorem remaining_eq_zero {o : Order} : o.remaining = 0 ↔ o.isFilled = true := by
  rw [isFilled_eq_true, remaining]
  grind

theorem isFilled_fill_remaining (o : Order) :
    ({ o with filled := o.filled + o.remaining } : Order).isFilled = true := by
  rw [isFilled_eq_true, remaining]
  grind

/-- `t'` is `t` filled by at most what `t` had left; nothing else changes. -/
def FillOf (t t' : Order) : Prop :=
  ∃ q, q ≤ t.remaining ∧ t' = { t with filled := t.filled + q }

theorem FillOf.refl (t : Order) : t.FillOf t :=
  ⟨0, UInt64.zero_le, by simp⟩

theorem FillOf.trans {t t' t'' : Order} (h₁ : t.FillOf t') (h₂ : t'.FillOf t'') : t.FillOf t'' := by
  obtain ⟨q, hq, rfl⟩ := h₁
  obtain ⟨q', hq', rfl⟩ := h₂
  refine ⟨q + q', ?_, by simp [UInt64.add_assoc]⟩
  have hrem : ({ t with filled := t.filled + q } : Order).remaining = t.remaining - q := by
    simp only [remaining]
    grind
  rw [hrem] at hq'
  have hq'n : q'.toNat ≤ t.remaining.toNat - q.toNat := by
    rw [← UInt64.toNat_sub_of_le _ _ hq]
    exact UInt64.le_iff_toNat_le.mp hq'
  have hqn := UInt64.le_iff_toNat_le.mp hq
  have hsize := UInt64.toNat_lt_size t.remaining
  rw [UInt64.le_iff_toNat_le, UInt64.toNat_add]
  omega

theorem FillOf.price {t t' : Order} (h : t.FillOf t') : t'.price = t.price := by
  obtain ⟨q, -, rfl⟩ := h; rfl

theorem FillOf.side {t t' : Order} (h : t.FillOf t') : t'.side = t.side := by
  obtain ⟨q, -, rfl⟩ := h; rfl

theorem FillOf.quantity {t t' : Order} (h : t.FillOf t') : t'.quantity = t.quantity := by
  obtain ⟨q, -, rfl⟩ := h; rfl

theorem FillOf.filled_le {t t' : Order} (h : t.FillOf t') (ht : t.filled ≤ t.quantity) :
    t'.filled ≤ t'.quantity := by
  obtain ⟨q, hq, rfl⟩ := h
  have hqn : q.toNat ≤ t.quantity.toNat - t.filled.toNat := by
    rw [← UInt64.toNat_sub_of_le _ _ ht]
    exact UInt64.le_iff_toNat_le.mp hq
  have htn := UInt64.le_iff_toNat_le.mp ht
  have hsize := UInt64.toNat_lt_size t.quantity
  simp only [UInt64.le_iff_toNat_le, UInt64.toNat_add]
  omega

theorem accepts_of_fillOf {t t' : Order} (h : t.FillOf t') (p : UInt64) :
    t'.accepts p = t.accepts p := by
  simp only [accepts, h.side, h.price]

end Order

namespace Book

theorem min_le_remaining_left (t m : Order) : min t.remaining m.remaining ≤ t.remaining := by
  show (if t.remaining ≤ m.remaining then t.remaining else m.remaining) ≤ t.remaining
  split <;> simp_all [UInt64.le_iff_toNat_le]
  omega

theorem min_le_remaining_right (t m : Order) : min t.remaining m.remaining ≤ m.remaining := by
  show (if t.remaining ≤ m.remaining then t.remaining else m.remaining) ≤ m.remaining
  split <;> simp_all [UInt64.le_iff_toNat_le]

theorem min_remaining_cases (t m : Order) :
    min t.remaining m.remaining = t.remaining ∨ min t.remaining m.remaining = m.remaining := by
  show (if t.remaining ≤ m.remaining then t.remaining else m.remaining) = t.remaining ∨
    (if t.remaining ≤ m.remaining then t.remaining else m.remaining) = m.remaining
  split
  · exact .inl rfl
  · exact .inr rfl

theorem fillOf_ite (t : Order) {q : UInt64} (hq : q ≤ t.remaining) (c : Prop) [Decidable c] :
    t.FillOf (if c then { t with filled := t.filled + q } else t) := by
  split
  · exact ⟨q, hq, rfl⟩
  · exact .refl t

/-- What a side's rule on prices must be: a strict total order. -/
structure StrictRank (better : UInt64 → UInt64 → Bool) : Prop where
  irrefl : ∀ p, better p p = false
  trans : ∀ p q r, better p q = true → better q r = true → better p r = true
  total : ∀ p q, p ≠ q → better p q = false → better q p = true

theorem bidBetter_rank : StrictRank bidBetter where
  irrefl p := by simp [bidBetter]
  trans p q r := by simp only [bidBetter, decide_eq_true_eq, UInt64.lt_iff_toNat_lt]; omega
  total p q := by
    simp only [bidBetter, decide_eq_true_eq, decide_eq_false_iff_not, UInt64.lt_iff_toNat_lt, ne_eq,
      ← UInt64.toNat_inj]
    omega

theorem askBetter_rank : StrictRank askBetter where
  irrefl p := by simp [askBetter]
  trans p q r := by simp only [askBetter, decide_eq_true_eq, UInt64.lt_iff_toNat_lt]; omega
  total p q := by
    simp only [askBetter, decide_eq_true_eq, decide_eq_false_iff_not, UInt64.lt_iff_toNat_lt, ne_eq,
      ← UInt64.toNat_inj]
    omega

/-- A side in good order under the rule `better`, every order with `P`: prices
strictly best first, no empty level, every order at its level's price. -/
structure Ladder (better : UInt64 → UInt64 → Bool) (P : Order → Prop) (ls : List PriceLevel) :
    Prop where
  sorted : (ls.map (·.price)).Pairwise fun p q => better p q = true
  nonempty : ∀ l ∈ ls, l.orders ≠ []
  priced : ∀ l ∈ ls, ∀ o ∈ l.orders, o.price = l.price ∧ P o

/-- A property of resting orders that a partial fill keeps. -/
def FillStable (P : Order → Prop) : Prop :=
  ∀ m o, P m → m.FillOf o → o.isFilled = false → P o

section Ladder

variable {better : UInt64 → UInt64 → Bool} {P : Order → Prop}

theorem Ladder.nil : Ladder better P [] := ⟨.nil, by simp, by simp⟩

theorem Ladder.tail {l : PriceLevel} {ls : List PriceLevel} (h : Ladder better P (l :: ls)) :
    Ladder better P ls where
  sorted := (List.pairwise_cons.mp h.sorted).2
  nonempty l' hl' := h.nonempty l' (List.mem_cons_of_mem l hl')
  priced l' hl' := h.priced l' (List.mem_cons_of_mem l hl')

theorem Ladder.head_better {l : PriceLevel} {ls : List PriceLevel} (h : Ladder better P (l :: ls))
    {p : UInt64} (hp : p ∈ ls.map (·.price)) : better l.price p = true :=
  (List.pairwise_cons.mp h.sorted).1 p hp

theorem Ladder.head_priced {l : PriceLevel} {ls : List PriceLevel} (h : Ladder better P (l :: ls)) :
    ∀ o ∈ l.orders, o.price = l.price :=
  fun o ho => (h.priced l List.mem_cons_self o ho).1

theorem Ladder.head_order {l : PriceLevel} {ls : List PriceLevel} (h : Ladder better P (l :: ls)) :
    ∃ m ms, l.orders = m :: ms ∧ m.price = l.price := by
  obtain ⟨m, ms, hms⟩ := List.exists_cons_of_ne_nil (h.nonempty l List.mem_cons_self)
  exact ⟨m, ms, hms, h.head_priced m (by simp [hms])⟩

/-- A level put in front of a side in good order keeps it so when its price
beats every price behind it and it holds orders, all at its price. -/
theorem Ladder.cons {l : PriceLevel} {ls : List PriceLevel} (h : Ladder better P ls)
    (hbetter : ∀ p ∈ ls.map (·.price), better l.price p = true) (hl : l.orders ≠ [])
    (hpriced : ∀ o ∈ l.orders, o.price = l.price ∧ P o) : Ladder better P (l :: ls) where
  sorted := List.pairwise_cons.mpr ⟨hbetter, h.sorted⟩
  nonempty l' hl' := by
    rcases List.mem_cons.mp hl' with rfl | hl'
    · exact hl
    · exact h.nonempty l' hl'
  priced l' hl' := by
    rcases List.mem_cons.mp hl' with rfl | hl'
    · exact hpriced
    · exact h.priced l' hl'

theorem Ladder.setOrders {l : PriceLevel} {ls : List PriceLevel} (h : Ladder better P (l :: ls))
    {os : List Order} (hos : os ≠ []) (hpriced : ∀ o ∈ os, o.price = l.price ∧ P o) :
    Ladder better P ({ l with orders := os } :: ls) :=
  h.tail.cons (fun _ hp => h.head_better hp) hos hpriced

end Ladder

/-- One match of a taker with a resting order. -/
structure Match where
  taker : Order
  maker : Order
  trades : List Trade
  next : UInt64

/-- The match of a taker with the resting order at the front of a queue, at
the level's price: each gives `min` of the two remainders, and a trade is made
when that is positive. -/
def matchWith (market now : String) (price : UInt64) (t m : Order) (n : UInt64) : Match :=
  let q := min t.remaining m.remaining
  ⟨if q > 0 then { t with filled := t.filled + q } else t,
   if q > 0 then { m with filled := m.filled + q } else m,
   if q > 0 then [⟨n, market, price, q, m.id, t.id, m.userId, t.userId, now⟩] else [],
   if q > 0 then n + 1 else n⟩

section Matching

variable (market now : String) {better : UInt64 → UInt64 → Bool} {P : Order → Prop}

theorem takeQueue_cons (price : UInt64) (t : Order) (n : UInt64) (m : Order) (ms : List Order) :
    takeQueue market now price t n (m :: ms) =
      if t.isFilled then ⟨t, [], m :: ms, n⟩
      else
        let s := matchWith market now price t m n
        if !s.maker.isFilled then ⟨s.taker, s.trades, s.maker :: ms, s.next⟩
        else
          let r := takeQueue market now price s.taker s.next ms
          { r with trades := s.trades ++ r.trades } :=
  rfl

theorem matchWith_taker (price : UInt64) (t m : Order) (n : UInt64) :
    t.FillOf (matchWith market now price t m n).taker :=
  fillOf_ite t (min_le_remaining_left t m) _

theorem matchWith_maker (price : UInt64) (t m : Order) (n : UInt64) :
    m.FillOf (matchWith market now price t m n).maker :=
  fillOf_ite m (min_le_remaining_right t m) _

/-- A match leaves the maker unfilled only when it fills the taker. -/
theorem matchWith_exit (price : UInt64) {t m : Order} (n : UInt64) (ht : t.isFilled = false)
    (hm : (matchWith market now price t m n).maker.isFilled = false) :
    (matchWith market now price t m n).taker.isFilled = true := by
  simp only [matchWith] at hm ⊢
  by_cases hq : min t.remaining m.remaining > 0
  · simp only [hq, ↓reduceIte] at hm ⊢
    rcases min_remaining_cases t m with h | h
    · rw [h]
      exact Order.isFilled_fill_remaining t
    · rw [h, Order.isFilled_fill_remaining m] at hm
      contradiction
  · simp only [hq, ↓reduceIte] at hm ⊢
    have h0 : min t.remaining m.remaining = 0 := by
      simp only [gt_iff_lt, UInt64.lt_iff_toNat_lt, UInt64.toNat_zero] at hq
      exact UInt64.toNat_inj.mp (by simpa using hq)
    rcases min_remaining_cases t m with h | h
    · rw [h, Order.remaining_eq_zero, ht] at h0
      contradiction
    · rw [h, Order.remaining_eq_zero, hm] at h0
      contradiction

theorem takeQueue_fillOf (price : UInt64) :
    ∀ (t : Order) (n : UInt64) (ms : List Order), t.FillOf (takeQueue market now price t n ms).taker
  | t, n, [] => .refl t
  | t, n, m :: ms => by
    rw [takeQueue_cons]
    split
    · exact .refl t
    · dsimp only
      have h₁ := matchWith_taker market now price t m n
      split
      · exact h₁
      · exact h₁.trans (takeQueue_fillOf price _ _ ms)

/-- What matching leaves of a queue: orders of the queue, each as it was or,
the one it stopped at, filled in part and still unfilled. -/
theorem takeQueue_left (price : UInt64) :
    ∀ (t : Order) (n : UInt64) (ms : List Order), ∀ o ∈ (takeQueue market now price t n ms).left,
      ∃ m ∈ ms, o = m ∨ (m.FillOf o ∧ o.isFilled = false)
  | t, n, [], o, ho => by simp [takeQueue] at ho
  | t, n, m :: ms, o, ho => by
    rw [takeQueue_cons] at ho
    split at ho
    · exact ⟨o, ho, .inl rfl⟩
    · dsimp only at ho
      split at ho
      · next hm =>
        rcases List.mem_cons.mp ho with rfl | ho
        · refine ⟨m, List.mem_cons_self, .inr ⟨matchWith_maker market now price t m n, ?_⟩⟩
          simpa using hm
        · exact ⟨o, List.mem_cons_of_mem m ho, .inl rfl⟩
      · obtain ⟨m', hm', ho'⟩ := takeQueue_left price _ _ ms o ho
        exact ⟨m', List.mem_cons_of_mem m hm', ho'⟩

theorem takeQueue_filled (price : UInt64) :
    ∀ (t : Order) (n : UInt64) (ms : List Order), (takeQueue market now price t n ms).left ≠ [] →
      (takeQueue market now price t n ms).taker.isFilled = true
  | t, n, [], h => by simp [takeQueue] at h
  | t, n, m :: ms, h => by
    rw [takeQueue_cons] at h ⊢
    by_cases ht : t.isFilled = true
    · simp only [ht, ↓reduceIte]
    · have ht' : t.isFilled = false := by simpa using ht
      simp only [ht', Bool.false_eq_true, ↓reduceIte] at h ⊢
      by_cases hm : (matchWith market now price t m n).maker.isFilled = true
      · simp only [hm, Bool.not_true, Bool.false_eq_true, ↓reduceIte] at h ⊢
        exact takeQueue_filled price _ _ ms h
      · have hm' : (matchWith market now price t m n).maker.isFilled = false := by simpa using hm
        simp only [hm', Bool.not_false, ↓reduceIte]
        exact matchWith_exit market now price n ht' hm'

theorem takeLevels_stop {t : Order} {l : PriceLevel} (n : UInt64) (ls : List PriceLevel)
    (h : (t.isFilled || !t.accepts l.price) = true) :
    takeLevels market now t n (l :: ls) = ⟨t, [], l :: ls, n⟩ := by
  simp only [takeLevels, h, ↓reduceIte]

theorem takeLevels_pass {t : Order} {l : PriceLevel} {n : UInt64} (ls : List PriceLevel)
    (h : (t.isFilled || !t.accepts l.price) = false)
    (hl : (takeQueue market now l.price t n l.orders).left = []) :
    takeLevels market now t n (l :: ls) =
      let r := takeQueue market now l.price t n l.orders
      let s := takeLevels market now r.taker r.next ls
      { s with trades := r.trades ++ s.trades } := by
  simp only [takeLevels, h, Bool.false_eq_true, ↓reduceIte, hl]

theorem takeLevels_part {t : Order} {l : PriceLevel} {n : UInt64} (ls : List PriceLevel)
    {q : Order} {qs : List Order} (h : (t.isFilled || !t.accepts l.price) = false)
    (hl : (takeQueue market now l.price t n l.orders).left = q :: qs) :
    takeLevels market now t n (l :: ls) =
      let r := takeQueue market now l.price t n l.orders
      ⟨r.taker, r.trades, { l with orders := q :: qs } :: ls, r.next⟩ := by
  simp only [takeLevels, h, Bool.false_eq_true, ↓reduceIte, hl]

theorem takeLevels_fillOf :
    ∀ (t : Order) (n : UInt64) (ls : List PriceLevel), t.FillOf (takeLevels market now t n ls).taker
  | t, n, [] => .refl t
  | t, n, l :: ls => by
    cases h : t.isFilled || !t.accepts l.price with
    | true => rw [takeLevels_stop market now n ls h]; exact .refl t
    | false =>
      have hq := takeQueue_fillOf market now l.price t n l.orders
      cases hl : (takeQueue market now l.price t n l.orders).left with
      | nil =>
        rw [takeLevels_pass market now ls h hl]
        exact hq.trans (takeLevels_fillOf _ _ ls)
      | cons q qs => rw [takeLevels_part market now ls h hl]; exact hq

/-- The prices matching leaves on a side are a suffix of the side's prices. -/
theorem takeLevels_left_prices :
    ∀ (t : Order) (n : UInt64) (ls : List PriceLevel),
      (takeLevels market now t n ls).left.map (·.price) <:+ ls.map (·.price)
  | t, n, [] => List.suffix_refl _
  | t, n, l :: ls => by
    cases h : t.isFilled || !t.accepts l.price with
    | true => rw [takeLevels_stop market now n ls h]
    | false =>
      cases hl : (takeQueue market now l.price t n l.orders).left with
      | nil =>
        rw [takeLevels_pass market now ls h hl]
        exact (takeLevels_left_prices _ _ ls).trans (List.suffix_cons _ _)
      | cons q qs =>
        rw [takeLevels_part market now ls h hl]
        exact List.suffix_refl _

/-- **Matching stops at a refused price.** A taker left unfilled refuses the
price of the best level left. -/
theorem takeLevels_exit :
    ∀ (t : Order) (n : UInt64) (ls : List PriceLevel),
      (takeLevels market now t n ls).taker.isFilled = false →
        ∀ l ∈ (takeLevels market now t n ls).left.head?,
          (takeLevels market now t n ls).taker.accepts l.price = false
  | t, n, [], _ => by simp [takeLevels]
  | t, n, l :: ls, hf => by
    cases h : t.isFilled || !t.accepts l.price with
    | true =>
      rw [takeLevels_stop market now n ls h] at hf ⊢
      intro l' hl'
      obtain rfl : l' = l := by simpa using hl'.symm
      simpa [hf] using h
    | false =>
      cases hl : (takeQueue market now l.price t n l.orders).left with
      | nil =>
        rw [takeLevels_pass market now ls h hl] at hf ⊢
        exact takeLevels_exit _ _ ls hf
      | cons q qs =>
        rw [takeLevels_part market now ls h hl] at hf
        have := takeQueue_filled market now l.price t n l.orders (by simp [hl])
        rw [this] at hf
        contradiction

/-- **Matching keeps a side in good order**, for a property of resting orders
that partial fills keep. -/
theorem takeLevels_ladder (hP : FillStable P) :
    ∀ (t : Order) (n : UInt64) (ls : List PriceLevel), Ladder better P ls →
      Ladder better P (takeLevels market now t n ls).left
  | t, n, [], _ => Ladder.nil
  | t, n, l :: ls, hls => by
    cases h : t.isFilled || !t.accepts l.price with
    | true => rw [takeLevels_stop market now n ls h]; exact hls
    | false =>
      cases hl : (takeQueue market now l.price t n l.orders).left with
      | nil =>
        rw [takeLevels_pass market now ls h hl]
        exact takeLevels_ladder hP _ _ ls hls.tail
      | cons q qs =>
        rw [takeLevels_part market now ls h hl]
        have hleft := takeQueue_left market now l.price t n l.orders
        rw [hl] at hleft
        refine hls.setOrders (List.cons_ne_nil q qs) fun o ho => ?_
        obtain ⟨m, hm, rfl | ⟨hfill, hunfilled⟩⟩ := hleft o ho
        · exact hls.priced l List.mem_cons_self _ hm
        · obtain ⟨hprice, hPm⟩ := hls.priced l List.mem_cons_self m hm
          exact ⟨hfill.price.trans hprice, hP m o hPm hfill hunfilled⟩

end Matching

/-! ### Resting -/

section Resting

variable {better : UInt64 → UInt64 → Bool} {P : Order → Prop}

theorem mem_rest_prices (o : Order) {p : UInt64} :
    ∀ ls : List PriceLevel, p ∈ (rest better o ls).map (·.price) → p = o.price ∨ p ∈ ls.map (·.price)
  | [], hp => by simpa [rest] using hp
  | l :: ls, hp => by
    by_cases h₁ : l.price = o.price
    · simp only [rest, h₁, ↓reduceIte, List.map_cons, List.mem_cons] at hp ⊢
      exact .inr hp
    · by_cases h₂ : better o.price l.price = true
      · simp only [rest, h₁, h₂, ↓reduceIte, List.map_cons, List.mem_cons] at hp ⊢
        exact hp
      · simp only [rest, h₁, h₂, Bool.false_eq_true, ↓reduceIte, List.map_cons,
          List.mem_cons] at hp ⊢
        rcases hp with hp | hp
        · exact .inr (.inl hp)
        · rcases mem_rest_prices o ls hp with hp | hp
          · exact .inl hp
          · exact .inr (.inr hp)

/-- After an order rests, the best level is at its price or is the best level
before. -/
theorem rest_head (o : Order) :
    ∀ ls : List PriceLevel, ∀ l' ∈ (rest better o ls).head?,
      l'.price = o.price ∨ ∃ l ∈ ls.head?, l'.price = l.price
  | [], l', hl' => by simp only [rest, List.head?_cons, Option.mem_def, Option.some.injEq] at hl'; simp [← hl']
  | l :: ls, l', hl' => by
    by_cases h₁ : l.price = o.price
    · simp only [rest, h₁, ↓reduceIte, List.head?_cons, Option.mem_def, Option.some.injEq] at hl'
      simp [← hl']
    · by_cases h₂ : better o.price l.price = true
      · simp only [rest, h₁, h₂, ↓reduceIte, List.head?_cons, Option.mem_def,
          Option.some.injEq] at hl'
        simp [← hl']
      · simp only [rest, h₁, h₂, Bool.false_eq_true, ↓reduceIte, List.head?_cons, Option.mem_def,
          Option.some.injEq] at hl'
        simp [← hl']

/-- **Resting keeps a side in good order.** -/
theorem rest_ladder (hr : StrictRank better) {o : Order} (ho : P o) :
    ∀ ls : List PriceLevel, Ladder better P ls → Ladder better P (rest better o ls)
  | [], _ => by
    simp only [rest]
    exact Ladder.nil.cons (by simp) (List.cons_ne_nil o []) (by simp [ho])
  | l :: ls, hls => by
    by_cases h₁ : l.price = o.price
    · rw [rest, if_pos h₁]
      refine hls.setOrders (by simp) fun o' ho' => ?_
      rcases List.mem_append.mp ho' with ho' | ho'
      · exact hls.priced l List.mem_cons_self o' ho'
      · obtain rfl : o' = o := List.mem_singleton.mp ho'
        exact ⟨h₁.symm, ho⟩
    · by_cases h₂ : better o.price l.price = true
      · simp only [rest, h₁, h₂, ↓reduceIte]
        refine hls.cons (fun p hp => ?_) (List.cons_ne_nil o []) (by simp [ho])
        -- the order's price beats the best price, so it beats every price behind it
        rcases List.mem_cons.mp hp with rfl | hp
        · exact h₂
        · exact hr.trans _ _ _ h₂ (hls.head_better hp)
      · simp only [rest, h₁, h₂, Bool.false_eq_true, ↓reduceIte]
        refine (rest_ladder hr ho ls hls.tail).cons (fun p hp => ?_)
          (hls.nonempty l List.mem_cons_self) (hls.priced l List.mem_cons_self)
        rcases mem_rest_prices o ls hp with rfl | hp
        · exact hr.total _ _ (Ne.symm h₁) (by simpa using h₂)
        · exact hls.head_better hp

end Resting

/-! ### Cancelling -/

section Cancelling

variable {better : UInt64 → UInt64 → Bool} {P : Order → Prop} (id : UInt64)

theorem removeOrder_sublist :
    ∀ {os : List Order} {o : Order} {os' : List Order}, removeOrder id os = some (o, os') → List.Sublist os' os
  | [], _, _, h => by simp [removeOrder] at h
  | x :: os, o, os', h => by
    by_cases hx : x.id = id
    · simp only [removeOrder, hx, ↓reduceIte, Option.some.injEq, Prod.mk.injEq] at h
      rw [← h.2]
      exact List.sublist_cons_self x os
    · simp only [removeOrder, hx, ↓reduceIte, Option.map_eq_some_iff, Prod.exists,
        Prod.mk.injEq] at h
      obtain ⟨_, rest, hrest, -, rfl⟩ := h
      exact (removeOrder_sublist hrest).cons_cons x

theorem removeFromSide_cases {l : PriceLevel} {ls : List PriceLevel} {o : Order}
    {ls' : List PriceLevel} (h : removeFromSide id (l :: ls) = some (o, ls')) :
    (removeOrder id l.orders = some (o, []) ∧ ls' = ls) ∨
    (∃ q qs, removeOrder id l.orders = some (o, q :: qs) ∧ ls' = { l with orders := q :: qs } :: ls) ∨
    (removeOrder id l.orders = none ∧ ∃ ls'', removeFromSide id ls = some (o, ls'') ∧ ls' = l :: ls'') := by
  cases hr : removeOrder id l.orders with
  | none =>
    simp only [removeFromSide, hr, Option.map_eq_some_iff, Prod.exists, Prod.mk.injEq] at h
    obtain ⟨_, ls'', hls'', rfl, rfl⟩ := h
    exact .inr (.inr ⟨rfl, ls'', hls'', rfl⟩)
  | some r =>
    obtain ⟨o', rest⟩ := r
    cases rest with
    | nil =>
      simp only [removeFromSide, hr, Option.some.injEq, Prod.mk.injEq] at h
      obtain ⟨rfl, rfl⟩ := h
      exact .inl ⟨rfl, rfl⟩
    | cons q qs =>
      simp only [removeFromSide, hr, Option.some.injEq, Prod.mk.injEq] at h
      obtain ⟨rfl, rfl⟩ := h
      exact .inr (.inl ⟨q, qs, rfl, rfl⟩)

theorem removeFromSide_prices :
    ∀ {ls : List PriceLevel} {o : Order} {ls' : List PriceLevel},
      removeFromSide id ls = some (o, ls') → List.Sublist (ls'.map (·.price)) (ls.map (·.price))
  | [], _, _, h => by simp [removeFromSide] at h
  | l :: ls, o, ls', h => by
    rcases removeFromSide_cases id h with ⟨-, rfl⟩ | ⟨q, qs, -, rfl⟩ | ⟨-, ls'', hls'', rfl⟩
    · exact List.sublist_cons_self _ _
    · exact List.Sublist.refl _
    · exact (removeFromSide_prices hls'').cons_cons _

/-- **Cancelling keeps a side in good order.** -/
theorem removeFromSide_ladder :
    ∀ {ls : List PriceLevel} {o : Order} {ls' : List PriceLevel}, Ladder better P ls →
      removeFromSide id ls = some (o, ls') → Ladder better P ls'
  | [], _, _, _, h => by simp [removeFromSide] at h
  | l :: ls, o, ls', hls, h => by
    rcases removeFromSide_cases id h with ⟨-, rfl⟩ | ⟨q, qs, hr, rfl⟩ | ⟨-, ls'', hls'', rfl⟩
    · exact hls.tail
    · exact hls.setOrders (List.cons_ne_nil q qs) fun o' ho' =>
        hls.priced l List.mem_cons_self o' ((removeOrder_sublist id hr).subset ho')
    · exact (removeFromSide_ladder hls.tail hls'').cons
        (fun p hp => hls.head_better ((removeFromSide_prices id hls'').subset hp))
        (hls.nonempty l List.mem_cons_self) (hls.priced l List.mem_cons_self)

end Cancelling

end Book

end Exchange
