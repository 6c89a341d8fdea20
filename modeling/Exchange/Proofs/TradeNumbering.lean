import Exchange.Proofs.Ladder
import Exchange.Proofs.Conservation
/-!
# Trades are numbered once per market

A book numbers its trades from its counter on: a placement makes trades with
the ids `n, n + 1, …`, where `n` is the counter before it, all in the book's
market, and leaves the counter past the last (`Book.place_numbered`); a
cancellation keeps the counter. An engine adds a book per market and never
replaces it by another market's (`Engine.book?_setBook`,
`Engine.book?_addMarket`).

So the trade counters of an engine always count the trades made so far in
their markets (`Engine.Counted`), each call moving them as `Engine.Moves`
says, and over every session from a new engine the trades of each market
carry the ids `0, 1, 2, …` in the order made, modulo 2^64
(`Engine.session_ids`).

A trade's global id, its market, a slash and its decimal id, gives back the
market and the id: the decimal holds no slash, so the last slash splits it
(`Trade.globalId_inj`), whatever the market's name holds. Hence the global ids
of all the trades of a session are pairwise distinct as long as no market
makes 2^64 trades (`Engine.session_globalIds_distinct`).

Key definitions: `Trade.Numbered`, `Engine.Moves`, `Engine.Counted`,
`Engine.tradesOn`.
Key theorems: `Book.place_numbered`, `Engine.Counted.step`,
`Engine.session_ids`, `Trade.globalId_inj`,
`Engine.session_globalIds_distinct`.
-/

namespace Exchange

/-! ### Numbered runs of trades -/

namespace Trade

/-- Trades made one after another in `market` from the counter `n`: the `i`-th
carries the id `n + i`, and the counter ends at `next`, past the last. -/
structure Numbered (market : String) (n : UInt64) (ts : List Trade) (next : UInt64) : Prop where
  ids : ts.map Trade.id = (List.range ts.length).map fun i => n + UInt64.ofNat i
  next_eq : next = n + UInt64.ofNat ts.length
  market_eq : ∀ t ∈ ts, t.market = market

theorem Numbered.nil (market : String) (n : UInt64) : Numbered market n [] n :=
  ⟨rfl, by simp, by simp⟩

theorem Numbered.single {market : String} {n : UInt64} {t : Trade} (hid : t.id = n)
    (hmarket : t.market = market) : Numbered market n [t] (n + 1) :=
  ⟨by simp [hid], by simp, by simp [hmarket]⟩

/-- Two numbered runs, the second from where the first left the counter, make
one. -/
theorem Numbered.append {market : String} {n n₁ n₂ : UInt64} {xs ys : List Trade}
    (hx : Numbered market n xs n₁) (hy : Numbered market n₁ ys n₂) :
    Numbered market n (xs ++ ys) n₂ where
  ids := by
    rw [List.map_append, hx.ids, hy.ids, hx.next_eq, List.length_append, List.range_add,
      List.map_append, List.map_map]
    congr 1
    apply List.map_congr_left
    intro i _
    simp only [Function.comp_apply, UInt64.ofNat_add, add_assoc]
  next_eq := by rw [hy.next_eq, hx.next_eq, List.length_append, UInt64.ofNat_add, add_assoc]
  market_eq t ht := by
    rcases List.mem_append.mp ht with h | h
    · exact hx.market_eq t h
    · exact hy.market_eq t h

theorem Numbered.filter_self {market : String} {n next : UInt64} {ts : List Trade}
    (h : Numbered market n ts next) : ts.filter (·.market == market) = ts :=
  List.filter_eq_self.mpr fun t ht => by simp [h.market_eq t ht]

theorem Numbered.filter_other {market m : String} {n next : UInt64} {ts : List Trade}
    (h : Numbered market n ts next) (hm : market ≠ m) : ts.filter (·.market == m) = [] :=
  List.filter_eq_nil_iff.mpr fun t ht => by simp [h.market_eq t ht, hm]

end Trade

/-! ### A book's counter -/

namespace Book

section Numbering

variable (market now : String)

theorem matchWith_numbered (price : UInt64) (t m : Order) (n : UInt64) :
    Trade.Numbered market n (matchWith market now price t m n).trades
      (matchWith market now price t m n).next := by
  simp only [matchWith]
  split
  · exact Trade.Numbered.single rfl rfl
  · exact Trade.Numbered.nil market n

theorem takeQueue_numbered (price : UInt64) :
    ∀ (t : Order) (n : UInt64) (ms : List Order),
      Trade.Numbered market n (takeQueue market now price t n ms).trades
        (takeQueue market now price t n ms).next
  | t, n, [] => Trade.Numbered.nil market n
  | t, n, m :: ms => by
    rw [takeQueue_cons]
    split
    · exact Trade.Numbered.nil market n
    · dsimp only
      split
      · exact matchWith_numbered market now price t m n
      · exact (matchWith_numbered market now price t m n).append (takeQueue_numbered price _ _ ms)

theorem takeLevels_numbered :
    ∀ (t : Order) (n : UInt64) (ls : List PriceLevel),
      Trade.Numbered market n (takeLevels market now t n ls).trades (takeLevels market now t n ls).next
  | t, n, [] => Trade.Numbered.nil market n
  | t, n, l :: ls => by
    cases h : t.isFilled || !t.accepts l.price with
    | true =>
      rw [takeLevels_stop market now n ls h]
      exact Trade.Numbered.nil market n
    | false =>
      have hq := takeQueue_numbered market now l.price t n l.orders
      cases hl : (takeQueue market now l.price t n l.orders).left with
      | nil =>
        rw [takeLevels_pass market now ls h hl]
        exact hq.append (takeLevels_numbered _ _ ls)
      | cons q qs =>
        rw [takeLevels_part market now ls h hl]
        exact hq

end Numbering

/-- **Numbering of a placement.** The trades of a placement carry the ids
from the book's counter on, all in the book's market, and the counter ends
past the last. -/
theorem place_numbered (b : Book) (now : String) (o : Order) :
    Trade.Numbered b.market b.nextTradeId (b.place now o).1.trades (b.place now o).2.nextTradeId ∧
      (b.place now o).2.market = b.market := by
  unfold place
  split
  · exact ⟨takeLevels_numbered b.market now o b.nextTradeId b.asks, rfl⟩
  · exact ⟨takeLevels_numbered b.market now o b.nextTradeId b.bids, rfl⟩

theorem cancel_counter (b : Book) (id : UInt64) :
    (b.cancel id).2.nextTradeId = b.nextTradeId ∧ (b.cancel id).2.market = b.market := by
  unfold cancel
  split
  · exact ⟨rfl, rfl⟩
  · split <;> exact ⟨rfl, rfl⟩

end Book

/-! ### The books of an engine -/

namespace Engine

theorem book?_market {e : Engine} {m : String} {b : Book} (h : e.book? m = some b) :
    b.market = m := by
  simpa using List.find?_some h

theorem book?_of_books {e e' : Engine} (h : e'.books = e.books) (m : String) :
    e'.book? m = e.book? m := by
  simp only [book?, h]

theorem book?_setBook (e : Engine) (b : Book) (m : String) :
    (e.setBook b).book? m = if b.market = m then (e.book? m).map fun _ => b else e.book? m := by
  have hsame : ((·.market == m) ∘ fun x : Book => if x.market == b.market then b else x) =
      (·.market == m) := by
    funext x
    by_cases hx : x.market = b.market <;> simp [hx]
  unfold book? setBook
  rw [List.find?_map, hsame]
  cases hfind : e.books.find? (·.market == m) with
  | none => simp
  | some x =>
    have hx : x.market = m := by simpa using List.find?_some hfind
    by_cases hb : b.market = m
    · simp [hb, hx]
    · have hb' : ¬m = b.market := fun h => hb h.symm
      simp [hb, hx, hb']

theorem book?_addMarket (e : Engine) (m m' : String) :
    (e.addMarket m').2.book? m =
      if m = m' ∧ e.book? m' = none then some (Book.empty m') else e.book? m := by
  unfold addMarket hasMarket
  cases hm' : e.book? m' with
  | some b => simp
  | none =>
    simp only [Option.isSome_none, Bool.false_eq_true, ↓reduceIte, and_true]
    unfold book? at hm' ⊢
    rw [List.find?_append]
    by_cases h : m = m'
    · subst h
      simp [hm', Book.empty]
    · have hempty : (Book.empty m').market = m' := rfl
      simp [h, hempty, Ne.symm h]

/-! ### Counters against the trades made -/

/-- How a call moves the books of an engine while making the trades `ts`: no
book goes away; a new book starts at 0 in a market where none of `ts` was
made; every other book numbers on from its counter the trades of `ts` made in
its market. -/
structure Moves (e e' : Engine) (ts : List Trade) : Prop where
  absent : ∀ m, e'.book? m = none → e.book? m = none ∧ ∀ t ∈ ts, t.market ≠ m
  present : ∀ m b', e'.book? m = some b' →
    (e.book? m = none ∧ b'.nextTradeId = 0 ∧ ∀ t ∈ ts, t.market ≠ m) ∨
      ∃ b, e.book? m = some b ∧ Trade.Numbered m b.nextTradeId (ts.filter (·.market == m)) b'.nextTradeId

/-- The trades `made` so far agree with an engine's books: in a market with a
book they are numbered from 0 up to its counter, and none was made in a
market with no book. -/
structure Counted (e : Engine) (made : List Trade) : Prop where
  booked : ∀ m b, e.book? m = some b → Trade.Numbered m 0 (made.filter (·.market == m)) b.nextTradeId
  unbooked : ∀ m, e.book? m = none → ∀ t ∈ made, t.market ≠ m

theorem filter_market_nil {ts : List Trade} {m : String} (h : ∀ t ∈ ts, t.market ≠ m) :
    ts.filter (·.market == m) = [] :=
  List.filter_eq_nil_iff.mpr fun t ht => by simp [h t ht]

theorem counted_create (q : String) : (create q).Counted [] :=
  ⟨fun _ _ h => by simp [create, book?] at h, fun _ _ _ h => by simp at h⟩

/-- **One call.** Counters that counted the trades made before a call count
them with the call's trades after it. -/
theorem Counted.step {e e' : Engine} {made ts : List Trade} (h : e.Counted made)
    (hm : Moves e e' ts) : e'.Counted (made ++ ts) where
  booked m b' hb' := by
    rw [List.filter_append]
    rcases hm.present m b' hb' with ⟨hnone, hzero, hts⟩ | ⟨b, hb, hnum⟩
    · rw [filter_market_nil (h.unbooked m hnone), filter_market_nil hts, hzero]
      exact Trade.Numbered.nil m 0
    · exact (h.booked m b hb).append hnum
  unbooked m hnone t ht := by
    obtain ⟨hnone', hts⟩ := hm.absent m hnone
    rcases List.mem_append.mp ht with ht | ht
    · exact h.unbooked m hnone' t ht
    · exact hts t ht

theorem moves_of_counters {e e' : Engine}
    (h : ∀ m, (e'.book? m).map (·.nextTradeId) = (e.book? m).map (·.nextTradeId)) :
    Moves e e' [] where
  absent m hnone := by
    have hm := h m
    rw [hnone, Option.map_none] at hm
    exact ⟨Option.map_eq_none_iff.mp hm.symm, by simp⟩
  present m b' hb' := by
    have hm := h m
    rw [hb', Option.map_some] at hm
    obtain ⟨b, hb, hnext⟩ := Option.map_eq_some_iff.mp hm.symm
    refine .inr ⟨b, hb, ?_⟩
    rw [List.filter_nil, ← hnext]
    exact Trade.Numbered.nil m b.nextTradeId

theorem moves_of_books {e e' : Engine} (h : e'.books = e.books) : Moves e e' [] :=
  moves_of_counters fun m => by rw [book?_of_books h]

/-- Replacing a market's book by one that numbers the trades `ts` on from its
counter moves the books. -/
theorem moves_setBook {e : Engine} {m₀ : String} {b b' : Book} {ts : List Trade}
    (hb : e.book? m₀ = some b) (hmarket : b'.market = b.market)
    (hnum : Trade.Numbered b.market b.nextTradeId ts b'.nextTradeId) : Moves e (e.setBook b') ts := by
  have hm₀ : b.market = m₀ := book?_market hb
  subst hm₀
  constructor
  · intro m hnone
    rw [book?_setBook] at hnone
    by_cases hm : b'.market = m
    · have hm' : m = b.market := hm.symm.trans hmarket
      rw [if_pos hm, hm', hb] at hnone
      simp at hnone
    · rw [if_neg hm] at hnone
      exact ⟨hnone, fun t ht => by rw [hnum.market_eq t ht, ← hmarket]; exact hm⟩
  · intro m c hc
    rw [book?_setBook] at hc
    by_cases hm : b'.market = m
    · have hm' : m = b.market := hm.symm.trans hmarket
      rw [if_pos hm, hm', hb] at hc
      cases hc
      subst hm'
      exact .inr ⟨b, hb, by rw [hnum.filter_self]; exact hnum⟩
    · rw [if_neg hm] at hc
      refine .inr ⟨c, hc, ?_⟩
      rw [hnum.filter_other (by rw [← hmarket]; exact hm)]
      exact Trade.Numbered.nil m c.nextTradeId

/-- An admitted placement replaces its market's book by the book after
placing the order, whose trades it answers with; a refused one keeps every
book. -/
theorem placeOrder_books (e : Engine) (now market : String) (o : Order) (base : String) :
    ((e.placeOrder now market o base).1.toBool = false ∧
        (e.placeOrder now market o base).2.books = e.books) ∨
      ∃ b p, e.book? market = some b ∧ (e.placeOrder now market o base).1 = .ok p ∧
        p.order = (b.place now o).1.order ∧ p.trades = (b.place now o).1.trades ∧
        (e.placeOrder now market o base).2.books = (e.setBook (b.place now o).2).books := by
  simp only [placeOrder]
  split
  · exact .inl ⟨rfl, rfl⟩
  split
  · exact .inl ⟨rfl, rfl⟩
  next b hb =>
  split
  · exact .inl ⟨rfl, rfl⟩
  split
  · exact .inl ⟨rfl, rfl⟩
  · exact .inr ⟨b, _, hb, rfl, rfl, rfl, rfl⟩

theorem placeOrder_moves (e : Engine) (now market : String) (o : Order) (base : String) :
    Moves e (e.placeOrder now market o base).2
      (match (e.placeOrder now market o base).1 with
        | .ok p => p.trades
        | .error _ => []) := by
  rcases placeOrder_books e now market o base with ⟨hfail, hbooks⟩ | ⟨b, p, hb, hok, -, htrades, hbooks⟩
  · have herr : ∃ err, (e.placeOrder now market o base).1 = .error err := by
      cases hr : (e.placeOrder now market o base).1 with
      | error err => exact ⟨err, rfl⟩
      | ok p => rw [hr] at hfail; cases hfail
    obtain ⟨err, herr⟩ := herr
    rw [herr]
    exact moves_of_books hbooks
  · simp only [hok, htrades]
    obtain ⟨hnum, hmarket⟩ := b.place_numbered now o
    have hmoves := moves_setBook hb hmarket hnum
    exact ⟨fun m => by rw [book?_of_books hbooks]; exact hmoves.absent m,
      fun m => by rw [book?_of_books hbooks]; exact hmoves.present m⟩

theorem cancelOrder_moves (e : Engine) (market : String) (id : UInt64) :
    Moves e (e.cancelOrder market id).2 [] := by
  unfold cancelOrder
  split
  · exact moves_of_books rfl
  · next b hb =>
    obtain ⟨hnext, hmarket⟩ := b.cancel_counter id
    exact moves_setBook hb hmarket (by rw [hnext]; exact Trade.Numbered.nil _ _)

theorem addMarket_moves (e : Engine) (m' : String) : Moves e (e.addMarket m').2 [] where
  absent m hnone := by
    rw [book?_addMarket] at hnone
    split at hnone
    · cases hnone
    · exact ⟨hnone, by simp⟩
  present m b' hb' := by
    rw [book?_addMarket] at hb'
    split at hb'
    · next hnew =>
      cases hb'
      obtain ⟨rfl, hnone⟩ := hnew
      exact .inl ⟨hnone, rfl, by simp⟩
    · exact .inr ⟨b', hb', by rw [List.filter_nil]; exact Trade.Numbered.nil m _⟩

/-! ### Sessions -/

/-- One call, answered by the trades it made: those of an admitted placement,
none for any other call. -/
def tradesOn (e : Engine) (c : Call) : List Trade × Engine :=
  (match c with
    | .placeOrder now m o base =>
      match (e.placeOrder now m o base).1 with
      | .ok p => p.trades
      | .error _ => []
    | _ => [], (e.perform c).2)

theorem tradesOn_moves (e : Engine) (c : Call) : Moves e (e.tradesOn c).2 (e.tradesOn c).1 := by
  cases c with
  | addMarket m => exact addMarket_moves e m
  | addBalance u a n =>
    obtain ⟨r, -, hperform⟩ := perform_addBalance_eq e u a n
    show Moves e (e.perform (.addBalance u a n)).2 []
    rw [hperform]
    exact moves_of_books rfl
  | placeOrder now m o base => exact placeOrder_moves e now m o base
  | cancelOrder m id => exact cancelOrder_moves e m id
  | getDepth m => exact moves_of_books rfl

theorem session_counted (q : String) (calls : List Call) :
    (runCalls tradesOn (create q) calls).2.Counted (runCalls tradesOn (create q) calls).1.flatten := by
  have h := runCalls_history tradesOn (fun e given => e.Counted given.flatten)
    (fun e c given hc => by
      rw [List.flatten_append, List.flatten_singleton]
      exact hc.step (tradesOn_moves e c))
    calls (create q) [] (counted_create q)
  simpa using h

/-- **Trade ids of a session.** Over every session from a new engine, the
trades made in each market carry the ids `0, 1, 2, …` in the order made,
modulo 2^64. -/
theorem session_ids (q : String) (calls : List Call) (m : String) :
    ((runCalls tradesOn (create q) calls).1.flatten.filter (·.market == m)).map Trade.id =
      (List.range ((runCalls tradesOn (create q) calls).1.flatten.filter (·.market == m)).length).map
        UInt64.ofNat := by
  have h := session_counted q calls
  cases hb : (runCalls tradesOn (create q) calls).2.book? m with
  | none => rw [filter_market_nil (h.unbooked m hb)]; rfl
  | some b => simpa using (h.booked m b hb).ids

end Engine

/-! ### Global ids -/

/-- A separator that occurs in neither tail splits two texts alike. -/
theorem append_sep_inj {c : Char} :
    ∀ {xs xs' ys ys' : List Char}, c ∉ ys → c ∉ ys' → xs ++ c :: ys = xs' ++ c :: ys' →
      xs = xs' ∧ ys = ys' := by
  -- read from the end: the tails before the last separator are equal
  have hhead : ∀ {as as' bs bs' : List Char}, c ∉ as → c ∉ as' → as ++ c :: bs = as' ++ c :: bs' →
      as = as' ∧ bs = bs' := by
    intro as
    induction as with
    | nil =>
      intro as' bs bs' _ has' h
      cases as' with
      | nil => simpa using h
      | cons a as' =>
        simp only [List.nil_append, List.cons_append, List.cons.injEq] at h
        exact absurd (h.1 ▸ List.mem_cons_self) has'
    | cons a as ih =>
      intro as' bs bs' has has' h
      cases as' with
      | nil =>
        simp only [List.nil_append, List.cons_append, List.cons.injEq] at h
        exact absurd (h.1 ▸ List.mem_cons_self) has
      | cons a' as' =>
        simp only [List.cons_append, List.cons.injEq] at h
        obtain ⟨rfl, rfl⟩ := h.1
        obtain ⟨h₁, h₂⟩ := ih (fun h' => has (List.mem_cons_of_mem a h'))
          (fun h' => has' (List.mem_cons_of_mem a h')) h.2
        exact ⟨by rw [h₁], h₂⟩
  intro xs xs' ys ys' hys hys' h
  have hrev := congrArg List.reverse h
  simp only [List.reverse_append, List.reverse_cons, List.append_assoc, List.singleton_append] at hrev
  obtain ⟨h₁, h₂⟩ := hhead (by simpa using hys) (by simpa using hys') hrev
  exact ⟨List.reverse_injective h₂, List.reverse_injective h₁⟩

theorem slash_not_mem_repr (n : Nat) : '/' ∉ (toString n).toList := by
  intro h
  have hdigit := Nat.isDigit_of_mem_toDigits (by norm_num) (by norm_num)
    (show '/' ∈ Nat.toDigits 10 n from Nat.toList_repr ▸ h)
  simp at hdigit

/-- **Global ids name their trade's market and id.** Whatever the market
names hold, slashes and digits included, equal global ids have equal markets
and equal ids. -/
theorem Trade.globalId_inj {t t' : Trade} (h : t.globalId = t'.globalId) :
    t.market = t'.market ∧ t.id = t'.id := by
  have hlist := congrArg String.toList h
  simp only [Trade.globalId, String.toList_append] at hlist
  have hsplit : t.market.toList ++ '/' :: (toString t.id.toNat).toList =
      t'.market.toList ++ '/' :: (toString t'.id.toNat).toList := by simpa using hlist
  obtain ⟨hmarket, hid⟩ := append_sep_inj (slash_not_mem_repr _) (slash_not_mem_repr _) hsplit
  refine ⟨String.toList_inj.mp hmarket, ?_⟩
  have hrepr : t.id.toNat.repr = t'.id.toNat.repr := String.toList_inj.mp hid
  exact UInt64.toNat_inj.mp (Nat.repr_inj.mp hrepr)

/-- The first `n ≤ 2^64` naturals stay apart as 64-bit words. -/
theorem nodup_range_ofNat {n : Nat} (hn : n ≤ 2 ^ 64) : ((List.range n).map UInt64.ofNat).Nodup := by
  refine List.Nodup.map_on (fun a ha b hb hab => ?_) List.nodup_range
  have ha' : a < 2 ^ 64 := lt_of_lt_of_le (List.mem_range.mp ha) hn
  have hb' : b < 2 ^ 64 := lt_of_lt_of_le (List.mem_range.mp hb) hn
  have := congrArg UInt64.toNat hab
  simp only [UInt64.toNat_ofNat', Nat.mod_eq_of_lt ha', Nat.mod_eq_of_lt hb'] at this
  exact this

theorem nodup_market_id {ts : List Trade} (h : ∀ m, ((ts.filter (·.market == m)).map Trade.id).Nodup) :
    (ts.map fun t => (t.market, t.id)).Nodup := by
  rw [List.nodup_iff_count_le_one]
  rintro ⟨m, i⟩
  have hm := List.nodup_iff_count_le_one.mp (h m) i
  have hcount : (ts.map fun t => (t.market, t.id)).count (m, i) =
      ((ts.filter (·.market == m)).map Trade.id).count i := by
    simp only [List.count_eq_countP, List.countP_map, List.countP_filter]
    congr 1
    funext t
    rw [Bool.eq_iff_iff]
    simp only [Function.comp_apply, beq_iff_eq, Bool.and_eq_true, Prod.mk.injEq]
    exact and_comm
  rw [hcount]
  exact hm

namespace Engine

/-- **Global ids are distinct.** Over every session from a new engine in which
no market makes 2^64 trades, the global ids of all the trades the placements
answered with are pairwise distinct. -/
theorem session_globalIds_distinct (q : String) (calls : List Call)
    (hbound : ∀ m, ((runCalls tradesOn (create q) calls).1.flatten.filter (·.market == m)).length < 2 ^ 64) :
    ((runCalls tradesOn (create q) calls).1.flatten.map Trade.globalId).Nodup := by
  have hpairs := nodup_market_id fun m => by
    rw [session_ids q calls m]
    exact nodup_range_ofNat (hbound m).le
  -- a global id gives back the market and the id, so distinct pairs give distinct ids
  have hmap : (runCalls tradesOn (create q) calls).1.flatten.map Trade.globalId =
      ((runCalls tradesOn (create q) calls).1.flatten.map fun t => (t.market, t.id)).map
        fun p => p.1 ++ "/" ++ toString p.2.toNat := by
    rw [List.map_map]
    rfl
  rw [hmap]
  refine hpairs.map_on fun p _ p' _ hp => ?_
  obtain ⟨hm, hid⟩ := @Trade.globalId_inj ⟨p.2, p.1, 0, 0, 0, 0, "", "", ""⟩
    ⟨p'.2, p'.1, 0, 0, 0, 0, "", "", ""⟩ hp
  exact Prod.ext hm hid

/-- Two markets, `a` and `a/1`, one named like a global id of the other, each
making a trade with id 0: the ids `a/1/0` and `a/0` stay apart. -/
theorem session_globalIds_distinct_slashed :
    let calls : List Call :=
      [.addMarket "a/1", .addMarket "a", .addBalance "s" "B" 2,
       .placeOrder "t" "a/1" ⟨1, "s", .sell, 0, 1, 0⟩ "B",
       .placeOrder "t" "a/1" ⟨2, "b", .buy, 0, 1, 0⟩ "B",
       .placeOrder "t" "a" ⟨3, "s", .sell, 0, 1, 0⟩ "B",
       .placeOrder "t" "a" ⟨4, "b", .buy, 0, 1, 0⟩ "B"]
    (∀ m, ((runCalls tradesOn (create "USDT") calls).1.flatten.filter (·.market == m)).length < 2 ^ 64) ∧
      ((runCalls tradesOn (create "USDT") calls).1.flatten.map Trade.globalId).Nodup := by
  intro calls
  have hbound : ∀ m,
      ((runCalls tradesOn (create "USDT") calls).1.flatten.filter (·.market == m)).length < 2 ^ 64 :=
    fun _ => lt_of_le_of_lt (List.length_filter_le _ _) (by decide)
  exact ⟨hbound, session_globalIds_distinct "USDT" calls hbound⟩

end Engine

end Exchange
