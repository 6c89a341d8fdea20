import Exchange.Proofs.TradeNumbering
import Exchange.Service
/-!
# The dispatcher hands trades off in execution order

A dispatch runs its command's engine call and answers with the result; the
trades of an admitted placement, all of the command's market, are appended to
the market's trade log and published under the market as one batch, unless
there are none (`Service.dispatch_spec`). A refused command logs and publishes
nothing.

So over every session of dispatches from a service whose books have made no
trade and whose log is empty, for every market (`Service.session_handOff`):
every published batch is non-empty; the batches published for the market,
joined, are the trades of the admitted placements on it, joined, in dispatch
order; their ids run `0, 1, 2, …`; and the log keeps the newest of them up to
its capacity.

The log keeps a window: appending to the newest `c` trades and keeping the
newest `c` is keeping the newest `c` of everything (`rtake_append_rtake`).

Key definitions: `Dispatched.trades`, `Dispatched.placedOn`,
`Dispatched.publishedOn`.
Key theorems: `TradeLog.history_append`, `Service.dispatch_spec`,
`Service.session_handOff`.
-/

namespace Exchange

/-- The newest `c` of a list, kept after more is appended to them, are the
newest `c` of all. -/
theorem rtake_append_rtake {α : Type} (xs ys : List α) (c : Nat) :
    (xs.rtake c ++ ys).rtake c = (xs ++ ys).rtake c := by
  simp only [List.rtake, List.length_append, List.length_drop, List.drop_append, List.drop_drop]
  congr 2 <;> omega

/-! ### The log of recent trades -/

namespace TradeLog

theorem capacity_append (log : TradeLog) (market : String) (batch : List Trade) :
    (log.append market batch).capacity = log.capacity := by
  unfold append
  split
  · rfl
  · split <;> rfl

/-- Appending a batch to a market's history keeps the newest `capacity` trades
of the history and the batch, and leaves every other market's history. -/
theorem history_append (log : TradeLog) (market m : String) {batch : List Trade}
    (hbatch : batch ≠ []) :
    (log.append market batch).history m =
      if m = market then (log.history market ++ batch).rtake log.capacity else log.history m := by
  have hmarkets : (log.append market batch).markets =
      if log.markets.any (·.1 == market) then
        log.markets.map fun e => if e.1 == market then (market, (log.history market ++ batch).rtake log.capacity) else e
      else log.markets ++ [(market, (log.history market ++ batch).rtake log.capacity)] := by
    have hne : batch.isEmpty = false := List.isEmpty_eq_false_iff.mpr hbatch
    unfold append
    simp only [hne, Bool.false_eq_true, ↓reduceIte]
    split <;> rfl
  rw [history, hmarkets, find?_upsert]
  split <;> rfl

theorem append_nil (log : TradeLog) (market : String) : log.append market [] = log := by
  simp [append]

theorem recent_zero (log : TradeLog) (market : String) : log.recent market 0 = log.history market := by
  simp [recent]

end TradeLog

/-! ### One dispatch -/

/-- A credit leaves the books. (Stated through the ledger's answer, never by
`rfl` on the engine: comparing the engines would reduce the credit's guard.) -/
theorem Engine.credit_books (e : Engine) (u a : String) (n : UInt64) :
    (e.credit u a n).2.books = e.books := by
  obtain ⟨r, -, hcredit⟩ : ∃ r : (UserBalance × Bool) × Ledger, e.ledger.credit u a n = r ∧
      e.credit u a n = (r.1, { e with ledger := r.2 }) := ⟨_, rfl, rfl⟩
  rw [hcredit]

namespace Dispatched

/-- The trades a dispatch answered with: those of an admitted placement. -/
def trades (d : Dispatched) : List Trade :=
  match d.outcome with
  | .ok r => r.trades
  | .error _ => []

/-- The trades of a dispatch's result when it is an admitted placement on the
market `m`. -/
def placedOn (m : String) (d : Dispatched) : List Trade :=
  match d.outcome with
  | .ok r => if r.kind = some .placeOrder ∧ r.market = m then r.trades else []
  | .error _ => []

/-- The trades a dispatch published for the market `m`, batches joined. -/
def publishedOn (m : String) (d : Dispatched) : List Trade :=
  ((d.published.filter (·.1 == m)).map (·.2)).flatten

end Dispatched

namespace Service

theorem record_eq (s : Service) (market : String) (batch : List Trade) :
    s.record market batch =
      (if batch = [] then [] else [(market, batch)], { s with log := s.log.append market batch }) := by
  unfold record
  by_cases h : batch = []
  · subst h
    simp [TradeLog.append]
  · simp [h]

theorem dispatch_addBalance (s : Service) (now fresh rid u a : String) (n : UInt64) :
    s.dispatch now fresh (.addBalance rid u a n) =
      (⟨if (s.engine.credit u a n).1.2 then .error .amountOverflow
        else .ok { Result.start (.addBalance rid u a n) fresh with
          userId := u, balance := some (s.engine.credit u a n).1.1 }, []⟩,
        { s with engine := (s.engine.credit u a n).2 }) := rfl

/-- **What a dispatch does.** It moves the engine's books by the trades it
answers with; those trades are all of the command's market, and they are
what it placed on that market and nothing on any other; it publishes them
under the market unless there are none; and it appends them to the market's
log. -/
theorem dispatch_spec (s : Service) (now fresh : String) (c : Command) :
    Engine.Moves s.engine (s.dispatch now fresh c).2.engine (s.dispatch now fresh c).1.trades ∧
      (∀ t ∈ (s.dispatch now fresh c).1.trades, t.market = c.market) ∧
      (∀ m, (s.dispatch now fresh c).1.placedOn m =
        if c.market = m then (s.dispatch now fresh c).1.trades else []) ∧
      (s.dispatch now fresh c).1.published =
        (if (s.dispatch now fresh c).1.trades = [] then [] else [(c.market, (s.dispatch now fresh c).1.trades)]) ∧
      (s.dispatch now fresh c).2.log = s.log.append c.market (s.dispatch now fresh c).1.trades := by
  -- `dispatch` is unfolded, never simplified with its equations, and a credit
  -- is read through `dispatch_addBalance`: either way the credit's guard, which
  -- compares against 2^64 - 1, would be reduced
  cases c with
  | placeOrder rid market base order =>
    have hmoves := Engine.placeOrder_moves s.engine now market order base
    have hbooks := Engine.placeOrder_books s.engine now market order base
    rcases hplace : s.engine.placeOrder now market order base with ⟨_ | p, eng⟩
    · rw [hplace] at hmoves
      unfold dispatch
      simp only [hplace, Dispatched.trades, Dispatched.placedOn]
      exact ⟨hmoves, by simp, fun m => by simp, by simp, (TradeLog.append_nil _ _).symm⟩
    · rw [hplace] at hmoves hbooks
      obtain ⟨b, p', hb, hok, -, htrades, -⟩ := hbooks.resolve_left (by simp [Except.toBool])
      cases hok
      have hmarket : ∀ t ∈ p.trades, t.market = market := fun t ht => by
        rw [(b.place_numbered now order).1.market_eq t (htrades ▸ ht), Engine.book?_market hb]
      unfold dispatch
      simp only [hplace, record_eq, Dispatched.trades, Dispatched.placedOn, Result.start,
        Command.kind, Command.market]
      exact ⟨hmoves, hmarket, fun m => by simp, trivial, trivial⟩
  | cancelOrder rid market id =>
    have hmoves := Engine.cancelOrder_moves s.engine market id
    rcases hcancel : s.engine.cancelOrder market id with ⟨_ | _ | o, eng⟩ <;>
      rw [hcancel] at hmoves <;>
      unfold dispatch <;>
      simp only [hcancel, Dispatched.trades, Dispatched.placedOn, Result.start] <;>
      exact ⟨hmoves, by simp, fun m => by simp, by simp, (TradeLog.append_nil _ _).symm⟩
  | getDepth rid market =>
    cases hdepth : s.engine.depth market <;>
      unfold dispatch <;>
      simp only [hdepth, Dispatched.trades, Dispatched.placedOn, Result.start] <;>
      exact ⟨Engine.moves_of_books rfl, by simp, fun m => by simp, by simp,
        (TradeLog.append_nil _ _).symm⟩
  | addBalance rid u a n =>
    have hbooks := Engine.credit_books s.engine u a n
    rw [dispatch_addBalance]
    generalize s.engine.credit u a n = credited at hbooks ⊢
    obtain ⟨⟨_, refused⟩, eng⟩ := credited
    cases refused <;>
      simp only [Dispatched.trades, Dispatched.placedOn, Result.start, Bool.false_eq_true, ↓reduceIte] <;>
      exact ⟨Engine.moves_of_books hbooks, by simp, fun m => by simp, by simp,
        (TradeLog.append_nil _ _).symm⟩

end Service

/-! ### Each answer hands its trades off -/

namespace Dispatched

/-- What an answer says of its trades, whatever the command: every batch it
published is non-empty, and in every market it published what it placed
there, which are its trades of that market. -/
structure HandsOff (d : Dispatched) : Prop where
  nonempty : ∀ p ∈ d.published, p.2 ≠ []
  published : ∀ m, d.publishedOn m = d.placedOn m
  placed : ∀ m, d.trades.filter (·.market == m) = d.placedOn m

end Dispatched

namespace Service

theorem dispatch_handsOff (s : Service) (now fresh : String) (c : Command) :
    (s.dispatch now fresh c).1.HandsOff := by
  obtain ⟨-, hmarket, hplaced, hpub, -⟩ := dispatch_spec s now fresh c
  constructor
  · intro p hp
    rw [hpub] at hp
    split at hp
    · cases hp
    · next hne =>
      rw [List.mem_singleton] at hp
      rw [hp]
      exact hne
  · intro m
    rw [Dispatched.publishedOn, hpub, hplaced m]
    by_cases hm : c.market = m <;> split <;> simp_all
  · intro m
    rw [hplaced m]
    split
    · next hm => exact List.filter_eq_self.mpr fun t ht => by simp [hmarket t ht, hm]
    · next hm => exact List.filter_eq_nil_iff.mpr fun t ht => by simp [hmarket t ht, hm]

theorem dispatch_refused (s : Service) (now fresh : String) (c : Command) {err : EngineError}
    (herr : (s.dispatch now fresh c).1.outcome = .error err) :
    (s.dispatch now fresh c).1.published = [] ∧ (s.dispatch now fresh c).2.log = s.log := by
  obtain ⟨-, -, -, hpub, hlog⟩ := dispatch_spec s now fresh c
  have htrades : (s.dispatch now fresh c).1.trades = [] := by
    rw [Dispatched.trades, herr]
  rw [htrades] at hpub hlog
  exact ⟨hpub, hlog.trans (TradeLog.append_nil _ _)⟩

/-! ### Sessions of dispatches -/

/-- The log of a service against the trades `made` so far: the engine's
counters count them, and each market's history is their newest `cap` in it. -/
structure Logged (cap : Nat) (s : Service) (made : List Trade) : Prop where
  counted : s.engine.Counted made
  capacity : s.log.capacity = cap
  history : ∀ m, s.log.history m = (made.filter (·.market == m)).rtake cap

/-- **One dispatch.** A service that logged the trades made before a dispatch
logs them with the dispatch's trades after it. -/
theorem Logged.step {cap : Nat} {s : Service} {made : List Trade} (h : s.Logged cap made)
    (now fresh : String) (c : Command) :
    (s.dispatch now fresh c).2.Logged cap (made ++ (s.dispatch now fresh c).1.trades) := by
  obtain ⟨hmoves, hmarket, -, -, hlog⟩ := dispatch_spec s now fresh c
  refine ⟨h.counted.step hmoves, by rw [hlog, TradeLog.capacity_append, h.capacity], fun m => ?_⟩
  rw [hlog, List.filter_append]
  by_cases hnil : (s.dispatch now fresh c).1.trades = []
  · rw [hnil, TradeLog.append_nil, h.history m, List.filter_nil, List.append_nil]
  rw [TradeLog.history_append _ _ _ hnil, h.capacity]
  split
  · next hm =>
    subst hm
    have hself : (s.dispatch now fresh c).1.trades.filter (·.market == c.market) =
        (s.dispatch now fresh c).1.trades :=
      List.filter_eq_self.mpr fun t ht => by simp [hmarket t ht]
    rw [h.history, rtake_append_rtake, hself]
  · next hm =>
    have hnone : (s.dispatch now fresh c).1.trades.filter (·.market == m) = [] :=
      List.filter_eq_nil_iff.mpr fun t ht => by simp [hmarket t ht, Ne.symm hm]
    rw [h.history, hnone, List.append_nil]

/-- Dispatches commands one after another, each with the time written on its
trades and the request id given to a command that has none. -/
def session (s : Service) (calls : List (String × String × Command)) : List Dispatched × Service :=
  runCalls (fun s x => s.dispatch x.1 x.2.1 x.2.2) s calls

/-- Over a session, every answer hands its trades off and the log keeps up
with all of them. -/
theorem session_logged {cap : Nat} {s : Service} (h : s.Logged cap []) (calls : List (String × String × Command)) :
    (∀ d ∈ (s.session calls).1, d.HandsOff) ∧
      (s.session calls).2.Logged cap ((s.session calls).1.map Dispatched.trades).flatten := by
  have hrun := runCalls_history (fun s x => s.dispatch x.1 x.2.1 x.2.2)
    (fun s given => (∀ d ∈ given, d.HandsOff) ∧ s.Logged cap (given.map Dispatched.trades).flatten)
    (fun s x given ⟨hands, hlogged⟩ => by
      refine ⟨fun d hd => ?_, ?_⟩
      · rcases List.mem_append.mp hd with hd | hd
        · exact hands d hd
        · rw [List.mem_singleton.mp hd]
          exact dispatch_handsOff s x.1 x.2.1 x.2.2
      · rw [List.map_append, List.flatten_append, List.map_singleton, List.flatten_singleton]
        exact hlogged.step x.1 x.2.1 x.2.2)
    calls s [] ⟨by simp, h⟩
  simpa only [session, List.nil_append] using hrun

theorem logged_start {s : Service} {k : Int} (hlog : s.log = TradeLog.create k)
    (hfresh : ∀ b ∈ s.engine.books, b.nextTradeId = 0) : s.Logged (TradeLog.create k).capacity [] where
  counted :=
    ⟨fun m b hb => by
      rw [hfresh b (List.mem_of_find?_eq_some hb)]
      exact Trade.Numbered.nil m 0,
    fun _ _ _ ht => by simp at ht⟩
  capacity := by rw [hlog]
  history m := by simp [hlog, TradeLog.history, TradeLog.create]

/-- **The hand-off of trades.** Over every session of dispatches from a service
whose books have made no trade and whose log is new, for every market: every
published batch is non-empty; the batches published for the market, joined,
are the trades of the admitted placements on it, joined, in dispatch order;
their ids run `0, 1, 2, …`; the log's recent trades of the market are the
newest of them up to its capacity; and a refused dispatch publishes nothing
and leaves the log. -/
theorem session_handOff (s₀ : Service) (k : Int) (calls : List (String × String × Command))
    (hlog : s₀.log = TradeLog.create k) (hfresh : ∀ b ∈ s₀.engine.books, b.nextTradeId = 0) (m : String) :
    let run := s₀.session calls
    let placed := (run.1.map (Dispatched.placedOn m)).flatten
    (∀ d ∈ run.1, ∀ p ∈ d.published, p.2 ≠ []) ∧
      (run.1.map (Dispatched.publishedOn m)).flatten = placed ∧
      placed.map Trade.id = (List.range placed.length).map UInt64.ofNat ∧
      run.2.log.recent m 0 = placed.rtake (TradeLog.create k).capacity ∧
      ∀ (s : Service) now fresh c (err : EngineError), (s.dispatch now fresh c).1.outcome = .error err →
        (s.dispatch now fresh c).1.published = [] ∧ (s.dispatch now fresh c).2.log = s.log := by
  intro run placed
  obtain ⟨hands, hlogged⟩ := session_logged (logged_start hlog hfresh) calls
  have hmade : ((run.1.map Dispatched.trades).flatten.filter (·.market == m)) = placed := by
    rw [List.filter_flatten, List.map_map]
    exact congrArg List.flatten (List.map_congr_left fun d hd => (hands d hd).placed m)
  refine ⟨fun d hd => (hands d hd).nonempty,
    congrArg List.flatten (List.map_congr_left fun d hd => (hands d hd).published m), ?_, ?_,
    fun s now fresh c _ herr => dispatch_refused s now fresh c herr⟩
  · rw [← hmade]
    cases hb : run.2.engine.book? m with
    | none => rw [Engine.filter_market_nil (hlogged.counted.unbooked m hb)]; rfl
    | some b => simpa using (hlogged.counted.booked m b hb).ids
  · rw [TradeLog.recent_zero, hlogged.history m, hmade]

/-- A session on a new market that makes one trade and refuses a credit
meets the hypotheses of `session_handOff`. -/
theorem session_handOff_oneMarket :
    let s₀ : Service := ⟨((Engine.create "USDT").addMarket "BTC/USDT").2, TradeLog.create 2⟩
    let calls : List (String × String × Command) :=
      [("t", "r0", .addBalance "" "s" "BTC" 1),
       ("t", "r1", .placeOrder "" "BTC/USDT" "BTC" ⟨1, "s", .sell, 5, 1, 0⟩),
       ("t", "r2", .placeOrder "" "BTC/USDT" "BTC" ⟨2, "b", .buy, 5, 1, 0⟩)]
    s₀.log = TradeLog.create 2 ∧ (∀ b ∈ s₀.engine.books, b.nextTradeId = 0) ∧
      let run := s₀.session calls
      let placed := (run.1.map (Dispatched.placedOn "BTC/USDT")).flatten
      (∀ d ∈ run.1, ∀ p ∈ d.published, p.2 ≠ []) ∧
        (run.1.map (Dispatched.publishedOn "BTC/USDT")).flatten = placed ∧
        placed.map Trade.id = (List.range placed.length).map UInt64.ofNat ∧
        run.2.log.recent "BTC/USDT" 0 = placed.rtake (TradeLog.create 2).capacity ∧
        ∀ (s : Service) now fresh c (err : EngineError), (s.dispatch now fresh c).1.outcome = .error err →
          (s.dispatch now fresh c).1.published = [] ∧ (s.dispatch now fresh c).2.log = s.log := by
  intro s₀ calls
  have hfresh : ∀ b ∈ s₀.engine.books, b.nextTradeId = 0 := by decide
  exact ⟨rfl, hfresh, session_handOff s₀ 2 calls rfl hfresh "BTC/USDT"⟩

end Service

end Exchange
