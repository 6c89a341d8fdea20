import Exchange.Proofs.Transports
/-!
# Admission of an order

A placement passes four checks in order and answers with the first that
fails: the order's own checks, the market's existence, the escrow amount
fitting 64 bits, and the funds available to escrow (`Engine.placeOrder_cases`).
On an engine reached by a session from a new engine, a market exists exactly
when the session added it (`Engine.session_hasMarket`), and no amount exceeds
64 bits (`Engine.session_bounded`).

So on every reachable engine (`Engine.placeOrder_admission`): each refusal is
answered exactly when its check is the first to fail; a refusal moves no book
and no amount, and at most writes an empty record for a user the ledger did
not know; an admission moves the escrow amount from available to locked for
the order's user and asset, over the naturals, changes no other amount, and
replaces the market's book by the book after placing the order, whose order
and trades it answers with, leaving every other market's book.

Key theorems: `Engine.placeOrder_cases`, `Engine.session_hasMarket`,
`Engine.session_bounded`, `Engine.placeOrder_admission`.
-/

namespace Exchange

namespace Order

/-- An escrow is refused exactly for an order other than a sell whose price
times quantity, over the naturals, does not fit 64 bits. -/
theorem escrow_eq_none_iff (o : Order) (quote base : String) :
    o.escrow quote base = none ↔ o.side ≠ .sell ∧ UInt64.size ≤ o.price.toNat * o.quantity.toNat := by
  unfold escrow
  by_cases hs : o.side = .sell
  · simp [hs]
  · by_cases hfit : o.price.toNat * o.quantity.toNat < UInt64.size
    · simp [hs, hfit]
    · simp [hs, hfit, Nat.not_lt.mp hfit]

end Order

namespace Ledger

theorem balance?_put (l : Ledger) (u u' : String) (b : UserBalance) :
    (l.put u b).balance? u' = if u' = u then some b else l.balance? u' := by
  have hrecords : (l.put u b).records =
      if l.records.any (·.1 == u) then l.records.map (fun e => if e.1 == u then (u, b) else e)
      else l.records ++ [(u, b)] := by
    unfold put; split <;> rfl
  rw [balance?, hrecords, find?_upsert]
  split <;> rfl

/-- A refused escrow writes its user's record back as it reads: a known user
finds the same record, an unknown one an empty record. -/
theorem escrow_refused_balance? (l : Ledger) (u a : String) (n : UInt64)
    (h : (l.entry u).available.get a < n) (u' : String) :
    (l.escrow u a n).2.balance? u' = l.balance? u' ∨
      (u' = u ∧ l.balance? u' = none ∧ (l.escrow u a n).2.balance? u' = some .empty) := by
  simp only [escrow, h, ↓reduceIte, balance?_put]
  by_cases hu : u' = u
  · subst hu
    cases hb : l.balance? u' with
    | none => exact .inr ⟨rfl, rfl, by simp [entry, hb]⟩
    | some b => exact .inl (by simp [entry, hb])
  · exact .inl (if_neg hu)

end Ledger

namespace Engine

/-! ### The four checks -/

section Checks

variable (e : Engine) (now market : String) (o : Order) (base : String)

/-- **The checks of a placement, in order.** -/
theorem placeOrder_cases :
    (∃ v, o.validate = some v ∧ e.placeOrder now market o base = (.error (.invalid v), e)) ∨
      (o.validate = none ∧ e.book? market = none ∧
        e.placeOrder now market o base = (.error .marketNotFound, e)) ∨
      (o.validate = none ∧ (∃ b, e.book? market = some b) ∧ o.escrow e.quoteAsset base = none ∧
        e.placeOrder now market o base = (.error .amountOverflow, e)) ∨
      (∃ b asset amount, o.validate = none ∧ e.book? market = some b ∧
        o.escrow e.quoteAsset base = some (asset, amount) ∧ e.available o.userId asset < amount ∧
        e.placeOrder now market o base =
          (.error .insufficientFunds, { e with ledger := (e.ledger.escrow o.userId asset amount).2 })) ∨
      (∃ b asset amount, o.validate = none ∧ e.book? market = some b ∧
        o.escrow e.quoteAsset base = some (asset, amount) ∧ ¬e.available o.userId asset < amount ∧
        e.placeOrder now market o base =
          (.ok ⟨(b.place now o).1.order, (b.place now o).1.trades, !(b.place now o).1.order.isFilled⟩,
            ({ e with ledger := (e.ledger.escrow o.userId asset amount).2 } : Engine).setBook
              (b.place now o).2)) := by
  cases hv : o.validate with
  | some v => exact .inl ⟨v, rfl, by simp [placeOrder, hv]⟩
  | none =>
    cases hb : e.book? market with
    | none => exact .inr (.inl ⟨rfl, rfl, by simp [placeOrder, hv, hb]⟩)
    | some b =>
      cases he : o.escrow e.quoteAsset base with
      | none => exact .inr (.inr (.inl ⟨rfl, ⟨b, rfl⟩, rfl, by simp [placeOrder, hv, hb, he]⟩))
      | some r =>
        obtain ⟨asset, amount⟩ := r
        have hguard : (e.ledger.escrow o.userId asset amount).1 =
            !decide (e.available o.userId asset < amount) := Ledger.escrow_ok _ _ _ _
        by_cases hlt : e.available o.userId asset < amount
        · have hok : (e.ledger.escrow o.userId asset amount).1 = false := by simp [hguard, hlt]
          refine .inr (.inr (.inr (.inl ⟨b, asset, amount, rfl, rfl, rfl, hlt, ?_⟩)))
          simp [placeOrder, hv, hb, he, hok]
        · have hok : (e.ledger.escrow o.userId asset amount).1 = true := by simp [hguard, hlt]
          refine .inr (.inr (.inr (.inr ⟨b, asset, amount, rfl, rfl, rfl, hlt, ?_⟩)))
          simp [placeOrder, hv, hb, he, hok]

end Checks

/-! ### Reachable engines -/

theorem hasMarket_iff (e : Engine) (m : String) : e.hasMarket m = true ↔ ∃ b, e.book? m = some b := by
  simp [hasMarket, Option.isSome_iff_exists]

theorem hasMarket_setBook (e : Engine) (b : Book) (m : String) :
    (e.setBook b).hasMarket m = e.hasMarket m := by
  simp only [hasMarket, book?_setBook]
  split <;> simp

theorem perform_hasMarket (e : Engine) (c : Call) (m : String) :
    (e.perform c).2.hasMarket m = true ↔ e.hasMarket m = true ∨ c = .addMarket m := by
  cases c with
  | addMarket m' =>
    show (e.addMarket m').2.hasMarket m = true ↔ _
    simp only [hasMarket, book?_addMarket, Call.addMarket.injEq]
    by_cases hm : m = m'
    · subst hm
      cases e.book? m <;> simp
    · simp [hm, Ne.symm hm]
  | addBalance u a n =>
    obtain ⟨r, -, hperform⟩ := perform_addBalance_eq e u a n
    rw [hperform]
    simp only [reduceCtorEq, or_false]
    rfl
  | placeOrder now m' o base =>
    show (e.placeOrder now m' o base).2.hasMarket m = true ↔ _
    rcases placeOrder_books e now m' o base with ⟨-, hbooks⟩ | ⟨b, p, -, -, -, -, hbooks⟩
    · simp only [hasMarket, book?_of_books hbooks, reduceCtorEq, or_false]
    · simp only [hasMarket, book?_of_books hbooks, reduceCtorEq, or_false]
      rw [← hasMarket, ← hasMarket, hasMarket_setBook]
  | cancelOrder m' id =>
    show (e.cancelOrder m' id).2.hasMarket m = true ↔ _
    unfold cancelOrder
    split
    · simp
    · simp only [hasMarket_setBook, reduceCtorEq, or_false]
  | getDepth m' =>
    show e.hasMarket m = true ↔ _
    simp

theorem runCalls_hasMarket (m : String) :
    ∀ (calls : List Call) (e : Engine),
      (runCalls perform e calls).2.hasMarket m = true ↔ e.hasMarket m = true ∨ Call.addMarket m ∈ calls
  | [], e => by simp
  | c :: cs, e => by
    rw [runCalls_cons, runCalls_hasMarket m cs, perform_hasMarket, List.mem_cons]
    exact or_assoc.trans (or_congr_right (or_congr_left eq_comm))

/-- **Markets of a reachable engine.** A market exists after a session from a
new engine exactly when the session added it. -/
theorem session_hasMarket (q : String) (calls : List Call) (m : String) :
    (runCalls perform (create q) calls).2.hasMarket m = true ↔ Call.addMarket m ∈ calls := by
  rw [runCalls_hasMarket]
  simp [create, hasMarket, book?]

/-- No amount of an engine reached by a session from a new engine exceeds 64
bits, available and locked together. -/
theorem session_bounded (q : String) (calls : List Call) : (runCalls perform (create q) calls).2.Bounded :=
  runCalls_invariant perform (fun _ => True) Bounded (fun s c _ hs u a => (perform_amounts s u a c hs).2.2)
    calls (create q) (fun _ _ => trivial)
    (fun u a => by simp [(create_amounts q u a).1, (create_amounts q u a).2])

/-! ### Admission -/

/-- A granted escrow moves its amount from available to locked of its user's
asset, over the naturals when the amounts fit 64 bits, and changes no other
amount. -/
theorem escrow_moves (e : Engine) (u a : String) (n : UInt64) (hle : ¬e.available u a < n)
    (hb : e.Bounded) :
    (({ e with ledger := (e.ledger.escrow u a n).2 } : Engine).available u a).toNat + n.toNat =
        (e.available u a).toNat ∧
      (({ e with ledger := (e.ledger.escrow u a n).2 } : Engine).locked u a).toNat =
        (e.locked u a).toNat + n.toNat ∧
      ∀ u' a', (u', a') ≠ (u, a) →
        ({ e with ledger := (e.ledger.escrow u a n).2 } : Engine).available u' a' = e.available u' a' ∧
          ({ e with ledger := (e.ledger.escrow u a n).2 } : Engine).locked u' a' = e.locked u' a' := by
  simp only [available, locked, Ledger.escrow_entry]
  simp only [available] at hle
  have hfit := hb u a
  simp only [available, locked] at hfit
  have hnle : n.toNat ≤ ((e.ledger.entry u).available.get a).toNat := by
    simpa [UInt64.lt_iff_toNat_lt] using hle
  refine ⟨?_, ?_, fun u' a' hne => ?_⟩
  · simp only [hle, not_false_eq_true, and_self, ↓reduceIte, Holdings.get_set]
    rw [UInt64.toNat_sub_of_le _ _ (UInt64.le_iff_toNat_le.mpr hnle)]
    omega
  · simp only [hle, not_false_eq_true, and_self, ↓reduceIte, Holdings.get_set]
    exact toNat_add_of_fits (by omega)
  · by_cases hu : u' = u
    · subst hu
      have ha : a' ≠ a := fun ha => hne (by rw [ha])
      simp [hle, Holdings.get_set, ha]
    · simp [hu]

theorem book?_admitted {e : Engine} {market : String} {b : Book} (hb : e.book? market = some b)
    (now : String) (o : Order) (l : Ledger) (m : String) :
    (({ e with ledger := l } : Engine).setBook (b.place now o).2).book? m =
      if m = market then some (b.place now o).2 else e.book? m := by
  have hmarket : (b.place now o).2.market = market :=
    (b.place_numbered now o).2.trans (book?_market hb)
  have hsame : ({ e with ledger := l } : Engine).book? m = e.book? m := rfl
  rw [book?_setBook, hmarket, hsame]
  by_cases hm : m = market
  · subst hm
    simp [hb]
  · simp [hm, Ne.symm hm]

/-- **Admission of an order.** On every engine reached by a session from a
new engine, a placement answers with the refusal of an invalid order exactly
when the order fails its checks, with that failure; else with an unknown
market exactly when the session never added it; else with an overflow
exactly when the order is not a sell and its price times its quantity does
not fit 64 bits; else with missing funds exactly when less than the escrow
amount is available; and is admitted otherwise. A refusal moves no book and
no amount, and at most writes an empty record for the order's user when the
ledger did not know it. An admission moves exactly the escrow amount from
the user's available to its locked funds of the escrow asset, over the
naturals, changes no other amount, answers with the order and trades of
placing it on the market's book, and replaces that book by the book after
the placement, every other market's book staying as it was. -/
theorem placeOrder_admission (q : String) (calls : List Call) (now market : String) (o : Order)
    (base : String) :
    let e := (runCalls perform (create q) calls).2
    let r := e.placeOrder now market o base
    (∀ v, r.1 = .error (.invalid v) ↔ o.validate = some v) ∧
      (o.validate = none → (r.1 = .error .marketNotFound ↔ Call.addMarket market ∉ calls)) ∧
      (o.validate = none → Call.addMarket market ∈ calls →
        (r.1 = .error .amountOverflow ↔ o.side ≠ .sell ∧ UInt64.size ≤ o.price.toNat * o.quantity.toNat)) ∧
      (∀ asset amount, o.validate = none → Call.addMarket market ∈ calls →
        o.escrow e.quoteAsset base = some (asset, amount) →
        (r.1 = .error .insufficientFunds ↔ e.available o.userId asset < amount)) ∧
      ((∃ p, r.1 = .ok p) ↔ o.validate = none ∧ Call.addMarket market ∈ calls ∧
        ∃ asset amount, o.escrow e.quoteAsset base = some (asset, amount) ∧
          ¬e.available o.userId asset < amount) ∧
      (r.1.toBool = false → e.Unmoved r.2 ∧
        ∀ u, r.2.ledger.balance? u = e.ledger.balance? u ∨
          (u = o.userId ∧ e.ledger.balance? u = none ∧ r.2.ledger.balance? u = some .empty)) ∧
      (∀ p, r.1 = .ok p → ∃ b asset amount, e.book? market = some b ∧
        o.escrow e.quoteAsset base = some (asset, amount) ∧
        (r.2.available o.userId asset).toNat + amount.toNat = (e.available o.userId asset).toNat ∧
        (r.2.locked o.userId asset).toNat = (e.locked o.userId asset).toNat + amount.toNat ∧
        (∀ u a, (u, a) ≠ (o.userId, asset) →
          r.2.available u a = e.available u a ∧ r.2.locked u a = e.locked u a) ∧
        r.2.book? market = some (b.place now o).2 ∧ (∀ m, m ≠ market → r.2.book? m = e.book? m) ∧
        p = ⟨(b.place now o).1.order, (b.place now o).1.trades, !(b.place now o).1.order.isFilled⟩) := by
  intro e r
  have hadded : (∃ b, e.book? market = some b) ↔ Call.addMarket market ∈ calls :=
    (hasMarket_iff e market).symm.trans (session_hasMarket q calls market)
  have hkept : ∀ err, r = (.error err, e) → r.1.toBool = false → e.Unmoved r.2 ∧
      ∀ u, r.2.ledger.balance? u = e.ledger.balance? u ∨
        (u = o.userId ∧ e.ledger.balance? u = none ∧ r.2.ledger.balance? u = some .empty) := by
    intro err hr _
    rw [hr]
    exact ⟨Unmoved.refl e, fun _ => .inl rfl⟩
  have hfits : ∀ asset amount, o.escrow e.quoteAsset base = some (asset, amount) →
      ¬(o.side ≠ .sell ∧ UInt64.size ≤ o.price.toNat * o.quantity.toNat) := fun asset amount he =>
    (Order.escrow_eq_none_iff o e.quoteAsset base).not.mp (by simp [he])
  rcases placeOrder_cases e now market o base with
    ⟨v, hv, heq⟩ | ⟨hv, hb, heq⟩ | ⟨hv, hb, he, heq⟩ | ⟨b, asset, amount, hv, hb, he, hlt, heq⟩ |
      ⟨b, asset, amount, hv, hb, he, hlt, heq⟩
  · have hr : r = (.error (.invalid v), e) := heq
    refine ⟨fun v' => ?_, fun h => ?_, fun h => ?_, fun _ _ h => ?_, ?_, hkept _ hr, fun p hp => ?_⟩
    · rw [hr, hv]
      simp
    all_goals simp [hr, hv] at *
  · have hr : r = (.error .marketNotFound, e) := heq
    have hnot : Call.addMarket market ∉ calls := fun h => by
      obtain ⟨b, hb'⟩ := hadded.mpr h
      rw [hb] at hb'
      cases hb'
    refine ⟨fun v' => ?_, fun _ => ?_, fun _ h => absurd h hnot, fun _ _ _ h => absurd h hnot, ?_,
      hkept _ hr, fun p hp => ?_⟩
    all_goals simp [hr, hv, hnot] at *
  · have hr : r = (.error .amountOverflow, e) := heq
    have hoverflow := (Order.escrow_eq_none_iff o e.quoteAsset base).mp he
    refine ⟨fun v' => ?_, fun _ => ?_, fun _ _ => ?_, fun _ _ _ _ h => ?_, ?_, hkept _ hr, fun p hp => ?_⟩
    all_goals simp [hr, hv, hadded.mp hb, hoverflow, he] at *
  · have hr : r = (.error .insufficientFunds, { e with ledger := (e.ledger.escrow o.userId asset amount).2 }) :=
      heq
    have hmoved : e.Unmoved { e with ledger := (e.ledger.escrow o.userId asset amount).2 } :=
      unmoved_of_entries rfl fun u => by
        rw [Ledger.escrow_entry, if_neg fun h => h.2 hlt]
    refine ⟨fun v' => ?_, fun _ => ?_, fun _ _ => ?_, fun asset' amount' _ _ he' => ?_, ?_,
      fun _ => ?_, fun p hp => ?_⟩
    · simp [hr, hv]
    · simp [hr, hadded.mp ⟨b, hb⟩]
    · simpa [hr] using hfits asset amount he
    · rw [he] at he'
      obtain ⟨rfl, rfl⟩ := Prod.mk.inj (Option.some.inj he')
      simp [hr, hlt]
    · simp only [hr, reduceCtorEq, exists_false, false_iff, not_and, not_exists]
      intro _ _ asset' amount' he'
      rw [he] at he'
      obtain ⟨rfl, rfl⟩ := Prod.mk.inj (Option.some.inj he')
      simp [hlt]
    · rw [hr]
      exact ⟨hmoved, Ledger.escrow_refused_balance? e.ledger o.userId asset amount hlt⟩
    · simp [hr] at hp
  · have hr : r = (.ok ⟨(b.place now o).1.order, (b.place now o).1.trades, !(b.place now o).1.order.isFilled⟩,
        ({ e with ledger := (e.ledger.escrow o.userId asset amount).2 } : Engine).setBook (b.place now o).2) :=
      heq
    obtain ⟨hav, hlo, hrest⟩ := escrow_moves e o.userId asset amount hlt (session_bounded q calls)
    refine ⟨fun v' => ?_, fun _ => ?_, fun _ _ => ?_, fun asset' amount' _ _ he' => ?_, ?_,
      fun hfail => ?_, fun p hp => ?_⟩
    · simp [hr, hv]
    · simp [hr, hadded.mp ⟨b, hb⟩]
    · simpa [hr] using hfits asset amount he
    · rw [he] at he'
      obtain ⟨rfl, rfl⟩ := Prod.mk.inj (Option.some.inj he')
      simp [hr, hlt]
    · simp only [hr, Except.ok.injEq, exists_eq', true_iff]
      exact ⟨hv, hadded.mp ⟨b, hb⟩, asset, amount, he, hlt⟩
    · simp [hr, Except.toBool] at hfail
    · rw [hr] at hp ⊢
      refine ⟨b, asset, amount, hb, he, hav, hlo, hrest, ?_, fun m hm => ?_, ?_⟩
      · rw [book?_admitted hb]
        simp
      · rw [book?_admitted hb, if_neg hm]
      · simpa using hp.symm

end Engine

end Exchange
