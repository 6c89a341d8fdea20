import Exchange.Proofs.CreditGuard
import Exchange.Proofs.Admission
/-!
# Calls on different markets commute

The books are per market, the ledger is shared. A placement, a cancellation
or a depth query (`Engine.MarketCall`) reads its market's book, the quote
asset and, for a placement that passes its checks before the funds, whether
its escrow is granted (`Engine.runMarket_reads`); it writes only its market's
book and the amounts of its escrow (`Engine.book?_runMarket_other`,
`Engine.ledger_runMarket`).

Two escrows commute unless they contend (`Ledger.escrow_escrow`): unless
they draw on one user's asset whose available amount covers each alone but
not both, each is granted after the other exactly when it is granted first,
and they leave the same amounts in either order, amounts being 64-bit words
whose subtractions and additions commute.

So two calls on different markets, from any engine (`Engine.runMarket_comm`),
give the same answers and leave the same books, trade counters and amounts
in either order, unless both are placements whose escrows contend; then in
either order the first is admitted and the second refused for funds. Engines
alike in these stay alike under every call (`Engine.Alike.runMarket`), so no
later session of calls tells the two orders apart (`Engine.runMarket_swap_later`).

Key definitions: `Ledger.escrowBy`, `Ledger.Same`, `Ledger.Contend`,
`Engine.MarketCall`, `Engine.runMarket`, `Engine.admission`,
`Engine.escrowOf`, `Engine.Alike`.
Key theorems: `Ledger.escrow_escrow`, `Ledger.escrowBy_comm`,
`Engine.runMarket_placeOrder`, `Engine.runMarket_reads`,
`Engine.Alike.runMarket`, `Engine.runMarket_swap_later`, `Engine.runMarket_comm`.
-/

namespace Exchange

namespace Ledger

/-! ### Two escrows -/

/-- The ledger after the escrow a call asks for, if it asks one: a user, an
asset and an amount. -/
def escrowBy (l : Ledger) : Option (String × String × UInt64) → Ledger
  | none => l
  | some (u, a, n) => (l.escrow u a n).2

/-- Two ledgers holding the same amounts, whatever records they keep. -/
def Same (l l' : Ledger) : Prop :=
  ∀ u a, l.available u a = l'.available u a ∧ l.locked u a = l'.locked u a

/-- Two escrows contend on a ledger: they draw on one user's asset, whose
available amount covers each alone but not both, over the naturals. -/
def Contend (l : Ledger) : Option (String × String × UInt64) → Option (String × String × UInt64) → Prop
  | some (u, a, n), some (u', a', n') =>
    u' = u ∧ a' = a ∧ n ≤ l.available u a ∧ n' ≤ l.available u a ∧
      (l.available u a).toNat < n.toNat + n'.toNat
  | _, _ => False

theorem Same.refl (l : Ledger) : l.Same l := fun _ _ => ⟨rfl, rfl⟩

theorem escrow_granted (l : Ledger) (u a : String) (n : UInt64) :
    (l.escrow u a n).1 = !decide (l.available u a < n) :=
  escrow_ok l u a n

theorem available_escrow_sub (l : Ledger) (u a : String) (n : UInt64) (u' a' : String) :
    (l.escrow u a n).2.available u' a' =
      l.available u' a' - if u' = u ∧ a' = a ∧ (l.escrow u a n).1 = true then n else 0 := by
  rw [available_escrow, escrow_granted]
  by_cases hu : u' = u
  · by_cases ha : a' = a
    · subst hu ha
      by_cases hlt : l.available u' a' < n <;> simp [hlt]
    · simp [ha]
  · simp [hu]

theorem locked_escrow_add (l : Ledger) (u a : String) (n : UInt64) (u' a' : String) :
    (l.escrow u a n).2.locked u' a' =
      l.locked u' a' + if u' = u ∧ a' = a ∧ (l.escrow u a n).1 = true then n else 0 := by
  rw [locked_escrow, escrow_granted]
  by_cases hu : u' = u
  · by_cases ha : a' = a
    · subst hu ha
      by_cases hlt : l.available u' a' < n <;> simp [hlt]
    · simp [ha]
  · simp [hu]

/-- An escrow reads only amounts: on ledgers holding the same amounts it is
granted alike and leaves the same amounts. -/
theorem Same.escrow {l l' : Ledger} (h : l.Same l') (u a : String) (n : UInt64) :
    (l.escrow u a n).1 = (l'.escrow u a n).1 ∧ (l.escrow u a n).2.Same (l'.escrow u a n).2 := by
  have hgrant : (l.escrow u a n).1 = (l'.escrow u a n).1 := by
    rw [escrow_granted, escrow_granted, (h u a).1]
  refine ⟨hgrant, fun u' a' => ⟨?_, ?_⟩⟩
  · rw [available_escrow_sub, available_escrow_sub, hgrant, (h u' a').1]
  · rw [locked_escrow_add, locked_escrow_add, hgrant, (h u' a').2]

theorem contend_comm (l : Ledger) (u a : String) (n : UInt64) (u' a' : String) (n' : UInt64) :
    l.Contend (some (u, a, n)) (some (u', a', n')) ↔ l.Contend (some (u', a', n')) (some (u, a, n)) := by
  constructor
  · rintro ⟨rfl, rfl, hn, hn', hsum⟩
    exact ⟨rfl, rfl, hn', hn, by omega⟩
  · rintro ⟨rfl, rfl, hn', hn, hsum⟩
    exact ⟨rfl, rfl, hn, hn', by omega⟩

theorem Contend.symm {l : Ledger} {r r' : Option (String × String × UInt64)} (h : l.Contend r r') :
    l.Contend r' r := by
  cases r with
  | none => exact h.elim
  | some c =>
    cases r' with
    | none => exact h.elim
    | some c' =>
      obtain ⟨u, a, n⟩ := c
      obtain ⟨u', a', n'⟩ := c'
      exact (contend_comm l u a n u' a' n').mp h

instance (l : Ledger) : ∀ r r' : Option (String × String × UInt64), Decidable (l.Contend r r')
  | some (u, a, n), some (u', a', n') =>
    inferInstanceAs (Decidable (u' = u ∧ a' = a ∧ n ≤ l.available u a ∧ n' ≤ l.available u a ∧
      (l.available u a).toNat < n.toNat + n'.toNat))
  | none, _ => isFalse id
  | some _, none => isFalse id

/-- **An escrow's verdict survives another that does not contend with it.**
After a first escrow, a second is granted exactly when it would have been
granted alone: on another asset the first changed nothing it reads, and on
the same asset either the first was refused, or both fit together, or the
second did not fit even alone. -/
theorem escrow_escrow (l : Ledger) (u a : String) (n : UInt64) (u' a' : String) (n' : UInt64)
    (h : ¬l.Contend (some (u, a, n)) (some (u', a', n'))) :
    ((l.escrow u a n).2.escrow u' a' n').1 = (l.escrow u' a' n').1 := by
  rw [escrow_granted, escrow_granted, available_escrow]
  split
  · next hcell =>
    obtain ⟨rfl, rfl, hge⟩ := hcell
    have hle : n ≤ l.available u' a' := UInt64.not_lt.mp hge
    have hleN : n.toNat ≤ (l.available u' a').toNat := UInt64.le_iff_toNat_le.mp hle
    -- the second fits alone only if both fit together
    have hboth : n'.toNat ≤ (l.available u' a').toNat → n.toNat + n'.toNat ≤ (l.available u' a').toNat := by
      intro hn'
      by_contra hlt
      exact h ⟨rfl, rfl, hle, UInt64.le_iff_toNat_le.mpr hn', by omega⟩
    have hiff : l.available u' a' - n < n' ↔ l.available u' a' < n' := by
      rw [UInt64.lt_iff_toNat_lt, UInt64.lt_iff_toNat_lt, UInt64.toNat_sub_of_le _ _ hle]
      omega
    simp only [hiff]
  · rfl

/-- **Two escrows that do not contend leave the same amounts in either
order.** -/
theorem escrow_escrow_same (l : Ledger) (u a : String) (n : UInt64) (u' a' : String) (n' : UInt64)
    (h : ¬l.Contend (some (u, a, n)) (some (u', a', n'))) :
    ((l.escrow u a n).2.escrow u' a' n').2.Same ((l.escrow u' a' n').2.escrow u a n).2 := by
  have hv := escrow_escrow l u a n u' a' n' h
  have hv' := escrow_escrow l u' a' n' u a n fun h' => h h'.symm
  intro u'' a''
  -- each escrow takes or adds what it would alone; words subtract and add in any order
  refine ⟨?_, ?_⟩
  · simp only [available_escrow_sub, hv, hv']
    exact sub_right_comm _ _ _
  · simp only [locked_escrow_add, hv, hv']
    exact add_right_comm _ _ _

/-- **Escrows asked by two calls commute unless they contend.** -/
theorem escrowBy_comm (l : Ledger) (r r' : Option (String × String × UInt64)) (h : ¬l.Contend r r') :
    (∀ u a n, r = some (u, a, n) → ((l.escrowBy r').escrow u a n).1 = (l.escrow u a n).1) ∧
      (∀ u a n, r' = some (u, a, n) → ((l.escrowBy r).escrow u a n).1 = (l.escrow u a n).1) ∧
      ((l.escrowBy r).escrowBy r').Same ((l.escrowBy r').escrowBy r) := by
  cases r with
  | none =>
    exact ⟨fun _ _ _ h => (nomatch h), fun _ _ _ _ => rfl, Same.refl _⟩
  | some c =>
    obtain ⟨u, a, n⟩ := c
    cases r' with
    | none => exact ⟨fun _ _ _ _ => rfl, fun _ _ _ h => (nomatch h), Same.refl _⟩
    | some c' =>
      obtain ⟨u', a', n'⟩ := c'
      have h' : ¬l.Contend (some (u', a', n')) (some (u, a, n)) := fun h' => h h'.symm
      refine ⟨fun _ _ _ hc => ?_, fun _ _ _ hc => ?_, escrow_escrow_same l u a n u' a' n' h⟩
      · cases hc
        exact escrow_escrow l u' a' n' u a n h'
      · cases hc
        exact escrow_escrow l u a n u' a' n' h

theorem Same.escrowBy {l l' : Ledger} (h : l.Same l') (r : Option (String × String × UInt64)) :
    (l.escrowBy r).Same (l'.escrowBy r) := by
  cases r with
  | none => exact h
  | some c =>
    obtain ⟨u, a, n⟩ := c
    exact (Same.escrow h u a n).2

end Ledger

namespace Engine

/-! ### Calls on one market -/

/-- A call on one market: a placement (with the time written on its trades and
the base asset of its market), a cancellation, or a depth query. -/
inductive MarketCall where
  | placeOrder (now market : String) (o : Order) (base : String)
  | cancelOrder (market : String) (id : UInt64)
  | getDepth (market : String)

/-- The market a call is on. -/
def MarketCall.market : MarketCall → String
  | .placeOrder _ m _ _ => m
  | .cancelOrder m _ => m
  | .getDepth m => m

/-- What the engine answers to a call on one market. -/
inductive MarketReply where
  | placed (r : Except EngineError Placement)
  | cancelled (r : Except EngineError (Option Order))
  | depth (r : Except EngineError Depth)

/-- Runs a call on one market. -/
def runMarket (e : Engine) : MarketCall → MarketReply × Engine
  | .placeOrder now m o base => (.placed (e.placeOrder now m o base).1, (e.placeOrder now m o base).2)
  | .cancelOrder m id => (.cancelled (e.cancelOrder m id).1, (e.cancelOrder m id).2)
  | .getDepth m => (.depth (e.depth m), e)

/-- The checks of a placement before its funds, in order: the order's own,
its market's book, and an escrow amount that fits 64 bits. Passing them gives
the book, and the escrow's asset and amount. -/
def admission (e : Engine) (market : String) (o : Order) (base : String) :
    Except EngineError (Book × String × UInt64) :=
  match o.validate with
  | some v => .error (.invalid v)
  | none =>
    match e.book? market with
    | none => .error .marketNotFound
    | some b =>
      match o.escrow e.quoteAsset base with
      | none => .error .amountOverflow
      | some (asset, amount) => .ok (b, asset, amount)

/-- The escrow a call asks of the ledger: a placement that passes its checks
before the funds asks its user for its escrow amount of its escrow asset;
no other call asks any. -/
def escrowOf (e : Engine) : MarketCall → Option (String × String × UInt64)
  | .placeOrder _ m o base =>
    match e.admission m o base with
    | .ok (_, asset, amount) => some (o.userId, asset, amount)
    | .error _ => none
  | _ => none

/-- Two engines alike in all a caller observes: the quote asset, every
market's book with its trade counter, and every amount. -/
structure Alike (e e' : Engine) : Prop where
  quoteAsset : e.quoteAsset = e'.quoteAsset
  book : ∀ m, e.book? m = e'.book? m
  amounts : e.ledger.Same e'.ledger

theorem admission_ok {e : Engine} {market : String} {o : Order} {base : String} {b : Book}
    {asset : String} {amount : UInt64} (h : e.admission market o base = .ok (b, asset, amount)) :
    o.validate = none ∧ e.book? market = some b ∧ o.escrow e.quoteAsset base = some (asset, amount) := by
  unfold admission at h
  cases hv : o.validate with
  | some v => simp [hv] at h
  | none =>
    cases hb : e.book? market with
    | none => simp [hv, hb] at h
    | some b' =>
      cases he : o.escrow e.quoteAsset base with
      | none => simp [hv, hb, he] at h
      | some r =>
        obtain ⟨a, n⟩ := r
        simp only [hv, hb, he, Except.ok.injEq, Prod.mk.injEq] at h
        obtain ⟨rfl, rfl, rfl⟩ := h
        exact ⟨rfl, rfl, rfl⟩

/-- The checks before the funds read only the market's book and the quote
asset. -/
theorem admission_congr {e e' : Engine} {market : String} (hbook : e.book? market = e'.book? market)
    (hquote : e.quoteAsset = e'.quoteAsset) (o : Order) (base : String) :
    e.admission market o base = e'.admission market o base := by
  simp only [admission, hbook, hquote]

/-- **A placement, stage by stage.** It answers the first check that fails
before the funds, changing nothing; else it tries its escrow, and is either
refused for funds, the escrow writing its user's record, or admitted, the
escrow taken and the market's book replaced by the book after placing the
order. -/
theorem runMarket_placeOrder (e : Engine) (now m : String) (o : Order) (base : String) :
    e.runMarket (.placeOrder now m o base) =
      match e.admission m o base with
      | .error err => (.placed (.error err), e)
      | .ok (b, asset, amount) =>
        if (e.ledger.escrow o.userId asset amount).1 then
          (.placed (.ok ⟨(b.place now o).1.order, (b.place now o).1.trades, !(b.place now o).1.order.isFilled⟩),
            ({ e with ledger := (e.ledger.escrow o.userId asset amount).2 } : Engine).setBook (b.place now o).2)
        else (.placed (.error .insufficientFunds), { e with ledger := (e.ledger.escrow o.userId asset amount).2 }) := by
  rcases placeOrder_cases e now m o base with ⟨v, hv, heq⟩ | ⟨hv, hb, heq⟩ | ⟨hv, ⟨b, hb⟩, he, heq⟩ |
    ⟨b, asset, amount, hv, hb, he, hlt, heq⟩ | ⟨b, asset, amount, hv, hb, he, hlt, heq⟩
  · simp [runMarket, heq, admission, hv]
  · simp [runMarket, heq, admission, hv, hb]
  · simp [runMarket, heq, admission, hv, hb, he]
  · have hlt' : e.ledger.available o.userId asset < amount := hlt
    have hok : (e.ledger.escrow o.userId asset amount).1 = false := by
      rw [Ledger.escrow_granted]
      simp [hlt']
    simp [runMarket, heq, admission, hv, hb, he, hok]
  · have hlt' : ¬e.ledger.available o.userId asset < amount := hlt
    have hok : (e.ledger.escrow o.userId asset amount).1 = true := by
      rw [Ledger.escrow_granted]
      simp [hlt']
    simp [runMarket, heq, admission, hv, hb, he, hok]

theorem runMarket_cancelOrder (e : Engine) (m : String) (id : UInt64) :
    e.runMarket (.cancelOrder m id) =
      match e.book? m with
      | none => (.cancelled (.error .marketNotFound), e)
      | some b => (.cancelled (.ok (b.cancel id).1), e.setBook (b.cancel id).2) := by
  simp only [runMarket, cancelOrder]
  cases e.book? m <;> rfl

theorem book?_setBook_found {e : Engine} {m : String} {b b' : Book} (hb : e.book? m = some b)
    (hm : b'.market = m) (m' : String) :
    (e.setBook b').book? m' = if m' = m then some b' else e.book? m' := by
  rw [book?_setBook, hm]
  by_cases h : m' = m
  · subst h
    simp [hb]
  · simp [h, Ne.symm h]

/-! ### What a call writes and what it reads -/

theorem place_market_of_admission {e : Engine} {m : String} {o : Order} {base : String} {b : Book}
    {asset : String} {amount : UInt64} (h : e.admission m o base = .ok (b, asset, amount)) (now : String) :
    (b.place now o).2.market = m :=
  (b.place_numbered now o).2.trans (book?_market (admission_ok h).2.1)

theorem quoteAsset_runMarket (e : Engine) (X : MarketCall) : (e.runMarket X).2.quoteAsset = e.quoteAsset := by
  cases X with
  | placeOrder now m o base => exact placeOrder_quoteAsset e now m o base
  | cancelOrder m id =>
    rw [runMarket_cancelOrder]
    cases e.book? m <;> rfl
  | getDepth m => rfl

/-- **A call writes only its own market's book.** -/
theorem book?_runMarket_other (e : Engine) (X : MarketCall) {m : String} (hm : m ≠ X.market) :
    (e.runMarket X).2.book? m = e.book? m := by
  cases X with
  | placeOrder now m' o base =>
    have hm' : m ≠ m' := hm
    rw [runMarket_placeOrder]
    cases hadm : e.admission m' o base with
    | error err => rfl
    | ok r =>
      obtain ⟨b, asset, amount⟩ := r
      have hb : ({ e with ledger := (e.ledger.escrow o.userId asset amount).2 } : Engine).book? m' = some b :=
        (admission_ok hadm).2.1
      by_cases hv : (e.ledger.escrow o.userId asset amount).1 = true
      · simp only [hv, ↓reduceIte]
        rw [book?_setBook_found hb (place_market_of_admission hadm now), if_neg hm']
        rfl
      · simp only [hv, Bool.false_eq_true, ↓reduceIte]
        rfl
  | cancelOrder m' id =>
    have hm' : m ≠ m' := hm
    rw [runMarket_cancelOrder]
    cases hb : e.book? m' with
    | none => rfl
    | some b =>
      rw [book?_setBook_found hb ((b.cancel_counter id).2.trans (book?_market hb)), if_neg hm']
  | getDepth m' => rfl

/-- **A call moves amounts only by the escrow it asks.** -/
theorem ledger_runMarket (e : Engine) (X : MarketCall) :
    (e.runMarket X).2.ledger = e.ledger.escrowBy (e.escrowOf X) := by
  cases X with
  | placeOrder now m o base =>
    rw [runMarket_placeOrder]
    simp only [escrowOf]
    cases e.admission m o base with
    | error err => rfl
    | ok r =>
      obtain ⟨b, asset, amount⟩ := r
      dsimp only
      split <;> rfl
  | cancelOrder m id =>
    rw [runMarket_cancelOrder]
    cases e.book? m <;> rfl
  | getDepth m => rfl

/-- The escrow a call asks reads only its market's book and the quote asset. -/
theorem escrowOf_congr {e e' : Engine} (X : MarketCall) (hbook : e.book? X.market = e'.book? X.market)
    (hquote : e.quoteAsset = e'.quoteAsset) : e.escrowOf X = e'.escrowOf X := by
  cases X with
  | placeOrder now m o base =>
    have hbook' : e.book? m = e'.book? m := hbook
    simp only [escrowOf, admission_congr hbook' hquote o base]
  | cancelOrder m id => rfl
  | getDepth m => rfl

theorem escrowOf_runMarket_other (e : Engine) {X Y : MarketCall} (hne : X.market ≠ Y.market) :
    (e.runMarket Y).2.escrowOf X = e.escrowOf X :=
  escrowOf_congr X (book?_runMarket_other e Y hne) (quoteAsset_runMarket e Y)

/-- **What a call reads.** Two engines that agree on a call's market's book,
on the quote asset, and on whether the escrow the call asks, if any, is
granted, give the call the same answer and leave its market the same book. -/
theorem runMarket_reads {e e' : Engine} (X : MarketCall) (hbook : e.book? X.market = e'.book? X.market)
    (hquote : e.quoteAsset = e'.quoteAsset)
    (hgrant : ∀ u a n, e.escrowOf X = some (u, a, n) → (e.ledger.escrow u a n).1 = (e'.ledger.escrow u a n).1) :
    (e.runMarket X).1 = (e'.runMarket X).1 ∧
      (e.runMarket X).2.book? X.market = (e'.runMarket X).2.book? X.market := by
  cases X with
  | placeOrder now m o base =>
    dsimp only [MarketCall.market] at hbook ⊢
    have hadm := admission_congr hbook hquote o base
    rw [runMarket_placeOrder, runMarket_placeOrder, ← hadm]
    cases h : e.admission m o base with
    | error err => exact ⟨rfl, hbook⟩
    | ok r =>
      obtain ⟨b, asset, amount⟩ := r
      have hb : ∀ l, ({ e with ledger := l } : Engine).book? m = some b := fun _ => (admission_ok h).2.1
      have hb' : ∀ l, ({ e' with ledger := l } : Engine).book? m = some b := fun _ => hbook ▸ (admission_ok h).2.1
      have hg := hgrant o.userId asset amount (by simp [escrowOf, h])
      have hmarket := place_market_of_admission h now
      dsimp only
      rw [hg]
      by_cases hv : (e'.ledger.escrow o.userId asset amount).1 = true
      · rw [if_pos hv, if_pos hv]
        refine ⟨rfl, ?_⟩
        dsimp only
        rw [book?_setBook_found (hb _) hmarket, book?_setBook_found (hb' _) hmarket, if_pos rfl, if_pos rfl]
      · rw [if_neg hv, if_neg hv]
        exact ⟨rfl, hbook⟩
  | cancelOrder m id =>
    dsimp only [MarketCall.market] at hbook ⊢
    rw [runMarket_cancelOrder, runMarket_cancelOrder]
    cases hb : e.book? m with
    | none =>
      rw [← hbook, hb]
      exact ⟨rfl, (hbook.symm.trans hb).symm⟩
    | some b =>
      have hb' : e'.book? m = some b := hbook ▸ hb
      have hmarket := (b.cancel_counter id).2.trans (book?_market hb)
      rw [hb']
      refine ⟨rfl, ?_⟩
      rw [book?_setBook_found hb hmarket, book?_setBook_found hb' hmarket, if_pos rfl, if_pos rfl]
  | getDepth m =>
    dsimp only [MarketCall.market] at hbook ⊢
    exact ⟨by simp only [runMarket, depth, hbook], hbook⟩

/-- **Alike engines stay alike.** A call on two alike engines gets the same
answer and leaves them alike; so no sequence of later calls tells them apart. -/
theorem Alike.runMarket {e e' : Engine} (h : e.Alike e') (X : MarketCall) :
    (e.runMarket X).1 = (e'.runMarket X).1 ∧ (e.runMarket X).2.Alike (e'.runMarket X).2 := by
  have hX := runMarket_reads X (h.book X.market) h.quoteAsset fun u a n _ =>
    (Ledger.Same.escrow h.amounts u a n).1
  refine ⟨hX.1, ⟨?_, fun m => ?_, ?_⟩⟩
  · rw [quoteAsset_runMarket, quoteAsset_runMarket, h.quoteAsset]
  · by_cases hm : m = X.market
    · subst hm
      exact hX.2
    · rw [book?_runMarket_other e X hm, book?_runMarket_other e' X hm, h.book m]
  · rw [ledger_runMarket, ledger_runMarket, escrowOf_congr X (h.book X.market) h.quoteAsset]
    exact Ledger.Same.escrowBy h.amounts _

theorem runMarket_of_escrowOf {e : Engine} {X : MarketCall} {u a : String} {n : UInt64}
    (h : e.escrowOf X = some (u, a, n)) :
    ((e.ledger.escrow u a n).1 = true → ∃ p, (e.runMarket X).1 = .placed (.ok p)) ∧
      ((e.ledger.escrow u a n).1 = false → (e.runMarket X).1 = .placed (.error .insufficientFunds)) := by
  cases X with
  | placeOrder now m o base =>
    simp only [escrowOf] at h
    cases hadm : e.admission m o base with
    | error err => simp [hadm] at h
    | ok r =>
      obtain ⟨b, asset, amount⟩ := r
      simp only [hadm, Option.some.injEq, Prod.mk.injEq] at h
      obtain ⟨rfl, rfl, rfl⟩ := h
      rw [runMarket_placeOrder, hadm]
      exact ⟨fun hg => by simp only [hg, if_true]; exact ⟨_, rfl⟩, fun hg => by simp only [hg]; rfl⟩
  | cancelOrder m id => simp [escrowOf] at h
  | getDepth m => simp [escrowOf] at h

/-- **Contending placements.** When two placements on different markets ask
contending escrows, the one run first is admitted and the other, run after
it, is refused for funds: what the first left does not cover the second. -/
theorem runMarket_contend {e : Engine} {X Y : MarketCall} (hne : X.market ≠ Y.market)
    (h : e.ledger.Contend (e.escrowOf X) (e.escrowOf Y)) :
    (∃ p, (e.runMarket X).1 = .placed (.ok p)) ∧
      ((e.runMarket X).2.runMarket Y).1 = .placed (.error .insufficientFunds) := by
  cases hX : e.escrowOf X with
  | none => rw [hX] at h; exact h.elim
  | some c =>
    obtain ⟨u, a, x⟩ := c
    cases hY : e.escrowOf Y with
    | none => rw [hX, hY] at h; exact h.elim
    | some c' =>
      obtain ⟨u', a', y⟩ := c'
      rw [hX, hY] at h
      obtain ⟨rfl, rfl, hx, hy, hsum⟩ := h
      have hgX : (e.ledger.escrow u' a' x).1 = true := by
        rw [Ledger.escrow_granted]
        simp [UInt64.not_lt.mpr hx]
      have hY' : (e.runMarket X).2.escrowOf Y = some (u', a', y) := by
        rw [escrowOf_runMarket_other e (Ne.symm hne), hY]
      have hleft : (e.ledger.available u' a' - x) < y := by
        have hxN := UInt64.le_iff_toNat_le.mp hx
        rw [UInt64.lt_iff_toNat_lt, UInt64.toNat_sub_of_le _ _ hx]
        omega
      have hgY : ((e.runMarket X).2.ledger.escrow u' a' y).1 = false := by
        rw [ledger_runMarket, hX]
        show ((e.ledger.escrow u' a' x).2.escrow u' a' y).1 = false
        rw [Ledger.escrow_granted, Ledger.available_escrow, if_pos ⟨rfl, rfl, UInt64.not_lt.mpr hx⟩]
        simp [hleft]
      exact ⟨(runMarket_of_escrowOf hX).1 hgX, (runMarket_of_escrowOf hY').2 hgY⟩

/-! ### Two calls on different markets -/

/-- Two calls on different markets whose escrows do not contend: each gets the
same answer run first or second, and the two orders leave alike engines. -/
theorem runMarket_swap (e : Engine) {X Y : MarketCall} (hne : X.market ≠ Y.market)
    (hfree : ¬e.ledger.Contend (e.escrowOf X) (e.escrowOf Y)) :
    (e.runMarket X).1 = ((e.runMarket Y).2.runMarket X).1 ∧
      ((e.runMarket X).2.runMarket Y).1 = (e.runMarket Y).1 ∧
      ((e.runMarket X).2.runMarket Y).2.Alike ((e.runMarket Y).2.runMarket X).2 := by
  obtain ⟨hvX, hvY, hsame⟩ := e.ledger.escrowBy_comm (e.escrowOf X) (e.escrowOf Y) hfree
  -- each call reads the same on `e` and after the other: its book, the quote
  -- asset, and its escrow's verdict
  have hX := runMarket_reads X
    (book?_runMarket_other e Y hne).symm (quoteAsset_runMarket e Y).symm
    (fun u a n h => by rw [ledger_runMarket]; exact (hvX u a n h).symm)
  have hY := runMarket_reads Y
    (book?_runMarket_other e X (Ne.symm hne)).symm (quoteAsset_runMarket e X).symm
    (fun u a n h => by rw [ledger_runMarket]; exact (hvY u a n h).symm)
  refine ⟨hX.1, hY.1.symm, ⟨by simp only [quoteAsset_runMarket], fun m => ?_, ?_⟩⟩
  · by_cases hmX : m = X.market
    · subst hmX
      rw [book?_runMarket_other _ Y hne]
      exact hX.2
    · by_cases hmY : m = Y.market
      · subst hmY
        rw [book?_runMarket_other _ X hmX]
        exact hY.2.symm
      · rw [book?_runMarket_other _ Y hmY, book?_runMarket_other _ X hmX,
          book?_runMarket_other _ X hmX, book?_runMarket_other _ Y hmY]
  · simp only [ledger_runMarket, escrowOf_runMarket_other e hne, escrowOf_runMarket_other e (Ne.symm hne)]
    exact hsame

/-- **No later session tells the two orders apart.** After two calls on
different markets whose escrows do not contend, run in either order, every
session of further calls gets the same answers. -/
theorem runMarket_swap_later (e : Engine) {X Y : MarketCall} (hne : X.market ≠ Y.market)
    (hfree : ¬e.ledger.Contend (e.escrowOf X) (e.escrowOf Y)) (calls : List MarketCall) :
    (runCalls runMarket ((e.runMarket X).2.runMarket Y).2 calls).1 =
      (runCalls runMarket ((e.runMarket Y).2.runMarket X).2 calls).1 :=
  (runCalls_simulation runMarket runMarket Alike (fun _ _ c h => h.runMarket c) calls _ _
    (runMarket_swap e hne hfree).2.2).1

/-- **Calls on different markets commute.** From every engine, two calls on
different markets: unless both are placements whose escrows contend, each gets
the same answer run first or second, and the two orders leave engines alike
in quote asset, every book with its trade counter, and every amount; when
they contend, in either order the first is admitted and the second refused for
funds. -/
theorem runMarket_comm (e : Engine) (X Y : MarketCall) (hne : X.market ≠ Y.market) :
    (¬e.ledger.Contend (e.escrowOf X) (e.escrowOf Y) →
        (e.runMarket X).1 = ((e.runMarket Y).2.runMarket X).1 ∧
          ((e.runMarket X).2.runMarket Y).1 = (e.runMarket Y).1 ∧
          ((e.runMarket X).2.runMarket Y).2.Alike ((e.runMarket Y).2.runMarket X).2) ∧
      (e.ledger.Contend (e.escrowOf X) (e.escrowOf Y) →
        ((∃ p, (e.runMarket X).1 = .placed (.ok p)) ∧
            ((e.runMarket X).2.runMarket Y).1 = .placed (.error .insufficientFunds)) ∧
          ((∃ p, (e.runMarket Y).1 = .placed (.ok p)) ∧
            ((e.runMarket Y).2.runMarket X).1 = .placed (.error .insufficientFunds))) :=
  ⟨runMarket_swap e hne, fun h => ⟨runMarket_contend hne h, runMarket_contend (Ne.symm hne) h.symm⟩⟩

/-- Two buys of 6 USDT each, on two markets, from a user holding 10: they
contend, and in either order the first is admitted and the second refused. -/
theorem runMarket_comm_contending :
    let e := (runCalls perform (create "USDT")
      [.addMarket "BTC/USDT", .addMarket "ETH/USDT", .addBalance "u" "USDT" 10]).2
    let X : MarketCall := .placeOrder "t" "BTC/USDT" ⟨1, "u", .buy, 2, 3, 0⟩ "BTC"
    let Y : MarketCall := .placeOrder "t" "ETH/USDT" ⟨2, "u", .buy, 3, 2, 0⟩ "ETH"
    X.market ≠ Y.market ∧ e.ledger.Contend (e.escrowOf X) (e.escrowOf Y) ∧
      ((∃ p, (e.runMarket X).1 = .placed (.ok p)) ∧
          ((e.runMarket X).2.runMarket Y).1 = .placed (.error .insufficientFunds)) ∧
        ((∃ p, (e.runMarket Y).1 = .placed (.ok p)) ∧
          ((e.runMarket Y).2.runMarket X).1 = .placed (.error .insufficientFunds)) := by
  intro e X Y
  have hne : X.market ≠ Y.market := by decide
  have hc : e.ledger.Contend (e.escrowOf X) (e.escrowOf Y) := by decide
  exact ⟨hne, hc, (runMarket_comm e X Y hne).2 hc⟩

end Engine

end Exchange
