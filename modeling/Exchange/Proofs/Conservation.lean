import Exchange.Proofs.Session
import Exchange.Engine
/-!
# Escrow conserves every balance

The funds of a user in an asset are its available and locked amounts, read as
zero for a user or an asset never written (`Engine.available`,
`Engine.locked`). Only two calls of the engine move them: a credit adds to the
available amount, refused when available plus locked would pass 2^64 - 1; an
admitted placement moves its escrow from available to locked, refused when less
is available. Everything else (a market added, a cancellation, a depth, a
refused call, the trades a placement makes) leaves every amount as it was.

So over every session from a new engine, for every user and asset
(`session_conserves`): the locked amount is the sum of the escrows of the
user's admitted placements in that asset, and available plus locked, over the
naturals, is the sum of the user's accepted credits of the asset, never more
than 2^64 - 1, so no amount ever wraps.

Both tables, the ledger's by user and a record's by asset, are lists of pairs
written in place or appended (`find?_upsert`); the bound carries the run
(`Engine.Bounded`), since the refusal of a credit is computed on a total that
would wrap without it.

Key definitions: `Engine.available`, `Engine.locked`, `Engine.Call`,
`Engine.perform`, `Engine.Bounded`.
Key theorems: `Engine.perform_amounts`, `Engine.session_conserves`.
-/

namespace Exchange

/-! ### Tables of pairs -/

section Tables

variable {α : Type} (k k' : String) (v : α)

theorem find?_map_write_ne (hk : k' ≠ k) :
    ∀ xs : List (String × α),
      (xs.map fun e => if e.1 == k then (k, v) else e).find? (·.1 == k') = xs.find? (·.1 == k')
  | [] => rfl
  | e :: es => by
    by_cases he : e.1 = k
    · have h₁ : (k == k') = false := by simpa using Ne.symm hk
      simp only [List.map_cons, he, beq_self_eq_true, ↓reduceIte, List.find?_cons, h₁,
        find?_map_write_ne hk es]
    · have h₁ : (e.1 == k) = false := by simpa using he
      simp only [List.map_cons, h₁, Bool.false_eq_true, ↓reduceIte, List.find?_cons,
        find?_map_write_ne hk es]

theorem find?_map_write_eq :
    ∀ xs : List (String × α), xs.any (·.1 == k) = true →
      (xs.map fun e => if e.1 == k then (k, v) else e).find? (·.1 == k) = some (k, v)
  | [], h => by simp at h
  | e :: es, h => by
    by_cases he : e.1 = k
    · simp [he]
    · have h₁ : (e.1 == k) = false := by simpa using he
      have hes : es.any (·.1 == k) = true := by simpa [h₁] using h
      simp only [List.map_cons, h₁, Bool.false_eq_true, ↓reduceIte, List.find?_cons,
        find?_map_write_eq es hes]

theorem find?_append_new (xs : List (String × α)) (h : xs.any (·.1 == k) = false) :
    (xs ++ [(k, v)]).find? (·.1 == k') = if k' = k then some (k, v) else xs.find? (·.1 == k') := by
  rw [List.find?_append]
  by_cases hk : k' = k
  · subst hk
    have hnone : xs.find? (·.1 == k') = none := by simpa using h
    simp [hnone]
  · simp [hk, Ne.symm hk]

/-- **Writing a key.** After an entry is written in place, or appended when
the key is new, looking the key up finds the entry, and looking up any other
key finds what it found before. -/
theorem find?_upsert (xs : List (String × α)) :
    (if xs.any (·.1 == k) then xs.map (fun e => if e.1 == k then (k, v) else e)
      else xs ++ [(k, v)]).find? (·.1 == k') =
      if k' = k then some (k, v) else xs.find? (·.1 == k') := by
  by_cases hany : xs.any (·.1 == k) = true
  · rw [if_pos hany]
    split
    · next hk => subst hk; exact find?_map_write_eq k' v xs hany
    · next hk => exact find?_map_write_ne k k' v hk xs
  · rw [if_neg hany]
    exact find?_append_new k k' v xs (Bool.eq_false_iff.mpr hany)

end Tables

/-! ### Balance records and the ledger -/

theorem toNat_add_of_fits {x y : UInt64} (h : x.toNat + y.toNat ≤ 2 ^ 64 - 1) :
    (x + y).toNat = x.toNat + y.toNat := by
  rw [UInt64.toNat_add, Nat.mod_eq_of_lt (by omega)]

namespace Holdings

theorem get_set (h : Holdings) (a a' : String) (v : UInt64) :
    (h.set a v).get a' = if a' = a then v else h.get a' := by
  have hentries : (h.set a v).entries =
      if h.entries.any (·.1 == a) then h.entries.map (fun e => if e.1 == a then (a, v) else e)
      else h.entries ++ [(a, v)] := by
    unfold set; split <;> rfl
  rw [get, hentries, find?_upsert]
  split <;> rfl

end Holdings

namespace Ledger

theorem entry_put (l : Ledger) (u u' : String) (b : UserBalance) :
    (l.put u b).entry u' = if u' = u then b else l.entry u' := by
  have hrecords : (l.put u b).records =
      if l.records.any (·.1 == u) then l.records.map (fun e => if e.1 == u then (u, b) else e)
      else l.records ++ [(u, b)] := by
    unfold put; split <;> rfl
  rw [entry, balance?, hrecords, find?_upsert]
  split <;> rfl

theorem entry_put_entry (l : Ledger) (u u' : String) : (l.put u (l.entry u)).entry u' = l.entry u' := by
  rw [entry_put]
  split
  · next h => rw [h]
  · rfl

theorem credit_refused (l : Ledger) (u a : String) (n : UInt64) :
    (l.credit u a n).1.2 = creditOverflows (l.entry u) a n := by
  simp only [credit]
  split
  · next ho => exact ho.symm
  · next ho => exact (Bool.eq_false_iff.mpr ho).symm

theorem credit_entry (l : Ledger) (u a : String) (n : UInt64) (u' : String) :
    (l.credit u a n).2.entry u' =
      if u' = u ∧ creditOverflows (l.entry u) a n = false then
        { l.entry u with available := (l.entry u).available.set a ((l.entry u).available.get a + n) }
      else l.entry u' := by
  simp only [credit]
  split
  · next ho =>
    rw [entry_put_entry]
    simp [ho]
  · next ho =>
    rw [entry_put]
    by_cases hu : u' = u <;> simp_all

theorem escrow_ok (l : Ledger) (u a : String) (n : UInt64) :
    (l.escrow u a n).1 = !decide ((l.entry u).available.get a < n) := by
  simp only [escrow]
  split <;> simp_all

theorem escrow_entry (l : Ledger) (u a : String) (n : UInt64) (u' : String) :
    (l.escrow u a n).2.entry u' =
      if u' = u ∧ ¬(l.entry u).available.get a < n then
        ⟨(l.entry u).available.set a ((l.entry u).available.get a - n),
          (l.entry u).locked.set a ((l.entry u).locked.get a + n)⟩
      else l.entry u' := by
  simp only [escrow]
  split
  · next hlt =>
    rw [entry_put_entry]
    simp [hlt]
  · next hlt =>
    rw [entry_put]
    by_cases hu : u' = u <;> simp_all

/-- On a total that fits 64 bits, the credit guard refuses exactly the credits
that would take it past 2^64 - 1. -/
theorem creditOverflows_iff (b : UserBalance) (a : String) (n : UInt64)
    (hb : (b.available.get a).toNat + (b.locked.get a).toNat ≤ 2 ^ 64 - 1) :
    creditOverflows b a n = true ↔
      2 ^ 64 - 1 < (b.available.get a).toNat + (b.locked.get a).toNat + n.toNat := by
  have hmax : (UInt64.ofNat (UInt64.size - 1)).toNat = 2 ^ 64 - 1 := by decide
  have hn : n.toNat < 2 ^ 64 := n.toNat_lt_size
  have hsub : (UInt64.ofNat (UInt64.size - 1) - n).toNat = 2 ^ 64 - 1 - n.toNat := by
    rw [UInt64.toNat_sub_of_le _ _ (by rw [UInt64.le_iff_toNat_le, hmax]; omega), hmax]
  have htotal : (b.total a).toNat = (b.available.get a).toNat + (b.locked.get a).toNat := by
    rw [UserBalance.total, toNat_add_of_fits hb]
  rw [creditOverflows, decide_eq_true_iff, GT.gt, UInt64.lt_iff_toNat_lt, hsub, htotal]
  omega

end Ledger

/-! ### The engine's amounts -/

namespace Engine

/-- The amount of an asset a user has available, zero for a user or an asset
never written. -/
def available (e : Engine) (user asset : String) : UInt64 := (e.ledger.entry user).available.get asset

/-- The amount of an asset locked by a user's admitted orders, zero for a user
or an asset never written. -/
def locked (e : Engine) (user asset : String) : UInt64 := (e.ledger.entry user).locked.get asset

/-- Whether every user's available plus locked amount of every asset, over the
naturals, fits 64 bits. -/
def Bounded (e : Engine) : Prop :=
  ∀ user asset, (e.available user asset).toNat + (e.locked user asset).toNat ≤ 2 ^ 64 - 1

theorem create_amounts (q user asset : String) :
    (create q).available user asset = 0 ∧ (create q).locked user asset = 0 :=
  ⟨rfl, rfl⟩

theorem setBook_ledger (e : Engine) (b : Book) : (e.setBook b).ledger = e.ledger := rfl

theorem addMarket_ledger (e : Engine) (market : String) : (e.addMarket market).2.ledger = e.ledger := by
  unfold addMarket; split <;> rfl

theorem cancelOrder_ledger (e : Engine) (market : String) (id : UInt64) :
    (e.cancelOrder market id).2.ledger = e.ledger := by
  unfold cancelOrder; split <;> rfl

/-- **Admission.** A placement either fails and leaves every record as it was
(a refused escrow writes its user's record back unchanged), or succeeds having
escrowed the order's amount, which was available, and changed the ledger by
that escrow alone: matching moves no funds. -/
theorem placeOrder_ledger (e : Engine) (now market : String) (o : Order) (base : String) :
    ((e.placeOrder now market o base).1.toBool = false ∧
        ∀ user, (e.placeOrder now market o base).2.ledger.entry user = e.ledger.entry user) ∨
      ∃ asset amount, (e.placeOrder now market o base).1.toBool = true ∧
        o.escrow e.quoteAsset base = some (asset, amount) ∧
        ¬e.available o.userId asset < amount ∧
        (e.placeOrder now market o base).2.ledger = (e.ledger.escrow o.userId asset amount).2 := by
  simp only [placeOrder]
  split
  · exact .inl ⟨rfl, fun _ => rfl⟩
  split
  · exact .inl ⟨rfl, fun _ => rfl⟩
  split
  · exact .inl ⟨rfl, fun _ => rfl⟩
  next asset amount hescrow =>
  have hguard : (e.ledger.escrow o.userId asset amount).1 =
      !decide (e.available o.userId asset < amount) := Ledger.escrow_ok _ _ _ _
  by_cases hlt : e.available o.userId asset < amount
  · have hok : (e.ledger.escrow o.userId asset amount).1 = false := by simp [hguard, hlt]
    left
    refine ⟨by simp [hok, Except.toBool], fun user => ?_⟩
    simp only [hok, Bool.not_false, ↓reduceIte]
    rw [Ledger.escrow_entry, if_neg fun h => h.2 hlt]
  · have hok : (e.ledger.escrow o.userId asset amount).1 = true := by simp [hguard, hlt]
    right
    refine ⟨asset, amount, ?_, hescrow, hlt, ?_⟩
    · simp [hok, Except.toBool]
    · simp [hok, setBook_ledger]

theorem placeOrder_quoteAsset (e : Engine) (now market : String) (o : Order) (base : String) :
    (e.placeOrder now market o base).2.quoteAsset = e.quoteAsset := by
  simp only [placeOrder]
  split; · rfl
  split; · rfl
  split; · rfl
  split <;> rfl

/-- A call on the engine: add a market, credit a user, place an order (with
the time written on its trades and the base asset of its market), cancel an
order, or read a market's depth. -/
inductive Call where
  | addMarket (market : String)
  | addBalance (user asset : String) (amount : UInt64)
  | placeOrder (now market : String) (o : Order) (base : String)
  | cancelOrder (market : String) (id : UInt64)
  | getDepth (market : String)

/-- Performs one call, answering whether it succeeded. -/
def perform (e : Engine) : Call → Bool × Engine
  | .addMarket m => ((e.addMarket m).1.isNone, (e.addMarket m).2)
  | .addBalance u a n => (!(e.credit u a n).1.2, (e.credit u a n).2)
  | .placeOrder now m o base => ((e.placeOrder now m o base).1.toBool, (e.placeOrder now m o base).2)
  | .cancelOrder m id => ((e.cancelOrder m id).1.toBool, (e.cancelOrder m id).2)
  | .getDepth m => ((e.depth m).toBool, e)

namespace Call

/-- What a call credited to a user's asset: the amount of a successful credit
of that asset to that user. -/
def credited (user asset : String) : Call → Bool → Nat
  | .addBalance u a n, true => if u = user ∧ a = asset then n.toNat else 0
  | _, _ => 0

/-- What a call escrowed of a user's asset: the escrow amount of a successful
placement by that user whose escrow asset it is. -/
def escrowed (quote user asset : String) : Call → Bool → Nat
  | .placeOrder _ _ o base, true =>
    match o.escrow quote base with
    | some (a, n) => if o.userId = user ∧ a = asset then n.toNat else 0
    | none => 0
  | _, _ => 0

end Call

/-- A credit on the engine is the ledger's credit, written back. The outcome
is named before anything reads it: the guard compares against 2^64 - 1 minus
the amount, and reducing it on an open term counts down from 2^64. -/
theorem perform_addBalance_eq (e : Engine) (u a : String) (n : UInt64) :
    ∃ r, e.ledger.credit u a n = r ∧ e.perform (.addBalance u a n) = (!r.1.2, { e with ledger := r.2 }) := by
  obtain ⟨r, hr, hcredit⟩ : ∃ r : (UserBalance × Bool) × Ledger, e.ledger.credit u a n = r ∧
      e.credit u a n = (r.1, { e with ledger := r.2 }) := ⟨_, rfl, rfl⟩
  refine ⟨r, hr, ?_⟩
  rw [show e.perform (.addBalance u a n) = (!(e.credit u a n).1.2, (e.credit u a n).2) from rfl, hcredit]

theorem perform_quoteAsset (e : Engine) (c : Call) : (e.perform c).2.quoteAsset = e.quoteAsset := by
  cases c with
  | addMarket m =>
    show (e.addMarket m).2.quoteAsset = e.quoteAsset
    unfold addMarket; split <;> rfl
  | addBalance u a n =>
    obtain ⟨r, -, hperform⟩ := perform_addBalance_eq e u a n
    rw [hperform]
  | placeOrder now m o base => exact placeOrder_quoteAsset e now m o base
  | cancelOrder m id =>
    show (e.cancelOrder m id).2.quoteAsset = e.quoteAsset
    unfold cancelOrder; split <;> rfl
  | getDepth m => rfl

section Amounts

variable (e : Engine) (user asset : String)

theorem amounts_of_entries {e' : Engine} (h : ∀ u, e'.ledger.entry u = e.ledger.entry u) :
    e'.available user asset = e.available user asset ∧ e'.locked user asset = e.locked user asset := by
  simp only [available, locked, h, and_self]

/-- A credit adds its amount to the one available amount it names when it
succeeds, and changes nothing else; what it adds fits, with what was there,
in 64 bits. -/
theorem perform_addBalance (u a : String) (n : UInt64) (h : e.Bounded) :
    ((e.perform (.addBalance u a n)).2.available user asset).toNat =
        (e.available user asset).toNat +
          Call.credited user asset (.addBalance u a n) (e.perform (.addBalance u a n)).1 ∧
      (e.perform (.addBalance u a n)).2.locked user asset = e.locked user asset ∧
      (e.available user asset).toNat + (e.locked user asset).toNat +
          Call.credited user asset (.addBalance u a n) (e.perform (.addBalance u a n)).1 ≤ 2 ^ 64 - 1 := by
  have hb := h user asset
  simp only [available, locked] at hb
  obtain ⟨r, hr, hperform⟩ := perform_addBalance_eq e u a n
  have hrefused : r.1.2 = Ledger.creditOverflows (e.ledger.entry u) a n := by
    rw [← hr, Ledger.credit_refused]
  have hentry : ∀ u', r.2.entry u' =
      if u' = u ∧ Ledger.creditOverflows (e.ledger.entry u) a n = false then
        { e.ledger.entry u with
          available := (e.ledger.entry u).available.set a ((e.ledger.entry u).available.get a + n) }
      else e.ledger.entry u' := by
    intro u'; rw [← hr, Ledger.credit_entry]
  generalize hov : Ledger.creditOverflows (e.ledger.entry u) a n = ov at hrefused hentry
  rw [hperform]
  simp only [available, locked, hrefused, hentry]
  cases ov with
  | true =>
    simp only [Bool.true_eq_false, and_false, ↓reduceIte, Bool.not_true]
    simp only [Call.credited, Nat.add_zero, true_and]
    exact hb
  | false =>
    simp only [Bool.not_false, and_true, Call.credited]
    by_cases hu : user = u
    · subst hu
      by_cases ha : asset = a
      · subst ha
        have hfit := (Ledger.creditOverflows_iff _ _ n (h user asset)).not.mp
          (by simp only [hov, Bool.false_eq_true, not_false_eq_true])
        simp only [↓reduceIte, Holdings.get_set, true_and]
        exact ⟨toNat_add_of_fits (by omega), by omega⟩
      · simp only [↓reduceIte, Holdings.get_set, ha, Ne.symm ha, and_false, Nat.add_zero, true_and]
        exact hb
    · simp only [hu, ↓reduceIte, Ne.symm hu, false_and, Nat.add_zero, true_and]
      exact hb

/-- A placement moves its escrow from available to locked when it succeeds,
and changes no amount otherwise: matching moves no funds. -/
theorem perform_placeOrder (now market : String) (o : Order) (base : String) (h : e.Bounded) :
    ((e.perform (.placeOrder now market o base)).2.locked user asset).toNat =
        (e.locked user asset).toNat +
          Call.escrowed e.quoteAsset user asset (.placeOrder now market o base)
            (e.perform (.placeOrder now market o base)).1 ∧
      ((e.perform (.placeOrder now market o base)).2.available user asset).toNat +
          ((e.perform (.placeOrder now market o base)).2.locked user asset).toNat =
        (e.available user asset).toNat + (e.locked user asset).toNat := by
  have hperform : e.perform (.placeOrder now market o base) =
      ((e.placeOrder now market o base).1.toBool, (e.placeOrder now market o base).2) := rfl
  rw [hperform]
  rcases placeOrder_ledger e now market o base with ⟨hfail, hentries⟩ | ⟨a, n, hok, hescrow, hlt, hledger⟩
  · obtain ⟨havail, hlocked⟩ := amounts_of_entries e user asset hentries
    rw [hfail, havail, hlocked]
    simp only [Call.escrowed, Nat.add_zero, and_self]
  · rw [hok]
    simp only [Call.escrowed, hescrow]
    simp only [available, locked, hledger, Ledger.escrow_entry]
    simp only [available] at hlt
    by_cases hu : user = o.userId
    · subst hu
      by_cases ha : asset = a
      · subst ha
        have hle : n.toNat ≤ ((e.ledger.entry o.userId).available.get asset).toNat := by
          simpa [UInt64.lt_iff_toNat_lt] using hlt
        have hb := h o.userId asset
        simp only [available, locked] at hb
        simp only [hlt, not_false_eq_true, and_self, ↓reduceIte, Holdings.get_set]
        rw [UInt64.toNat_sub_of_le _ _ (UInt64.le_iff_toNat_le.mpr hle), toNat_add_of_fits (by omega)]
        omega
      · simp only [hlt, not_false_eq_true, and_self, ↓reduceIte, Holdings.get_set, ha, Ne.symm ha,
          and_false, Nat.add_zero]
    · simp only [hu, false_and, ↓reduceIte, Ne.symm hu, Nat.add_zero, and_self]

/-- **One call.** From an engine whose amounts fit, a call moves a user's
locked amount of an asset by what it escrowed of it, and available plus locked
by what it credited of it, which still fits. -/
theorem perform_amounts (c : Call) (h : e.Bounded) :
    ((e.perform c).2.locked user asset).toNat =
        (e.locked user asset).toNat + c.escrowed e.quoteAsset user asset (e.perform c).1 ∧
      ((e.perform c).2.available user asset).toNat + ((e.perform c).2.locked user asset).toNat =
        (e.available user asset).toNat + (e.locked user asset).toNat + c.credited user asset (e.perform c).1 ∧
      ((e.perform c).2.available user asset).toNat + ((e.perform c).2.locked user asset).toNat ≤ 2 ^ 64 - 1 := by
  have hb := h user asset
  cases c with
  | addMarket m =>
    have hledger : (e.perform (.addMarket m)).2.ledger = e.ledger := addMarket_ledger e m
    simp only [available, locked, hledger]
    exact ⟨rfl, rfl, hb⟩
  | addBalance u a n =>
    obtain ⟨hav, hlo, hfit⟩ := perform_addBalance e user asset u a n h
    rw [hav, hlo]
    exact ⟨rfl, by omega, by omega⟩
  | placeOrder now m o base =>
    obtain ⟨hlo, hsum⟩ := perform_placeOrder e user asset now m o base h
    rw [hsum]
    exact ⟨hlo, rfl, hb⟩
  | cancelOrder m id =>
    have hledger : (e.perform (.cancelOrder m id)).2.ledger = e.ledger := cancelOrder_ledger e m id
    simp only [available, locked, hledger]
    exact ⟨rfl, rfl, hb⟩
  | getDepth m => exact ⟨rfl, rfl, hb⟩

end Amounts

/-- **Conservation of escrow.** Over every session of calls on a new engine,
for every user and asset: the locked amount is the sum of what the successful
placements escrowed of it; available plus locked, over the naturals, is the
sum of what the successful credits credited of it, and fits in 64 bits. -/
theorem session_conserves (q : String) (calls : List Call) (user asset : String) :
    ((runCalls perform (create q) calls).2.locked user asset).toNat =
        (List.zipWith (Call.escrowed (create q).quoteAsset user asset) calls
          (runCalls perform (create q) calls).1).sum ∧
      ((runCalls perform (create q) calls).2.available user asset).toNat +
          ((runCalls perform (create q) calls).2.locked user asset).toNat =
        (List.zipWith (Call.credited user asset) calls (runCalls perform (create q) calls).1).sum ∧
      ((runCalls perform (create q) calls).2.available user asset).toNat +
          ((runCalls perform (create q) calls).2.locked user asset).toNat ≤ 2 ^ 64 - 1 := by
  let Inv : Engine → Prop := fun s => s.Bounded ∧ s.quoteAsset = (create q).quoteAsset
  have hstep : ∀ s c, Inv s → Inv (s.perform c).2 := fun s c hs =>
    ⟨fun u a => (perform_amounts s u a c hs.1).2.2, (perform_quoteAsset s c).trans hs.2⟩
  obtain ⟨hav₀, hlo₀⟩ := create_amounts q user asset
  have hstart : Inv (create q) := ⟨fun u a => by simp [create_amounts], rfl⟩
  obtain ⟨-, hlocked⟩ := runCalls_accumulate perform Inv (fun s => (s.locked user asset).toNat)
    (Call.escrowed (create q).quoteAsset user asset)
    (fun s c hs => ⟨hstep s c hs, by rw [← hs.2]; exact (perform_amounts s user asset c hs.1).1⟩)
    calls (create q) hstart
  obtain ⟨hinv, htotal⟩ := runCalls_accumulate perform Inv
    (fun s => (s.available user asset).toNat + (s.locked user asset).toNat) (Call.credited user asset)
    (fun s c hs => ⟨hstep s c hs, (perform_amounts s user asset c hs.1).2.1⟩)
    calls (create q) hstart
  simp only [hav₀, hlo₀, UInt64.toNat_zero, Nat.zero_add] at hlocked htotal
  exact ⟨hlocked, htotal, hinv.1 user asset⟩

end Engine

end Exchange
