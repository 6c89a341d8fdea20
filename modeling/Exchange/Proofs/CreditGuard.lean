import Exchange.Proofs.Conservation
/-!
# The credit guard is exact

A credit is refused when the asset's total, available plus locked, is above
2^64 - 1 minus the amount. The total is itself a sum of 64-bit words, so the
guard is right only while that sum does not wrap; that is a fact about the
ledger's whole history, not about the call.

Over the calls of the ledger alone, credits and escrows (`Ledger.Call`), every
record keeps available plus locked within 64 bits (`Ledger.Bounded`): a credit
adds only what its guard let through, an escrow moves an amount from one side
to the other. So on every ledger reached from the empty one
(`Ledger.session_creditExact`): a credit is refused exactly when available plus
locked plus the amount passes 2^64 - 1 over the naturals, and then moves
nothing; otherwise it adds exactly the amount to the available funds of its
asset and moves nothing else; and the total the guard reads never wraps.

Key definitions: `Ledger.available`, `Ledger.locked`, `Ledger.Bounded`,
`Ledger.Call`, `Ledger.perform`.
Key theorems: `Ledger.available_credit`, `Ledger.available_escrow`,
`Ledger.perform_bounded`, `Ledger.session_creditExact`.
-/

namespace Exchange

namespace Ledger

/-- The amount of an asset a user has available, zero for a user or an asset
never written. -/
def available (l : Ledger) (user asset : String) : UInt64 := (l.entry user).available.get asset

/-- The amount of an asset locked by a user's orders, zero for a user or an
asset never written. -/
def locked (l : Ledger) (user asset : String) : UInt64 := (l.entry user).locked.get asset

/-- Whether every user's available plus locked amount of every asset, over the
naturals, fits 64 bits. -/
def Bounded (l : Ledger) : Prop :=
  ∀ user asset, (l.available user asset).toNat + (l.locked user asset).toNat ≤ 2 ^ 64 - 1

/-! ### What a credit and an escrow write -/

section Amounts

variable (l : Ledger) (u a : String) (n : UInt64) (u' a' : String)

/-- A credit adds its amount to one available amount, unless refused. -/
theorem available_credit :
    (l.credit u a n).2.available u' a' =
      if u' = u ∧ a' = a ∧ creditOverflows (l.entry u) a n = false then l.available u a + n
      else l.available u' a' := by
  simp only [available, credit_entry]
  generalize creditOverflows (l.entry u) a n = ov
  by_cases hu : u' = u
  · subst hu
    by_cases ha : a' = a
    · subst ha
      cases ov <;> simp [Holdings.get_set]
    · cases ov <;> simp [Holdings.get_set, ha]
  · simp [hu]

theorem locked_credit : (l.credit u a n).2.locked u' a' = l.locked u' a' := by
  simp only [locked, credit_entry]
  generalize creditOverflows (l.entry u) a n = ov
  split
  · next hcell => rw [hcell.1]
  · rfl

/-- An escrow takes its amount from one available amount, unless refused. -/
theorem available_escrow :
    (l.escrow u a n).2.available u' a' =
      if u' = u ∧ a' = a ∧ ¬l.available u a < n then l.available u a - n else l.available u' a' := by
  simp only [available, escrow_entry]
  by_cases hu : u' = u
  · subst hu
    by_cases ha : a' = a
    · subst ha
      by_cases hlt : (l.entry u').available.get a' < n <;> simp [hlt, Holdings.get_set]
    · by_cases hlt : (l.entry u').available.get a < n <;> simp [hlt, Holdings.get_set, ha]
  · simp [hu]

theorem locked_escrow :
    (l.escrow u a n).2.locked u' a' =
      if u' = u ∧ a' = a ∧ ¬l.available u a < n then l.locked u a + n else l.locked u' a' := by
  simp only [locked, available, escrow_entry]
  by_cases hu : u' = u
  · subst hu
    by_cases ha : a' = a
    · subst ha
      by_cases hlt : (l.entry u').available.get a' < n <;> simp [hlt, Holdings.get_set]
    · by_cases hlt : (l.entry u').available.get a < n <;> simp [hlt, Holdings.get_set, ha]
  · simp [hu]

end Amounts

/-! ### The bound -/

section Bound

variable {l : Ledger}

theorem empty_bounded : empty.Bounded := by
  intro u a
  simp [available, locked, entry, balance?, empty, UserBalance.empty, Holdings.empty, Holdings.get]

theorem total_toNat (h : l.Bounded) (u a : String) :
    ((l.entry u).total a).toNat = (l.available u a).toNat + (l.locked u a).toNat :=
  toNat_add_of_fits (h u a)

/-- On a bounded ledger a credit is refused exactly when it would take
available plus locked past 2^64 - 1. -/
theorem creditOverflows_iff_of_bounded (h : l.Bounded) (u a : String) (n : UInt64) :
    creditOverflows (l.entry u) a n = true ↔
      2 ^ 64 - 1 < (l.available u a).toNat + (l.locked u a).toNat + n.toNat :=
  creditOverflows_iff _ a n (h u a)

/-- A credit keeps the bound: what its guard lets through fits. -/
theorem credit_bounded (h : l.Bounded) (u a : String) (n : UInt64) : (l.credit u a n).2.Bounded := by
  intro u' a'
  rw [available_credit, locked_credit]
  have hfit := creditOverflows_iff_of_bounded h u a n
  generalize creditOverflows (l.entry u) a n = ov at hfit ⊢
  split
  · next hcell =>
    obtain ⟨rfl, rfl, hov⟩ := hcell
    have hle : (l.available u' a').toNat + (l.locked u' a').toNat + n.toNat ≤ 2 ^ 64 - 1 := by
      simpa [hov] using hfit
    rw [toNat_add_of_fits (by omega)]
    omega
  · exact h u' a'

theorem escrow_bounded (h : l.Bounded) (u a : String) (n : UInt64) : (l.escrow u a n).2.Bounded := by
  intro u' a'
  rw [available_escrow, locked_escrow]
  split
  · next hcell =>
    obtain ⟨rfl, rfl, hge⟩ := hcell
    have hle : n.toNat ≤ (l.available u' a').toNat := by
      simpa [UInt64.lt_iff_toNat_lt] using hge
    have hb := h u' a'
    rw [UInt64.toNat_sub_of_le _ _ (UInt64.le_iff_toNat_le.mpr hle), toNat_add_of_fits (by omega)]
    omega
  · exact h u' a'

end Bound

/-! ### Sessions of credits and escrows -/

/-- A call on the ledger: a credit or an escrow of an amount of an asset for a
user. -/
inductive Call where
  | credit (user asset : String) (amount : UInt64)
  | escrow (user asset : String) (amount : UInt64)

/-- Performs one call, answering whether it was refused. -/
def perform (l : Ledger) : Call → Bool × Ledger
  | .credit u a n => ((l.credit u a n).1.2, (l.credit u a n).2)
  | .escrow u a n => (!(l.escrow u a n).1, (l.escrow u a n).2)

/-- A credit call is the ledger's credit. The outcome is named before
anything reads it: a projection of the credit, reduced, would decide the
guard, which compares against 2^64 - 1 minus the amount and counts down from
2^64. -/
theorem perform_credit_eq (l : Ledger) (u a : String) (n : UInt64) :
    ∃ r, l.credit u a n = r ∧ l.perform (.credit u a n) = (r.1.2, r.2) := ⟨_, rfl, rfl⟩

theorem perform_bounded {l : Ledger} (h : l.Bounded) : ∀ c : Call, (l.perform c).2.Bounded
  | .credit u a n => by
    obtain ⟨r, hr, hperform⟩ := perform_credit_eq l u a n
    rw [hperform]
    show r.2.Bounded
    rw [← hr]
    exact credit_bounded h u a n
  | .escrow u a n => escrow_bounded h u a n

theorem session_bounded (calls : List Call) : (runCalls perform empty calls).2.Bounded :=
  runCalls_invariant perform (fun _ => True) Bounded (fun _ c _ h => perform_bounded h c) calls empty
    (fun _ _ => trivial) empty_bounded

/-- **The credit guard is exact.** On every ledger reached from the empty one
by credits and escrows, for every user, asset and amount: the credit is
refused exactly when available plus locked plus the amount passes 2^64 - 1
over the naturals, and then moves no amount; otherwise it adds exactly the
amount to the available funds of that asset, over the naturals, and moves no
other amount; no credit locks anything; and the total the guard reads is
available plus locked, unwrapped. -/
theorem session_creditExact (calls : List Call) (u a : String) (x : UInt64) :
    let l := (runCalls perform empty calls).2
    ((l.credit u a x).1.2 = true ↔
        2 ^ 64 - 1 < (l.available u a).toNat + (l.locked u a).toNat + x.toNat) ∧
      ((l.credit u a x).1.2 = true → ∀ u' a', (l.credit u a x).2.available u' a' = l.available u' a') ∧
      ((l.credit u a x).1.2 = false →
        ((l.credit u a x).2.available u a).toNat = (l.available u a).toNat + x.toNat ∧
          ∀ u' a', (u', a') ≠ (u, a) → (l.credit u a x).2.available u' a' = l.available u' a') ∧
      (∀ u' a', (l.credit u a x).2.locked u' a' = l.locked u' a') ∧
      ((l.entry u).total a).toNat = (l.available u a).toNat + (l.locked u a).toNat := by
  intro l
  have hb : l.Bounded := session_bounded calls
  have hfit := creditOverflows_iff_of_bounded hb u a x
  have hav := available_credit l u a x
  rw [credit_refused]
  generalize creditOverflows (l.entry u) a x = ov at hfit hav ⊢
  refine ⟨hfit, fun hov u' a' => ?_, fun hov => ⟨?_, fun u' a' hne => ?_⟩,
    locked_credit l u a x, total_toNat hb u a⟩
  · rw [hav, if_neg (by simp [hov])]
  · have hle : (l.available u a).toNat + (l.locked u a).toNat + x.toNat ≤ 2 ^ 64 - 1 := by
      simpa [hov] using hfit
    rw [hav, if_pos ⟨rfl, rfl, hov⟩, toNat_add_of_fits (by omega)]
  · rw [hav, if_neg fun h => hne (by rw [h.1, h.2.1])]

end Ledger

end Exchange
