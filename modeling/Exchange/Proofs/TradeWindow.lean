import Exchange.Proofs.TradeHandOff
/-!
# The trade log keeps the newest window of every market

A log is driven by three calls (`TradeLog.Call`): appending a batch to a
market, reading a market's newest trades up to a limit, and counting them.
Only an append changes the log, and only the history of its own market
(`TradeLog.history_append_other`), which becomes the newest `capacity` trades
of the history and the batch.

A history that is the newest `capacity` trades of some list `H` stays so, of
`H` and what the session appends to its market, after every session
(`TradeLog.history_runCalls`): the window of a window is a window
(`rtake_append_rtake`). So from a new log (`TradeLog.session_keepsNewest`):
each market holds the newest `min c N` of the `N` trades appended to it, `c`
the capacity; a read with a positive limit `L` returns the newest
`min L c N` of them, oldest first, and with any other limit all it holds.

Key definitions: `TradeLog.Call`, `TradeLog.perform`, `TradeLog.Call.appendedTo`.
Key theorems: `TradeLog.recent_eq_rtake`, `TradeLog.history_runCalls`,
`TradeLog.session_keepsNewest`.
-/

namespace Exchange

/-! ### Windows of a list -/

section Windows

variable {α : Type}

theorem length_rtake (xs : List α) (n : Nat) : (xs.rtake n).length = min n xs.length := by
  simp only [List.rtake, List.length_drop]
  omega

theorem rtake_rtake (xs : List α) {n j : Nat} (h : j ≤ n) : (xs.rtake n).rtake j = xs.rtake j := by
  simp only [List.rtake, List.length_drop, List.drop_drop]
  congr 1
  omega

theorem rtake_length (xs : List α) : xs.rtake xs.length = xs := by
  simp [List.rtake]

end Windows

namespace TradeLog

/-! ### One call -/

/-- A call on the log: append a batch to a market, read a market's newest
trades up to a limit, or count a market's trades. -/
inductive Call where
  | append (market : String) (batch : List Trade)
  | recent (market : String) (limit : Int)
  | size (market : String)

/-- What the log answers: nothing to an append, the trades read, or their
number. -/
inductive Answer where
  | appended
  | trades (ts : List Trade)
  | count (n : Nat)
  deriving DecidableEq

/-- Answers one call. Only an append changes the log. -/
def perform (log : TradeLog) : Call → Answer × TradeLog
  | .append market batch => (.appended, log.append market batch)
  | .recent market limit => (.trades (log.recent market limit), log)
  | .size market => (.count (log.size market), log)

/-- The trades a call appends to `market`: its batch, when it is an append to
that market. -/
def Call.appendedTo (market : String) : Call → List Trade
  | .append m batch => if m = market then batch else []
  | _ => []

/-- A read returns the newest `limit` trades when `limit` is positive, and all
of them otherwise. -/
theorem recent_eq_rtake (log : TradeLog) (market : String) (limit : Int) :
    log.recent market limit =
      (log.history market).rtake
        (if 0 < limit then min limit.toNat (log.history market).length else (log.history market).length) := by
  unfold recent
  by_cases hpos : 0 < limit
  · by_cases hlt : limit < (log.history market).length
    · have hmin : min limit.toNat (log.history market).length = limit.toNat := by omega
      simp [hpos, hlt, hmin, List.rtake]
    · have hmin : min limit.toNat (log.history market).length = (log.history market).length := by omega
      simp [hpos, hlt, hmin, rtake_length]
  · simp [hpos, rtake_length]

/-- **Markets are apart.** Appending to one market leaves every other
market's history. -/
theorem history_append_other (log : TradeLog) {market m : String} (batch : List Trade) (hm : m ≠ market) :
    (log.append market batch).history m = log.history m := by
  by_cases hnil : batch = []
  · rw [hnil, append_nil]
  · rw [history_append log market m hnil, if_neg hm]

theorem capacity_perform (log : TradeLog) (c : Call) : (log.perform c).2.capacity = log.capacity := by
  cases c with
  | append market batch => exact capacity_append log market batch
  | recent market limit => rfl
  | size market => rfl

/-- **One call.** A market whose history is the newest `capacity` trades of
`H` holds, after any call, the newest `capacity` trades of `H` and what the
call appended to it. -/
theorem history_perform {log : TradeLog} {m : String} {H : List Trade}
    (h : log.history m = H.rtake log.capacity) (c : Call) :
    (log.perform c).2.history m = (H ++ c.appendedTo m).rtake log.capacity := by
  cases c with
  | append market batch =>
    show (log.append market batch).history m = _
    by_cases hm : market = m
    · subst hm
      by_cases hnil : batch = []
      · simp [hnil, append_nil, h, Call.appendedTo]
      · rw [history_append log market market hnil, if_pos rfl, h, rtake_append_rtake]
        simp [Call.appendedTo]
    · rw [history_append_other log batch (Ne.symm hm), h]
      simp [Call.appendedTo, hm]
  | recent market limit => simpa [perform, Call.appendedTo] using h
  | size market => simpa [perform, Call.appendedTo] using h

/-! ### Sessions -/

/-- **Sessions.** A market whose history is the newest `capacity` trades of
`H` holds, after every session, the newest `capacity` trades of `H` and of
everything the session appended to it, in call order. -/
theorem history_runCalls (m : String) (calls : List Call) {log : TradeLog} {H : List Trade}
    (h : log.history m = H.rtake log.capacity) :
    (runCalls perform log calls).2.capacity = log.capacity ∧
      (runCalls perform log calls).2.history m =
        (H ++ (calls.map (Call.appendedTo m)).flatten).rtake log.capacity := by
  have hstep : ∀ (l : TradeLog) (c : Call) (H : List Trade),
      l.capacity = log.capacity ∧ l.history m = H.rtake log.capacity →
      (l.perform c).2.capacity = log.capacity ∧
        (l.perform c).2.history m = (H ++ c.appendedTo m).rtake log.capacity := by
    rintro l c H ⟨hcap, hl⟩
    rw [← hcap] at hl ⊢
    exact ⟨capacity_perform l c, history_perform hl c⟩
  have hrun := runCalls_fold perform (fun H c => H ++ c.appendedTo m)
    (fun l H => l.capacity = log.capacity ∧ l.history m = H.rtake log.capacity) hstep calls log H ⟨rfl, h⟩
  rwa [List.foldl_append_eq_append] at hrun

theorem capacity_create (k : Int) : (create k).capacity = if 0 < k then k.toNat else 1000 := by
  by_cases hk : 0 < k
  · simp [create, hk, Int.not_le.mpr hk]
  · simp [create, hk, Int.not_lt.mp hk, defaultCapacity]

/-- **The log keeps the newest window.** For every capacity argument `k` (the
capacity `c` is `k` when positive, 1000 otherwise), every session of appends,
reads and counts on a new log, every market and every limit: the market holds
`min c N` trades, `N` being the number of trades appended to it; a read
returns the newest `min L c N` of all the trades appended to it, in call order
and oldest first, where `L` is the limit when positive and unbounded
otherwise; and appending to one market never changes another's history. -/
theorem session_keepsNewest (k : Int) (calls : List Call) (m : String) (limit : Int) :
    let c := if 0 < k then k.toNat else 1000
    let all := (calls.map (Call.appendedTo m)).flatten
    let log := (runCalls perform (create k) calls).2
    log.size m = min c all.length ∧
      log.recent m limit =
        all.rtake (if 0 < limit then min limit.toNat (min c all.length) else min c all.length) ∧
      ∀ (other : TradeLog) (m' : String) (batch : List Trade), m' ≠ m →
        (other.append m' batch).history m = other.history m := by
  intro c all log
  have hstart : (create k).history m = ([] : List Trade).rtake (create k).capacity := by
    simp [create, history]
  have hhistory : log.history m = all.rtake c := by
    have hrun := (history_runCalls m calls hstart).2
    rw [capacity_create, List.nil_append] at hrun
    exact hrun
  have hlength : (log.history m).length = min c all.length := by
    rw [hhistory, length_rtake]
  refine ⟨hlength, ?_, fun other m' batch hm => history_append_other other batch (Ne.symm hm)⟩
  rw [recent_eq_rtake, hlength, hhistory]
  -- the read narrows the window, never widens it
  split
  · exact rtake_rtake all (by omega)
  · exact rtake_rtake all (Nat.min_le_left c all.length)

end TradeLog

end Exchange
