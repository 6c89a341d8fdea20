import Exchange.Proofs.TradeHandOff
import Exchange.Queue
/-!
# The consumer answers and commits in order

A run of the consumer takes the messages one after another. What it is to do
with the message at an offset (`Service.handled`) is to write the message's
result under the market of its command (empty when the message does not
decode), unless the message is of an unknown kind, and then to commit the
offset; the result is computed on the service that the messages before it
left.

Over queues that neither fail to fetch nor to commit, and a result queue that
takes every result, a run is exactly that, message after message, and ends
without an error once the messages are taken (`Service.run_accepting`). When
the result queue first refuses the result of a message, the run has done
exactly that for the messages before, writes and commits nothing of the
refused one, handles no message after it, and stops with the error
`publish result <request id>: <reason>` (`Service.run_writeRefused`).

Key definitions: `Service.messageKey`, `Service.handled`.
Key theorems: `Service.handleMessage_market`, `Service.run_accepting`,
`Service.run_writeRefused`, `Service.run_answersInOrder`.
-/

namespace Exchange

namespace Service

/-! ### The result of a message -/

theorem dispatch_ok_market (s : Service) (now fresh : String) (c : Command) {r : Result}
    (h : (s.dispatch now fresh c).1.outcome = .ok r) : r.market = c.market := by
  cases c with
  | placeOrder rid market base order =>
    rcases hplace : s.engine.placeOrder now market order base with ⟨_ | p, eng⟩ <;>
      unfold dispatch at h <;>
      simp only [hplace, record_eq, Except.ok.injEq, reduceCtorEq] at h
    rw [← h]
    rfl
  | cancelOrder rid market id =>
    rcases hcancel : s.engine.cancelOrder market id with ⟨_ | _ | o, eng⟩ <;>
      unfold dispatch at h <;>
      simp only [hcancel, Except.ok.injEq, reduceCtorEq] at h <;>
      rw [← h] <;> rfl
  | getDepth rid market =>
    cases hdepth : s.engine.depth market <;>
      unfold dispatch at h <;>
      simp only [hdepth, Except.ok.injEq, reduceCtorEq] at h
    rw [← h]
    rfl
  | addBalance rid u a n =>
    rw [dispatch_addBalance] at h
    generalize s.engine.credit u a n = credited at h
    obtain ⟨⟨_, refused⟩, eng⟩ := credited
    cases refused <;> simp only [Bool.false_eq_true, ↓reduceIte, Except.ok.injEq, reduceCtorEq] at h
    rw [← h]
    rfl

/-- The key of a message's result: the market of its command, empty when the
message does not decode. -/
def messageKey (message : String) : String :=
  match Command.decode message with
  | .ok c => c.market
  | .error _ => ""

theorem handleMessage_none_iff (s : Service) (now fresh message : String) :
    (s.handleMessage now fresh message).1 = none ↔
      ∃ tag, Command.decode message = .error (.unknownKind tag) := by
  unfold handleMessage
  split
  · next tag h => exact ⟨fun _ => ⟨tag, h⟩, fun _ => rfl⟩
  · next e hne h =>
    constructor
    · intro hnone
      cases hnone
    · rintro ⟨tag, htag⟩
      rw [h, Except.error.injEq] at htag
      exact absurd htag (hne tag)
  · next c h =>
    refine ⟨fun hnone => ?_, ?_⟩
    · dsimp only at hnone
      split at hnone <;> cases hnone
    · rintro ⟨tag, htag⟩
      rw [h] at htag
      cases htag

/-- A message's result carries the message's key. -/
theorem handleMessage_market (s : Service) (now fresh message : String) {r : Result}
    (h : (s.handleMessage now fresh message).1 = some r) : r.market = messageKey message := by
  unfold handleMessage at h
  unfold messageKey
  split at h
  · cases h
  · next e _ hdecode =>
    rw [hdecode]
    cases h
    rfl
  · next c hdecode =>
    rw [hdecode]
    dsimp only at h
    split at h
    · next r' hok =>
      cases h
      exact dispatch_ok_market s now fresh c hok
    · cases h
      rfl

/-! ### One message -/

/-- What the consumer is to do with the message at an offset, on the service
the messages before it left: write the message's result under its key (none
for a message of an unknown kind, `handleMessage_none_iff`), then commit the
offset. -/
def handled (now fresh : Nat → String) (s : Service) (x : String × Nat) : List Effect × Service :=
  ((s.handleMessage (now x.2) (fresh x.2) x.1).1.toList.map (fun r => .wrote (messageKey x.1) r) ++
    [.committed x.2], (s.handleMessage (now x.2) (fresh x.2) x.1).2.2)

section Queues

variable {t : Transport}

/-- Over queues that fetch, write and commit, a message is handled, its
result written and its offset committed. -/
theorem consume_accepting (hfetch : t.fetchFailure = none) (hcommit : t.commitFailure = none)
    (hwriter : t.hasWriter = true) (hwrite : t.writeFailure = none)
    (s : Service) (now fresh : String) (offset : Nat) (message : String) :
    s.consume now fresh t offset message =
      (⟨(s.handleMessage now fresh message).1.toList.map (fun r => (r.market, r)), true, none,
        (s.handleMessage now fresh message).2.1⟩, (s.handleMessage now fresh message).2.2) := by
  unfold consume
  simp only [hfetch]
  generalize s.handleMessage now fresh message = h
  obtain ⟨_ | r, pub, s'⟩ := h <;>
    simp [commit, publishResult, hcommit, hwriter, hwrite]

/-- When the result queue refuses a message's result, nothing is written or
committed, and the consumer stops with the refusal. -/
theorem consume_writeRefused (hfetch : t.fetchFailure = none) (hwriter : t.hasWriter = true)
    {why : String} (hwrite : t.writeFailure = some why)
    (s : Service) (now fresh : String) (offset : Nat) (message : String) {r : Result}
    (hr : (s.handleMessage now fresh message).1 = some r) :
    s.consume now fresh t offset message =
      (⟨[], false, some ("publish result " ++ r.requestId ++ ": " ++ why),
        (s.handleMessage now fresh message).2.1⟩, (s.handleMessage now fresh message).2.2) := by
  unfold consume
  simp only [hfetch]
  generalize s.handleMessage now fresh message = h at hr
  obtain ⟨res, pub, s'⟩ := h
  cases hr
  simp [publishResult, hwriter, hwrite]

theorem consume_accepting_effects (hfetch : t.fetchFailure = none) (hcommit : t.commitFailure = none)
    (hwriter : t.hasWriter = true) (hwrite : t.writeFailure = none)
    (s : Service) (now fresh : Nat → String) (offset : Nat) (message : String) :
    (s.consume (now offset) (fresh offset) t offset message).1.effects offset =
      (s.handled now fresh (message, offset)).1 := by
  rw [consume_accepting hfetch hcommit hwriter hwrite]
  unfold handled Consumed.effects
  cases hr : (s.handleMessage (now offset) (fresh offset) message).1 with
  | none => rfl
  | some r => simp [handleMessage_market s _ _ message hr]

end Queues

/-! ### Runs -/

section Runs

variable (now fresh : Nat → String) (t : Nat → Transport)

theorem run_nil (s : Service) (offset : Nat) : s.run now fresh t offset [] = ([], none, s) := rfl

theorem run_cons_going (s : Service) (offset : Nat) (m : String) (ms : List String)
    (hgoing : (s.consume (now offset) (fresh offset) (t offset) offset m).1.stopped = none) :
    s.run now fresh t offset (m :: ms) =
      ((s.consume (now offset) (fresh offset) (t offset) offset m).1.effects offset ++
        ((s.consume (now offset) (fresh offset) (t offset) offset m).2.run now fresh t (offset + 1) ms).1,
        ((s.consume (now offset) (fresh offset) (t offset) offset m).2.run now fresh t (offset + 1) ms).2) := by
  rw [run, hgoing]

theorem run_cons_stopped (s : Service) (offset : Nat) (m : String) (ms : List String) {why : String}
    (hstopped : (s.consume (now offset) (fresh offset) (t offset) offset m).1.stopped = some why) :
    s.run now fresh t offset (m :: ms) =
      ((s.consume (now offset) (fresh offset) (t offset) offset m).1.effects offset, some why,
        (s.consume (now offset) (fresh offset) (t offset) offset m).2) := by
  rw [run, hstopped]

variable {now fresh t}

/-- **Runs over accepting queues.** When no fetch, write or commit fails, a run
handles every message in turn, on the service the messages before it left,
and ends without an error. -/
theorem run_accepting (hfetch : ∀ i, (t i).fetchFailure = none) (hcommit : ∀ i, (t i).commitFailure = none)
    (hwriter : ∀ i, (t i).hasWriter = true) (hwrite : ∀ i, (t i).writeFailure = none) :
    ∀ (msgs : List String) (s : Service) (offset : Nat),
      s.run now fresh t offset msgs =
        ((runCalls (handled now fresh) s (msgs.zipIdx offset)).1.flatten, none,
          (runCalls (handled now fresh) s (msgs.zipIdx offset)).2)
  | [], s, offset => rfl
  | m :: ms, s, offset => by
    have hconsume := consume_accepting (hfetch offset) (hcommit offset) (hwriter offset) (hwrite offset)
      s (now offset) (fresh offset) offset m
    rw [run_cons_going now fresh t s offset m ms (by rw [hconsume]),
      consume_accepting_effects (hfetch offset) (hcommit offset) (hwriter offset) (hwrite offset),
      run_accepting hfetch hcommit hwriter hwrite ms, List.zipIdx_cons, runCalls_cons, List.flatten_cons,
      hconsume]
    rfl

/-- **Runs up to a refused write.** When no fetch or commit fails and the
result queue takes every result before the offset where it first refuses one,
a run handles the messages before that offset in turn, writes and commits
nothing of the refused message, handles no message after it, and stops with
the refusal of its result. -/
theorem run_writeRefused (hfetch : ∀ i, (t i).fetchFailure = none) (hcommit : ∀ i, (t i).commitFailure = none)
    (hwriter : ∀ i, (t i).hasWriter = true) (m : String) (post : List String) {why : String} {r : Result} :
    ∀ (pre : List String) (s : Service) (offset : Nat),
      (∀ i < offset + pre.length, (t i).writeFailure = none) →
      (t (offset + pre.length)).writeFailure = some why →
      ((runCalls (handled now fresh) s (pre.zipIdx offset)).2.handleMessage (now (offset + pre.length))
        (fresh (offset + pre.length)) m).1 = some r →
      s.run now fresh t offset (pre ++ m :: post) =
        ((runCalls (handled now fresh) s (pre.zipIdx offset)).1.flatten,
          some ("publish result " ++ r.requestId ++ ": " ++ why),
          ((runCalls (handled now fresh) s (pre.zipIdx offset)).2.handleMessage (now (offset + pre.length))
            (fresh (offset + pre.length)) m).2.2)
  | [], s, offset, _, hrefused, hr => by
    have hconsume := consume_writeRefused (hfetch offset) (hwriter offset) hrefused s (now offset)
      (fresh offset) offset m hr
    rw [List.nil_append, run_cons_stopped now fresh t s offset m post (by rw [hconsume]), hconsume]
    rfl
  | p :: pre, s, offset, hbefore, hrefused, hr => by
    have hwrite : (t offset).writeFailure = none := hbefore offset (by simp)
    have hconsume := consume_accepting (hfetch offset) (hcommit offset) (hwriter offset) hwrite
      s (now offset) (fresh offset) offset p
    have hshift : offset + 1 + pre.length = offset + (p :: pre).length := by simp; omega
    have hrest := run_writeRefused hfetch hcommit hwriter m post pre
      (s.handled now fresh (p, offset)).2 (offset + 1)
      (fun i hi => hbefore i (by rw [← hshift]; exact hi)) (by rw [hshift]; exact hrefused)
      (by rw [hshift]; exact hr)
    rw [List.cons_append, run_cons_going now fresh t s offset p _ (by rw [hconsume]),
      consume_accepting_effects (hfetch offset) (hcommit offset) (hwriter offset) hwrite]
    rw [hshift] at hrest
    rw [show (s.consume (now offset) (fresh offset) (t offset) offset p).2 = (s.handled now fresh (p, offset)).2 by
      rw [hconsume]; rfl, hrest, List.zipIdx_cons, runCalls_cons, List.flatten_cons]

/-- **The consumer answers and commits in order.** Over queues that neither
fail to fetch nor to commit, with a result queue: a message has a result
unless it is of an unknown kind; when the result queue takes every result, a
run handles every message in turn on the service the messages before it left,
writing its result under its key and then committing it, and ends without an
error; and when the result queue first refuses the result of a message, the
run has done that for the messages before it, writes and commits nothing of
it, handles no message after it, and stops with the refusal. -/
theorem run_answersInOrder (s : Service) (now fresh : Nat → String) (t : Nat → Transport)
    (offset : Nat) (msgs : List String)
    (hfetch : ∀ i, (t i).fetchFailure = none) (hcommit : ∀ i, (t i).commitFailure = none)
    (hwriter : ∀ i, (t i).hasWriter = true) :
    (∀ (s : Service) now fresh m, (s.handleMessage now fresh m).1 = none ↔
      ∃ tag, Command.decode m = .error (.unknownKind tag)) ∧
    ((∀ i, (t i).writeFailure = none) →
      s.run now fresh t offset msgs =
        ((runCalls (handled now fresh) s (msgs.zipIdx offset)).1.flatten, none,
          (runCalls (handled now fresh) s (msgs.zipIdx offset)).2)) ∧
    ∀ (pre : List String) (m : String) (post : List String) (why : String) (r : Result),
      msgs = pre ++ m :: post →
      (∀ i < offset + pre.length, (t i).writeFailure = none) →
      (t (offset + pre.length)).writeFailure = some why →
      ((runCalls (handled now fresh) s (pre.zipIdx offset)).2.handleMessage (now (offset + pre.length))
        (fresh (offset + pre.length)) m).1 = some r →
      s.run now fresh t offset msgs =
        ((runCalls (handled now fresh) s (pre.zipIdx offset)).1.flatten,
          some ("publish result " ++ r.requestId ++ ": " ++ why),
          ((runCalls (handled now fresh) s (pre.zipIdx offset)).2.handleMessage (now (offset + pre.length))
            (fresh (offset + pre.length)) m).2.2) := by
  refine ⟨handleMessage_none_iff, fun hwrite => run_accepting hfetch hcommit hwriter hwrite msgs s offset, ?_⟩
  intro pre m post why r hmsgs hbefore hrefused hr
  rw [hmsgs]
  exact run_writeRefused hfetch hcommit hwriter m post pre s offset hbefore hrefused hr

/-- Queues that never fail, over two messages that do not decode, meet the
hypotheses of `run_answersInOrder`. -/
theorem run_answersInOrder_undecodable :
    let s : Service := ⟨Engine.create "USDT", TradeLog.create 0⟩
    let now : Nat → String := fun _ => "t"
    let fresh : Nat → String := fun i => toString i
    let t : Nat → Transport := fun _ => ⟨none, none, none, true⟩
    let msgs := ["x", "[]"]
    (∀ i, (t i).fetchFailure = none) ∧ (∀ i, (t i).commitFailure = none) ∧ (∀ i, (t i).hasWriter = true) ∧
    (∀ (s : Service) now fresh m, (s.handleMessage now fresh m).1 = none ↔
      ∃ tag, Command.decode m = .error (.unknownKind tag)) ∧
    ((∀ i, (t i).writeFailure = none) →
      s.run now fresh t 0 msgs =
        ((runCalls (handled now fresh) s (msgs.zipIdx 0)).1.flatten, none,
          (runCalls (handled now fresh) s (msgs.zipIdx 0)).2)) ∧
    ∀ (pre : List String) (m : String) (post : List String) (why : String) (r : Result),
      msgs = pre ++ m :: post →
      (∀ i < 0 + pre.length, (t i).writeFailure = none) →
      (t (0 + pre.length)).writeFailure = some why →
      ((runCalls (handled now fresh) s (pre.zipIdx 0)).2.handleMessage (now (0 + pre.length))
        (fresh (0 + pre.length)) m).1 = some r →
      s.run now fresh t 0 msgs =
        ((runCalls (handled now fresh) s (pre.zipIdx 0)).1.flatten,
          some ("publish result " ++ r.requestId ++ ": " ++ why),
          ((runCalls (handled now fresh) s (pre.zipIdx 0)).2.handleMessage (now (0 + pre.length))
            (fresh (0 + pre.length)) m).2.2) := by
  intro s now fresh t msgs
  have hfetch : ∀ i, (t i).fetchFailure = none := fun _ => rfl
  have hcommit : ∀ i, (t i).commitFailure = none := fun _ => rfl
  have hwriter : ∀ i, (t i).hasWriter = true := fun _ => rfl
  exact ⟨hfetch, hcommit, hwriter, run_answersInOrder s now fresh t 0 msgs hfetch hcommit hwriter⟩

end Runs

end Service

end Exchange
