import Mathlib
import Exchange.Book
/-!
# Sessions of calls

A session issues calls one after another on a state and collects the answers:
`runCalls step s cs`. Five rules carry every statement about whole sessions,
each proved once here by induction on the calls:

* `runCalls_invariant`: what every allowed call keeps holds after every
  session of allowed calls;
* `runCalls_simulation`: two step functions that answer alike from related
  states, and keep them related, answer alike over every session;
* `runCalls_accumulate`: a quantity that each call moves by an amount depending
  only on the call and its answer ends as its start plus the sum of those
  amounts;
* `runCalls_history`: what every call keeps of the state together with the
  answers given so far holds at the end of the session with all its answers;
* `runCalls_fold`: likewise with a running summary of the calls made.

The calls of a book are `Book.Call`, answered by `Book.perform`.

Key definitions: `runCalls`, `Book.Call`, `Book.Answer`, `Book.perform`.
-/

namespace Exchange

/-- Runs calls one after another from a state, collecting the answers in
order; gives the answers and the state after the last call. -/
def runCalls {σ α β : Type} (step : σ → α → β × σ) : σ → List α → List β × σ
  | s, [] => ([], s)
  | s, c :: cs =>
    let r := step s c
    let t := runCalls step r.2 cs
    (r.1 :: t.1, t.2)

section

variable {σ τ α β : Type}

@[simp] theorem runCalls_nil (step : σ → α → β × σ) (s : σ) : runCalls step s [] = ([], s) := rfl

@[simp] theorem runCalls_cons (step : σ → α → β × σ) (s : σ) (c : α) (cs : List α) :
    runCalls step s (c :: cs) =
      ((step s c).1 :: (runCalls step (step s c).2 cs).1, (runCalls step (step s c).2 cs).2) :=
  rfl

/-- **Invariants of sessions.** An invariant that every allowed call keeps
holds after every session of allowed calls. -/
theorem runCalls_invariant (step : σ → α → β × σ) (Ok : α → Prop) (Inv : σ → Prop)
    (h : ∀ s c, Ok c → Inv s → Inv (step s c).2) :
    ∀ (cs : List α) (s : σ), (∀ c ∈ cs, Ok c) → Inv s → Inv (runCalls step s cs).2
  | [], _, _, hs => hs
  | c :: cs, s, hok, hs => by
    have hc : Ok c := hok c List.mem_cons_self
    have hcs : ∀ c' ∈ cs, Ok c' := fun c' hc' => hok c' (List.mem_cons_of_mem c hc')
    exact runCalls_invariant step Ok Inv h cs _ hcs (h s c hc hs)

/-- **Simulation of sessions.** Two step functions that give the same answer
from related states, and leave them related, give the same answers over every
session, and leave the states related. -/
theorem runCalls_simulation (f : σ → α → β × σ) (g : τ → α → β × τ) (R : σ → τ → Prop)
    (h : ∀ s t c, R s t → (f s c).1 = (g t c).1 ∧ R (f s c).2 (g t c).2) :
    ∀ (cs : List α) (s : σ) (t : τ), R s t →
      (runCalls f s cs).1 = (runCalls g t cs).1 ∧ R (runCalls f s cs).2 (runCalls g t cs).2
  | [], _, _, hst => ⟨rfl, hst⟩
  | c :: cs, s, t, hst => by
    obtain ⟨hans, hrel⟩ := h s t c hst
    obtain ⟨hrest, hfinal⟩ := runCalls_simulation f g R h cs _ _ hrel
    refine ⟨?_, hfinal⟩
    simp only [runCalls_cons, hans, hrest]

/-- **Sums over sessions.** When each call, from a state with `Inv`, keeps
`Inv` and moves `f` by `δ` of the call and its answer, a session moves `f` by
the sum of `δ` over its calls and answers. -/
theorem runCalls_accumulate (step : σ → α → β × σ) (Inv : σ → Prop) (f : σ → Nat)
    (δ : α → β → Nat) (h : ∀ s c, Inv s → Inv (step s c).2 ∧ f (step s c).2 = f s + δ c (step s c).1) :
    ∀ (cs : List α) (s : σ), Inv s →
      Inv (runCalls step s cs).2 ∧
        f (runCalls step s cs).2 = f s + (List.zipWith δ cs (runCalls step s cs).1).sum
  | [], _, hs => ⟨hs, rfl⟩
  | c :: cs, s, hs => by
    obtain ⟨hinv, hmove⟩ := h s c hs
    obtain ⟨hinv', hmove'⟩ := runCalls_accumulate step Inv f δ h cs _ hinv
    simp only [runCalls_cons, List.zipWith_cons_cons, List.sum_cons]
    exact ⟨hinv', by omega⟩

/-- **Invariants over the answers given.** A property of the state and the
answers given so far, kept by every call, holds after every session of the
answers it gave. -/
theorem runCalls_history (step : σ → α → β × σ) (Inv : σ → List β → Prop)
    (h : ∀ s c given, Inv s given → Inv (step s c).2 (given ++ [(step s c).1])) :
    ∀ (cs : List α) (s : σ) (given : List β), Inv s given →
      Inv (runCalls step s cs).2 (given ++ (runCalls step s cs).1)
  | [], _, given, hs => by simpa using hs
  | c :: cs, s, given, hs => by
    have hrest := runCalls_history step Inv h cs _ _ (h s c given hs)
    simpa only [runCalls_cons, List.append_assoc, List.singleton_append] using hrest

/-- **Invariants over the calls made.** A property of the state and of a
summary of the calls made so far, kept by every call, holds after every
session of the summary of all its calls. -/
theorem runCalls_fold {γ : Type} (step : σ → α → β × σ) (g : γ → α → γ) (Inv : σ → γ → Prop)
    (h : ∀ s c x, Inv s x → Inv (step s c).2 (g x c)) :
    ∀ (cs : List α) (s : σ) (x : γ), Inv s x → Inv (runCalls step s cs).2 (cs.foldl g x)
  | [], _, _, hs => hs
  | c :: cs, s, x, hs => runCalls_fold step g Inv h cs _ _ (h s c x hs)

end

namespace Book

/-- A call on a book: place an order (with the time written on its trades),
cancel by id, or read the depth, a best level or the trade count. -/
inductive Call where
  | place (now : String) (o : Order)
  | cancel (id : UInt64)
  | depth
  | bestBid
  | bestAsk
  | tradeCount

/-- What a book answers to a call. -/
inductive Answer where
  | placed (p : Placed)
  | cancelled (o : Option Order)
  | depth (d : Depth)
  | level (l : Option Level)
  | count (n : UInt64)
  deriving DecidableEq

/-- Answers one call. Only a placement and a cancellation change the book. -/
def perform (b : Book) : Call → Answer × Book
  | .place now o => (.placed (b.place now o).1, (b.place now o).2)
  | .cancel id => (.cancelled (b.cancel id).1, (b.cancel id).2)
  | .depth => (.depth b.depth, b)
  | .bestBid => (.level b.bestBid, b)
  | .bestAsk => (.level b.bestAsk, b)
  | .tradeCount => (.count b.tradeCount, b)

end Book

end Exchange
