import Exchange.Proofs.Session
import Exchange.Stream.Hub
/-!
# The hub closes every queue once

A run of the hub is a list of turns (`Stream.Turn`): the input its loop takes
and, for that turn, which subscribers' queues are full. Registrations name
fresh subscribers; every other input may name any number, a subscriber
already dropped included. What a run does to the queues is the list of its
effects, and the effects on one subscriber's queue are `queueOf`.

One turn acts on distinct subscribers only, one effect each: a delivery or a
close (`TurnSpec`). A publication reaches each subscriber of its channel once
(`deliverAll_effects`), and a full queue drops its subscriber instead of
taking the event. From that, by induction on the turns (`Tracked.step`), over
every run whose registrations are fresh (`run_queuesClosedOnce`):

* a subscriber is on the hub iff it registered before the hub stopped and its
  queue has not been closed;
* each queue sees events, then at most one close, and nothing after it
  (`Orderly`);
* once the hub is cancelled it has stopped, and every queue of a subscriber
  that ever registered has been closed exactly once.

Key definitions: `Stream.Turn`, `Stream.queueOf`, `Stream.Orderly`,
`Stream.registered`, `Stream.Hub.Sound`, `Stream.Hub.Tracked`.
Key theorems: `Stream.Hub.step_spec`, `Stream.Hub.Tracked.step`,
`Stream.Hub.run_queuesClosedOnce`.
-/

namespace Exchange.Stream

/-! ### Queues -/

/-- The subscriber whose queue an effect acts on. -/
def Effect.client : Effect → Nat
  | .deliver c _ => c
  | .close c => c

/-- The effects on subscriber `c`'s queue, in order. -/
def queueOf (c : Nat) (fx : List Effect) : List Effect := fx.filter (·.client == c)

/-- A queue in good order: events, then at most one close, after all of them. -/
def Orderly (c : Nat) (q : List Effect) : Prop :=
  ∃ es : List Event, q = es.map (.deliver c) ∨ q = es.map (.deliver c) ++ [.close c]

@[simp] theorem queueOf_append (c : Nat) (fx fx' : List Effect) :
    queueOf c (fx ++ fx') = queueOf c fx ++ queueOf c fx' :=
  List.filter_append _ _

theorem mem_queueOf {c : Nat} {fx : List Effect} {x : Effect} :
    x ∈ queueOf c fx ↔ x ∈ fx ∧ x.client = c := by
  simp [queueOf]

theorem count_close_queueOf (c : Nat) (fx : List Effect) :
    (queueOf c fx).count (.close c) = fx.count (.close c) :=
  List.count_filter (by simp [Effect.client])

/-- One effect for each of distinct subscribers, each on its own queue: a
queue gets its subscriber's effect, if it is among them, and nothing else. -/
theorem queueOf_map {f : Nat → Effect} (hf : ∀ c, (f c).client = c) (c : Nat) :
    ∀ {cs : List Nat}, cs.Nodup → queueOf c (cs.map f) = if c ∈ cs then [f c] else []
  | [], _ => rfl
  | c' :: cs, hcs => by
    obtain ⟨hc', hcs⟩ := List.nodup_cons.mp hcs
    have ih := queueOf_map hf c hcs
    simp only [queueOf, List.map_cons, List.filter_cons, hf] at ih ⊢
    rw [ih]
    by_cases hc : c' = c
    · subst hc
      simp [hc']
    · simp [hc, Ne.symm hc]

theorem Orderly.append {c : Nat} {q q' : List Effect} (h : Orderly c q) (hq : Effect.close c ∉ q)
    (hq' : (∃ e, q' = [.deliver c e]) ∨ q' = [.close c] ∨ q' = []) : Orderly c (q ++ q') := by
  obtain ⟨es, rfl | rfl⟩ := h
  · rcases hq' with ⟨e, rfl⟩ | rfl | rfl
    · exact ⟨es ++ [e], .inl (by simp)⟩
    · exact ⟨es, .inr rfl⟩
    · exact ⟨es, .inl (by simp)⟩
  · simp at hq

theorem Orderly.count_close_le {c : Nat} {q : List Effect} (h : Orderly c q) :
    q.count (.close c) ≤ 1 := by
  obtain ⟨es, hq⟩ := h
  have hnone : (es.map (Effect.deliver c)).count (.close c) = 0 := List.count_eq_zero.mpr (by simp)
  rcases hq with rfl | rfl
  · simp [hnone]
  · simp [List.count_append, hnone]

theorem Orderly.no_deliver_after_close {c : Nat} {q pre post : List Effect} (h : Orderly c q)
    (hsplit : q = pre ++ post) (hclose : Effect.close c ∈ pre) (e : Event) :
    Effect.deliver c e ∉ post := by
  intro hdeliver
  obtain ⟨es, hq | hq⟩ := h
  · have : Effect.close c ∈ q := hsplit ▸ List.mem_append_left _ hclose
    simp [hq] at this
  · rcases List.eq_nil_or_concat post with rfl | ⟨post', z, rfl⟩
    · simp at hdeliver
    · rw [List.concat_eq_append] at hsplit
      have hsame : (pre ++ post') ++ [z] = es.map (.deliver c) ++ [.close c] := by
        rw [List.append_assoc, ← hsplit, hq]
      have hpre := (List.append_inj' hsame rfl).1
      have : Effect.close c ∈ es.map (.deliver c) := hpre ▸ List.mem_append_left _ hclose
      simp at this

/-! ### One turn -/

/-- One turn of the hub's loop: the input it takes, and which subscribers'
queues are full at that turn. -/
structure Turn where
  full : Nat → Bool
  input : Input

/-- A turn's effects act on each queue at most once, by an event or a close,
and only on the queue of a subscriber among `ids`. -/
def ActsOnce (ids : List Nat) (fx : List Effect) : Prop :=
  ∀ c, queueOf c fx = [] ∨
    (c ∈ ids ∧ ((∃ e, queueOf c fx = [.deliver c e]) ∨ queueOf c fx = [.close c]))

/-- One effect, an event or a close, on each of distinct subscribers among
`ids` acts on each queue at most once. -/
theorem actsOnce_map {ids cs : List Nat} {f : Nat → Effect} (hcs : cs.Nodup) (hsub : ∀ c ∈ cs, c ∈ ids)
    (hf : ∀ c, (∃ e, f c = .deliver c e) ∨ f c = .close c) : ActsOnce ids (cs.map f) := by
  have hclient : ∀ c, (f c).client = c := fun c => by
    rcases hf c with ⟨e, he⟩ | he <;> rw [he] <;> rfl
  intro c
  rw [queueOf_map hclient c hcs]
  by_cases hc : c ∈ cs
  · rw [if_pos hc]
    refine .inr ⟨hsub c hc, ?_⟩
    rcases hf c with ⟨e, he⟩ | he
    · exact .inl ⟨e, by rw [he]⟩
    · exact .inr (by rw [he])
  · exact .inl (if_neg hc)

namespace Hub

/-- The numbers of the subscribers on the hub, in the order they joined. -/
def ids (h : Hub) : List Nat := h.clients.map (·.1)

/-- Takes one turn. -/
def turn (h : Hub) (t : Turn) : List Effect × Hub := h.step t.full t.input

theorem isClient_iff {h : Hub} {c : Nat} : h.isClient c = true ↔ c ∈ h.ids := by
  simp [isClient, ids]

theorem ids_filter (h : Hub) (p : Nat → Bool) :
    ({ h with clients := h.clients.filter fun x => p x.1 } : Hub).ids = h.ids.filter p := by
  simp only [ids, List.filter_map]
  rfl

theorem deliver_eq (h : Hub) (full : Nat → Bool) (c : Nat) (e : Event) :
    h.deliver full c e =
      ([if full c then .close c else .deliver c e],
        if full c then { h with clients := h.clients.filter fun x => x.1 != c } else h) := by
  unfold deliver drop
  split <;> simp_all

theorem close_mem_deliveries {full : Nat → Bool} {e : Event} {cs : List Nat} {c : Nat} :
    Effect.close c ∈ cs.map (fun c => if full c then .close c else .deliver c e) ↔
      c ∈ cs ∧ full c = true := by
  rw [List.mem_map]
  constructor
  · rintro ⟨x, hx, hxe⟩
    by_cases hf : full x = true
    · simp only [hf, ↓reduceIte, Effect.close.injEq] at hxe
      subst hxe
      exact ⟨hx, hf⟩
    · simp [hf] at hxe
  · rintro ⟨hc, hf⟩
    exact ⟨c, hc, by simp [hf]⟩

theorem deliverAll_effects (full : Nat → Bool) (e : Event) :
    ∀ (cs : List Nat) (h : Hub),
      (deliverAll full e cs h).1 = cs.map fun c => if full c then .close c else .deliver c e
  | [], _ => rfl
  | c :: cs, h => by
    simp only [deliverAll, deliver_eq, List.map_cons, List.cons_append, List.nil_append]
    rw [deliverAll_effects full e cs]

/-- After a delivery to each of a list of subscribers, those with a full queue
are dropped, and nothing else changes. -/
theorem deliverAll_hub (full : Nat → Bool) (e : Event) :
    ∀ (cs : List Nat) (h : Hub),
      (deliverAll full e cs h).2 =
        { h with clients := h.clients.filter fun x => !(cs.contains x.1 && full x.1) }
  | [], h => by simp [deliverAll]
  | c :: cs, h => by
    simp only [deliverAll, deliver_eq]
    rw [deliverAll_hub full e cs]
    by_cases hc : full c = true
    · simp only [hc, ↓reduceIte, List.filter_filter]
      congr 2
      funext x
      by_cases hx : x.1 = c
      · simp [hx, hc]
      · simp [hx]
    · simp only [hc, Bool.false_eq_true, ↓reduceIte]
      congr 2
      funext x
      by_cases hx : x.1 = c
      · simp [hx, hc]
      · simp [hx]

/-- What every turn keeps: each subscriber is on the hub once, and a stopped
hub has none. -/
structure Sound (h : Hub) : Prop where
  nodup : h.ids.Nodup
  stopped : h.running = false → h.clients = []

theorem start_sound : start.Sound := ⟨List.nodup_nil, fun h => by simp [start] at h⟩

/-- What one turn does: its effects act on each queue at most once, by an
event or a close, and only on a subscriber's; afterwards the subscribers are
those whose queue it did not close, and one that registers while the hub
runs; the hub runs on unless cancelled. -/
structure TurnSpec (h : Hub) (i : Input) (fx : List Effect) (h' : Hub) : Prop where
  acts : ActsOnce h.ids fx
  ids : ∀ c, c ∈ h'.ids ↔ (c ∈ h.ids ∧ .close c ∉ fx) ∨ (i = .register c ∧ h.running = true)
  running : h'.running = (h.running && i != .cancel)

theorem turnSpec_idle (h : Hub) (i : Input) (hi : h.running = false ∨ i ≠ .cancel)
    (hreg : ∀ c, i = .register c → h.running = false) : TurnSpec h i [] h where
  acts c := .inl rfl
  ids c := by
    constructor
    · intro hc; exact .inl ⟨hc, List.not_mem_nil⟩
    · rintro (⟨hc, -⟩ | ⟨rfl, hr⟩)
      · exact hc
      · simp [hreg c rfl] at hr
  running := by rcases hi with hi | hi <;> simp [hi]

theorem answer_ids (h : Hub) (c : Nat) (r : Request) : (h.answer c r).2.ids = h.ids := by
  have hupdate : ∀ f : List String → List String, (h.updateChannels c f).ids = h.ids := fun f => by
    simp only [ids, updateChannels, List.map_map]
    congr 1
    funext x
    by_cases hx : x.1 = c <;> simp [hx]
  unfold answer
  split
  · exact hupdate _
  · exact hupdate _
  · rfl

theorem answer_running (h : Hub) (c : Nat) (r : Request) : (h.answer c r).2.running = h.running := by
  unfold answer updateChannels
  split <;> rfl

section Turns

variable {h : Hub} (full : Nat → Bool)

theorem drop_spec (hs : h.Sound) {c : Nat} (hc : c ∈ h.ids) (i : Input) (hi : i ≠ .cancel)
    (hreg : ∀ c', i ≠ .register c') :
    TurnSpec h i [.close c] { h with clients := h.clients.filter fun x => x.1 != c } ∧
      ({ h with clients := h.clients.filter fun x => x.1 != c } : Hub).Sound := by
  have hids := ids_filter h (· != c)
  refine ⟨⟨?_, fun c' => ?_, by simp [hi]⟩, ⟨?_, fun hr => by simp [hs.stopped hr]⟩⟩
  · exact actsOnce_map (List.nodup_singleton c) (by simpa using hc) fun c => .inr rfl
  · rw [hids]
    simp [hreg c']
  · rw [hids]
    exact hs.nodup.filter _

/-- A spec of a turn speaks of the hub before only through its subscribers
and whether it runs. -/
theorem TurnSpec.of_same {h₁ h' : Hub} {i : Input} {fx : List Effect} (hids : h₁.ids = h.ids)
    (hrun : h₁.running = h.running) (hspec : TurnSpec h₁ i fx h') : TurnSpec h i fx h' := by
  obtain ⟨acts, ids, running⟩ := hspec
  rw [hids] at acts ids
  rw [hrun] at ids running
  exact ⟨acts, ids, running⟩

theorem deliver_spec (hs : h.Sound) (hrun : h.running = true) {c : Nat} (hc : c ∈ h.ids) (e : Event)
    (i : Input) (hi : i ≠ .cancel) (hreg : ∀ c', i ≠ .register c') :
    TurnSpec h i (h.deliver full c e).1 (h.deliver full c e).2 ∧ (h.deliver full c e).2.Sound := by
  rw [deliver_eq]
  by_cases hfull : full c = true
  · simp only [hfull, ↓reduceIte]
    exact drop_spec hs hc i hi hreg
  · simp only [hfull, Bool.false_eq_true, ↓reduceIte]
    refine ⟨⟨?_, fun c' => by simp [hreg c'], by simp [hi, hrun]⟩, hs⟩
    exact actsOnce_map (List.nodup_singleton c) (by simpa using hc) fun c => .inl ⟨e, rfl⟩

/-- Registering on a running hub: the subscriber joins with no channels, in
place of any entry of its number. -/
theorem register_spec (hs : h.Sound) (hrun : h.running = true) (c : Nat) :
    TurnSpec h (.register c) [] { h with clients := h.clients.filter (fun x => x.1 != c) ++ [(c, [])] } ∧
      ({ h with clients := h.clients.filter (fun x => x.1 != c) ++ [(c, [])] } : Hub).Sound := by
  have hids : ({ h with clients := h.clients.filter (fun x => x.1 != c) ++ [(c, [])] } : Hub).ids =
      h.ids.filter (· != c) ++ [c] := by
    simp [ids, List.filter_map]
    rfl
  refine ⟨⟨fun _ => .inl rfl, fun c' => ?_, by simp [hrun]⟩, ⟨?_, fun hr => by simp [hrun] at hr⟩⟩
  · rw [hids]
    by_cases hc' : c' = c
    · subst hc'
      simp [hrun]
    · simp [hc', Ne.symm hc']
  · rw [hids]
    exact (hs.nodup.filter _).append (List.nodup_singleton c) (by simp)

theorem deliverAll_spec (hs : h.Sound) (hrun : h.running = true) {cs : List Nat} (hsub : cs.Sublist h.ids)
    (e : Event) (i : Input) (hi : i ≠ .cancel) (hreg : ∀ c, i ≠ .register c) :
    TurnSpec h i (deliverAll full e cs h).1 (deliverAll full e cs h).2 ∧ (deliverAll full e cs h).2.Sound := by
  rw [deliverAll_effects, deliverAll_hub]
  have hids := ids_filter h fun c => !(cs.contains c && full c)
  refine ⟨⟨?_, fun c => ?_, by simp [hrun, hi]⟩, ⟨?_, fun hr => by simp [hrun] at hr⟩⟩
  · refine actsOnce_map (hs.nodup.sublist hsub) (fun c hc => hsub.subset hc) fun c => ?_
    by_cases hfull : full c = true
    · exact .inr (by simp [hfull])
    · exact .inl ⟨e, by simp [hfull]⟩
  · rw [hids, close_mem_deliveries]
    simp [or_iff_not_imp_left, hreg c]
  · rw [hids]
    exact hs.nodup.filter _

/-- **One turn.** From a sound hub, every turn does what `TurnSpec` says and
leaves the hub sound. -/
theorem step_spec (hs : h.Sound) (i : Input) :
    TurnSpec h i (h.step full i).1 (h.step full i).2 ∧ (h.step full i).2.Sound := by
  cases hrun : h.running with
  | false =>
    rw [step_stopped h full i hrun]
    exact ⟨turnSpec_idle h i (.inl hrun) fun _ _ => hrun, hs⟩
  | true =>
    cases i with
    | register c =>
      have heq : h.step full (.register c) =
          ([], { h with clients := h.clients.filter (fun x => x.1 != c) ++ [(c, [])] }) := by
        simp [step, hrun]
      rw [heq]
      exact register_spec hs hrun c
    | unregister c =>
      by_cases hc : c ∈ h.ids
      · have heq : h.step full (.unregister c) =
            ([.close c], { h with clients := h.clients.filter fun x => x.1 != c }) := by
          simp [step, hrun, isClient_iff.mpr hc, drop]
        rw [heq]
        exact drop_spec hs hc _ (by simp) (by simp)
      · have heq : h.step full (.unregister c) = ([], h) := by
          simp [step, hrun, mt isClient_iff.mp hc]
        rw [heq]
        exact ⟨turnSpec_idle h _ (.inr (by simp)) (by simp), hs⟩
    | request c r =>
      by_cases hc : c ∈ h.ids
      · obtain ⟨e, h₁, hanswer⟩ : ∃ e h₁, h.answer c r = (e, h₁) := ⟨_, _, rfl⟩
        have hids₁ : h₁.ids = h.ids := by rw [← answer_ids h c r, hanswer]
        have hrun₁ : h₁.running = h.running := by rw [← answer_running h c r, hanswer]
        have heq : h.step full (.request c r) = h₁.deliver full c e := by
          simp [step, hrun, isClient_iff.mpr hc, hanswer]
        have hs₁ : h₁.Sound := ⟨hids₁ ▸ hs.nodup, fun hr => by rw [hrun₁, hrun] at hr; cases hr⟩
        obtain ⟨hspec, hsound⟩ :=
          deliver_spec full hs₁ (hrun₁.trans hrun) (hids₁ ▸ hc) e (.request c r) (by simp) (by simp)
        rw [heq]
        exact ⟨hspec.of_same hids₁ hrun₁, hsound⟩
      · have heq : h.step full (.request c r) = ([], h) := by
          simp [step, hrun, mt isClient_iff.mp hc]
        rw [heq]
        exact ⟨turnSpec_idle h _ (.inr (by simp)) (by simp), hs⟩
    | publish market batch =>
      by_cases hb : batch.isEmpty = true
      · have heq : h.step full (.publish market batch) = ([], h) := by simp [step, hrun, hb]
        rw [heq]
        exact ⟨turnSpec_idle h _ (.inr (by simp)) (by simp), hs⟩
      · have heq : h.step full (.publish market batch) =
            deliverAll full (.trades (tradesChannel market) batch)
              ((h.clients.filter (·.2.contains (tradesChannel market))).map (·.1)) h := by
          simp [step, hrun, hb]
        rw [heq]
        exact deliverAll_spec full hs hrun (List.filter_sublist.map _) _ _ (by simp) (by simp)
    | cancel =>
      have heq : h.step full .cancel = (h.ids.map .close, ⟨false, []⟩) := by
        rw [step_cancel h full hrun]
        simp [ids]
      rw [heq]
      refine ⟨⟨actsOnce_map hs.nodup (fun c hc => hc) fun c => .inr rfl, fun c => ?_, by simp⟩,
        ⟨List.nodup_nil, fun _ => rfl⟩⟩
      simp [ids]

end Turns

/-! ### Runs -/

/-- Whether subscriber `c` registered before the hub was cancelled. -/
def registered (ins : List Input) (c : Nat) : Prop :=
  Input.register c ∈ ins.takeWhile (· != .cancel)

theorem registered_append (ins : List Input) (i : Input) (c : Nat) :
    registered (ins ++ [i]) c ↔ registered ins c ∨ (i = .register c ∧ Input.cancel ∉ ins) := by
  unfold registered
  induction ins with
  | nil =>
    by_cases hi : i = .cancel
    · simp [hi]
    · simp [hi]
      exact eq_comm
  | cons x xs ih =>
    by_cases hx : x = .cancel
    · simp [hx]
    · simp [hx, ih, Ne.symm hx, or_assoc]

/-- What a run keeps of the hub, the inputs it took and the effects it had:
the hub is sound and runs until cancelled; its subscribers are those that
registered before it was cancelled and whose queue is not closed; only such
queues are closed; and every queue is in good order. -/
structure Tracked (h : Hub) (ins : List Input) (fx : List Effect) : Prop where
  sound : h.Sound
  running : h.running = true ↔ Input.cancel ∉ ins
  member : ∀ c, c ∈ h.ids ↔ registered ins c ∧ Effect.close c ∉ fx
  closed : ∀ c, Effect.close c ∈ fx → registered ins c
  orderly : ∀ c, Orderly c (queueOf c fx)

theorem tracked_start : Tracked start [] [] where
  sound := start_sound
  running := by simp [start]
  member c := by simp [start, ids, registered]
  closed c := by simp
  orderly c := ⟨[], .inl rfl⟩

/-- **One turn keeps the run tracked**, when it registers no subscriber that
registered before. -/
theorem Tracked.step {h : Hub} {ins : List Input} {fx : List Effect} (ht : Tracked h ins fx)
    (full : Nat → Bool) (i : Input) (hfresh : ∀ c, i = .register c → Input.register c ∉ ins) :
    Tracked (h.step full i).2 (ins ++ [i]) (fx ++ (h.step full i).1) := by
  obtain ⟨spec, hsound⟩ := step_spec full ht.sound i
  -- a queue the turn acts on belongs to a subscriber, so it was not closed before
  have hopen : ∀ c, queueOf c (h.step full i).1 ≠ [] → c ∈ h.ids ∧ Effect.close c ∉ fx := by
    intro c hc
    rcases spec.acts c with hnil | ⟨hmem, -⟩
    · exact absurd hnil hc
    · exact ⟨hmem, ((ht.member c).mp hmem).2⟩
  have hacted : ∀ c, Effect.close c ∈ (h.step full i).1 → c ∈ h.ids ∧ Effect.close c ∉ fx :=
    fun c hc => hopen c (List.ne_nil_of_mem (mem_queueOf.mpr ⟨hc, rfl⟩))
  refine ⟨hsound, ?_, fun c => ?_, fun c hc => ?_, fun c => ?_⟩
  · rw [spec.running]
    simp only [Bool.and_eq_true, ht.running, bne_iff_ne, ne_eq, List.mem_append, List.mem_singleton,
      not_or]
    exact and_congr_right fun _ => ne_comm
  · rw [spec.ids, ht.member, registered_append, ht.running]
    constructor
    · rintro (⟨⟨hreg, hfx⟩, hstep⟩ | ⟨hi, hrun⟩)
      · exact ⟨.inl hreg, by simp [hfx, hstep]⟩
      · have hnew : ¬registered ins c := fun hreg =>
          hfresh c hi (List.takeWhile_sublist _ |>.subset hreg)
        refine ⟨.inr ⟨hi, hrun⟩, ?_⟩
        simp only [List.mem_append, not_or]
        exact ⟨fun hc => hnew (ht.closed c hc), fun hc => hnew ((ht.member c).mp (hacted c hc).1).1⟩
    · rintro ⟨hreg | hnew, hclose⟩
      · simp only [List.mem_append, not_or] at hclose
        exact .inl ⟨⟨hreg, hclose.1⟩, hclose.2⟩
      · exact .inr hnew
  · rcases List.mem_append.mp hc with hc | hc
    · exact (registered_append ins i c).mpr (.inl (ht.closed c hc))
    · exact (registered_append ins i c).mpr (.inl ((ht.member c).mp (hacted c hc).1).1)
  · rw [queueOf_append]
    rcases spec.acts c with hnil | ⟨hmem, hq⟩
    · rw [hnil, List.append_nil]
      exact ht.orderly c
    · have hclose : Effect.close c ∉ queueOf c fx := fun hc =>
        ((ht.member c).mp hmem).2 (mem_queueOf.mp hc).1
      refine (ht.orderly c).append hclose ?_
      rcases hq with h | h
      · exact .inl h
      · exact .inr (.inl h)

/-- Runs keep being tracked, from a tracked start, as long as no subscriber
registers twice. -/
theorem run_tracked :
    ∀ (ts : List Turn) (h : Hub) (ins : List Input) (fx : List Effect), Tracked h ins fx →
      (∀ c, (ins ++ ts.map (·.input)).count (.register c) ≤ 1) →
      Tracked (runCalls turn h ts).2 (ins ++ ts.map (·.input)) (fx ++ (runCalls turn h ts).1.flatten)
  | [], h, ins, fx, ht, _ => by simpa using ht
  | t :: ts, h, ins, fx, ht, hfresh => by
    have hi : ∀ c, t.input = .register c → Input.register c ∉ ins := by
      intro c hci hc
      have := hfresh c
      rw [List.count_append, List.map_cons, hci, List.count_cons_self] at this
      have := List.count_pos_iff.mpr hc
      omega
    have hrest := run_tracked ts _ (ins ++ [t.input]) _ (ht.step t.full t.input hi)
      (by simpa using hfresh)
    simpa [turn, List.append_assoc] using hrest

/-- **The hub closes every queue once.** Over every run of turns from a new
hub in which no subscriber registers twice, each turn meeting full or free
queues as it may: a subscriber is on the hub iff it registered before the hub
was cancelled and its queue was not closed since; no queue is closed twice;
no event is put on a queue after its close; and once the hub is cancelled it
has stopped, and the queue of every subscriber that ever registered has been
closed exactly once. -/
theorem run_queuesClosedOnce (ts : List Turn)
    (hfresh : ∀ c, (ts.map (·.input)).count (.register c) ≤ 1) :
    (∀ c, (runCalls turn start ts).2.isClient c = true ↔
        registered (ts.map (·.input)) c ∧ Effect.close c ∉ (runCalls turn start ts).1.flatten) ∧
      (∀ c, (runCalls turn start ts).1.flatten.count (.close c) ≤ 1) ∧
      (∀ c e pre post, (runCalls turn start ts).1.flatten = pre ++ post → Effect.close c ∈ pre →
        Effect.deliver c e ∉ post) ∧
      (Input.cancel ∈ ts.map (·.input) → (runCalls turn start ts).2.running = false ∧
        ∀ c, registered (ts.map (·.input)) c → (runCalls turn start ts).1.flatten.count (.close c) = 1) := by
  have ht := run_tracked ts start [] [] tracked_start (by simpa using hfresh)
  simp only [List.nil_append] at ht
  have hcount : ∀ c, (runCalls turn start ts).1.flatten.count (.close c) ≤ 1 := fun c => by
    rw [← count_close_queueOf]
    exact (ht.orderly c).count_close_le
  refine ⟨fun c => isClient_iff.trans (ht.member c), hcount, fun c e pre post hsplit hc hd => ?_,
    fun hcancel => ?_⟩
  · have hq : queueOf c (runCalls turn start ts).1.flatten = queueOf c pre ++ queueOf c post := by
      rw [hsplit, queueOf_append]
    exact (ht.orderly c).no_deliver_after_close hq (mem_queueOf.mpr ⟨hc, rfl⟩) e
      (mem_queueOf.mpr ⟨hd, rfl⟩)
  · have hstopped : (runCalls turn start ts).2.running = false :=
      Bool.eq_false_iff.mpr fun hrun => ht.running.mp hrun hcancel
    refine ⟨hstopped, fun c hreg => ?_⟩
    -- a stopped hub has no subscribers, so every registered one was closed
    have hnone : c ∉ (runCalls turn start ts).2.ids := by
      simp [ids, ht.sound.stopped hstopped]
    have hclosed : Effect.close c ∈ (runCalls turn start ts).1.flatten := by
      by_contra hopen
      exact hnone ((ht.member c).mpr ⟨hreg, hopen⟩)
    have := List.count_pos_iff.mpr hclosed
    have := hcount c
    omega

/-- A subscriber too slow for a batch is dropped; its unregistration and
control message, arriving late, change nothing; cancelling then closes the
other subscriber's queue, and a registration after that is refused. -/
theorem run_queuesClosedOnce_slowSubscriber :
    let ts : List Turn :=
      [⟨fun _ => false, .register 1⟩, ⟨fun _ => false, .register 2⟩,
       ⟨fun _ => false, .request 1 ⟨"subscribe", ["trades:BTC_USDT"]⟩⟩,
       ⟨fun c => c == 1, .publish "BTC_USDT" [⟨0, "BTC_USDT", 100, 1, 1, 2, "ann", "bob", "t0"⟩]⟩,
       ⟨fun _ => false, .unregister 1⟩, ⟨fun _ => false, .request 1 ⟨"subscribe", []⟩⟩,
       ⟨fun _ => false, .cancel⟩, ⟨fun _ => false, .register 3⟩]
    (∀ c, (ts.map (·.input)).count (.register c) ≤ 1) ∧
      (∀ c, (runCalls turn start ts).2.isClient c = true ↔
          registered (ts.map (·.input)) c ∧ Effect.close c ∉ (runCalls turn start ts).1.flatten) ∧
      (∀ c, (runCalls turn start ts).1.flatten.count (.close c) ≤ 1) ∧
      (∀ c e pre post, (runCalls turn start ts).1.flatten = pre ++ post → Effect.close c ∈ pre →
        Effect.deliver c e ∉ post) ∧
      (Input.cancel ∈ ts.map (·.input) → (runCalls turn start ts).2.running = false ∧
        ∀ c, registered (ts.map (·.input)) c → (runCalls turn start ts).1.flatten.count (.close c) = 1) := by
  intro ts
  have hfresh : ∀ c, (ts.map (·.input)).count (.register c) ≤ 1 := by
    intro c
    simp only [ts, List.map_cons, List.map_nil, List.count_cons, List.count_nil, beq_iff_eq,
      Input.register.injEq, reduceCtorEq, if_false, Nat.add_zero, Nat.zero_add]
    split_ifs <;> omega
  exact ⟨hfresh, run_queuesClosedOnce ts hfresh⟩

end Hub

end Exchange.Stream
