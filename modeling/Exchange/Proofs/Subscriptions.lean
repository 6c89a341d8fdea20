import Exchange.Proofs.HubQueues
/-!
# What a subscriber hears

The events the hub puts on one subscriber's queue follow from the inputs alone,
as long as no queue is ever full. `Stream.Watch` is that subscriber's side of
the run: whether the hub runs, whether the subscriber is on it, and the control
messages it sent since it joined. From it, `Watch.next` says what the
subscriber hears at each input:

* its own control message, while it is on the hub: the reply (`Request.reply`),
  `subscribed` or `unsubscribed` with the channels as sent, or
  `unknown op: <op>`;
* a published non-empty batch, while it is on the hub and listens to the
  batch's channel: the batch, once. What it listens to is the set its control
  messages leave (`listening`): each subscribe adds its channels, each
  unsubscribe takes its channels away, repeats and absent channels included.

Nothing else reaches the queue but the closes of `HubQueues`. The hub keeps
each subscriber's channels as a list inside its list of subscribers; `Agrees`
relates it to the watch of one subscriber, every turn keeps the relation and
hears the same (`step_agrees`), and so does every run (`run_agrees`).

Key definitions: `Stream.Request.reply`, `Stream.listening`, `Stream.Watch`,
`Stream.Watch.next`, `Stream.heardBy`, `Stream.Hub.Agrees`.
Key theorems: `Stream.Hub.step_agrees`, `Stream.Hub.run_deliversSubscribed`.
-/

namespace Exchange.Stream

/-! ### The subscriber's side -/

/-- The reply to a control message: a subscribe or an unsubscribe echoes its
channels, and any other op is unknown. -/
def Request.reply (r : Request) : Event :=
  if r.op = "subscribe" then .subscribed r.channels
  else if r.op = "unsubscribe" then .unsubscribed r.channels
  else .failed ("unknown op: " ++ r.op)

/-- The set of channels after one control message: a subscribe joins its
channels to it, an unsubscribe takes them out, and any other op leaves it. -/
def listenAfter (s : Finset String) (r : Request) : Finset String :=
  if r.op = "subscribe" then s ∪ r.channels.toFinset
  else if r.op = "unsubscribe" then s \ r.channels.toFinset
  else s

/-- The channels a subscriber listens to after its control messages, taken in
order from none. -/
def listening (rs : List Request) : Finset String := rs.foldl listenAfter ∅

@[simp] theorem listening_nil : listening [] = ∅ := rfl

@[simp] theorem listening_append_singleton (rs : List Request) (r : Request) :
    listening (rs ++ [r]) = listenAfter (listening rs) r := by
  simp [listening]

/-- One subscriber's side of a run: whether the hub runs, whether the
subscriber is on it, and the control messages it sent since it joined. -/
structure Watch where
  running : Bool
  joined : Bool
  sent : List Request

namespace Watch

/-- A running hub the subscriber has not joined. -/
def start : Watch := ⟨true, false, []⟩

/-- What subscriber `c` hears at one input of the hub, and its side after it.
A registration of `c` on a running hub starts it afresh, its unregistration
takes it off, and cancelling stops everything. -/
def next (c : Nat) (w : Watch) : Input → List Event × Watch
  | .register c' => if w.running ∧ c' = c then ([], ⟨true, true, []⟩) else ([], w)
  | .unregister c' => if c' = c then ([], { w with joined := false }) else ([], w)
  | .request c' r =>
    if w.joined ∧ c' = c then ([r.reply], { w with sent := w.sent ++ [r] }) else ([], w)
  | .publish market batch =>
    if w.joined ∧ batch ≠ [] ∧ tradesChannel market ∈ listening w.sent then
      ([.trades (tradesChannel market) batch], w)
    else ([], w)
  | .cancel => ([], ⟨false, false, []⟩)

end Watch

/-- What subscriber `c` hears over a run of inputs from a new hub. -/
def heard (c : Nat) (ins : List Input) : List Event :=
  (runCalls (Watch.next c) Watch.start ins).1.flatten

/- A channel subscribed twice is left by one unsubscribe. -/
example : heard 1 [.register 1, .request 1 ⟨"subscribe", ["trades:X", "trades:X"]⟩,
    .publish "X" [⟨0, "X", 5, 1, 1, 2, "a", "b", "t"⟩], .request 1 ⟨"unsubscribe", ["trades:X"]⟩,
    .publish "X" [⟨1, "X", 5, 1, 1, 2, "a", "b", "t"⟩], .request 1 ⟨"invalid", []⟩] =
    [.subscribed ["trades:X", "trades:X"], .trades "trades:X" [⟨0, "X", 5, 1, 1, 2, "a", "b", "t"⟩],
     .unsubscribed ["trades:X"], .failed "unknown op: invalid"] := by decide

/-! ### The events on a queue -/

/-- The event an effect puts on a queue, if it puts one. -/
def Effect.event? : Effect → Option Event
  | .deliver _ e => some e
  | .close _ => none

/-- The events put on subscriber `c`'s queue, in order. -/
def heardBy (c : Nat) (fx : List Effect) : List Event := (queueOf c fx).filterMap Effect.event?

@[simp] theorem heardBy_nil (c : Nat) : heardBy c [] = [] := rfl

@[simp] theorem heardBy_append (c : Nat) (fx fx' : List Effect) :
    heardBy c (fx ++ fx') = heardBy c fx ++ heardBy c fx' := by
  simp [heardBy]

theorem heardBy_deliver (c c' : Nat) (e : Event) :
    heardBy c [.deliver c' e] = if c' = c then [e] else [] := by
  by_cases hc : c' = c <;> simp [heardBy, queueOf, Effect.client, Effect.event?, hc]

theorem heardBy_closes (c : Nat) (cs : List Nat) : heardBy c (cs.map .close) = [] := by
  simp [heardBy, queueOf, List.filterMap_eq_nil_iff, Effect.event?]

/-- One event for each of distinct subscribers: a subscriber among them hears
it once, any other not at all. -/
theorem heardBy_deliveries (c : Nat) (e : Event) {cs : List Nat} (hcs : cs.Nodup) :
    heardBy c (cs.map fun c' => .deliver c' e) = if c ∈ cs then [e] else [] := by
  unfold heardBy
  rw [queueOf_map (f := fun c' => .deliver c' e) (fun _ => rfl) c hcs]
  split <;> rfl

/-! ### The hub's side -/

namespace Hub

/-- Whether the hub has subscriber `c` listening to channel `ch`. -/
def Listens (h : Hub) (c : Nat) (ch : String) : Prop := ∃ x ∈ h.clients, x.1 = c ∧ ch ∈ x.2

theorem mem_ids_of_listens {h : Hub} {c : Nat} {ch : String} (hl : h.Listens c ch) : c ∈ h.ids := by
  obtain ⟨x, hx, rfl, -⟩ := hl
  exact List.mem_map_of_mem hx

theorem listens_updateChannels (h : Hub) (c c' : Nat) (f : List String → List String) (ch : String) :
    (h.updateChannels c' f).Listens c ch ↔ ∃ x ∈ h.clients, x.1 = c ∧ ch ∈ (if c = c' then f x.2 else x.2) := by
  simp only [Listens, updateChannels, List.mem_map]
  constructor
  · rintro ⟨_, ⟨x, hx, rfl⟩, hxc, hch⟩
    by_cases hc : x.1 = c'
    · simp only [hc, beq_self_eq_true, ↓reduceIte] at hxc hch
      refine ⟨x, hx, hc.trans hxc, ?_⟩
      rw [if_pos hxc.symm]
      exact hch
    · simp only [beq_iff_eq, hc, ↓reduceIte] at hxc hch
      refine ⟨x, hx, hxc, ?_⟩
      rw [if_neg fun h => hc (hxc.trans h)]
      exact hch
  · rintro ⟨x, hx, rfl, hch⟩
    by_cases hc : x.1 = c' <;> exact ⟨_, ⟨x, hx, rfl⟩, by simp [hc], by simpa [hc] using hch⟩

theorem listens_filter (h : Hub) (c c' : Nat) (ch : String) :
    ({ h with clients := h.clients.filter fun x => x.1 != c' } : Hub).Listens c ch ↔
      h.Listens c ch ∧ c ≠ c' := by
  simp only [Listens, List.mem_filter, bne_iff_ne, ne_eq]
  constructor
  · rintro ⟨x, ⟨hx, hxc'⟩, rfl, hch⟩
    exact ⟨⟨x, hx, rfl, hch⟩, hxc'⟩
  · rintro ⟨⟨x, hx, rfl, hch⟩, hc⟩
    exact ⟨x, ⟨hx, hc⟩, rfl, hch⟩

theorem mem_addChannels (current add : List String) (ch : String) :
    ch ∈ addChannels current add ↔ ch ∈ current ∨ ch ∈ add := by
  unfold addChannels
  induction add generalizing current with
  | nil => simp
  | cons a add ih =>
    rw [List.foldl_cons, ih]
    by_cases ha : current.contains a
    · have : a ∈ current := by simpa using ha
      simp only [ha, ↓reduceIte, List.mem_cons]
      constructor
      · rintro (h | h)
        · exact .inl h
        · exact .inr (.inr h)
      · rintro (h | rfl | h)
        · exact .inl h
        · exact .inl this
        · exact .inr h
    · simp only [ha, Bool.false_eq_true, ↓reduceIte, List.mem_append, List.mem_cons]
      tauto

/-- The channels a control message leaves a subscriber with, one channel at a
time, as the set of `listening` does. -/
theorem mem_answer_channels (r : Request) (current : List String) (s : Finset String)
    (hs : ∀ ch, ch ∈ current ↔ ch ∈ s) (ch : String) :
    ch ∈ (if r.op = "subscribe" then addChannels current r.channels
      else if r.op = "unsubscribe" then current.filter (!r.channels.contains ·) else current) ↔
      ch ∈ listenAfter s r := by
  unfold listenAfter
  split
  · rw [mem_addChannels, hs, Finset.mem_union, List.mem_toFinset]
  · split
    · simp [hs]
    · exact hs ch

theorem answer_eq (h : Hub) (c : Nat) (r : Request) :
    h.answer c r = (r.reply, h.updateChannels c fun cur =>
      if r.op = "subscribe" then addChannels cur r.channels
      else if r.op = "unsubscribe" then cur.filter (!r.channels.contains ·) else cur) := by
  unfold answer Request.reply
  split
  · rename_i hop
    simp [hop]
  · rename_i hop
    simp [hop]
  · rename_i hsub hunsub
    have hs : ¬r.op = "subscribe" := hsub
    have hu : ¬r.op = "unsubscribe" := hunsub
    simp [hs, hu, updateChannels]

/-- How the hub stands to subscriber `c`'s side of the run: it is sound, runs
as the side says, has `c` exactly while the side says it joined, and has it on
exactly the channels its control messages leave. -/
structure Agrees (c : Nat) (h : Hub) (w : Watch) : Prop where
  sound : h.Sound
  running : h.running = w.running
  joined : c ∈ h.ids ↔ w.joined = true
  listens : ∀ ch, h.Listens c ch ↔ w.joined = true ∧ ch ∈ listening w.sent

theorem agrees_start (c : Nat) : Agrees c start Watch.start where
  sound := start_sound
  running := rfl
  joined := by simp [start, Watch.start, ids]
  listens ch := by simp [start, Watch.start, Listens]

/-- A subscriber off the hub, that the side says has not joined, agrees
whatever it sent before. -/
theorem agrees_absent {c : Nat} {h : Hub} {w : Watch} (hs : h.Sound) (hrun : h.running = w.running)
    (hc : c ∉ h.ids) (hw : w.joined = false) : Agrees c h w where
  sound := hs
  running := hrun
  joined := by simp [hc, hw]
  listens ch := by
    simp only [hw, Bool.false_eq_true, false_and, iff_false]
    exact fun hl => hc (mem_ids_of_listens hl)

section Turns

variable {c : Nat} {h : Hub} {w : Watch} {full : Nat → Bool}

theorem Agrees.joined_running (hag : Agrees c h w) (hj : w.joined = true) : w.running = true := by
  rw [← hag.running]
  by_contra hr
  have hnone : h.clients = [] := hag.sound.stopped (Bool.eq_false_iff.mpr hr)
  have := hag.joined.mpr hj
  simp [ids, hnone] at this

theorem step_agrees_stopped (hag : Agrees c h w) (hrun : h.running = false) (i : Input) :
    heardBy c (h.step full i).1 = (w.next c i).1 ∧ Agrees c (h.step full i).2 (w.next c i).2 := by
  rw [step_stopped h full i hrun]
  have hw : w.running = false := hag.running ▸ hrun
  have hj : w.joined = false := Bool.eq_false_iff.mpr fun hj => by
    simp [hag.joined_running hj] at hw
  have hc : c ∉ h.ids := fun hc => by simp [(hag.joined.mp hc)] at hj
  cases i with
  | register c' =>
    simp only [Watch.next, hw, Bool.false_eq_true, false_and, ↓reduceIte]
    exact ⟨rfl, hag⟩
  | unregister c' =>
    by_cases hc' : c' = c
    · simp only [Watch.next, hc', ↓reduceIte]
      exact ⟨rfl, agrees_absent hag.sound hag.running hc rfl⟩
    · simp only [Watch.next, hc', ↓reduceIte]
      exact ⟨rfl, hag⟩
  | request c' r =>
    simp only [Watch.next, hj, Bool.false_eq_true, false_and, ↓reduceIte]
    exact ⟨rfl, hag⟩
  | publish market batch =>
    simp only [Watch.next, hj, Bool.false_eq_true, false_and, ↓reduceIte]
    exact ⟨rfl, hag⟩
  | cancel =>
    exact ⟨rfl, agrees_absent hag.sound (hrun.trans rfl) hc rfl⟩

theorem step_agrees_register (hag : Agrees c h w) (hrun : h.running = true) (c' : Nat) :
    heardBy c (h.step full (.register c')).1 = (w.next c (.register c')).1 ∧
      Agrees c (h.step full (.register c')).2 (w.next c (.register c')).2 := by
  have heq : h.step full (.register c') =
      ([], { h with clients := h.clients.filter (fun x => x.1 != c') ++ [(c', [])] }) := by
    simp [step, hrun]
  have hw : w.running = true := hag.running ▸ hrun
  obtain ⟨-, hsound⟩ := register_spec hag.sound hrun c'
  rw [heq]
  by_cases hc' : c' = c
  · subst hc'
    simp only [Watch.next, hw, and_self, ↓reduceIte]
    refine ⟨rfl, hsound, hrun, by simp [ids], fun ch => ?_⟩
    simp only [Listens, List.mem_append, List.mem_filter, bne_iff_ne, ne_eq, List.mem_singleton,
      listening_nil, Finset.notMem_empty, and_false, iff_false, not_exists, not_and]
    rintro x (⟨-, hx⟩ | rfl) hxc
    · exact absurd hxc hx
    · simp
  · simp only [Watch.next, hc', and_false, ↓reduceIte]
    refine ⟨rfl, hsound, hrun.trans hw.symm, ?_, fun ch => ?_⟩
    · rw [← hag.joined]
      simp [ids, Ne.symm hc']
    · rw [← hag.listens]
      simp only [Listens, List.mem_append, List.mem_filter, bne_iff_ne, ne_eq, List.mem_singleton]
      constructor
      · rintro ⟨x, (⟨hx, -⟩ | rfl), hxc, hch⟩
        · exact ⟨x, hx, hxc, hch⟩
        · exact absurd hxc hc'
      · rintro ⟨x, hx, rfl, hch⟩
        exact ⟨x, .inl ⟨hx, fun h' => hc' h'.symm⟩, rfl, hch⟩

/-- An unregistration takes only its own subscriber off, with all its
channels; one that is not on the hub changes nothing. -/
theorem step_agrees_unregister (hag : Agrees c h w) (hrun : h.running = true) (c' : Nat) :
    heardBy c (h.step full (.unregister c')).1 = (w.next c (.unregister c')).1 ∧
      Agrees c (h.step full (.unregister c')).2 (w.next c (.unregister c')).2 := by
  by_cases hon : c' ∈ h.ids
  · have heq : h.step full (.unregister c') =
        ([.close c'], { h with clients := h.clients.filter fun x => x.1 != c' }) := by
      simp [step, hrun, isClient_iff.mpr hon, drop]
    obtain ⟨-, hsound⟩ := drop_spec hag.sound hon (.unregister c') (by simp) (by simp)
    have hids := ids_filter h (· != c')
    rw [heq]
    have hheard : heardBy c [.close c'] = [] := heardBy_closes c [c']
    by_cases hc' : c' = c
    · subst hc'
      simp only [Watch.next, ↓reduceIte]
      refine ⟨hheard, agrees_absent hsound hag.running ?_ rfl⟩
      rw [hids]
      simp
    · simp only [Watch.next, hc', ↓reduceIte]
      refine ⟨hheard, hsound, hag.running, ?_, fun ch => ?_⟩
      · rw [hids, ← hag.joined]
        simp [Ne.symm hc']
      · rw [listens_filter, ← hag.listens]
        exact and_iff_left (Ne.symm hc')
  · have heq : h.step full (.unregister c') = ([], h) := by
      simp [step, hrun, mt isClient_iff.mp hon]
    rw [heq]
    by_cases hc' : c' = c
    · subst hc'
      simp only [Watch.next, ↓reduceIte]
      exact ⟨rfl, agrees_absent hag.sound hag.running hon rfl⟩
    · simp only [Watch.next, hc', ↓reduceIte]
      exact ⟨rfl, hag⟩

/-- The channels the hub keeps for a subscriber are the set its control
messages left: the subscriber is on the hub once. -/
theorem Agrees.mem_channels (hag : Agrees c h w) {x : Nat × List String} (hx : x ∈ h.clients)
    (hxc : x.1 = c) (ch : String) : ch ∈ x.2 ↔ ch ∈ listening w.sent := by
  constructor
  · intro hch
    exact ((hag.listens ch).mp ⟨x, hx, hxc, hch⟩).2
  · intro hch
    have hj : w.joined = true := hag.joined.mp (hxc ▸ List.mem_map_of_mem hx)
    obtain ⟨y, hy, hyc, hych⟩ := (hag.listens ch).mpr ⟨hj, hch⟩
    have hxy : y = x := List.inj_on_of_nodup_map hag.sound.nodup hy hx (hyc.trans hxc.symm)
    exact hxy ▸ hych

/-- A control message of a subscriber on the hub is answered with its reply,
and its channels become the set the message leaves; the message of a number
not on the hub is dropped. -/
theorem step_agrees_request (hfree : ∀ c, full c = false) (hag : Agrees c h w)
    (hrun : h.running = true) (c' : Nat) (r : Request) :
    heardBy c (h.step full (.request c' r)).1 = (w.next c (.request c' r)).1 ∧
      Agrees c (h.step full (.request c' r)).2 (w.next c (.request c' r)).2 := by
  by_cases hon : c' ∈ h.ids
  · obtain ⟨h₁, hanswer⟩ : ∃ h₁, h.answer c' r = (r.reply, h₁) := ⟨_, answer_eq h c' r⟩
    have hids₁ : h₁.ids = h.ids := by rw [← answer_ids h c' r, hanswer]
    have hrun₁ : h₁.running = h.running := by rw [← answer_running h c' r, hanswer]
    have heq : h.step full (.request c' r) = ([.deliver c' r.reply], h₁) := by
      simp [step, hrun, isClient_iff.mpr hon, hanswer, deliver_eq, hfree]
    have hsound : h₁.Sound := ⟨hids₁ ▸ hag.sound.nodup, fun hr => by rw [hrun₁, hrun] at hr; cases hr⟩
    have hlistens : ∀ ch, h₁.Listens c ch ↔
        ∃ x ∈ h.clients, x.1 = c ∧ ch ∈ (if c = c' then
          (if r.op = "subscribe" then addChannels x.2 r.channels
            else if r.op = "unsubscribe" then x.2.filter (!r.channels.contains ·) else x.2)
          else x.2) := by
      intro ch
      rw [(Prod.mk.inj (hanswer.symm.trans (answer_eq h c' r))).2]
      exact listens_updateChannels h c c' _ ch
    rw [heq, heardBy_deliver]
    by_cases hc' : c' = c
    · subst hc'
      have hj : w.joined = true := hag.joined.mp hon
      have hnext : w.next c' (.request c' r) = ([r.reply], { w with sent := w.sent ++ [r] }) := by
        simp [Watch.next, hj]
      rw [hnext, if_pos rfl]
      refine ⟨rfl, hsound, hrun₁.trans hag.running, by rw [hids₁]; exact hag.joined, fun ch => ?_⟩
      rw [hlistens, listening_append_singleton]
      simp only [↓reduceIte]
      constructor
      · rintro ⟨x, hx, hxc, hch⟩
        exact ⟨hj, (mem_answer_channels r x.2 _ (hag.mem_channels hx hxc) ch).mp hch⟩
      · rintro ⟨-, hch⟩
        obtain ⟨x, hx, hxc⟩ := List.mem_map.mp hon
        exact ⟨x, hx, hxc, (mem_answer_channels r x.2 _ (hag.mem_channels hx hxc) ch).mpr hch⟩
    · have hnext : w.next c (.request c' r) = ([], w) := by simp [Watch.next, hc']
      rw [hnext, if_neg hc']
      refine ⟨rfl, hsound, hrun₁.trans hag.running, by rw [hids₁]; exact hag.joined, fun ch => ?_⟩
      rw [hlistens, ← hag.listens]
      simp [Listens, Ne.symm hc']
  · have heq : h.step full (.request c' r) = ([], h) := by
      simp [step, hrun, mt isClient_iff.mp hon]
    rw [heq]
    have hoff : ¬(w.joined = true ∧ c' = c) := by
      rintro ⟨hj, rfl⟩
      exact hon (hag.joined.mpr hj)
    simp only [Watch.next, hoff, ↓reduceIte]
    exact ⟨rfl, hag⟩

theorem step_agrees_publish (hfree : ∀ c, full c = false) (hag : Agrees c h w)
    (hrun : h.running = true) (market : String) (batch : List Trade) :
    heardBy c (h.step full (.publish market batch)).1 = (w.next c (.publish market batch)).1 ∧
      Agrees c (h.step full (.publish market batch)).2 (w.next c (.publish market batch)).2 := by
  by_cases hb : batch = []
  · subst hb
    have heq : h.step full (.publish market []) = ([], h) := by simp [step, hrun]
    rw [heq]
    simp only [Watch.next, ne_eq, not_true_eq_false, false_and, and_false, ↓reduceIte]
    exact ⟨rfl, hag⟩
  · let ch := tradesChannel market
    let cs := (h.clients.filter (·.2.contains ch)).map (·.1)
    have heq : h.step full (.publish market batch) = deliverAll full (.trades ch batch) cs h := by
      simp [step, hrun, hb, ch, cs]
    have hnodup : cs.Nodup := hag.sound.nodup.sublist (List.filter_sublist.map _)
    have hmem : c ∈ cs ↔ h.Listens c ch := by
      simp only [cs, Listens, List.mem_map, List.mem_filter, List.contains_iff_mem]
      constructor
      · rintro ⟨x, ⟨hx, hch⟩, rfl⟩
        exact ⟨x, hx, rfl, hch⟩
      · rintro ⟨x, hx, rfl, hch⟩
        exact ⟨x, ⟨hx, hch⟩, rfl⟩
    have hfx : (deliverAll full (.trades ch batch) cs h).1 = cs.map fun c' => .deliver c' (.trades ch batch) := by
      rw [deliverAll_effects]
      simp [hfree]
    have hhub : (deliverAll full (.trades ch batch) cs h).2 = h := by
      rw [deliverAll_hub]
      simp [hfree]
    rw [heq, hfx, hhub, heardBy_deliveries c _ hnodup]
    by_cases hl : h.Listens c ch
    · have hnext : w.next c (.publish market batch) = ([.trades ch batch], w) := by
        simp [Watch.next, hb, (hag.listens ch).mp hl, ch]
      rw [hnext, if_pos (hmem.mpr hl)]
      exact ⟨rfl, hag⟩
    · have hnext : w.next c (.publish market batch) = ([], w) := by
        have hw : ¬(w.joined = true ∧ batch ≠ [] ∧ tradesChannel market ∈ listening w.sent) := by
          rintro ⟨hj, -, hch⟩
          exact hl ((hag.listens ch).mpr ⟨hj, hch⟩)
        simp only [Watch.next, hw, ↓reduceIte]
      rw [hnext, if_neg (mt hmem.mp hl)]
      exact ⟨rfl, hag⟩

theorem step_agrees_cancel (hrun : h.running = true) :
    heardBy c (h.step full .cancel).1 = (w.next c .cancel).1 ∧
      Agrees c (h.step full .cancel).2 (w.next c .cancel).2 := by
  have hcloses : h.clients.map (fun x => Effect.close x.1) = h.ids.map .close := by simp [ids]
  rw [step_cancel h full hrun, hcloses]
  exact ⟨heardBy_closes c _, agrees_absent ⟨List.nodup_nil, fun _ => rfl⟩ rfl (by simp [ids]) rfl⟩

/-- **One turn.** With no queue full, every input puts on subscriber `c`'s
queue what its side of the run hears, and keeps the two agreeing. -/
theorem step_agrees (hfree : ∀ c, full c = false) (hag : Agrees c h w) (i : Input) :
    heardBy c (h.step full i).1 = (w.next c i).1 ∧ Agrees c (h.step full i).2 (w.next c i).2 := by
  cases hrun : h.running with
  | false => exact step_agrees_stopped hag hrun i
  | true =>
    cases i with
    | register c' => exact step_agrees_register hag hrun c'
    | unregister c' => exact step_agrees_unregister hag hrun c'
    | request c' r => exact step_agrees_request hfree hag hrun c' r
    | publish market batch => exact step_agrees_publish hfree hag hrun market batch
    | cancel => exact step_agrees_cancel hrun

end Turns

/-- Runs with no queue full keep the hub and subscriber `c`'s side agreeing,
and put on `c`'s queue what the side hears. -/
theorem run_agrees (c : Nat) :
    ∀ (ts : List Turn) (h : Hub) (w : Watch), (∀ t ∈ ts, ∀ c, t.full c = false) → Agrees c h w →
      heardBy c (runCalls turn h ts).1.flatten = (runCalls (Watch.next c) w (ts.map (·.input))).1.flatten ∧
        Agrees c (runCalls turn h ts).2 (runCalls (Watch.next c) w (ts.map (·.input))).2
  | [], _, _, _, hag => ⟨rfl, hag⟩
  | t :: ts, h, w, hfree, hag => by
    obtain ⟨hstep, hag'⟩ := step_agrees (hfree t List.mem_cons_self) hag t.input
    obtain ⟨hrest, hfinal⟩ :=
      run_agrees c ts _ _ (fun t' ht' => hfree t' (List.mem_cons_of_mem t ht')) hag'
    refine ⟨?_, hfinal⟩
    simp only [runCalls_cons, List.flatten_cons, heardBy_append, List.map_cons, turn]
    rw [hstep, hrest]

/-- **The hub delivers exactly the subscribed trades and one answer per
request.** Over every run from a new hub in which no queue is ever full, the
events on each subscriber's queue are, in order, those its side of the run
hears: the reply to each of its control messages taken while it is on the
hub, and each non-empty batch published while it is on the hub and listens to
the batch's channel, the set its control messages leave. A message that could
not be read is the op `invalid`, and its reply is an unknown op. -/
theorem run_deliversSubscribed (ts : List Turn) (hfree : ∀ t ∈ ts, ∀ c, t.full c = false) :
    (∀ c, heardBy c (runCalls turn start ts).1.flatten = heard c (ts.map (·.input))) ∧
      ∀ message e, Json.readText "Request" "stream.Request" RequestForm.fields false ⟨"", .empty⟩ message =
        .error e → (Request.read message).reply = .failed "unknown op: invalid" := by
  refine ⟨fun c => (run_agrees c ts start Watch.start hfree (agrees_start c)).1, fun message e hbad => ?_⟩
  simp [Request.read, hbad, Request.reply]

/-- Two subscribers: the first subscribes to a market twice over, unsubscribes
from a channel it never had and hears the market's batches until it leaves;
the second sends an unreadable message and hears only its answer. -/
theorem run_deliversSubscribed_twoSubscribers :
    let trade : Trade := ⟨0, "BTC_USDT", 100, 1, 1, 2, "ann", "bob", "t0"⟩
    let ts : List Turn := ([.register 1, .register 2,
      .request 1 ⟨"subscribe", ["trades:BTC_USDT", "trades:BTC_USDT"]⟩, .publish "BTC_USDT" [trade],
      .request 1 ⟨"unsubscribe", ["trades:ETH_USDT"]⟩, .request 2 ⟨"invalid", []⟩,
      .publish "ETH_USDT" [trade], .unregister 1, .publish "BTC_USDT" [trade]] : List Input).map
        fun i => ⟨fun _ => false, i⟩
    (∀ t ∈ ts, ∀ c, t.full c = false) ∧
      (∀ c, heardBy c (runCalls turn start ts).1.flatten = heard c (ts.map (·.input))) ∧
      ∀ message e, Json.readText "Request" "stream.Request" RequestForm.fields false ⟨"", .empty⟩ message =
        .error e → (Request.read message).reply = .failed "unknown op: invalid" := by
  intro trade ts
  have hfree : ∀ t ∈ ts, ∀ c, t.full c = false := by simp [ts]
  exact ⟨hfree, run_deliversSubscribed ts hfree⟩

end Hub

end Exchange.Stream
