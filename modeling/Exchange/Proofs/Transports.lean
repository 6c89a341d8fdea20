import Exchange.Proofs.Except
import Exchange.Proofs.JsonDocuments
import Exchange.Proofs.Consumer
import Exchange.Proofs.Conservation
import Exchange.Http.Serve
/-!
# The two transports agree

A placement reaches the engine two ways: as an HTTP request `POST` to the
order route of a market, whose body holds the base asset and the order, and
as a queue message that names the market too. The HTTP body is read strictly
and the order is checked by the engine; the message is read loosely and its
order is checked while it is decoded. Over every order object whose keys are
the order's own fields, the two readings take the same order, or both refuse
(`Json.readMembers_agree`): a key that names a field is read the same way
whether unknown keys are refused or skipped, and wherever the reading stands.

So behind every router, for every market name a target routes to, a placement
is admitted over HTTP exactly when its message decodes and dispatches, with the same order and
trades; both leave the same service; and a refused placement leaves every
book and every amount as it was (`Service.placement_agrees`). A credit agrees
the same way (`Service.credit_agrees`). What agreeing means is
`Service.Agreement`; both are assembled from one case analysis per kind of
request: both transports refuse before the engine, or the HTTP request
dispatches the message's command under its own id (`Service.Relabels`).

Over the service's routes (`Http.Router.ofRoutes`) the order route takes a
market as one segment of the path, so a market whose name holds a slash is
reached by no request, though its messages are admitted
(`Service.placement_slashedMarket_unreachable`).

Key definitions: `Json.PlaceFree`, `Json.Fit.Agree`, `Engine.Unmoved`,
`Service.Relabels`, `Service.Agreement`.
Key theorems: `Json.readMembers_agree`, `Service.placement_agrees`,
`Service.credit_agrees`, `Service.transports_agree`.
-/

namespace Exchange

namespace Json

/-! ### Reading a record wherever it stands -/

/-- A slot whose reading, and whether it fails, do not depend on the place it
reads at: the place only names where a mismatch is. -/
def PlaceFree {α : Type} (slot : Slot α) : Prop :=
  ∀ v p p' cur, (slot v p cur).value = (slot v p' cur).value ∧
    ((slot v p cur).error = none ↔ (slot v p' cur).error = none)

theorem placeFree_textSlot (target : String) : PlaceFree (textSlot target) := by
  intro v p p' cur
  cases v <;> simp [textSlot]

theorem placeFree_wordSlot : PlaceFree wordSlot := by
  intro v p p' cur
  cases v <;> simp [wordSlot]
  split <;> simp

theorem placeFree_optionSlot {α : Type} (empty : α) {slot : Slot α} (h : PlaceFree slot) :
    PlaceFree (optionSlot empty slot) := by
  intro v p p' cur
  cases v <;> simp [optionSlot, (h _ p p' _).1, (h _ p p' _).2]

theorem placeFree_on {α β : Type} (name : String) {slot : Slot β} (h : PlaceFree slot)
    (get : α → β) (set : α → β → α) : PlaceFree (RecordField.on name slot get set).slot := by
  intro v p p' cur
  simp only [RecordField.on]
  exact ⟨by rw [(h v p p' (get cur)).1], (h v p p' (get cur)).2⟩

/-- Two readings that hold the same value and fail alike. -/
def Fit.Agree {α : Type} (a b : Fit α) : Prop := a.value = b.value ∧ (a.error = none ↔ b.error = none)

theorem firstError_eq_none (a b : Option FitError) : firstError a b = none ↔ a = none ∧ b = none := by
  cases a <;> simp [firstError]

theorem mem_of_fieldFor? {α : Type} {fields : List (RecordField α)} {key : String} {f : RecordField α}
    (h : fieldFor? fields key = some f) : f ∈ fields := by
  unfold fieldFor? at h
  split at h
  · next f' hfind =>
    cases h
    exact List.mem_of_find?_eq_some hfind
  · exact List.mem_of_find?_eq_some h

/-- **Reading members wherever they stand.** Members whose keys all name
fields of place-free slots are read to the same record, failing alike,
whether unknown keys are refused or skipped, under any record name and at any
place. -/
theorem readMembers_agree {α : Type} {fields : List (RecordField α)} (hfields : ∀ f ∈ fields, PlaceFree f.slot)
    (record record' : String) (strict strict' : Bool) (p p' : Place) :
    ∀ (ms : List (String × Value)), (∀ m ∈ ms, (fieldFor? fields m.1).isSome) →
      ∀ (acc acc' : Fit α), Fit.Agree acc acc' →
        Fit.Agree (readMembers record fields strict p ms acc) (readMembers record' fields strict' p' ms acc')
  | [], _, _, _, h => h
  | (k, v) :: ms, hkeys, acc, acc', ⟨hval, herr⟩ => by
    obtain ⟨f, hf⟩ := Option.isSome_iff_exists.mp (hkeys (k, v) List.mem_cons_self)
    obtain ⟨hv, he⟩ := hfields f (mem_of_fieldFor? hf) v (p.child record k) (p'.child record' k) acc'.value
    simp only [readMembers, hf]
    apply readMembers_agree hfields record record' strict strict' p p' ms
      fun m hm => hkeys m (List.mem_cons_of_mem _ hm)
    refine ⟨by rw [hval]; exact hv, ?_⟩
    rw [firstError_eq_none, firstError_eq_none, herr, hval, he]

theorem firstError_none (b : Option FitError) : firstError none b = b := rfl

/-! ### Reading rendered documents -/

theorem readText_render_obj {α : Type} (record target : String) (fields : List (RecordField α))
    (strict : Bool) (init : α) {ms : List (String × Value)} (hms : ∀ m ∈ ms, WellFormed m.2) :
    readText record target fields strict init (Value.obj ms).render =
      if (Value.obj ms).depth ≤ maxDepth then
        match (readMembers record fields strict .whole ms ⟨init, none⟩).error with
        | some e => .error (.fit e)
        | none => .ok (readMembers record fields strict .whole ms ⟨init, none⟩).value
      else .error (.unreadable .tooDeep) := by
  unfold readText
  rw [parse_render_obj hms]
  by_cases hfits : (Value.obj ms).depth ≤ maxDepth
  · rw [if_pos hfits, if_pos hfits]
    rfl
  · rw [if_neg hfits, if_neg hfits]

end Json

namespace Http

open Json

/-- A rendered object read as a request body: read strictly member by member,
or refused as too deep. Nothing follows the object, so no trailing text is
refused. -/
theorem readBody_render_obj {α : Type} (record target : String) (fields : List (RecordField α))
    (init : α) {ms : List (String × Value)} (hms : ∀ m ∈ ms, WellFormed m.2) :
    readBody record target fields init (Value.obj ms).render =
      if (Value.obj ms).depth ≤ maxDepth then
        match (readMembers record fields true .whole ms ⟨init, none⟩).error with
        | some e => .error (.fit e)
        | none => .ok (readMembers record fields true .whole ms ⟨init, none⟩).value
      else .error (.unreadable (.invalid .tooDeep)) := by
  unfold readBody
  rw [readFront_render_obj hms]
  by_cases hfits : (Value.obj ms).depth ≤ maxDepth
  · rw [if_pos hfits, if_pos hfits]
    rfl
  · rw [if_neg hfits, if_neg hfits]

end Http

/-! ### Orders read by either transport -/

open Json

theorem OrderForm.fields_placeFree : ∀ f ∈ OrderForm.fields, PlaceFree f.slot := by
  have hword : PlaceFree optionalWord := placeFree_optionSlot 0 placeFree_wordSlot
  have htext : PlaceFree optionalText := placeFree_optionSlot "" (placeFree_textSlot "string")
  simp only [OrderForm.fields, List.mem_cons, List.not_mem_nil, or_false]
  rintro f (rfl | rfl | rfl | rfl | rfl | rfl)
  · exact placeFree_on _ hword _ _
  · exact placeFree_on _ htext _ _
  · exact placeFree_on _ (placeFree_textSlot _) _ _
  · exact placeFree_on _ hword _ _
  · exact placeFree_on _ hword _ _
  · exact placeFree_on _ placeFree_wordSlot _ _

theorem OrderForm.fieldFor?_isSome {k : String}
    (hk : k ∈ ["id", "user_id", "side", "price", "quantity", "filled"]) :
    (fieldFor? OrderForm.fields k).isSome := by
  simp only [List.mem_cons, List.not_mem_nil, or_false] at hk
  rcases hk with rfl | rfl | rfl | rfl | rfl | rfl <;> rfl

/-- An order object whose keys are the order's own fields is read to the same
form, failing alike, strictly or not and wherever it stands. -/
theorem OrderForm.read_agree {w : List (String × Value)}
    (hkeys : ∀ x ∈ w, x.1 ∈ ["id", "user_id", "side", "price", "quantity", "filled"])
    (strict strict' : Bool) (p p' : Place) :
    Fit.Agree (readMembers "WireOrder" OrderForm.fields strict p w ⟨OrderForm.empty, none⟩)
      (readMembers "WireOrder" OrderForm.fields strict' p' w ⟨OrderForm.empty, none⟩) :=
  readMembers_agree OrderForm.fields_placeFree _ _ strict strict' p p' w
    (fun x hx => OrderForm.fieldFor?_isSome (hkeys x hx)) _ _ ⟨rfl, Iff.rfl⟩

/-! ### Placements as either transport reads them -/

namespace Http

theorem PlaceForm.read_placement (b : String) {w : List (String × Value)} (hw : ∀ m ∈ w, WellFormed m.2) :
    PlaceForm.read (Value.obj [("base_asset", .str b), ("order", .obj w)]).render =
      if (Value.obj w).depth + 1 ≤ maxDepth then
        match (readMembers "WireOrder" OrderForm.fields true (.field "placeOrderRequest" ["order"]) w
            ⟨OrderForm.empty, none⟩).error with
        | some e => .error (.fit e)
        | none => .ok ⟨"", b, some (readMembers "WireOrder" OrderForm.fields true
            (.field "placeOrderRequest" ["order"]) w ⟨OrderForm.empty, none⟩).value⟩
      else .error (.unreadable (.invalid .tooDeep)) := by
  have hms : ∀ m ∈ [("base_asset", Value.str b), ("order", .obj w)], WellFormed m.2 := by
    simp only [List.mem_cons, List.not_mem_nil, or_false, forall_eq_or_imp, forall_eq]
    exact ⟨.str b, .obj w hw⟩
  have hdepth : (Value.obj [("base_asset", .str b), ("order", .obj w)]).depth = (Value.obj w).depth + 1 := by
    simp [Value.depth, Value.depthMembers]
  unfold PlaceForm.read
  rw [readBody_render_obj _ _ _ _ hms, hdepth]
  simp [readMembers, fieldFor?, PlaceForm.fields, RecordField.on, textSlot, firstError, Place.child,
    OrderForm.slot, optionSlot, recordSlot]

end Http

theorem Command.decode_placement (m b : String) {w : List (String × Value)} (hw : ∀ x ∈ w, WellFormed x.2) :
    Command.decode (Value.obj [("type", .str "PLACE_ORDER"), ("market", .str m), ("base_asset", .str b),
        ("order", .obj w)]).render =
      if (Value.obj w).depth + 1 ≤ maxDepth then
        match (readMembers "WireOrder" OrderForm.fields false (.field "envelope" ["order"]) w
            ⟨OrderForm.empty, none⟩).error with
        | some e => .error (.malformed (.fit e))
        | none => Envelope.toCommand ⟨"PLACE_ORDER", "", some m, some b, some (readMembers "WireOrder"
            OrderForm.fields false (.field "envelope" ["order"]) w ⟨OrderForm.empty, none⟩).value,
            none, none, none, none⟩
      else .error (.malformed (.unreadable .tooDeep)) := by
  have hms : ∀ x ∈ [("type", Value.str "PLACE_ORDER"), ("market", .str m), ("base_asset", .str b),
      ("order", .obj w)], WellFormed x.2 := by
    simp only [List.mem_cons, List.not_mem_nil, or_false, forall_eq_or_imp, forall_eq]
    exact ⟨.str _, .str m, .str b, .obj w hw⟩
  have hdepth : (Value.obj [("type", Value.str "PLACE_ORDER"), ("market", .str m), ("base_asset", .str b),
      ("order", .obj w)]).depth = (Value.obj w).depth + 1 := by
    simp [Value.depth, Value.depthMembers]
  unfold Command.decode
  rw [readText_render_obj _ _ _ _ _ hms, hdepth]
  by_cases hfits : (Value.obj w).depth + 1 ≤ maxDepth
  · cases hq : (readMembers "WireOrder" OrderForm.fields false (.field "envelope" ["order"]) w
        ⟨OrderForm.empty, none⟩).error <;>
      simp [hfits, hq, readMembers, fieldFor?, Envelope.fields, RecordField.on, textSlot, firstError,
        Place.child, OrderForm.slot, optionSlot, recordSlot, optionalText, Envelope.empty]
  · simp [hfits]

theorem Envelope.toCommand_placement {m : String} (b : String) (form : OrderForm) (hm : m ≠ "") :
    Envelope.toCommand ⟨"PLACE_ORDER", "", some m, some b, some form, none, none, none, none⟩ =
      if b = "" then .error (.missing .placeOrder "base_asset")
      else match form.toOrder with
        | .error e => .error e
        | .ok o =>
          match o.validate with
          | some v => .error (.invalid .placeOrder "order" v)
          | none => .ok (.placeOrder "" m b o) := by
  by_cases hb : b = ""
  · simp [Envelope.toCommand, Kind.ofTag?, required, hm, hb, bind, Except.bind]
  cases ho : form.toOrder with
  | error e => simp [Envelope.toCommand, Kind.ofTag?, required, present, hm, hb, ho, bind, Except.bind]
  | ok o =>
    cases hv : o.validate <;>
      simp [Envelope.toCommand, Kind.ofTag?, required, present, hm, hb, ho, hv, bind, Except.bind]

/-! ### Credits as either transport reads them -/

namespace Http

theorem CreditForm.read_credit {u a n : Value} (hu : WellFormed u) (ha : WellFormed a) (hn : WellFormed n) :
    CreditForm.read (Value.obj [("user_id", u), ("asset", a), ("amount", n)]).render =
      if (Value.obj [("user_id", u), ("asset", a), ("amount", n)]).depth ≤ maxDepth then
        match firstError (firstError (textSlot "string" u (.field "creditRequest" ["user_id"]) "").error
            (textSlot "string" a (.field "creditRequest" ["asset"]) "").error)
            (optionalWord n (.field "creditRequest" ["amount"]) none).error with
        | some e => .error (.fit e)
        | none => .ok ⟨(textSlot "string" u (.field "creditRequest" ["user_id"]) "").value,
            (textSlot "string" a (.field "creditRequest" ["asset"]) "").value,
            (optionalWord n (.field "creditRequest" ["amount"]) none).value⟩
      else .error (.unreadable (.invalid .tooDeep)) := by
  have hms : ∀ m ∈ [("user_id", u), ("asset", a), ("amount", n)], WellFormed m.2 := by
    simp only [List.mem_cons, List.not_mem_nil, or_false, forall_eq_or_imp, forall_eq]
    exact ⟨hu, ha, hn⟩
  unfold CreditForm.read
  rw [readBody_render_obj _ _ _ _ hms]
  simp [readMembers, fieldFor?, CreditForm.fields, RecordField.on, Place.child, firstError_none]

end Http

theorem Command.decode_credit {u a n : Value} (hu : WellFormed u) (ha : WellFormed a) (hn : WellFormed n) :
    Command.decode (Value.obj [("type", .str "ADD_BALANCE"), ("userId", u), ("asset", a), ("amount", n)]).render =
      if (Value.obj [("type", .str "ADD_BALANCE"), ("userId", u), ("asset", a), ("amount", n)]).depth ≤ maxDepth then
        match firstError (firstError (optionalText u (.field "envelope" ["userId"]) none).error
            (optionalText a (.field "envelope" ["asset"]) none).error)
            (optionalWord n (.field "envelope" ["amount"]) none).error with
        | some e => .error (.malformed (.fit e))
        | none => Envelope.toCommand ⟨"ADD_BALANCE", "", none, none, none, none,
            (optionalText u (.field "envelope" ["userId"]) none).value,
            (optionalText a (.field "envelope" ["asset"]) none).value,
            (optionalWord n (.field "envelope" ["amount"]) none).value⟩
      else .error (.malformed (.unreadable .tooDeep)) := by
  have hms : ∀ x ∈ [("type", Value.str "ADD_BALANCE"), ("userId", u), ("asset", a), ("amount", n)],
      WellFormed x.2 := by
    simp only [List.mem_cons, List.not_mem_nil, or_false, forall_eq_or_imp, forall_eq]
    exact ⟨.str _, hu, ha, hn⟩
  unfold Command.decode
  rw [readText_render_obj _ _ _ _ _ hms]
  by_cases hfits : (Value.obj [("type", Value.str "ADD_BALANCE"), ("userId", u), ("asset", a),
      ("amount", n)]).depth ≤ maxDepth
  · cases herr : firstError (firstError (optionalText u (.field "envelope" ["userId"]) none).error
        (optionalText a (.field "envelope" ["asset"]) none).error)
        (optionalWord n (.field "envelope" ["amount"]) none).error <;>
      simp [hfits, herr, readMembers, fieldFor?, Envelope.fields, RecordField.on, Place.child, firstError_none,
        textSlot, Envelope.empty]
  · simp [hfits]

/-- A text read as a field the body must give and as one the message may
leave out: the two fail alike, and the message's is required exactly when the
body's is not empty. -/
theorem required_optionalText (v : Value) (p p' : Place) (k : Kind) (field : String) :
    ((textSlot "string" v p "").error = none ↔ (optionalText v p' none).error = none) ∧
      required k field (optionalText v p' none).value =
        if (textSlot "string" v p "").value = "" then .error (.missing k field)
        else .ok (textSlot "string" v p "").value := by
  cases v <;> simp [textSlot, optionalText, optionSlot, required]
  rfl

/-! ### Answers -/

namespace Http

@[simp] theorem Response.invalid_status (message : String) : (Response.invalid message).status = 400 := rfl

@[simp] theorem Response.ofDecodeError_status (e : DecodeError) : (Response.ofDecodeError e).status = 400 :=
  rfl

theorem Response.ofEngineError_status (e : EngineError) : 400 ≤ (Response.ofEngineError e).status := by
  cases e <;> simp [Response.ofEngineError, Response.problem, Response.json]

end Http

namespace Engine

/-- Two engines with the same books and the same amounts: the second moved
nothing of the first, though it may hold records the first has not written. -/
def Unmoved (e e' : Engine) : Prop :=
  e'.books = e.books ∧
    ∀ user asset, e'.available user asset = e.available user asset ∧ e'.locked user asset = e.locked user asset

theorem Unmoved.refl (e : Engine) : e.Unmoved e := ⟨rfl, fun _ _ => ⟨rfl, rfl⟩⟩

theorem unmoved_of_entries {e e' : Engine} (hbooks : e'.books = e.books)
    (hentries : ∀ user, e'.ledger.entry user = e.ledger.entry user) : e.Unmoved e' :=
  ⟨hbooks, fun user asset => amounts_of_entries e user asset hentries⟩

theorem placeOrder_unmoved (e : Engine) (now market : String) (o : Order) (base : String)
    (h : (e.placeOrder now market o base).1.toBool = false) : e.Unmoved (e.placeOrder now market o base).2 := by
  have hbooks : (e.placeOrder now market o base).2.books = e.books := by
    rcases placeOrder_books e now market o base with ⟨-, hbooks⟩ | ⟨_, _, _, hok, -⟩
    · exact hbooks
    · rw [hok] at h
      cases h
  rcases placeOrder_ledger e now market o base with ⟨-, hentries⟩ | ⟨_, _, hok, -⟩
  · exact unmoved_of_entries hbooks hentries
  · rw [h] at hok
    cases hok

theorem credit_unmoved (e : Engine) (u a : String) (n : UInt64) (h : (e.credit u a n).1.2 = true) :
    e.Unmoved (e.credit u a n).2 := by
  obtain ⟨r, hr, hcredit⟩ : ∃ r : (UserBalance × Bool) × Ledger, e.ledger.credit u a n = r ∧
      e.credit u a n = (r.1, { e with ledger := r.2 }) := ⟨_, rfl, rfl⟩
  have hbooks := credit_books e u a n
  rw [hcredit] at h hbooks ⊢
  have hoverflow : Ledger.creditOverflows (e.ledger.entry u) a n = true := by
    rw [← Ledger.credit_refused, hr, h]
  refine unmoved_of_entries hbooks fun user => ?_
  show r.2.entry user = e.ledger.entry user
  rw [← hr, Ledger.credit_entry]
  simp only [hoverflow, Bool.true_eq_false, and_false, if_false]

end Engine

namespace Service

open Http

@[simp] theorem answer_response (s : Service) (r : Response) : (s.answer r).1.response = r := rfl

@[simp] theorem answer_service (s : Service) (r : Response) : (s.answer r).2 = s := rfl

theorem handleMessage_service (s : Service) (now fresh message : String) :
    (s.handleMessage now fresh message).2.2 =
      match Command.decode message with
      | .ok c => (s.dispatch now fresh c).2
      | .error _ => s := by
  unfold handleMessage
  split
  · next h => rw [h]
  · next h => rw [h]
  · next c h =>
    rw [h]
    dsimp only
    split <;> rfl

theorem serve_post (s : Service) (now fresh : String) (router : Router) (target requestId body : String) :
    s.serve now fresh router ⟨"POST", target, "application/json", requestId, body⟩ =
      match router.route "POST" (splitTarget target).1 with
      | .found r => s.handle now (if requestId.isEmpty then fresh else requestId) body (splitTarget target).2 r
      | .methodNotAllowed => s.answer .methodNotAllowed
      | .notFound => s.answer .notFound := by
  have hjson : "application/json".startsWith "application/json" = true := by simp
  unfold serve
  simp only [carriesBody, hjson]
  rfl

theorem serve_found (s : Service) (now fresh : String) (router : Router) (target requestId body : String)
    {r : Route} (hroute : router.route "POST" (splitTarget target).1 = .found r) :
    s.serve now fresh router ⟨"POST", target, "application/json", requestId, body⟩ =
      s.handle now (if requestId.isEmpty then fresh else requestId) body (splitTarget target).2 r := by
  rw [serve_post, hroute]

theorem dispatch_placeOrder_invalid (s : Service) (now fresh rid market base : String) {o : Order}
    {v : ValidationError} (hv : o.validate = some v) :
    s.dispatch now fresh (.placeOrder rid market base o) = (⟨.error (.invalid v), []⟩, s) := by
  have hplace : s.engine.placeOrder now market o base = (.error (.invalid v), s.engine) := by
    simp [Engine.placeOrder, hv]
  unfold dispatch
  simp only [hplace]

theorem dispatch_placeOrder_outcome (s : Service) (now fresh rid market base : String) (o : Order) :
    (∀ r, (s.dispatch now fresh (.placeOrder rid market base o)).1.outcome = .ok r → r.status = .ok) ∧
      ∀ e, (s.dispatch now fresh (.placeOrder rid market base o)).1.outcome = .error e →
        s.engine.Unmoved (s.dispatch now fresh (.placeOrder rid market base o)).2.engine := by
  rcases hplace : s.engine.placeOrder now market o base with ⟨_ | p, eng⟩
  · have hunmoved := Engine.placeOrder_unmoved s.engine now market o base (by rw [hplace]; rfl)
    rw [hplace] at hunmoved
    unfold dispatch
    simp only [hplace]
    refine ⟨fun r h => ?_, fun _ _ => hunmoved⟩
    cases h
  · unfold dispatch
    simp only [hplace, record_eq]
    refine ⟨fun r h => ?_, fun e h => ?_⟩
    · cases h
      rfl
    · cases h

/-- A credit answers with the status `ok`, its user and the balance after it;
it is refused only for overflow, and then moves nothing. -/
theorem dispatch_addBalance_outcome (s : Service) (now fresh rid user asset : String) (amount : UInt64) :
    (∀ r, (s.dispatch now fresh (.addBalance rid user asset amount)).1.outcome = .ok r →
      r.status = .ok ∧ r.userId = user) ∧
      ∀ e, (s.dispatch now fresh (.addBalance rid user asset amount)).1.outcome = .error e →
        s.engine.Unmoved (s.dispatch now fresh (.addBalance rid user asset amount)).2.engine := by
  have hunmoved := Engine.credit_unmoved s.engine user asset amount
  rw [dispatch_addBalance]
  generalize s.engine.credit user asset amount = credited at hunmoved ⊢
  obtain ⟨⟨_, refused⟩, eng⟩ := credited
  cases refused
  · refine ⟨fun r h => ?_, fun e h => ?_⟩
    · cases h
      exact ⟨rfl, rfl⟩
    · cases h
  · refine ⟨fun r h => ?_, fun _ _ => hunmoved rfl⟩
    cases h

theorem dispatchTo_eq (s : Service) (now fresh : String) (c : Command) (ok : Result → Response) :
    s.dispatchTo now fresh c ok =
      (⟨match (s.dispatch now fresh c).1.outcome with
        | .ok r => ok r
        | .error e => Response.ofEngineError e, (s.dispatch now fresh c).1.published⟩,
        (s.dispatch now fresh c).2) := by
  unfold dispatchTo
  generalize s.dispatch now fresh c = d
  obtain ⟨⟨outcome, published⟩, s'⟩ := d
  cases outcome <;> rfl

/-- Two dispatches of one command under two request ids: the same outcome up to
the result's request id, the same batches and the same service after. -/
structure Relabels (s : Service) (now id : String) (c' : Command) (fresh : String) (c : Command) :
    Prop where
  outcome : (s.dispatch now id c').1.outcome =
    (s.dispatch now fresh c).1.outcome.map fun r => { r with requestId := id }
  published : (s.dispatch now id c').1.published = (s.dispatch now fresh c).1.published
  service : (s.dispatch now id c').2 = (s.dispatch now fresh c).2

theorem relabels_placeOrder (s : Service) (now id fresh market base : String) (o : Order) :
    Relabels s now id (.placeOrder id market base o) fresh (.placeOrder "" market base o) := by
  rcases hplace : s.engine.placeOrder now market o base with ⟨_ | p, eng⟩ <;>
    constructor <;> unfold dispatch <;> simp only [hplace, record_eq]
  · rfl
  · simp [Except.map, Result.start, Command.requestId, Command.kind, Command.market]

theorem relabels_addBalance (s : Service) (now id fresh user asset : String) (amount : UInt64) :
    Relabels s now id (.addBalance id user asset amount) fresh (.addBalance "" user asset amount) := by
  -- the batches and the service after do not read the request id at all
  refine ⟨?_, by rw [dispatch_addBalance, dispatch_addBalance],
    by rw [dispatch_addBalance, dispatch_addBalance]⟩
  rw [dispatch_addBalance, dispatch_addBalance]
  generalize s.engine.credit user asset amount = credited
  obtain ⟨⟨_, refused⟩, eng⟩ := credited
  cases refused <;> simp [Except.map, Result.start, Command.requestId, Command.kind, Command.market]


/-- The two transports agree on one request, served over HTTP as `served` and
sent to the queue as `message`: the request is admitted, with the status
`admitted`, exactly when the message decodes to a command whose dispatch
succeeds; the HTTP response is then `answer` of the queue's result, with the
same batches published; both leave the same service; and a refused request
moves no book and no amount. -/
structure Agreement (s : Service) (now fresh : String) (served : Served × Service) (message : String)
    (admitted : Nat) (answer : Result → Response) : Prop where
  admitted_iff : served.1.response.status = admitted ↔
    ∃ c r, Command.decode message = .ok c ∧ (s.dispatch now fresh c).1.outcome = .ok r ∧ r.status = .ok
  answered : ∀ c r, Command.decode message = .ok c → (s.dispatch now fresh c).1.outcome = .ok r →
    served.1 = ⟨answer r, (s.dispatch now fresh c).1.published⟩
  same_service : served.2 = (s.handleMessage now fresh message).2.2
  unmoved : served.1.response.status ≠ admitted → s.engine.Unmoved served.2.engine

section Agreement

variable {s : Service} {now fresh : String} {served : Served × Service} {message : String}
  {admitted : Nat} {answer : Result → Response}

theorem agreement_of_refused {e : DecodeError} (hdecode : Command.decode message = .error e)
    (hstatus : served.1.response.status ≠ admitted) (hservice : served.2 = s) :
    Agreement s now fresh served message admitted answer where
  admitted_iff := by
    refine ⟨fun h => absurd h hstatus, ?_⟩
    rintro ⟨c, r, hc, -⟩
    rw [hdecode] at hc
    cases hc
  answered c r hc := by
    rw [hdecode] at hc
    cases hc
  same_service := by rw [handleMessage_service, hdecode, hservice]
  unmoved _ := by
    rw [hservice]
    exact Engine.Unmoved.refl s.engine

/-- Both transports dispatch: the message decodes to `c`, and the HTTP request
is the dispatch of `c'`, which is `c` under the request's id. The HTTP side
answers `answer` of each result, with the status `admitted`, and a refusal of
the engine with another status, moving nothing. -/
theorem agreement_of_dispatchTo {id : String} {c c' : Command} {ok : Result → Response}
    (hdecode : Command.decode message = .ok c) (hserved : served = s.dispatchTo now id c' ok)
    (hrel : Relabels s now id c' fresh c)
    (hanswer : ∀ r, (s.dispatch now fresh c).1.outcome = .ok r →
      ok { r with requestId := id } = answer r ∧ (answer r).status = admitted ∧ r.status = .ok)
    (hrefused : ∀ e, (s.dispatch now fresh c).1.outcome = .error e →
      (Response.ofEngineError e).status ≠ admitted ∧ s.engine.Unmoved (s.dispatch now fresh c).2.engine) :
    Agreement s now fresh served message admitted answer := by
  have hservice : served.2 = (s.dispatch now fresh c).2 := by
    rw [hserved, dispatchTo_eq, hrel.service]
  have hsame : served.2 = (s.handleMessage now fresh message).2.2 := by
    rw [handleMessage_service, hdecode, hservice]
  rcases hout : (s.dispatch now fresh c).1.outcome with e | r
  · obtain ⟨hstatus, hunmoved⟩ := hrefused e hout
    have hresponse : served.1.response = Response.ofEngineError e := by
      rw [hserved, dispatchTo_eq, hrel.outcome, hout]
      rfl
    refine ⟨⟨fun h => absurd (hresponse ▸ h) hstatus, ?_⟩, ?_, hsame, fun _ => hservice ▸ hunmoved⟩
    · rintro ⟨c₀, r, hc, hr, -⟩
      rw [hdecode, Except.ok.injEq] at hc
      rw [← hc, hout] at hr
      cases hr
    · intro c₀ r hc hr
      rw [hdecode, Except.ok.injEq] at hc
      rw [← hc, hout] at hr
      cases hr
  · obtain ⟨hok, hstatus, hr⟩ := hanswer r hout
    have hfirst : served.1 = ⟨answer r, (s.dispatch now fresh c).1.published⟩ := by
      rw [hserved, dispatchTo_eq, hrel.outcome, hout, hrel.published, ← hok]
      rfl
    refine ⟨⟨fun _ => ⟨c, r, hdecode, hout, hr⟩, fun _ => hfirst ▸ hstatus⟩, ?_, hsame,
      fun h => absurd (hfirst ▸ hstatus) h⟩
    intro c₀ r₀ hc hr₀
    rw [hdecode, Except.ok.injEq] at hc
    subst hc
    rw [hout, Except.ok.injEq] at hr₀
    rw [← hr₀]
    exact hfirst

end Agreement

/-! ### A placement sent either way -/

/-- A placement for a named market is refused by both transports before it
reaches the engine, or the HTTP request dispatches, under the request's id,
the command the message decodes to. -/
theorem placement_cases (s : Service) (now fresh : String) (router : Router) (target requestId m b : String)
    {w : List (String × Value)}
    (hroute : router.route "POST" (splitTarget target).1 =
      .found (.placeOrder (some m)))
    (hm : m ≠ "") (hkeys : ∀ x ∈ w, x.1 ∈ ["id", "user_id", "side", "price", "quantity", "filled"])
    (hw : ∀ x ∈ w, WellFormed x.2) :
    let served := s.serve now fresh router ⟨"POST", target, "application/json", requestId,
      (Value.obj [("base_asset", .str b), ("order", .obj w)]).render⟩
    let message := (Value.obj [("type", .str "PLACE_ORDER"), ("market", .str m),
      ("base_asset", .str b), ("order", .obj w)]).render
    let id := if requestId.isEmpty then fresh else requestId
    ((∃ e, Command.decode message = .error e) ∧ served.1.response.status ≠ 201 ∧ served.2 = s) ∨
      ∃ o, Command.decode message = .ok (.placeOrder "" m b o) ∧
        served = s.dispatchTo now id (.placeOrder id m b o) fun r => .json 201 r.toJson := by
  intro served message id
  obtain ⟨hvalue, herror⟩ := OrderForm.read_agree hkeys true false
    (.field "placeOrderRequest" ["order"]) (.field "envelope" ["order"])
  have hserved : served = _ := serve_found s now fresh router target requestId _ hroute
  rw [handle, PlaceForm.read_placement b hw] at hserved
  rw [Command.decode_placement m b hw]
  generalize readMembers "WireOrder" OrderForm.fields true (.field "placeOrderRequest" ["order"]) w
    ⟨OrderForm.empty, none⟩ = R at hvalue herror hserved
  generalize readMembers "WireOrder" OrderForm.fields false (.field "envelope" ["order"]) w
    ⟨OrderForm.empty, none⟩ = Q at hvalue herror ⊢
  rw [hserved]
  by_cases hfits : (Value.obj w).depth + 1 ≤ maxDepth
  swap
  · left
    simp only [if_neg hfits]
    exact ⟨⟨_, rfl⟩, by simp, rfl⟩
  simp only [if_pos hfits]
  cases hRe : R.error with
  | some e =>
    obtain ⟨e', hQe⟩ : ∃ e', Q.error = some e' :=
      Option.ne_none_iff_exists'.mp fun h => by simp [herror.mpr h] at hRe
    left
    simp only [hQe]
    exact ⟨⟨_, rfl⟩, by simp, rfl⟩
  | none =>
    simp only [herror.mp hRe, Envelope.toCommand_placement b _ hm, ← hvalue]
    by_cases hb : b = ""
    · left
      subst hb
      exact ⟨⟨_, rfl⟩, by simp, rfl⟩
    have hb' : b.isEmpty = false := by simpa using hb
    cases ho : R.value.toOrder with
    | error e =>
      left
      simp only [hb, hb']
      exact ⟨⟨_, rfl⟩, by simp, rfl⟩
    | ok o =>
      cases hv : o.validate with
      | some v =>
        left
        simp only [hb, hb', hv, dispatchTo_eq, dispatch_placeOrder_invalid _ _ _ _ _ _ hv]
        exact ⟨⟨_, rfl⟩, by simp [Response.ofEngineError], rfl⟩
      | none =>
        right
        refine ⟨o, by simp [hb, hv], ?_⟩
        simp [hb', id]

/-- **A placement agrees across the transports.** For every market name the
route reaches and every order object whose keys are the order's fields, the
HTTP placement is admitted with 201 exactly when the message decodes and
dispatches; it then answers with the queue's result under the request's id;
both leave the same service, and a refused placement moves nothing. -/
theorem placement_agrees (s : Service) (now fresh fresh' : String) (router : Router)
    (target requestId m b : String) {w : List (String × Value)}
    (hroute : router.route "POST" (splitTarget target).1 =
      .found (.placeOrder (some m)))
    (hm : m ≠ "") (hkeys : ∀ x ∈ w, x.1 ∈ ["id", "user_id", "side", "price", "quantity", "filled"])
    (hw : ∀ x ∈ w, WellFormed x.2) :
    let id := if requestId.isEmpty then fresh else requestId
    Agreement s now fresh'
      (s.serve now fresh router ⟨"POST", target, "application/json", requestId,
        (Value.obj [("base_asset", .str b), ("order", .obj w)]).render⟩)
      (Value.obj [("type", .str "PLACE_ORDER"), ("market", .str m), ("base_asset", .str b),
        ("order", .obj w)]).render
      201 fun r => .json 201 { r with requestId := id }.toJson := by
  intro id
  rcases placement_cases s now fresh router target requestId m b hroute hm hkeys hw with
    ⟨⟨e, hdecode⟩, hstatus, hservice⟩ | ⟨o, hdecode, hserved⟩
  · exact agreement_of_refused hdecode hstatus hservice
  · obtain ⟨hok, hrefused⟩ := dispatch_placeOrder_outcome s now fresh' "" m b o
    refine agreement_of_dispatchTo hdecode hserved (relabels_placeOrder s now id fresh' m b o)
      (fun r hr => ⟨rfl, rfl, hok r hr⟩) fun e he => ⟨?_, hrefused e he⟩
    have := Response.ofEngineError_status e
    omega

/-! ### A credit sent either way -/

/-- A credit is refused by both transports before it reaches the engine, or
the HTTP request dispatches, under the request's id, the command the message
decodes to. -/
theorem credit_cases (s : Service) (now fresh : String) (router : Router) (target requestId : String)
    {u a n : Value}
    (hroute : router.route "POST" (splitTarget target).1 = .found .credit)
    (hu : WellFormed u) (ha : WellFormed a) (hn : WellFormed n) :
    let served := s.serve now fresh router ⟨"POST", target, "application/json", requestId,
      (Value.obj [("user_id", u), ("asset", a), ("amount", n)]).render⟩
    let message := (Value.obj [("type", .str "ADD_BALANCE"), ("userId", u), ("asset", a),
      ("amount", n)]).render
    let id := if requestId.isEmpty then fresh else requestId
    ((∃ e, Command.decode message = .error e) ∧ served.1.response.status ≠ 200 ∧ served.2 = s) ∨
      ∃ user asset amount, Command.decode message = .ok (.addBalance "" user asset amount) ∧
        served = s.dispatchTo now id (.addBalance id user asset amount) fun r =>
          .json 200 (balanceJson user (r.balance.getD .empty)) := by
  intro served message id
  have hserved : served = _ := serve_found s now fresh router target requestId _ hroute
  rw [handle, CreditForm.read_credit hu ha hn] at hserved
  have hdepth : (Value.obj [("type", .str "ADD_BALANCE"), ("userId", u), ("asset", a), ("amount", n)]).depth =
      (Value.obj [("user_id", u), ("asset", a), ("amount", n)]).depth := by
    simp [Value.depth, Value.depthMembers]
  rw [Command.decode_credit hu ha hn, hdepth]
  obtain ⟨hUerr, hUreq⟩ := required_optionalText u (.field "creditRequest" ["user_id"])
    (.field "envelope" ["userId"]) .addBalance "userId"
  obtain ⟨hAerr, hAreq⟩ := required_optionalText a (.field "creditRequest" ["asset"])
    (.field "envelope" ["asset"]) .addBalance "asset"
  have hword : PlaceFree optionalWord := placeFree_optionSlot 0 placeFree_wordSlot
  obtain ⟨hNval, hNerr⟩ := hword n (.field "creditRequest" ["amount"]) (.field "envelope" ["amount"]) none
  generalize textSlot "string" u (.field "creditRequest" ["user_id"]) "" = U at *
  generalize optionalText u (.field "envelope" ["userId"]) none = U' at *
  generalize textSlot "string" a (.field "creditRequest" ["asset"]) "" = A at *
  generalize optionalText a (.field "envelope" ["asset"]) none = A' at *
  generalize optionalWord n (.field "creditRequest" ["amount"]) none = N at *
  generalize optionalWord n (.field "envelope" ["amount"]) none = N' at *
  rw [hserved]
  by_cases hfits : (Value.obj [("user_id", u), ("asset", a), ("amount", n)]).depth ≤ maxDepth
  swap
  · left
    simp only [if_neg hfits]
    exact ⟨⟨_, rfl⟩, by simp, rfl⟩
  simp only [if_pos hfits]
  by_cases hfit : U.error = none ∧ A.error = none ∧ N.error = none
  swap
  · have hhttp : firstError (firstError U.error A.error) N.error ≠ none := by
      rw [Ne, firstError_eq_none, firstError_eq_none, and_assoc]
      exact hfit
    have hqueue : firstError (firstError U'.error A'.error) N'.error ≠ none := by
      rw [Ne, firstError_eq_none, firstError_eq_none, and_assoc, ← hUerr, ← hAerr, ← hNerr]
      exact hfit
    obtain ⟨e, he⟩ := Option.ne_none_iff_exists'.mp hhttp
    obtain ⟨e', he'⟩ := Option.ne_none_iff_exists'.mp hqueue
    left
    simp only [he, he']
    exact ⟨⟨_, rfl⟩, by simp, rfl⟩
  obtain ⟨hU, hA, hN⟩ := hfit
  simp only [hU, hA, hN, hUerr.mp hU, hAerr.mp hA, hNerr.mp hN, firstError_none]
  by_cases huser : U.value = ""
  · left
    refine ⟨⟨.missing .addBalance "userId", by simp [Envelope.toCommand, Kind.ofTag?, hUreq, huser, bind,
      Except.bind]⟩, ?_, ?_⟩ <;>
      simp [huser]
  by_cases hasset : A.value = ""
  · left
    refine ⟨⟨.missing .addBalance "asset", by simp [Envelope.toCommand, Kind.ofTag?, hUreq, hAreq, huser,
      hasset, bind, Except.bind]⟩, ?_, ?_⟩ <;>
      simp [huser, hasset]
  cases hamount : N.value with
  | none =>
    left
    refine ⟨⟨.missing .addBalance "amount", by simp [Envelope.toCommand, Kind.ofTag?, hUreq, hAreq, huser,
      hasset, ← hNval, hamount, present, bind, Except.bind]⟩, ?_, ?_⟩ <;>
      simp [huser, hasset]
  | some amount =>
    right
    refine ⟨U.value, A.value, amount, ?_, by simp [huser, hasset, id]⟩
    simp [Envelope.toCommand, Kind.ofTag?, hUreq, hAreq, huser, hasset, ← hNval, hamount, present, bind,
      Except.bind, pure, Except.pure]

/-- **A credit agrees across the transports.** On every route to the credit
and every user, asset and amount, the HTTP credit succeeds with 200 exactly
when the message decodes and dispatches; it then answers with the user and the
balance of the queue's result; both leave the same service, and a refused
credit moves nothing. -/
theorem credit_agrees (s : Service) (now fresh fresh' : String) (router : Router) (target requestId : String)
    {u a n : Value}
    (hroute : router.route "POST" (splitTarget target).1 = .found .credit)
    (hu : WellFormed u) (ha : WellFormed a) (hn : WellFormed n) :
    Agreement s now fresh'
      (s.serve now fresh router ⟨"POST", target, "application/json", requestId,
        (Value.obj [("user_id", u), ("asset", a), ("amount", n)]).render⟩)
      (Value.obj [("type", .str "ADD_BALANCE"), ("userId", u), ("asset", a), ("amount", n)]).render
      200 fun r => .json 200 (balanceJson r.userId (r.balance.getD .empty)) := by
  rcases credit_cases s now fresh router target requestId hroute hu ha hn with
    ⟨⟨e, hdecode⟩, hstatus, hservice⟩ | ⟨user, asset, amount, hdecode, hserved⟩
  · exact agreement_of_refused hdecode hstatus hservice
  · obtain ⟨hok, hrefused⟩ := dispatch_addBalance_outcome s now fresh' "" user asset amount
    refine agreement_of_dispatchTo hdecode hserved (relabels_addBalance s now _ fresh' user asset amount)
      (fun r hr => ?_) fun e he => ⟨?_, hrefused e he⟩
    · obtain ⟨hstatus, huser⟩ := hok r hr
      exact ⟨by rw [huser], rfl, hstatus⟩
    · have := Response.ofEngineError_status e
      omega

/-! ### The transports agree -/

/-- **The two transports agree on every placement and every credit.** For
every service and every router it is served behind: a placement `POST` on any
target that the router routes to the order route of a named market, whose body
holds a base asset and an order object keyed by the order's own fields, agrees with the `PLACE_ORDER` message for that market,
base asset and order, admitted with 201 and answered with the queue's result
under the request's id; and a credit `POST` on any target that routes to the
credit agrees with the `ADD_BALANCE` message of the same values, answered with
200 and the balance of the queue's result. -/
theorem transports_agree :
    (∀ (s : Service) (now fresh fresh' : String) (router : Router) (target requestId m b : String)
        (w : List (String × Value)),
      router.route "POST" (splitTarget target).1 = .found (.placeOrder (some m)) →
      m ≠ "" → (∀ x ∈ w, x.1 ∈ ["id", "user_id", "side", "price", "quantity", "filled"]) →
      (∀ x ∈ w, WellFormed x.2) →
      Agreement s now fresh'
        (s.serve now fresh router ⟨"POST", target, "application/json", requestId,
          (Value.obj [("base_asset", .str b), ("order", .obj w)]).render⟩)
        (Value.obj [("type", .str "PLACE_ORDER"), ("market", .str m), ("base_asset", .str b),
          ("order", .obj w)]).render
        201 fun r => .json 201 { r with requestId := if requestId.isEmpty then fresh else requestId }.toJson) ∧
    ∀ (s : Service) (now fresh fresh' : String) (router : Router) (target requestId : String) (u a n : Value),
      router.route "POST" (splitTarget target).1 = .found .credit →
      WellFormed u → WellFormed a → WellFormed n →
      Agreement s now fresh'
        (s.serve now fresh router ⟨"POST", target, "application/json", requestId,
          (Value.obj [("user_id", u), ("asset", a), ("amount", n)]).render⟩)
        (Value.obj [("type", .str "ADD_BALANCE"), ("userId", u), ("asset", a), ("amount", n)]).render
        200 fun r => .json 200 (balanceJson r.userId (r.balance.getD .empty)) :=
  ⟨fun s now fresh fresh' router target requestId m b _ hroute hm hkeys hw =>
      placement_agrees s now fresh fresh' router target requestId m b hroute hm hkeys hw,
    fun s now fresh fresh' router target requestId _ _ _ hroute hu ha hn =>
      credit_agrees s now fresh fresh' router target requestId hroute hu ha hn⟩

/-- The two transports agree on a placement on a market without a slash in its
name, and on a credit of a number. -/
theorem transports_agree_plainMarket :
    let s : Service := ⟨((Engine.create "USDT").addMarket "BTC_USDT").2, TradeLog.create 0⟩
    let order : List (String × Value) := [("id", .null), ("user_id", .str "u"), ("side", .str "Sell")]
    (Router.ofRoutes false).route "POST" (splitTarget "/markets/BTC_USDT/orders").1 =
        .found (.placeOrder (some "BTC_USDT")) ∧
      (Router.ofRoutes false).route "POST" (splitTarget "/balances").1 = .found .credit ∧
      WellFormed (.num "5") ∧
      Agreement s "t" "req-1"
        (s.serve "t" "req-0" (Router.ofRoutes false) ⟨"POST", "/markets/BTC_USDT/orders", "application/json", "",
          (Value.obj [("base_asset", .str "BTC"), ("order", .obj order)]).render⟩)
        (Value.obj [("type", .str "PLACE_ORDER"), ("market", .str "BTC_USDT"), ("base_asset", .str "BTC"),
          ("order", .obj order)]).render
        201 (fun r => .json 201 { r with requestId := "req-0" }.toJson) ∧
      Agreement s "t" "req-1"
        (s.serve "t" "req-0" (Router.ofRoutes false) ⟨"POST", "/balances", "application/json", "",
          (Value.obj [("user_id", .str "u"), ("asset", .str "USDT"), ("amount", .num "5")]).render⟩)
        (Value.obj [("type", .str "ADD_BALANCE"), ("userId", .str "u"), ("asset", .str "USDT"),
          ("amount", .num "5")]).render
        200 (fun r => .json 200 (balanceJson r.userId (r.balance.getD .empty))) := by
  intro s order
  have hplace : (Router.ofRoutes false).route "POST" (splitTarget "/markets/BTC_USDT/orders").1 =
      .found (.placeOrder (some "BTC_USDT")) := by
    cbv
  have hcredit : (Router.ofRoutes false).route "POST" (splitTarget "/balances").1 = .found .credit := by
    cbv
  have hfive : WellFormed (.num "5") :=
    .num "5" ⟨[], ['5'], [], [], rfl, .inl rfl, .digits '5' [] rfl (by decide) (by simp), .none, .none⟩
  refine ⟨hplace, hcredit, hfive,
    transports_agree.1 s "t" "req-0" "req-1" (Router.ofRoutes false) _ "" "BTC_USDT" "BTC" order hplace (by decide) ?_ ?_,
    transports_agree.2 s "t" "req-0" "req-1" (Router.ofRoutes false) _ "" _ _ _ hcredit (.str "u") (.str "USDT") hfive⟩
  · simp [order]
  · simp only [order, List.mem_cons, List.not_mem_nil, or_false, forall_eq_or_imp, forall_eq]
    exact ⟨.null, .str "u", .str "Sell"⟩

set_option maxRecDepth 8000 in
/-- **A market whose name holds a slash takes no placement over HTTP.** The
order route takes the market as one segment of the path: written with its
slash the path routes nowhere, and written escaped it names the market with the
escape kept. Both answer 404, while the same placement sent as a message is
admitted. -/
theorem placement_slashedMarket_unreachable :
    let s : Service := ⟨((Engine.create "USDT").addMarket "BTC/USDT").2, TradeLog.create 0⟩
    let order : List (String × Value) := [("id", .num "1"), ("user_id", .str "u"), ("side", .str "Sell"),
      ("price", .num "1"), ("quantity", .num "0")]
    let body := (Value.obj [("base_asset", .str "BTC"), ("order", .obj order)]).render
    let message := (Value.obj [("type", .str "PLACE_ORDER"), ("market", .str "BTC/USDT"),
      ("base_asset", .str "BTC"), ("order", .obj order)]).render
    (∀ target ∈ ["/markets/BTC/USDT/orders", "/markets/BTC%2FUSDT/orders"],
      (s.serve "t" "req-0" (Router.ofRoutes false) ⟨"POST", target, "application/json", "", body⟩).1.response.status = 404) ∧
    ∃ c r, Command.decode message = .ok c ∧ (s.dispatch "t" "req-1" c).1.outcome = .ok r ∧ r.status = .ok := by
  intro s order body message
  have hnone : (Router.ofRoutes false).route "POST" (splitTarget "/markets/BTC/USDT/orders").1 =
      .notFound := by
    cbv
  have hraw : (Router.ofRoutes false).route "POST" (splitTarget "/markets/BTC%2FUSDT/orders").1 =
      .found (.placeOrder (some "BTC%2FUSDT")) := by
    cbv
  refine ⟨?_, ?_⟩
  · simp only [List.mem_cons, List.not_mem_nil, or_false, forall_eq_or_imp, forall_eq]
    rw [serve_post, hnone, serve_post, hraw]
    refine ⟨rfl, ?_⟩
    cbv
  · have hdecode : Command.decode message =
        .ok (.placeOrder "" "BTC/USDT" "BTC" ⟨1, "u", .sell, 1, 0, 0⟩) := by
      cbv
    have hok : (s.dispatch "t" "req-1" (.placeOrder "" "BTC/USDT" "BTC" ⟨1, "u", .sell, 1, 0, 0⟩)).1.outcome.toBool =
        true := by
      cbv
    cases hout : (s.dispatch "t" "req-1" (.placeOrder "" "BTC/USDT" "BTC" ⟨1, "u", .sell, 1, 0, 0⟩)).1.outcome with
    | error e =>
      rw [hout] at hok
      cases hok
    | ok r => exact ⟨_, r, hdecode, hout, (dispatch_placeOrder_outcome _ _ _ _ _ _ _).1 r hout⟩

end Service

end Exchange
