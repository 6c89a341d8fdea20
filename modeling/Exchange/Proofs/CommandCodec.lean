import Exchange.Proofs.JsonReadBack
import Exchange.Proofs.Except
import Exchange.Command.Wire
/-!
# The command codec

A command is written as the JSON object `Command.toJson` builds and read by
`Command.decode`. Reading gives only commands whose kind's fields are filled
(`Command.Accepted`): a placement with a market, a base asset and an order
that has an owner and passes its checks; a cancellation or a depth with a
market; a credit with a user and an asset.

Writing an accepted command gives a plain document (`Json.Plain`), so its text
parses back to it; the document reads into the envelope the command describes
(`Command.envelope`), member by member and with no error; and that envelope
holds the command again. So reading undoes writing on every command that
reading gives (`Command.codec_roundTrip`).

Key definitions: `Command.Accepted`, `Order.form`, `Command.envelope`.
Key theorems: `Command.decode_accepted`, `Command.decode_toJson_render`,
`Command.codec_roundTrip`.
-/

namespace Exchange

open Json

/-! ### What reading gives -/

namespace Command

/-- The fields each kind needs, filled: what reading a command checks. -/
def Accepted : Command → Prop
  | .placeOrder _ m b o => m ≠ "" ∧ b ≠ "" ∧ o.userId ≠ "" ∧ o.validate = none
  | .cancelOrder _ m _ => m ≠ ""
  | .getDepth _ m => m ≠ ""
  | .addBalance _ u a _ => u ≠ "" ∧ a ≠ ""

instance : DecidablePred Accepted := fun c =>
  match c with
  | .placeOrder _ m b o => inferInstanceAs (Decidable (m ≠ "" ∧ b ≠ "" ∧ o.userId ≠ "" ∧ o.validate = none))
  | .cancelOrder _ m _ => inferInstanceAs (Decidable (m ≠ ""))
  | .getDepth _ m => inferInstanceAs (Decidable (m ≠ ""))
  | .addBalance _ u a _ => inferInstanceAs (Decidable (u ≠ "" ∧ a ≠ ""))

end Command

theorem required_eq_ok {k : Kind} {field : String} {x : Option String} {s : String}
    (h : required k field x = .ok s) : x = some s ∧ s ≠ "" := by
  cases x with
  | none => cases h
  | some t =>
    by_cases ht : t = ""
    · simp [required, ht] at h
    · simp only [required, ht, if_false, Except.ok.injEq] at h
      subst h
      exact ⟨rfl, ht⟩

theorem OrderForm.toOrder_userId {w : OrderForm} {o : Order} (h : w.toOrder = .ok o) :
    o.userId ≠ "" := by
  obtain ⟨_, -, h⟩ := bind_eq_ok_iff.mp h
  obtain ⟨user, huser, h⟩ := bind_eq_ok_iff.mp h
  obtain ⟨_, -, h⟩ := bind_eq_ok_iff.mp h
  obtain ⟨_, -, h⟩ := bind_eq_ok_iff.mp h
  cases h
  exact (required_eq_ok huser).2

theorem Envelope.toCommand_accepted {e : Envelope} {c : Command} (h : e.toCommand = .ok c) :
    c.Accepted := by
  unfold Envelope.toCommand at h
  split at h
  · obtain ⟨market, hmarket, h⟩ := bind_eq_ok_iff.mp h
    obtain ⟨base, hbase, h⟩ := bind_eq_ok_iff.mp h
    obtain ⟨form, -, h⟩ := bind_eq_ok_iff.mp h
    obtain ⟨order, horder, h⟩ := bind_eq_ok_iff.mp h
    split at h
    · cases h
    · next hvalid =>
      cases h
      exact ⟨(required_eq_ok hmarket).2, (required_eq_ok hbase).2, OrderForm.toOrder_userId horder,
        hvalid⟩
  · obtain ⟨market, hmarket, h⟩ := bind_eq_ok_iff.mp h
    obtain ⟨_, -, h⟩ := bind_eq_ok_iff.mp h
    cases h
    exact (required_eq_ok hmarket).2
  · obtain ⟨market, hmarket, h⟩ := bind_eq_ok_iff.mp h
    cases h
    exact (required_eq_ok hmarket).2
  · obtain ⟨user, huser, h⟩ := bind_eq_ok_iff.mp h
    obtain ⟨asset, hasset, h⟩ := bind_eq_ok_iff.mp h
    obtain ⟨_, -, h⟩ := bind_eq_ok_iff.mp h
    cases h
    exact ⟨(required_eq_ok huser).2, (required_eq_ok hasset).2⟩
  · cases h

/-- Every command read from a message has its kind's fields filled. -/
theorem Command.decode_accepted {data : String} {c : Command} (h : Command.decode data = .ok c) :
    c.Accepted := by
  unfold Command.decode at h
  split at h
  · cases h
  · exact Envelope.toCommand_accepted h

/-! ### What writing gives -/

/-- The order form a written order reads into: every member present. -/
def Order.form (o : Order) : OrderForm :=
  ⟨some o.id, some o.userId, o.side.name, some o.price, some o.quantity, o.filled⟩

/-- The envelope a written command reads into: its tag and request id, and
its kind's fields present. -/
def Command.envelope (c : Command) : Envelope :=
  let e : Envelope := { Envelope.empty with tag := c.kind.tag, requestId := c.requestId }
  match c with
  | .placeOrder _ m b o => { e with market := some m, baseAsset := some b, order := some o.form }
  | .cancelOrder _ m id => { e with market := some m, orderId := some id }
  | .getDepth _ m => { e with market := some m }
  | .addBalance _ u a n => { e with userId := some u, asset := some a, amount := some n }

theorem optionalWord_ofWord (w : UInt64) (p : Place) (cur : Option UInt64) :
    optionalWord (Value.ofWord w) p cur = ⟨some w, none⟩ := by
  have hslot : optionalWord (Value.ofWord w) p cur =
      ⟨some (wordSlot (Value.ofWord w) p (cur.getD 0)).value,
        (wordSlot (Value.ofWord w) p (cur.getD 0)).error⟩ := rfl
  rw [hslot, wordSlot_ofWord]

/-- A written command is a document of strings and numbers, one object inside
another at most. -/
theorem Command.plain_toJson (c : Command) : Plain 2 c.toJson := by
  unfold Command.toJson
  cases c <;> split_ifs <;> simp

/-- A written command reads, member by member and with no error, into the
envelope it describes: every key names its field exactly, and every value has
its field's type. -/
theorem Command.readRecord_toJson (c : Command) :
    readRecord "envelope" "command.envelope" Envelope.fields false Envelope.empty c.toJson =
      ⟨c.envelope, none⟩ := by
  unfold Command.toJson
  rcases c with ⟨r, m, b, o⟩ | ⟨r, m, id⟩ | ⟨r, m⟩ | ⟨r, u, a, n⟩ <;> by_cases hr : r = "" <;>
    simp [hr, Command.envelope, Command.kind, Command.requestId, Kind.tag, readRecord, readMembers,
      fieldFor?, Envelope.fields, RecordField.on, textSlot, optionalText, optionSlot, firstError,
      optionalWord_ofWord, wordSlot_ofWord, OrderForm.slot, recordSlot, OrderForm.fields, Order.form,
      Envelope.empty, OrderForm.empty]

theorem Order.toOrder_form (o : Order) (h : o.userId ≠ "") : o.form.toOrder = .ok o := by
  simp [OrderForm.toOrder, Order.form, present, required, h, bind, Except.bind, pure, Except.pure]

theorem Command.toCommand_envelope (c : Command) (h : c.Accepted) : c.envelope.toCommand = .ok c := by
  rcases c with ⟨r, m, b, o⟩ | ⟨r, m, id⟩ | ⟨r, m⟩ | ⟨r, u, a, n⟩
  · obtain ⟨hm, hb, hu, hvalid⟩ := h
    simp [Command.envelope, Envelope.toCommand, Command.kind, Command.requestId, Kind.tag, Kind.ofTag?,
      required, present, hm, hb, Order.toOrder_form o hu, hvalid, bind, Except.bind, pure, Except.pure]
  · simp [Command.envelope, Envelope.toCommand, Command.kind, Command.requestId, Kind.tag, Kind.ofTag?,
      required, present, show m ≠ "" from h, bind, Except.bind, pure, Except.pure]
  · simp [Command.envelope, Envelope.toCommand, Command.kind, Command.requestId, Kind.tag, Kind.ofTag?,
      required, show m ≠ "" from h, bind, Except.bind, pure, Except.pure]
  · obtain ⟨hu, ha⟩ := h
    simp [Command.envelope, Envelope.toCommand, Command.kind, Command.requestId, Kind.tag, Kind.ofTag?,
      required, present, hu, ha, bind, Except.bind, pure, Except.pure]

/-- **Reading undoes writing.** An accepted command, written as a message, is
read back as itself. -/
theorem Command.decode_toJson_render (c : Command) (h : c.Accepted) :
    Command.decode c.toJson.render = .ok c := by
  have hparse : parse c.toJson.render = .ok c.toJson := parse_render c.plain_toJson (by decide)
  have hread : readText "envelope" "command.envelope" Envelope.fields false Envelope.empty
      c.toJson.render = .ok c.envelope := by
    simp only [readText, hparse, c.readRecord_toJson]
  simp only [Command.decode, hread, c.toCommand_envelope h]

/-- **The command codec.** Reading gives only accepted commands; writing an
accepted command and reading it gives it back; so writing what was read and
reading it again gives the same command. -/
theorem Command.codec_roundTrip :
    (∀ (data : String) (c : Command), Command.decode data = .ok c → c.Accepted) ∧
      (∀ c : Command, c.Accepted → Command.decode c.toJson.render = .ok c) ∧
      ∀ (data : String) (c : Command), Command.decode data = .ok c →
        Command.decode c.toJson.render = Command.decode data :=
  ⟨fun _ _ h => Command.decode_accepted h,
    fun c h => c.decode_toJson_render h,
    fun _ c h => (c.decode_toJson_render (Command.decode_accepted h)).trans h.symm⟩

end Exchange
