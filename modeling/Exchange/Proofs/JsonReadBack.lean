import Mathlib
import Exchange.Json.Decode
/-!
# Reading back what is written

`Json.parse` takes back every document of the shape commands are written in:
strings, natural numbers and objects of such documents (`Json.Plain`), so
`parse (render v) = .ok v` (`Json.parse_render`).

The reader is a machine over characters, so the proof follows the text:
reading a prefix that succeeds can be cut off the rest (`Reader.run_append`);
an escaped character is read into the string's body and unescaped back to
itself (`Reader.run_escapeChar`, `unescape_escapeChar`); a number's digits
stay pending until the character after them, which the reader then treats as
it treats any character after a complete value (`Reader.Pending`). An object
is read member by member, each value by induction on `Plain`.

Key definitions: `Json.Plain`, `Json.Reader.Pending`.
Key theorems: `Json.Reader.run_plain`, `Json.parse_render`.
-/

namespace Exchange.Json

/-! ### Running the reader -/

namespace Reader

theorem run_cons (r : Reader) (c : Char) (cs : List Char) :
    r.run (c :: cs) = (do (← r.step c).run cs) := rfl

theorem run_append {r r' : Reader} {xs : List Char} (h : r.run xs = .ok r') (ys : List Char) :
    r.run (xs ++ ys) = r'.run ys := by
  induction xs generalizing r with
  | nil => cases h; rfl
  | cons c cs ih =>
    rw [run_cons] at h
    rw [List.cons_append, run_cons]
    cases hs : r.step c with
    | error e => rw [hs] at h; cases h
    | ok r₁ =>
      rw [hs] at h
      exact ih h

theorem run_of_step {r r₁ r' : Reader} {c : Char} {cs : List Char} (h₁ : r.step c = .ok r₁)
    (h : r₁.run cs = .ok r') : r.run (c :: cs) = .ok r' := by
  rw [run_cons, h₁]
  exact h

end Reader

/-! ### Strings -/

theorem hexValue_escapeDigit :
    ∀ n < 16, hexValue (if n < 10 then Char.ofNat (0x30 + n) else Char.ofNat (0x57 + n)) = some n := by
  decide

theorem Reader.run_hexEscape (st : List Frame) (body : List Char) (isKey : Bool) {a b c d : Char}
    (ha : (hexValue a).isSome) (hb : (hexValue b).isSome) (hc : (hexValue c).isSome)
    (hd : (hexValue d).isSome) :
    Reader.run ⟨st, .string body .none isKey⟩ ['\\', 'u', a, b, c, d] =
      .ok ⟨st, .string (d :: c :: b :: a :: 'u' :: '\\' :: body) .none isKey⟩ := by
  simp [Reader.run, Reader.step, bind, Except.bind, ha, hb, hc, hd]

/-- An escaped character is read into a string's body as it is written. -/
theorem Reader.run_escapeChar (st : List Frame) (body : List Char) (isKey : Bool) (c : Char) :
    Reader.run ⟨st, .string body .none isKey⟩ (escapeChar c) =
      .ok ⟨st, .string ((escapeChar c).reverse ++ body) .none isKey⟩ := by
  unfold escapeChar
  split
  any_goals rfl
  next hquote hback _ _ _ _ _ _ _ =>
  split
  · next hlt =>
    have h₁ := hexValue_escapeDigit (c.toNat / 16) (by omega)
    have h₂ := hexValue_escapeDigit (c.toNat % 16) (by omega)
    exact Reader.run_hexEscape st body isKey rfl rfl (by rw [h₁]; rfl) (by rw [h₂]; rfl)
  · next hge =>
    have hq : c ≠ '"' := hquote
    have hb : c ≠ '\\' := hback
    simp [Reader.run, Reader.step, bind, Except.bind, hge, hq, hb]

/-- Unescaping takes an escaped character back to itself. -/
theorem unescape_escapeChar (c : Char) (rest : List Char) :
    unescape (escapeChar c ++ rest) = c :: unescape rest := by
  unfold escapeChar
  split
  any_goals (simp [unescape, hex4, hexValue]; done)
  next hquote hback _ _ _ _ _ _ _ =>
  split
  · next hlt =>
    have h₁ := hexValue_escapeDigit (c.toNat / 16) (by omega)
    have h₂ := hexValue_escapeDigit (c.toNat % 16) (by omega)
    have hzero : hexValue '0' = some 0 := rfl
    have hr : hex4 '0' '0'
        (if c.toNat / 16 < 10 then Char.ofNat (0x30 + c.toNat / 16) else Char.ofNat (0x57 + c.toNat / 16))
        (if c.toNat % 16 < 10 then Char.ofNat (0x30 + c.toNat % 16) else Char.ofNat (0x57 + c.toNat % 16)) =
          some c.toNat := by
      simp only [hex4, hzero, h₁, h₂, Option.bind_eq_bind, Option.bind_some, Option.pure_def,
        Option.some.injEq]
      omega
    have hsur : ¬(55296 ≤ c.toNat ∧ c.toNat < 57344) := by omega
    simp only [List.cons_append, List.nil_append, unescape.eq_1, hr]
    simp [hsur, Char.ofNat_toNat]
  · next hge =>
    have hb : c ≠ '\\' := hback
    simp [unescape, hb]

theorem unescape_escaped (cs : List Char) : unescape (cs.flatMap escapeChar) = cs := by
  induction cs with
  | nil => simp [unescape]
  | cons c cs ih => rw [List.flatMap_cons, unescape_escapeChar, ih]

theorem Reader.run_escaped (st : List Frame) (isKey : Bool) (cs : List Char) :
    ∀ body, Reader.run ⟨st, .string body .none isKey⟩ (cs.flatMap escapeChar) =
      .ok ⟨st, .string ((cs.flatMap escapeChar).reverse ++ body) .none isKey⟩ := by
  induction cs with
  | nil => intro body; rfl
  | cons c cs ih =>
    intro body
    rw [List.flatMap_cons, Reader.run_append (Reader.run_escapeChar st body isKey c), ih]
    simp

theorem escape_toList (s : String) :
    (escape s).toList = '"' :: (s.toList.flatMap escapeChar ++ ['"']) := by
  rw [escape, String.toList_ofList]

theorem Reader.run_stringBody (st : List Frame) (isKey : Bool) (s : String) :
    Reader.run ⟨st, .string [] .none isKey⟩ (s.toList.flatMap escapeChar ++ ['"']) =
      .ok (Reader.closeString st (s.toList.flatMap escapeChar).reverse isKey) := by
  rw [Reader.run_append (Reader.run_escaped st isKey s.toList []), List.append_nil]
  rfl

theorem closeString_value (st : List Frame) (s : String) :
    Reader.closeString st (s.toList.flatMap escapeChar).reverse false = Reader.complete st (.str s) := by
  simp only [Reader.closeString, List.reverse_reverse, unescape_escaped, String.ofList_toList]
  rfl

theorem closeString_key (ms : List (String × Value)) (key : Option String) (fs : List Frame)
    (s : String) :
    Reader.closeString (.object ms key :: fs) (s.toList.flatMap escapeChar).reverse true =
      ⟨.object ms (some s) :: fs, .colon⟩ := by
  simp only [Reader.closeString, List.reverse_reverse, unescape_escaped, String.ofList_toList]
  rfl

/-! ### Numbers -/

theorem digitChar_value : ∀ n < 10, (Nat.digitChar n).toNat - '0'.toNat = n := by decide

theorem digitChar_ne_zero : ∀ n < 10, 0 < n → Nat.digitChar n ≠ '0' := by decide

theorem toDigits_split {n : Nat} (hge : 10 ≤ n) :
    Nat.toDigits 10 (n / 10) ++ Nat.toDigits 10 (n % 10) = Nat.toDigits 10 n := by
  have hsplit := Nat.toDigits_append_toDigits (b := 10) (n := n / 10) (d := n % 10)
    (by norm_num) (by omega) (by omega)
  rwa [show 10 * (n / 10) + n % 10 = n by omega] at hsplit

/-- The decimal digits of a natural number, read back left to right, give it. -/
theorem foldl_toDigits (n : Nat) :
    (Nat.toDigits 10 n).foldl (fun acc c => acc * 10 + (c.toNat - '0'.toNat)) 0 = n := by
  induction n using Nat.strong_induction_on with
  | _ n ih =>
    rcases Nat.lt_or_ge n 10 with hlt | hge
    · rw [Nat.toDigits_of_lt_base hlt]
      simp only [List.foldl_cons, List.foldl_nil, Nat.zero_mul, Nat.zero_add]
      exact digitChar_value n hlt
    · rw [← toDigits_split hge, List.foldl_append, ih (n / 10) (by omega),
        Nat.toDigits_of_lt_base (show n % 10 < 10 by omega)]
      simp only [List.foldl_cons, List.foldl_nil, digitChar_value (n % 10) (by omega)]
      omega

theorem toDigits_head (n : Nat) (hn : 0 < n) :
    ∃ d ds, Nat.toDigits 10 n = d :: ds ∧ d ≠ '0' := by
  induction n using Nat.strong_induction_on with
  | _ n ih =>
    rcases Nat.lt_or_ge n 10 with hlt | hge
    · exact ⟨_, [], Nat.toDigits_of_lt_base hlt, digitChar_ne_zero n hlt hn⟩
    · obtain ⟨d, ds, hds, hd⟩ := ih (n / 10) (by omega) (by omega)
      exact ⟨d, ds ++ Nat.toDigits 10 (n % 10), by rw [← toDigits_split hge, hds, List.cons_append], hd⟩

theorem isDigit_of_mem_toDigits {n : Nat} {c : Char} (h : c ∈ Nat.toDigits 10 n) :
    isDigit c = true := by
  have hc := Nat.isDigit_of_mem_toDigits (by norm_num) (by norm_num) h
  simp only [Char.isDigit, Bool.and_eq_true, decide_eq_true_eq] at hc
  simp only [isDigit, Bool.and_eq_true, decide_eq_true_eq]
  exact hc

theorem isDigit_toNat {d : Char} (hd : isDigit d = true) : 48 ≤ d.toNat ∧ d.toNat ≤ 57 := by
  simp only [isDigit, Bool.and_eq_true, decide_eq_true_eq] at hd
  exact ⟨hd.1, hd.2⟩

theorem digit_cases {d : Char} (hd : isDigit d = true) (h0 : d ≠ '0') :
    d = '1' ∨ d = '2' ∨ d = '3' ∨ d = '4' ∨ d = '5' ∨ d = '6' ∨ d = '7' ∨ d = '8' ∨ d = '9' := by
  have hb := isDigit_toNat hd
  have h48 : d.toNat ≠ 48 := fun h => h0 (Char.toNat_inj.mp h)
  simp only [← Char.toNat_inj]
  show d.toNat = 49 ∨ d.toNat = 50 ∨ d.toNat = 51 ∨ d.toNat = 52 ∨ d.toNat = 53 ∨ d.toNat = 54 ∨
    d.toNat = 55 ∨ d.toNat = 56 ∨ d.toNat = 57
  omega

theorem wordOfLiteral_ofWord (w : UInt64) : wordOfLiteral (toString w.toNat) = some w := by
  have hlist : (toString w.toNat).toList = Nat.toDigits 10 w.toNat := Nat.toList_repr
  have hne : (toString w.toNat).isEmpty = false := by
    rw [Bool.eq_false_iff, ne_eq, String.isEmpty_iff, ← String.toList_inj, hlist]
    exact Nat.toDigits_ne_nil
  have hdigits : (toString w.toNat).all Char.isDigit = true := by
    rw [String.all_bool_eq, hlist, List.all_eq_true]
    exact fun c hc => Nat.isDigit_of_mem_toDigits (by norm_num) (by norm_num) hc
  rw [wordOfLiteral, hne, hdigits, String.foldl_eq_foldl_toList, hlist, foldl_toDigits]
  simp [w.toNat_lt_size]

theorem wordSlot_ofWord (w : UInt64) (p : Place) (cur : UInt64) :
    wordSlot (Value.ofWord w) p cur = ⟨w, none⟩ := by
  simp only [wordSlot, Value.ofWord, Value.ofNat, wordOfLiteral_ofWord]

/-! ### Documents read back -/

/-- Documents the reader takes back as written: strings, natural numbers and
objects of such documents, nested at most `d` deep. -/
inductive Plain : Nat → Value → Prop
  | str (d : Nat) (s : String) : Plain d (.str s)
  | nat (d : Nat) (n : Nat) : Plain d (.ofNat n)
  | obj (d : Nat) (ms : List (String × Value)) : (∀ m ∈ ms, Plain d m.2) → Plain (d + 1) (.obj ms)

@[simp] theorem plain_str (d : Nat) (s : String) : Plain d (.str s) := .str d s

@[simp] theorem plain_ofWord (d : Nat) (w : UInt64) : Plain d (.ofWord w) := .nat d w.toNat

@[simp] theorem plain_obj_iff (d : Nat) (ms : List (String × Value)) :
    Plain d (.obj ms) ↔ 0 < d ∧ ∀ m ∈ ms, Plain (d - 1) m.2 := by
  constructor
  · intro h
    cases h with
    | obj d' _ hms => exact ⟨Nat.succ_pos d', hms⟩
  · rintro ⟨hd, hms⟩
    cases d with
    | zero => omega
    | succ d' => exact .obj d' ms hms

namespace Reader

/-- A reader holding `v` inside the containers `st`: the next separator or
closing bracket is taken as it is after `v` complete, and so is the end of the
text when `v` is the whole document. A number is held so until then. -/
structure Pending (r : Reader) (st : List Frame) (v : Value) : Prop where
  step : ∀ c, c = ',' ∨ c = '}' ∨ c = ']' → r.step c = (Reader.complete st v).afterValue c
  finish : st = [] → r.finish = .ok v

theorem pending_complete (st : List Frame) (v : Value) : (complete st v).Pending st v where
  step c _ := by
    match st with
    | [] => rfl
    | .array _ :: _ => rfl
    | .object _ (some _) :: _ => rfl
    | .object _ none :: _ => rfl
  finish h := by subst h; rfl

theorem pending_number (st : List Frame) (text : List Char) {part : NumberPart}
    (hpart : part = .zero ∨ part = .integer) :
    Pending ⟨st, .number text part⟩ st (.num (String.ofList text.reverse)) where
  step c hc := by rcases hpart with rfl | rfl <;> rcases hc with rfl | rfl | rfl <;> rfl
  finish h := by subst h; rcases hpart with rfl | rfl <;> rfl

theorem step_value_digit (st : List Frame) (b : Bool) {d : Char} (hd : isDigit d = true)
    (h0 : d ≠ '0') : step ⟨st, .value b⟩ d = .ok ⟨st, .number [d] .integer⟩ := by
  rcases digit_cases hd h0 with rfl | rfl | rfl | rfl | rfl | rfl | rfl | rfl | rfl <;> cases b <;> rfl

theorem run_digits (st : List Frame) :
    ∀ (ds text : List Char), (∀ d ∈ ds, isDigit d = true) →
      run ⟨st, .number text .integer⟩ ds = .ok ⟨st, .number (ds.reverse ++ text) .integer⟩
  | [], _, _ => rfl
  | d :: ds, text, h => by
    have hd : isDigit d = true := h d List.mem_cons_self
    have hstep : step ⟨st, .number text .integer⟩ d = .ok ⟨st, .number (d :: text) .integer⟩ := by
      simp [step, hd]
    rw [run_of_step hstep (run_digits st ds (d :: text) fun d' hd' => h d' (List.mem_cons_of_mem d hd'))]
    simp

theorem run_ofNat (st : List Frame) (b : Bool) (n : Nat) :
    ∃ r, run ⟨st, .value b⟩ (Value.ofNat n).render.toList = .ok r ∧ r.Pending st (.ofNat n) := by
  have htext : (Value.ofNat n).render.toList = Nat.toDigits 10 n := Nat.toList_repr
  have hvalue : Value.ofNat n = .num (String.ofList (Nat.toDigits 10 n).reverse.reverse) := by
    rw [List.reverse_reverse]; rfl
  rw [htext, hvalue]
  rcases Nat.eq_zero_or_pos n with rfl | hn
  · exact ⟨_, by cases b <;> rfl, pending_number st ['0'] (.inl rfl)⟩
  · obtain ⟨d, ds, hds, hd0⟩ := toDigits_head n hn
    have hdigit : ∀ c ∈ d :: ds, isDigit c = true := fun c hc => isDigit_of_mem_toDigits (hds ▸ hc)
    refine ⟨_, ?_, pending_number st _ (.inr rfl)⟩
    rw [hds, run_of_step (step_value_digit st b (hdigit d List.mem_cons_self) hd0)
      (run_digits st ds [d] fun c hc => hdigit c (List.mem_cons_of_mem d hc))]
    simp

theorem run_string (st : List Frame) (b : Bool) (s : String) :
    run ⟨st, .value b⟩ (Value.str s).render.toList = .ok (complete st (.str s)) := by
  have hquote : step ⟨st, .value b⟩ '"' = .ok ⟨st, .string [] .none false⟩ := by cases b <;> rfl
  rw [Value.render, escape_toList, run_of_step hquote (run_stringBody st false s), closeString_value]

theorem run_key (acc : List (String × Value)) (st : List Frame) (b : Bool) (k : String) :
    run ⟨.object acc none :: st, .key b⟩ (escape k ++ ":").toList =
      .ok ⟨.object acc (some k) :: st, .value false⟩ := by
  have hquote : step ⟨.object acc none :: st, .key b⟩ '"' =
      .ok ⟨.object acc none :: st, .string [] .none true⟩ := by cases b <;> rfl
  rw [String.toList_append, escape_toList, List.cons_append,
    run_of_step hquote (run_append (run_stringBody _ true k) _), closeString_key]

/-- The members of an object, each read back as written, and the closing
brace complete the object. -/
theorem run_members (st : List Frame) :
    ∀ (ms acc : List (String × Value)) (b : Bool), ms ≠ [] →
      (∀ m ∈ ms, ∀ (acc' : List (String × Value)), ∃ r,
        run ⟨.object acc' (some m.1) :: st, .value false⟩ m.2.render.toList = .ok r ∧
          r.Pending (.object acc' (some m.1) :: st) m.2) →
      run ⟨.object acc none :: st, .key b⟩ ((",".intercalate (Value.renderMembers ms)).toList ++ ['}']) =
        .ok (complete st (.obj (acc.reverse ++ ms)))
  | [], _, _, hne, _ => absurd rfl hne
  | [(k, v)], acc, b, _, hread => by
    obtain ⟨r, hr, hp⟩ := hread (k, v) List.mem_cons_self acc
    rw [Value.renderMembers, Value.renderMembers, String.intercalate_singleton, String.toList_append,
      List.append_assoc, run_append (run_key acc st b k), run_append hr, run_cons,
      hp.step '}' (.inr (.inl rfl))]
    simp [complete, afterValue, isBlank, bind, Except.bind, run]
  | (k, v) :: (k', v') :: ms, acc, b, _, hread => by
    obtain ⟨r, hr, hp⟩ := hread (k, v) List.mem_cons_self acc
    have hrest := run_members st ((k', v') :: ms) ((k, v) :: acc) false (List.cons_ne_nil _ _)
      fun m hm => hread m (List.mem_cons_of_mem _ hm)
    have htext : (",".intercalate (Value.renderMembers ((k, v) :: (k', v') :: ms))).toList ++ ['}'] =
        (escape k ++ ":").toList ++ (v.render.toList ++
          (',' :: ((",".intercalate (Value.renderMembers ((k', v') :: ms))).toList ++ ['}']))) := by
      simp [Value.renderMembers, String.intercalate_cons_cons, String.toList_append]
    rw [htext, run_append (run_key acc st b k), run_append hr, run_cons, hp.step ',' (.inl rfl),
      show acc.reverse ++ (k, v) :: (k', v') :: ms = ((k, v) :: acc).reverse ++ (k', v') :: ms by simp]
    exact hrest

theorem render_obj_toList (ms : List (String × Value)) :
    (Value.obj ms).render.toList = '{' :: ((",".intercalate (Value.renderMembers ms)).toList ++ ['}']) := by
  rw [Value.render, String.toList_append, String.toList_append]
  rfl

/-- **Reading a document.** A plain document is read up to its end and held
there, inside any containers that leave room for its nesting. -/
theorem run_plain {d : Nat} {v : Value} (hv : Plain d v) :
    ∀ (st : List Frame) (b : Bool), st.length + d ≤ maxDepth →
      ∃ r, run ⟨st, .value b⟩ v.render.toList = .ok r ∧ r.Pending st v := by
  induction hv with
  | str d s => exact fun st b _ => ⟨_, run_string st b s, pending_complete st _⟩
  | nat d n => exact fun st b _ => run_ofNat st b n
  | obj d ms _ ih =>
    intro st b hdepth
    refine ⟨complete st (.obj ms), ?_, pending_complete st _⟩
    have hopen : step ⟨st, .value b⟩ '{' = .ok ⟨.object [] none :: st, .key true⟩ := by
      have hroom : ¬st.length + 1 > maxDepth := by omega
      cases b <;> simp [step, beginValue, Reader.open, isBlank, hroom]
    rw [render_obj_toList, run_of_step hopen]
    cases ms with
    | nil => rfl
    | cons m ms =>
      exact run_members st (m :: ms) [] true (List.cons_ne_nil _ _)
        fun m hm acc' => ih m hm _ false (by simp; omega)

end Reader

/-- **Reading back what is written.** A plain document, nested no deeper than
the reader allows, is read back from its text as it was. -/
theorem parse_render {d : Nat} {v : Value} (hv : Plain d v) (hd : d ≤ maxDepth) :
    parse v.render = .ok v := by
  obtain ⟨r, hr, hp⟩ := Reader.run_plain hv [] false (by simpa using hd)
  have hrun : Reader.start.run v.render.toList = .ok r := hr
  rw [parse, hrun]
  exact hp.finish rfl

end Exchange.Json
