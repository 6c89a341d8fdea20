import Exchange.Proofs.JsonReadBack
import Exchange.Json.Stream
/-!
# Every document is read back, or refused as too deep

A JSON document is well formed (`Json.WellFormed`) when each of its number
literals is one the grammar allows: an optional minus, an integer part with no
leading zero, an optional fraction and an optional exponent
(`Json.NumberText`). Every well-formed document is read back from its text as
written when it nests no deeper than the reader allows, and is refused as too
deep otherwise (`Json.parse_render_obj`).

The reading follows the text. A value followed by a separator or a closing
bracket is read as the value complete, or refused as too deep
(`Json.Reader.run_value`), by induction on the document: an object and an array
are read member by member and item by item.

A request body is read as a stream (`Json.readFront`), which ends a value as
soon as it is complete. Inside an open container no value is complete, so the
stream reads a body object as the whole text does (`Json.readFront_render_obj`).

Key definitions: `Json.NumberText`, `Json.WellFormed`, `Json.Value.depth`,
`Json.Reader.Inside`.
Key theorems: `Json.Reader.run_value`, `Json.parse_render_obj`,
`Json.readFront_render_obj`.
-/

namespace Exchange.Json

/-! ### Number literals -/

/-- Decimal digits, at least one. -/
def Digits (ds : List Char) : Prop := ds ≠ [] ∧ ∀ d ∈ ds, isDigit d = true

/-- The integer part of a number: `0`, or digits with no leading zero. -/
inductive IntPart : List Char → Prop
  | zero : IntPart ['0']
  | digits (d : Char) (ds : List Char) : isDigit d = true → d ≠ '0' → (∀ x ∈ ds, isDigit x = true) →
      IntPart (d :: ds)

/-- The fraction of a number: none, or a point and digits. -/
inductive FracPart : List Char → Prop
  | none : FracPart []
  | point (ds : List Char) : Digits ds → FracPart ('.' :: ds)

/-- The exponent of a number: none, or a mark, an optional sign and digits. -/
inductive ExpPart : List Char → Prop
  | none : ExpPart []
  | mark (e : Char) (sign ds : List Char) : (e = 'e' ∨ e = 'E') → (sign = [] ∨ sign = ['+'] ∨ sign = ['-']) →
      Digits ds → ExpPart (e :: (sign ++ ds))

/-- The text of a JSON number. -/
def NumberText (t : List Char) : Prop :=
  ∃ sign i f x, t = sign ++ i ++ f ++ x ∧ (sign = [] ∨ sign = ['-']) ∧ IntPart i ∧ FracPart f ∧ ExpPart x

/-! ### Well-formed documents -/

/-- A document whose number literals are all numbers. -/
inductive WellFormed : Value → Prop
  | null : WellFormed .null
  | bool (b : Bool) : WellFormed (.bool b)
  | num (t : String) : NumberText t.toList → WellFormed (.num t)
  | str (s : String) : WellFormed (.str s)
  | arr (items : List Value) : (∀ v ∈ items, WellFormed v) → WellFormed (.arr items)
  | obj (ms : List (String × Value)) : (∀ m ∈ ms, WellFormed m.2) → WellFormed (.obj ms)

namespace Value

mutual

/-- How deep a document nests containers. -/
def depth : Value → Nat
  | .arr items => depthItems items + 1
  | .obj ms => depthMembers ms + 1
  | _ => 0

/-- The deepest nesting of the items of an array. -/
def depthItems : List Value → Nat
  | [] => 0
  | v :: vs => max v.depth (depthItems vs)

/-- The deepest nesting of the members of an object. -/
def depthMembers : List (String × Value) → Nat
  | [] => 0
  | (_, v) :: ms => max v.depth (depthMembers ms)

end

end Value

/-! ### Reading numbers and literals -/

namespace Reader

theorem step_partDigit (st : List Frame) (text : List Char) {p : NumberPart}
    (hp : p = .integer ∨ p = .fraction ∨ p = .exponent) {d : Char} (hd : isDigit d = true) :
    step ⟨st, .number text p⟩ d = .ok ⟨st, .number (d :: text) p⟩ := by
  rcases hp with rfl | rfl | rfl <;> simp [step, hd]

theorem run_partDigits (st : List Frame) {p : NumberPart} (hp : p = .integer ∨ p = .fraction ∨ p = .exponent) :
    ∀ (ds text : List Char), (∀ d ∈ ds, isDigit d = true) →
      run ⟨st, .number text p⟩ ds = .ok ⟨st, .number (ds.reverse ++ text) p⟩
  | [], _, _ => rfl
  | d :: ds, text, h => by
    rw [run_of_step (step_partDigit st text hp (h d List.mem_cons_self))
      (run_partDigits st hp ds (d :: text) fun d' hd' => h d' (List.mem_cons_of_mem d hd'))]
    simp

theorem pending_whole (st : List Frame) (text : List Char) {part : NumberPart}
    (hpart : part.isWhole = true) :
    Pending ⟨st, .number text part⟩ st (.num (String.ofList text.reverse)) where
  step c hc := by
    cases part <;> simp only [NumberPart.isWhole, Bool.false_eq_true] at hpart <;>
      rcases hc with rfl | rfl | rfl <;> rfl
  finish h := by
    subst h
    cases part <;> simp only [NumberPart.isWhole, Bool.false_eq_true] at hpart <;> rfl

theorem run_intPart (st : List Frame) (b : Bool) {sign i : List Char} (hsign : sign = [] ∨ sign = ['-'])
    (hi : IntPart i) :
    ∃ p, (p = .zero ∨ p = .integer) ∧
      run ⟨st, .value b⟩ (sign ++ i) = .ok ⟨st, .number (i.reverse ++ sign.reverse) p⟩ := by
  rcases hsign with rfl | rfl <;> cases hi with
  | zero => exact ⟨.zero, .inl rfl, by cases b <;> rfl⟩
  | digits d ds hd h0 hds =>
    refine ⟨.integer, .inr rfl, ?_⟩
    first
      | -- no sign: the first digit starts the integer part
        rw [List.nil_append, run_of_step (step_value_digit st b hd h0)
          (run_partDigits st (.inl rfl) ds [d] hds)]
        simp
      | -- a minus, then the first digit
        have hminus : step ⟨st, .value b⟩ '-' = .ok ⟨st, .number ['-'] .minus⟩ := by cases b <;> rfl
        have hfirst : step ⟨st, .number ['-'] .minus⟩ d = .ok ⟨st, .number [d, '-'] .integer⟩ := by
          simp [step, hd, h0]
        rw [List.singleton_append, run_of_step hminus (run_of_step hfirst
          (run_partDigits st (.inl rfl) ds [d, '-'] hds))]
        simp

theorem run_fracPart (st : List Frame) {text : List Char} {p : NumberPart} (hp : p = .zero ∨ p = .integer)
    {f : List Char} (hf : FracPart f) :
    ∃ p', (p' = .zero ∨ p' = .integer ∨ p' = .fraction) ∧
      run ⟨st, .number text p⟩ f = .ok ⟨st, .number (f.reverse ++ text) p'⟩ := by
  cases hf with
  | none => exact ⟨p, by rcases hp with rfl | rfl <;> simp, rfl⟩
  | point ds hds =>
    obtain ⟨hne, hdigits⟩ := hds
    obtain ⟨d, ds, rfl⟩ := List.exists_cons_of_ne_nil hne
    have hd : isDigit d = true := hdigits d List.mem_cons_self
    have hpoint : step ⟨st, .number text p⟩ '.' = .ok ⟨st, .number ('.' :: text) .point⟩ := by
      rcases hp with rfl | rfl <;> rfl
    have hfirst : step ⟨st, .number ('.' :: text) .point⟩ d = .ok ⟨st, .number (d :: '.' :: text) .fraction⟩ := by
      simp [step, hd]
    refine ⟨.fraction, .inr (.inr rfl), ?_⟩
    rw [run_of_step hpoint (run_of_step hfirst (run_partDigits st (.inr (.inl rfl)) ds _
      fun x hx => hdigits x (List.mem_cons_of_mem d hx)))]
    simp

/-- An exponent leaves the number where it was, or in its exponent: either
way at a part it may end with. -/
theorem run_expPart (st : List Frame) {text : List Char} {p : NumberPart}
    (hp : p = .zero ∨ p = .integer ∨ p = .fraction) {x : List Char} (hx : ExpPart x) :
    ∃ p', p'.isWhole = true ∧ run ⟨st, .number text p⟩ x = .ok ⟨st, .number (x.reverse ++ text) p'⟩ := by
  cases hx with
  | none => exact ⟨p, by rcases hp with rfl | rfl | rfl <;> rfl, rfl⟩
  | mark e sign ds he hsign hds =>
    obtain ⟨hne, hdigits⟩ := hds
    obtain ⟨d, ds, rfl⟩ := List.exists_cons_of_ne_nil hne
    have hd : isDigit d = true := hdigits d List.mem_cons_self
    have hrest : ∀ y ∈ ds, isDigit y = true := fun y hy => hdigits y (List.mem_cons_of_mem d hy)
    have hmark : step ⟨st, .number text p⟩ e = .ok ⟨st, .number (e :: text) .exponentMark⟩ := by
      rcases he with rfl | rfl <;> rcases hp with rfl | rfl | rfl <;> rfl
    refine ⟨.exponent, rfl, ?_⟩
    have hsigned : ∀ c, c = '+' ∨ c = '-' →
        run ⟨st, .number (e :: text) .exponentMark⟩ (c :: d :: ds) =
          .ok ⟨st, .number (ds.reverse ++ d :: c :: e :: text) .exponent⟩ := by
      intro c hc
      have hsign : step ⟨st, .number (e :: text) .exponentMark⟩ c =
          .ok ⟨st, .number (c :: e :: text) .exponentSign⟩ := by
        rcases hc with rfl | rfl <;> rfl
      have hfirst : step ⟨st, .number (c :: e :: text) .exponentSign⟩ d =
          .ok ⟨st, .number (d :: c :: e :: text) .exponent⟩ := by
        simp [step, hd]
      rw [run_of_step hsign (run_of_step hfirst (run_partDigits st (.inr (.inr rfl)) ds _ hrest))]
    rcases hsign with rfl | rfl | rfl
    · have hfirst : step ⟨st, .number (e :: text) .exponentMark⟩ d =
          .ok ⟨st, .number (d :: e :: text) .exponent⟩ := by
        have hsign : ¬(d = '+' ∨ d = '-') := by
          rintro (rfl | rfl) <;> simp [isDigit] at hd
        simp [step, hd, hsign]
      rw [List.nil_append, run_of_step hmark (run_of_step hfirst
        (run_partDigits st (.inr (.inr rfl)) ds _ hrest))]
      simp
    · rw [List.singleton_append, run_of_step hmark (hsigned '+' (.inl rfl))]
      simp
    · rw [List.singleton_append, run_of_step hmark (hsigned '-' (.inr rfl))]
      simp

/-- A number is read up to its last character and held there. -/
theorem run_number (st : List Frame) (b : Bool) {t : String} (ht : NumberText t.toList) :
    ∃ r, run ⟨st, .value b⟩ (Value.num t).render.toList = .ok r ∧ r.Pending st (.num t) := by
  obtain ⟨sign, i, f, x, htext, hsign, hi, hf, hx⟩ := ht
  obtain ⟨p, hp, hint⟩ := run_intPart st b hsign hi
  obtain ⟨p', hp', hfrac⟩ := run_fracPart st hp hf
  obtain ⟨p'', hwhole, hexp⟩ := run_expPart st hp' hx
  have hvalue : Value.num t = .num (String.ofList (x.reverse ++ (f.reverse ++ (i.reverse ++ sign.reverse))).reverse) := by
    rw [show x.reverse ++ (f.reverse ++ (i.reverse ++ sign.reverse)) = (sign ++ i ++ f ++ x).reverse by simp,
      List.reverse_reverse, ← htext, String.ofList_toList]
  refine ⟨_, ?_, hvalue ▸ pending_whole st _ hwhole⟩
  rw [show (Value.num t).render.toList = sign ++ i ++ f ++ x from htext, run_append (run_append hint f |>.trans hfrac) x, hexp]

theorem run_null (st : List Frame) (b : Bool) :
    run ⟨st, .value b⟩ Value.null.render.toList = .ok (complete st .null) := by
  cases b <;> rfl

theorem run_bool (st : List Frame) (b : Bool) (v : Bool) :
    run ⟨st, .value b⟩ (Value.bool v).render.toList = .ok (complete st (.bool v)) := by
  cases v <;> cases b <;> rfl

end Reader

/-! ### The stream inside a container -/

namespace Reader

/-- A reader inside an open container, before the value that closes it: no
value is complete before its next character. -/
def Inside (r : Reader) : Prop := r.stack ≠ [] ∧ ∀ v, r.mode ≠ .finished v

theorem complete_inside {st : List Frame} (hne : st ≠ []) (v : Value) : Inside (complete st v) := by
  match st, hne with
  | .array _ :: _, _ => exact ⟨by simp [complete], by simp [complete]⟩
  | .object _ (some _) :: _, _ => exact ⟨by simp [complete], by simp [complete]⟩
  | .object _ none :: _, _ => exact ⟨by simp [complete], by simp [complete]⟩

theorem complete_cases (st : List Frame) (v : Value) :
    Inside (complete st v) ∨ ∃ v', complete st v = ⟨[], .finished v'⟩ := by
  cases st with
  | nil => exact .inr ⟨v, rfl⟩
  | cons f fs => exact .inl (complete_inside (List.cons_ne_nil f fs) v)

theorem afterValue_inside {r r' : Reader} {c : Char} (h : Inside r) (hs : r.afterValue c = .ok r') :
    Inside r' ∨ ∃ v, r' = ⟨[], .finished v⟩ := by
  obtain ⟨stack, mode⟩ := r
  obtain ⟨hne, hnf⟩ := h
  unfold afterValue at hs
  split at hs
  · cases hs
    exact .inl ⟨hne, hnf⟩
  · split at hs
    · cases hs
    · split at hs
      · cases hs; exact .inl ⟨hne, by simp⟩
      · split at hs
        · cases hs; exact complete_cases _ _
        · cases hs
    · split at hs
      · cases hs; exact .inl ⟨hne, by simp⟩
      · split at hs
        · cases hs; exact complete_cases _ _
        · cases hs
    · cases hs

theorem beginValue_inside {stack : List Frame} (hne : stack ≠ []) {c : Char} {r' : Reader}
    (hs : beginValue stack c = .ok r') : Inside r' := by
  unfold beginValue Reader.open at hs
  split at hs
  all_goals first
    | (split at hs
       · cases hs
       · cases hs; exact ⟨by simp, by simp⟩)
    | (cases hs; exact ⟨hne, by simp⟩)
    | (split at hs
       · cases hs; exact ⟨hne, by simp⟩
       · cases hs)

theorem gatherEscape_inside {stack : List Frame} (hne : stack ≠ []) {what : List UInt8} {c : Char}
    {r' : Reader} (hs : gatherEscape stack what c = .ok r') : Inside r' := by
  unfold gatherEscape at hs
  dsimp only at hs
  split at hs
  · cases hs
  · cases hs; exact ⟨hne, by simp⟩

theorem closeString_inside {stack : List Frame} (hne : stack ≠ []) (body : List Char) (isKey : Bool) :
    Inside (closeString stack body isKey) := by
  unfold closeString
  split
  · split
    · exact ⟨by simp, by simp⟩
    · exact complete_inside hne _
  · exact complete_inside hne _

/-- **One character inside a container.** It leaves the reader inside a
container, or ends the document. -/
theorem step_inside {r r' : Reader} {c : Char} (h : Inside r) (hs : r.step c = .ok r') :
    Inside r' ∨ ∃ v, r' = ⟨[], .finished v⟩ := by
  obtain ⟨stack, mode⟩ := r
  have hne : stack ≠ [] := h.1
  cases mode with
  | finished v => exact absurd rfl (h.2 v)
  | next => exact afterValue_inside h hs
  | badEscape what => exact .inl (gatherEscape_inside hne hs)
  | value orClose =>
    simp only [step] at hs
    split at hs
    · cases hs; exact .inl h
    · split at hs
      · split at hs
        · cases hs; exact complete_cases _ _
        · cases hs
      · exact .inl (beginValue_inside hne hs)
  | key orClose =>
    simp only [step] at hs
    split at hs
    · cases hs; exact .inl h
    · split at hs
      · split at hs
        · cases hs; exact complete_cases _ _
        · cases hs
      · split at hs
        · cases hs; exact .inl ⟨hne, by simp⟩
        · cases hs
  | colon =>
    simp only [step] at hs
    split at hs
    · cases hs; exact .inl h
    · split at hs
      · cases hs; exact .inl ⟨hne, by simp⟩
      · cases hs
  | string body esc isKey =>
    simp only [step] at hs
    split at hs
    · split at hs
      · cases hs; exact .inl (closeString_inside hne _ _)
      · split at hs
        · cases hs; exact .inl ⟨hne, by simp⟩
        · split at hs
          · cases hs
          · cases hs; exact .inl ⟨hne, by simp⟩
    · split at hs
      · cases hs; exact .inl ⟨hne, by simp⟩
      · split at hs
        · cases hs; exact .inl ⟨hne, by simp⟩
        · cases hs
    · split at hs
      · cases hs; exact .inl ⟨hne, by simp⟩
      · exact .inl (gatherEscape_inside hne hs)
  | number text part =>
    simp only [step] at hs
    have hdone : ∀ {r''}, (complete stack (.num (String.ofList text.reverse))).afterValue c = .ok r'' →
        Inside r'' ∨ ∃ v, r'' = ⟨[], .finished v⟩ :=
      fun hr => afterValue_inside (complete_inside hne _) hr
    cases part <;> simp only at hs <;> (repeat' split at hs) <;>
      first
        | exact hdone hs
        | (cases hs; exact .inl ⟨hne, by simp⟩)
        | cases hs
  | literal word rest v =>
    simp only [step] at hs
    split at hs
    · exact afterValue_inside h hs
    · split at hs
      · split at hs
        · cases hs; exact .inl (complete_inside hne _)
        · cases hs; exact .inl ⟨hne, by simp⟩
      · cases hs

theorem endNumber_inside {r r'' : Reader} (h : Inside r) (c : Char) (he : r.endNumber c = some r'') :
    Inside r'' := by
  obtain ⟨stack, mode⟩ := r
  unfold endNumber at he
  split at he
  · split at he
    · cases he
    · cases he
      exact complete_inside h.1 _
  · cases he

theorem doneBefore_inside {r : Reader} (h : Inside r) (c : Char) : r.doneBefore c = none := by
  unfold doneBefore
  split
  · next v hmode => exact absurd hmode (h.2 v)
  · split
    · next stack v he => exact absurd rfl ((endNumber_inside h c he).2 v)
    · rfl

/-- Past the end of the document only blanks may follow. -/
theorem run_finished {v : Value} :
    ∀ (xs : List Char) {r' : Reader}, run ⟨[], .finished v⟩ xs = .ok r' → r' = ⟨[], .finished v⟩
  | [], _, h => by cases h; rfl
  | x :: xs, r', h => by
    rw [run_cons] at h
    by_cases hb : isBlank x = true
    · have hstep : step ⟨[], .finished v⟩ x = .ok ⟨[], .finished v⟩ := by simp [step, afterValue, hb]
      rw [hstep] at h
      exact run_finished xs h
    · have hstep : step ⟨[], .finished v⟩ x = .error (.invalid x .endOfText) := by
        simp [step, afterValue, hb]
      rw [hstep] at h
      cases h

theorem run_finished_error {v : Value} :
    ∀ (xs : List Char) {e : SyntaxError}, run ⟨[], .finished v⟩ xs = .error e → ∃ c, e = .invalid c .endOfText
  | [], _, h => by cases h
  | x :: xs, e, h => by
    rw [run_cons] at h
    by_cases hb : isBlank x = true
    · have hstep : step ⟨[], .finished v⟩ x = .ok ⟨[], .finished v⟩ := by simp [step, afterValue, hb]
      rw [hstep] at h
      exact run_finished_error xs h
    · have hstep : step ⟨[], .finished v⟩ x = .error (.invalid x .endOfText) := by
        simp [step, afterValue, hb]
      rw [hstep] at h
      cases h
      exact ⟨x, rfl⟩

theorem run_cons_ok {r r' : Reader} {x : Char} {xs : List Char} (h : r.run (x :: xs) = .ok r') :
    ∃ r₁, r.step x = .ok r₁ ∧ r₁.run xs = .ok r' := by
  rw [run_cons] at h
  cases hs : r.step x with
  | error e => rw [hs] at h; cases h
  | ok r₁ => rw [hs] at h; exact ⟨r₁, rfl, h⟩

/-- **The stream inside a container.** From inside a container, the stream
reads what the whole text reads, up to any point where the reader is still
inside one. -/
theorem front_of_run {r r' : Reader} (h : Inside r) (hr' : Inside r') (ys : List Char) :
    ∀ (xs : List Char) (seen : Bool), r.run xs = .ok r' → ∃ seen', r.front seen (xs ++ ys) = r'.front seen' ys := by
  intro xs
  induction xs generalizing r with
  | nil =>
    intro seen hrun
    cases hrun
    exact ⟨seen, rfl⟩
  | cons x xs ih =>
    intro seen hrun
    obtain ⟨r₁, hstep, hrest⟩ := run_cons_ok hrun
    rcases step_inside h hstep with hin | ⟨v, rfl⟩
    · obtain ⟨seen', hfront⟩ := ih hin (seen || !isBlank x) hrest
      refine ⟨seen', ?_⟩
      rw [List.cons_append, front, doneBefore_inside h, hstep]
      exact hfront
    · rw [run_finished xs hrest] at hr'
      exact absurd rfl hr'.1

/-- From inside a container, a text refused as too deep is refused so by the
stream. -/
theorem front_of_run_tooDeep {r : Reader} (h : Inside r) (ys : List Char) :
    ∀ (xs : List Char) (seen : Bool), r.run xs = .error .tooDeep →
      r.front seen (xs ++ ys) = .error (.invalid .tooDeep) := by
  intro xs
  induction xs generalizing r with
  | nil => intro _ hrun; cases hrun
  | cons x xs ih =>
    intro seen hrun
    rw [List.cons_append, front, doneBefore_inside h]
    rw [run_cons] at hrun
    cases hstep : r.step x with
    | error e =>
      rw [hstep] at hrun
      cases hrun
      rfl
    | ok r₁ =>
      rw [hstep] at hrun
      rcases step_inside h hstep with hin | ⟨v, rfl⟩
      · exact ih hin _ hrun
      · obtain ⟨c, hc⟩ := run_finished_error xs hrun
        cases hc

theorem run_inside {r : Reader} (h : Inside r) :
    ∀ (xs : List Char) {r' : Reader}, r.run xs = .ok r' → Inside r' ∨ ∃ v, r' = ⟨[], .finished v⟩ := by
  intro xs
  induction xs generalizing r with
  | nil => intro r' hrun; cases hrun; exact .inl h
  | cons x xs ih =>
    intro r' hrun
    obtain ⟨r₁, hstep, hrest⟩ := run_cons_ok hrun
    rcases step_inside h hstep with hin | ⟨v, rfl⟩
    · exact ih hin hrest
    · exact .inr ⟨v, run_finished xs hrest⟩

theorem run_append_ok {r r' : Reader} {xs ys : List Char} (h : r.run (xs ++ ys) = .ok r') :
    ∃ r₁, r.run xs = .ok r₁ ∧ r₁.run ys = .ok r' := by
  induction xs generalizing r with
  | nil => exact ⟨r, rfl, h⟩
  | cons x xs ih =>
    obtain ⟨r₀, hstep, hrest⟩ := run_cons_ok h
    obtain ⟨r₁, hr₁, hys⟩ := ih hrest
    exact ⟨r₁, run_of_step hstep hr₁, hys⟩

end Reader

/-! ### Reading documents, and refusing the ones too deep -/

namespace Reader

theorem step_complete (st : List Frame) (v : Value) (c : Char) :
    (complete st v).step c = (complete st v).afterValue c := by
  match st with
  | [] => rfl
  | .array _ :: _ => rfl
  | .object _ (some _) :: _ => rfl
  | .object _ none :: _ => rfl

theorem run_pending {r₀ r : Reader} {xs : List Char} {st : List Frame} {v : Value}
    (hr : r₀.run xs = .ok r) (hp : r.Pending st v) {c : Char} (hc : c = ',' ∨ c = '}' ∨ c = ']')
    (rest : List Char) :
    r₀.run (xs ++ c :: rest) = (do (← (complete st v).afterValue c).run rest) := by
  rw [run_append hr, run_cons, hp.step c hc]

/-- How a value followed by a separator or a closing bracket is read inside
the containers `st`: as the value complete, when it nests no deeper than the
reader allows, and else refused as too deep. -/
def ReadsThen (st : List Frame) (v : Value) : Prop :=
  ∀ (b : Bool) (c : Char) (rest : List Char), (c = ',' ∨ c = '}' ∨ c = ']') →
    run ⟨st, .value b⟩ (v.render.toList ++ c :: rest) =
      if st.length + v.depth ≤ maxDepth then (do (← (complete st v).afterValue c).run rest)
      else .error .tooDeep

theorem readsThen_of_pending {st : List Frame} {v : Value} (hst : st.length ≤ maxDepth) (hdepth : v.depth = 0)
    (hread : ∀ b, ∃ r, run ⟨st, .value b⟩ v.render.toList = .ok r ∧ r.Pending st v) : ReadsThen st v := by
  intro b c rest hc
  obtain ⟨r, hr, hp⟩ := hread b
  rw [if_pos (by omega)]
  exact run_pending hr hp hc rest

/-- The members of an object, each read as `ReadsThen` says, and the closing
brace: the object complete, or refused as too deep. -/
theorem run_membersThen (st : List Frame) :
    ∀ (ms acc : List (String × Value)) (b : Bool) (rest : List Char), ms ≠ [] →
      (∀ m ∈ ms, ∀ acc', ReadsThen (.object acc' (some m.1) :: st) m.2) →
      run ⟨.object acc none :: st, .key b⟩ ((",".intercalate (Value.renderMembers ms)).toList ++ '}' :: rest) =
        if st.length + 1 + Value.depthMembers ms ≤ maxDepth then
          (complete st (.obj (acc.reverse ++ ms))).run rest
        else .error .tooDeep
  | [], _, _, _, hne, _ => absurd rfl hne
  | [(k, v)], acc, b, rest, _, hread => by
    have htext : (",".intercalate (Value.renderMembers [(k, v)])).toList ++ '}' :: rest =
        (escape k ++ ":").toList ++ (v.render.toList ++ '}' :: rest) := by
      simp [Value.renderMembers, String.toList_append]
    have hclose : (complete (.object acc (some k) :: st) v).afterValue '}' =
        .ok (complete st (.obj (acc.reverse ++ [(k, v)]))) := by
      simp [complete, afterValue, isBlank]
    have hdepth : Value.depthMembers [(k, v)] = v.depth := by simp [Value.depthMembers]
    rw [htext, run_append (run_key acc st b k), hread (k, v) List.mem_cons_self acc false '}' rest (by simp),
      hdepth, List.length_cons]
    split
    · rw [hclose]
      rfl
    · rfl
  | (k, v) :: m' :: ms, acc, b, rest, _, hread => by
    have htext : (",".intercalate (Value.renderMembers ((k, v) :: m' :: ms))).toList ++ '}' :: rest =
        (escape k ++ ":").toList ++ (v.render.toList ++
          (',' :: ((",".intercalate (Value.renderMembers (m' :: ms))).toList ++ '}' :: rest))) := by
      simp [Value.renderMembers, String.intercalate_cons_cons, String.toList_append]
    have hnext : (complete (.object acc (some k) :: st) v).afterValue ',' =
        .ok ⟨.object ((k, v) :: acc) none :: st, .key false⟩ := by
      simp [complete, afterValue, isBlank]
    have hrest := run_membersThen st (m' :: ms) ((k, v) :: acc) false rest (List.cons_ne_nil _ _)
      fun m hm => hread m (List.mem_cons_of_mem _ hm)
    have hdepth : Value.depthMembers ((k, v) :: m' :: ms) = max v.depth (Value.depthMembers (m' :: ms)) := rfl
    rw [htext, run_append (run_key acc st b k), hread (k, v) List.mem_cons_self acc false ',' _ (by simp),
      List.length_cons, hdepth,
      show acc.reverse ++ (k, v) :: m' :: ms = ((k, v) :: acc).reverse ++ m' :: ms by simp]
    by_cases hv : st.length + 1 + v.depth ≤ maxDepth
    · rw [if_pos hv, hnext]
      change run ⟨.object ((k, v) :: acc) none :: st, .key false⟩ _ = _
      rw [hrest]
      by_cases hms : st.length + 1 + Value.depthMembers (m' :: ms) ≤ maxDepth
      · rw [if_pos hms, if_pos (by omega)]
      · rw [if_neg hms, if_neg (by omega)]
    · rw [if_neg hv, if_neg (by omega)]

/-- The items of an array, each read as `ReadsThen` says, and the closing
bracket: the array complete, or refused as too deep. -/
theorem run_itemsThen (st : List Frame) :
    ∀ (items acc : List Value) (b : Bool) (rest : List Char), items ≠ [] →
      (∀ v ∈ items, ∀ acc', ReadsThen (.array acc' :: st) v) →
      run ⟨.array acc :: st, .value b⟩ ((",".intercalate (Value.renderItems items)).toList ++ ']' :: rest) =
        if st.length + 1 + Value.depthItems items ≤ maxDepth then
          (complete st (.arr (acc.reverse ++ items))).run rest
        else .error .tooDeep
  | [], _, _, _, hne, _ => absurd rfl hne
  | [v], acc, b, rest, _, hread => by
    have htext : (",".intercalate (Value.renderItems [v])).toList ++ ']' :: rest =
        v.render.toList ++ ']' :: rest := by
      simp [Value.renderItems]
    have hclose : (complete (.array acc :: st) v).afterValue ']' =
        .ok (complete st (.arr (acc.reverse ++ [v]))) := by
      simp [complete, afterValue, isBlank]
    have hdepth : Value.depthItems [v] = v.depth := by simp [Value.depthItems]
    rw [htext, hread v List.mem_cons_self acc b ']' rest (by simp), hdepth, List.length_cons]
    split
    · rw [hclose]
      rfl
    · rfl
  | v :: v' :: items, acc, b, rest, _, hread => by
    have htext : (",".intercalate (Value.renderItems (v :: v' :: items))).toList ++ ']' :: rest =
        v.render.toList ++ (',' :: ((",".intercalate (Value.renderItems (v' :: items))).toList ++ ']' :: rest)) := by
      simp [Value.renderItems, String.intercalate_cons_cons, String.toList_append]
    have hnext : (complete (.array acc :: st) v).afterValue ',' =
        .ok ⟨.array (v :: acc) :: st, .value false⟩ := by
      simp [complete, afterValue, isBlank]
    have hrest := run_itemsThen st (v' :: items) (v :: acc) false rest (List.cons_ne_nil _ _)
      fun u hu => hread u (List.mem_cons_of_mem _ hu)
    have hdepth : Value.depthItems (v :: v' :: items) = max v.depth (Value.depthItems (v' :: items)) := rfl
    rw [htext, hread v List.mem_cons_self acc b ',' _ (by simp), List.length_cons, hdepth,
      show acc.reverse ++ v :: v' :: items = (v :: acc).reverse ++ v' :: items by simp]
    by_cases hv : st.length + 1 + v.depth ≤ maxDepth
    · rw [if_pos hv, hnext]
      change run ⟨.array (v :: acc) :: st, .value false⟩ _ = _
      rw [hrest]
      by_cases hitems : st.length + 1 + Value.depthItems (v' :: items) ≤ maxDepth
      · rw [if_pos hitems, if_pos (by omega)]
      · rw [if_neg hitems, if_neg (by omega)]
    · rw [if_neg hv, if_neg (by omega)]

end Reader

theorem render_arr_toList (items : List Value) :
    (Value.arr items).render.toList = '[' :: ((",".intercalate (Value.renderItems items)).toList ++ [']']) := by
  rw [Value.render, String.toList_append, String.toList_append]
  rfl

namespace Reader

/-- **Reading a document.** A well-formed document followed by a separator or
a closing bracket, inside containers the reader allows, is read as the
document complete when it nests no deeper than the reader allows, and is
refused as too deep otherwise. -/
theorem readsThen {v : Value} (hv : WellFormed v) :
    ∀ st : List Frame, st.length ≤ maxDepth → ReadsThen st v := by
  induction hv with
  | null => exact fun st hst => readsThen_of_pending hst rfl fun b => ⟨_, run_null st b, pending_complete st _⟩
  | bool x => exact fun st hst => readsThen_of_pending hst rfl fun b => ⟨_, run_bool st b x, pending_complete st _⟩
  | num t ht => exact fun st hst => readsThen_of_pending hst rfl fun b => run_number st b ht
  | str s => exact fun st hst => readsThen_of_pending hst rfl fun b => ⟨_, run_string st b s, pending_complete st _⟩
  | arr items _ ih =>
    intro st hst b c rest hc
    have hdepth : (Value.arr items).depth = Value.depthItems items + 1 := by simp [Value.depth]
    rw [render_arr_toList, List.cons_append, List.append_assoc, List.singleton_append, run_cons, hdepth]
    by_cases hroom : st.length + 1 ≤ maxDepth
    · have hopen : step ⟨st, .value b⟩ '[' = .ok ⟨.array [] :: st, .value true⟩ := by
        have hfits : ¬st.length + 1 > maxDepth := by omega
        cases b <;> simp [step, beginValue, Reader.open, isBlank, hfits]
      rw [hopen]
      change run ⟨.array [] :: st, .value true⟩ _ = _
      cases items with
      | nil =>
        rw [if_pos (by simp [Value.depthItems]; omega)]
        have hclose : step ⟨.array [] :: st, .value true⟩ ']' = .ok (complete st (.arr [])) := by
          simp [step, isBlank]
        rw [show (",".intercalate (Value.renderItems [])).toList ++ ']' :: c :: rest = ']' :: c :: rest from rfl,
          run_cons, hclose]
        change run (complete st (.arr [])) (c :: rest) = _
        rw [run_cons, step_complete]
      | cons u us =>
        rw [run_itemsThen st (u :: us) [] true (c :: rest) (List.cons_ne_nil _ _)
          fun v hv acc' => ih v hv (.array acc' :: st) (by simp; omega), List.reverse_nil, List.nil_append]
        split
        · rw [if_pos (by omega), run_cons, step_complete]
        · rw [if_neg (by omega)]
    · have hdeep : step ⟨st, .value b⟩ '[' = .error .tooDeep := by
        have hover : st.length + 1 > maxDepth := by omega
        cases b <;> simp [step, beginValue, Reader.open, isBlank, hover]
      rw [hdeep, if_neg (by omega)]
      rfl
  | obj ms _ ih =>
    intro st hst b c rest hc
    have hdepth : (Value.obj ms).depth = Value.depthMembers ms + 1 := by simp [Value.depth]
    rw [render_obj_toList, List.cons_append, List.append_assoc, List.singleton_append, run_cons, hdepth]
    by_cases hroom : st.length + 1 ≤ maxDepth
    · have hopen : step ⟨st, .value b⟩ '{' = .ok ⟨.object [] none :: st, .key true⟩ := by
        have hfits : ¬st.length + 1 > maxDepth := by omega
        cases b <;> simp [step, beginValue, Reader.open, isBlank, hfits]
      rw [hopen]
      change run ⟨.object [] none :: st, .key true⟩ _ = _
      cases ms with
      | nil =>
        rw [if_pos (by simp [Value.depthMembers]; omega)]
        have hclose : step ⟨.object [] none :: st, .key true⟩ '}' = .ok (complete st (.obj [])) := by
          simp [step, isBlank]
        rw [show (",".intercalate (Value.renderMembers [])).toList ++ '}' :: c :: rest = '}' :: c :: rest from rfl,
          run_cons, hclose]
        change run (complete st (.obj [])) (c :: rest) = _
        rw [run_cons, step_complete]
      | cons m ms =>
        rw [run_membersThen st (m :: ms) [] true (c :: rest) (List.cons_ne_nil _ _)
          fun m hm acc' => ih m hm (.object acc' (some m.1) :: st) (by simp; omega), List.reverse_nil,
          List.nil_append]
        split
        · rw [if_pos (by omega), run_cons, step_complete]
        · rw [if_neg (by omega)]
    · have hdeep : step ⟨st, .value b⟩ '{' = .error .tooDeep := by
        have hover : st.length + 1 > maxDepth := by omega
        cases b <;> simp [step, beginValue, Reader.open, isBlank, hover]
      rw [hdeep, if_neg (by omega)]
      rfl

end Reader

/-! ### Documents that are objects -/

namespace Reader

/-- The reader after the brace that opens a document. -/
def opened : Reader := ⟨[.object [] none], .key true⟩

theorem opened_inside : Inside opened := ⟨by simp [opened], by simp [opened]⟩

theorem step_start_brace : step start '{' = .ok opened := rfl

theorem run_opened {ms : List (String × Value)} (hms : ∀ m ∈ ms, WellFormed m.2) :
    opened.run ((",".intercalate (Value.renderMembers ms)).toList ++ ['}']) =
      if (Value.obj ms).depth ≤ maxDepth then .ok ⟨[], .finished (.obj ms)⟩ else .error .tooDeep := by
  have hdepth : (Value.obj ms).depth = Value.depthMembers ms + 1 := by simp [Value.depth]
  rw [hdepth]
  cases ms with
  | nil => rfl
  | cons m ms =>
    rw [opened, run_membersThen [] (m :: ms) [] true [] (List.cons_ne_nil _ _)
      fun m' hm acc' => readsThen (hms m' hm) _ (by simp [maxDepth])]
    simp only [List.length_nil, List.reverse_nil, List.nil_append]
    split
    · rw [if_pos (by omega)]
      rfl
    · rw [if_neg (by omega)]

end Reader

/-- **Reading back an object.** A well-formed object is read back from its
text as written when it nests no deeper than the reader allows, and is refused
as too deep otherwise. -/
theorem parse_render_obj {ms : List (String × Value)} (hms : ∀ m ∈ ms, WellFormed m.2) :
    parse (Value.obj ms).render =
      if (Value.obj ms).depth ≤ maxDepth then .ok (.obj ms) else .error .tooDeep := by
  have hrun : Reader.start.run (Value.obj ms).render.toList =
      Reader.opened.run ((",".intercalate (Value.renderMembers ms)).toList ++ ['}']) := by
    rw [Reader.render_obj_toList, Reader.run_cons, Reader.step_start_brace]
    rfl
  rw [parse, hrun, Reader.run_opened hms]
  split <;> rfl

/-- **Reading an object off a stream.** A well-formed object is read off the
front of its text, with nothing left, when it nests no deeper than the reader
allows, and is refused as too deep otherwise. -/
theorem readFront_render_obj {ms : List (String × Value)} (hms : ∀ m ∈ ms, WellFormed m.2) :
    readFront (Value.obj ms).render.toList =
      if (Value.obj ms).depth ≤ maxDepth then .ok (.obj ms, []) else .error (.invalid .tooDeep) := by
  have hfront : readFront (Value.obj ms).render.toList =
      Reader.opened.front true ((",".intercalate (Value.renderMembers ms)).toList ++ ['}']) := by
    rw [Reader.render_obj_toList, readFront, Reader.front]
    rfl
  have hrun := Reader.run_opened hms
  rw [hfront]
  split
  · next hfits =>
    rw [if_pos hfits] at hrun
    obtain ⟨r₁, hr₁, hclose⟩ := Reader.run_append_ok hrun
    obtain ⟨r₂, hstep, hend⟩ := Reader.run_cons_ok hclose
    cases hend
    have hin : Reader.Inside r₁ := by
      rcases Reader.run_inside Reader.opened_inside _ hr₁ with hin | ⟨v, rfl⟩
      · exact hin
      · simp [Reader.step, Reader.afterValue, isBlank] at hstep
    obtain ⟨seen', hseen⟩ := Reader.front_of_run Reader.opened_inside hin ['}'] _ true hr₁
    rw [hseen, Reader.front, Reader.doneBefore_inside hin, hstep]
    rfl
  · next hdeep =>
    rw [if_neg hdeep] at hrun
    have h := Reader.front_of_run_tooDeep Reader.opened_inside [] _ true hrun
    rwa [List.append_nil] at h

end Exchange.Json
