import Exchange.Text.Utf8
/-!
# Request targets

A request target is a path, then optionally `?` and a query. Both are
percent-encoded: `%` and two hexadecimal digits stand for one byte.

* **The routing path.** The path is decoded; when escaping the decoded bytes
  again gives back the path as written, routes match the decoded path, and
  otherwise the path as written. Escaping keeps letters, digits and
  `-_.~$&+,/:;=@`, and writes every other byte as `%` and two upper-case digits.
* **The query** is a list of `&`-separated pairs `key=value` (a pair without
  `=` has an empty value). In a query `+` stands for a blank. Pairs that are
  empty, hold a `;`, or do not decode are skipped. A key's value is the first
  value given for it.

Decoding undoes escaping (`Http.percentDecode_escapePath`), so the decoded
path is the one whose escape is compared with the path as written.

Key definitions: `Http.percentDecode`, `Http.escapePath`, `Http.routingPath`,
`Http.queryPairs`, `Http.queryValue`.
Key theorem: `Http.percentDecode_escapePath`.
-/

namespace Exchange.Http

/-- The value of a hexadecimal digit byte. -/
def hexByte (b : UInt8) : Option Nat :=
  if 0x30 ≤ b && b ≤ 0x39 then some (b.toNat - 0x30)
  else if 0x41 ≤ b && b ≤ 0x46 then some (b.toNat - 0x41 + 10)
  else if 0x61 ≤ b && b ≤ 0x66 then some (b.toNat - 0x61 + 10)
  else none

/-- Decodes percent escapes; with `plus`, `+` is a blank. None when a `%` is
not followed by two hexadecimal digits. -/
def percentDecode (plus : Bool) : List UInt8 → Option (List UInt8)
  | [] => some []
  | b :: rest =>
    if b = 0x25 then
      match rest with
      | h :: l :: more =>
        match hexByte h, hexByte l, percentDecode plus more with
        | some hv, some lv, some tail => some ((hv * 16 + lv).toUInt8 :: tail)
        | _, _, _ => none
      | _ => none
    else if plus && b = 0x2B then (percentDecode plus rest).map (0x20 :: ·)
    else (percentDecode plus rest).map (b :: ·)

/-- The marks a path keeps as they are when escaped: `-_.~$&+,/:;=@`. -/
def pathMarks : List UInt8 :=
  [0x2D, 0x5F, 0x2E, 0x7E, 0x24, 0x26, 0x2B, 0x2C, 0x2F, 0x3A, 0x3B, 0x3D, 0x40]

/-- Whether a path keeps a byte as it is when escaped: letters, digits and the
path marks. -/
def keptInPath (b : UInt8) : Bool :=
  (0x61 ≤ b && b ≤ 0x7A) || (0x41 ≤ b && b ≤ 0x5A) || (0x30 ≤ b && b ≤ 0x39) ||
    pathMarks.contains b

/-- The upper-case hexadecimal digit of a value below 16, as a byte. -/
def hexDigitByte (n : Nat) : UInt8 := (if n < 10 then 0x30 + n else 0x41 + n - 10).toUInt8

/-- Escapes the bytes of a path. -/
def escapePath (bs : List UInt8) : List UInt8 :=
  bs.flatMap fun b =>
    if keptInPath b then [b] else [0x25, hexDigitByte (b.toNat / 16), hexDigitByte (b.toNat % 16)]

theorem hexByte_hexDigitByte : ∀ n, n < 16 → hexByte (hexDigitByte n) = some n := by decide

theorem keptInPath_percent : keptInPath 0x25 = false := by decide

theorem escapePath_cons (b : UInt8) (bs : List UInt8) :
    escapePath (b :: bs) =
      (if keptInPath b then [b]
       else [0x25, hexDigitByte (b.toNat / 16), hexDigitByte (b.toNat % 16)]) ++ escapePath bs := by
  simp [escapePath, List.flatMap_cons]

theorem percentDecode_plain (b : UInt8) (rest : List UInt8) (hb : b ≠ 0x25) :
    percentDecode false (b :: rest) = (percentDecode false rest).map (b :: ·) := by
  conv => lhs; unfold percentDecode
  rw [if_neg hb]
  simp only [Bool.false_and, Bool.false_eq_true, if_false]

theorem percentDecode_escape (h l : UInt8) (more : List UInt8) :
    percentDecode false (0x25 :: h :: l :: more) =
      match hexByte h, hexByte l, percentDecode false more with
      | some hv, some lv, some tail => some ((hv * 16 + lv).toUInt8 :: tail)
      | _, _, _ => none := by
  conv => lhs; unfold percentDecode
  rfl

theorem toUInt8_div_mod (b : UInt8) : (b.toNat / 16 * 16 + b.toNat % 16).toUInt8 = b := by
  rw [Nat.div_add_mod']
  exact UInt8.ofNat_toNat

/-- Decoding undoes escaping: every path is the decoding of its escape. -/
theorem percentDecode_escapePath (bs : List UInt8) :
    percentDecode false (escapePath bs) = some bs := by
  induction bs with
  | nil => rfl
  | cons b rest ih =>
    rw [escapePath_cons]
    by_cases hk : keptInPath b = true
    · have hb : b ≠ 0x25 := by
        rintro rfl
        rw [keptInPath_percent] at hk
        exact absurd hk (by decide)
      rw [if_pos hk, List.singleton_append, percentDecode_plain b _ hb, ih]
      rfl
    · have h1 := hexByte_hexDigitByte (b.toNat / 16) (by have := b.toNat_lt; omega)
      have h2 := hexByte_hexDigitByte (b.toNat % 16) (Nat.mod_lt _ (by decide))
      rw [if_neg hk, List.cons_append, List.cons_append, List.cons_append, List.nil_append,
        percentDecode_escape, h1, h2, ih]
      simp only [toUInt8_div_mod]

/-- The bytes of the path that routes match, for a path as written. -/
def routingPath (raw : String) : List UInt8 :=
  let bytes := raw.toUTF8.toList
  match percentDecode false bytes with
  | some d => if escapePath d = bytes then d else bytes
  | none => bytes

/-- One decoded pair of a query, none when it is skipped. -/
def queryPair (part : String) : Option (String × String) :=
  if part.isEmpty || part.contains ';' then none
  else
    let (k, v) := match part.splitOn "=" with
      | [] => ("", "")
      | k :: vs => (k, "=".intercalate vs)
    match percentDecode true k.toUTF8.toList, percentDecode true v.toUTF8.toList with
    | some k', some v' => some (Text.decodeUtf8 k', Text.decodeUtf8 v')
    | _, _ => none

/-- The decoded pairs of a query, in order. -/
def queryPairs (query : String) : List (String × String) :=
  (query.splitOn "&").filterMap queryPair

/-- The first value a query gives a key, empty when none. -/
def queryValue (query key : String) : String :=
  ((queryPairs query).find? (·.1 == key)).map (·.2) |>.getD ""

/-- Splits a request target into its path and its query at the first `?`. -/
def splitTarget (target : String) : String × String :=
  let (path, rest) := target.toList.span (· != '?')
  (String.ofList path, String.ofList (rest.drop 1))

end Exchange.Http
