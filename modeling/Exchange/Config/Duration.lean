import Exchange.Text.Quoted
/-!
# Durations in text

A duration is written as an optional sign and then one or more terms, each a
decimal number (digits, a point, digits; at least one digit on some side of
the point) followed at once by a unit: `ns`, `us` (or `µs`, `μs`), `ms`, `s`,
`m`, `h`. The terms add up, in nanoseconds, and the total must fit a signed
64-bit count. A lone `0` needs no unit. A unit is the run of characters up to
the next digit or point.

Integer parts are exact. A fraction is scaled by its unit in double-precision
arithmetic and truncated, which is exact to the nanosecond for every unit up
to an hour. Digits of a fraction past what 63 bits hold are ignored.

Key definitions: `DurationError`, `readDuration`.
-/

namespace Exchange

/-- Why a text is no duration. -/
inductive DurationError where
  /-- Not of the form, or beyond the signed 64-bit range. -/
  | invalid
  /-- A number without a unit. -/
  | missingUnit
  /-- A unit that is not one of the known ones. -/
  | unknownUnit (unit : String)
  deriving DecidableEq

/-- The message for a text that is no duration, quoting the text. -/
def DurationError.message (e : DurationError) (text : String) : String :=
  match e with
  | .invalid => "time: invalid duration " ++ Text.quoteBytes text
  | .missingUnit => "time: missing unit in duration " ++ Text.quoteBytes text
  | .unknownUnit u =>
    "time: unknown unit " ++ Text.quoteBytes u ++ " in duration " ++ Text.quoteBytes text

namespace Duration

/-- Nanoseconds in one of each unit. -/
def unitLength : String → Option Nat
  | "ns" => some 1
  | "us" => some 1000
  | "µs" => some 1000
  | "μs" => some 1000
  | "ms" => some 1000000
  | "s" => some 1000000000
  | "m" => some 60000000000
  | "h" => some 3600000000000
  | _ => none

/-- 2^63, the bound on every partial sum. -/
def bound : Nat := 9223372036854775808

/-- Whether a character is a decimal digit. -/
def isDigit (c : Char) : Bool := '0' ≤ c && c ≤ '9'

/-- The value of a digit. -/
def digit (c : Char) : Nat := c.toNat - '0'.toNat

/-- Reads the leading digits of an integer part; none when it passes 2^63. -/
def leadingInt (acc : Nat) : List Char → Option (Nat × List Char)
  | c :: cs =>
    if isDigit c then
      if acc > bound / 10 then none
      else
        let x := acc * 10 + digit c
        if x > bound then none else leadingInt x cs
    else some (acc, c :: cs)
  | [] => some (acc, [])

/-- Reads the leading digits of a fraction: its digits as an integer and the
power of ten it is to be divided by, ignoring digits once 63 bits are full. -/
def leadingFraction (acc : Nat) (scale : Float) (full : Bool) :
    List Char → Nat × Float × List Char
  | c :: cs =>
    if isDigit c then
      if full then leadingFraction acc scale true cs
      else if acc > (bound - 1) / 10 then leadingFraction acc scale true cs
      else
        let y := acc * 10 + digit c
        if y > bound then leadingFraction acc scale true cs
        else leadingFraction y (scale * 10) false cs
    else (acc, scale, c :: cs)
  | [] => (acc, scale, [])

/-- One term: a number and its unit, in nanoseconds, and the text after it. -/
def term (s : List Char) : Except DurationError (Nat × List Char) := do
  match s with
  | c :: _ => if !(c = '.' || isDigit c) then throw .invalid
  | [] => throw .invalid
  let (v, r) ← match leadingInt 0 s with
    | some x => pure x
    | none => throw .invalid
  let pre := r.length != s.length
  let (f, scale, r, post) : Nat × Float × List Char × Bool :=
    match r with
    | '.' :: r' =>
      let (f, scale, r'') := leadingFraction 0 1 false r'
      (f, scale, r'', r''.length != r'.length)
    | _ => (0, 1, r, false)
  if !pre && !post then throw .invalid
  let u := r.takeWhile fun c => !(c = '.' || isDigit c)
  let r := r.dropWhile fun c => !(c = '.' || isDigit c)
  if u.isEmpty then throw .missingUnit
  let unit ← match unitLength (String.ofList u) with
    | some n => pure n
    | none => throw (.unknownUnit (String.ofList u))
  if v > bound / unit then throw .invalid
  let v := v * unit
  let v :=
    if f > 0 then v + (Float.ofNat f * (Float.ofNat unit / scale)).toUInt64.toNat else v
  if v > bound then throw .invalid
  pure (v, r)

/-- Reads terms until the text ends, adding them to `acc`. -/
def terms (acc : Nat) : (fuel : Nat) → List Char → Except DurationError Nat
  | _, [] => .ok acc
  | 0, _ :: _ => .error .invalid
  | fuel + 1, s => do
    let (v, r) ← term s
    let d := acc + v
    if d > bound then throw .invalid
    terms d fuel r

end Duration

/-- Reads a duration, in nanoseconds. -/
def readDuration (text : String) : Except DurationError Int := do
  let (neg, s) : Bool × List Char :=
    match text.toList with
    | '-' :: r => (true, r)
    | '+' :: r => (false, r)
    | r => (false, r)
  if s = ['0'] then return 0
  if s.isEmpty then throw .invalid
  let d ← Duration.terms 0 s.length s
  if neg then pure (-(d : Int))
  else if d > Duration.bound - 1 then throw .invalid
  else pure (d : Int)

end Exchange
