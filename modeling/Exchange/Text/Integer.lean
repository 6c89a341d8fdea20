import Exchange.Text.Quoted
/-!
# Decimal integers in text

`Text.readInteger` reads a signed 64-bit integer written in base 10: an
optional `+` or `-`, then one or more ASCII digits (leading zeros allowed),
nothing else. Digits are read from the left; the reading stops at the first
character that is no digit (an invalid text) or at the first digit that takes
the magnitude past 2^64 - 1 (out of range), whichever comes first. A magnitude
that fits 64 bits but not the signed range is out of range too.

`Text.readWord` reads an unsigned 64-bit integer: digits only, no sign.

Key definitions: `Text.IntegerError`, `Text.readInteger`, `Text.readWord`.
-/

namespace Exchange.Text

/-- Why a text is no integer. -/
inductive IntegerError where
  | invalid
  | outOfRange
  deriving DecidableEq

/-- The message for a text that is no integer, quoting the text. -/
def IntegerError.message (e : IntegerError) (text : String) : String :=
  "strconv.Atoi: parsing " ++ quote text ++ ": " ++
    match e with
    | .invalid => "invalid syntax"
    | .outOfRange => "value out of range"

/-- The largest 64-bit magnitude. -/
def wordMax : Nat := UInt64.size - 1

/-- Reads digits from the left onto `acc`: an invalid text at the first
non-digit, out of range at the first digit that passes `wordMax`. -/
def readDigits (acc : Nat) : List Char → Except IntegerError Nat
  | [] => .ok acc
  | c :: cs =>
    if '0' ≤ c && c ≤ '9' then
      let n := acc * 10 + (c.toNat - '0'.toNat)
      if n > wordMax then .error .outOfRange else readDigits n cs
    else .error .invalid

/-- Reads a signed 64-bit decimal integer. -/
def readInteger (s : String) : Except IntegerError Int :=
  let (neg, digits) : Bool × List Char :=
    match s.toList with
    | '-' :: rest => (true, rest)
    | '+' :: rest => (false, rest)
    | cs => (false, cs)
  if digits.isEmpty then .error .invalid
  else do
    let n ← readDigits 0 digits
    if neg then
      if n > 9223372036854775808 then throw .outOfRange else pure (-(n : Int))
    else if n ≥ 9223372036854775808 then throw .outOfRange else pure (n : Int)

/-- Reads an unsigned 64-bit decimal integer: one or more digits, no sign. -/
def readWord (s : String) : Option UInt64 :=
  if s.isEmpty then none
  else match readDigits 0 s.toList with
    | .ok n => some n.toUInt64
    | .error _ => none

end Exchange.Text
