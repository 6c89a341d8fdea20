/-!
# Reading UTF-8 bytes

`Text.decodeUtf8` reads a byte list as UTF-8 text. A well-formed sequence
(shortest form, no surrogate halves, at most U+10FFFF) is one character. A
byte that starts no well-formed sequence stands for U+FFFD on its own, and
reading goes on with the byte after it. `Text.utf8Text?` reads bytes only
when they are all well-formed, as the text that gives them back.

Key definitions: `Text.utf8Front`, `Text.decodeUtf8`, `Text.utf8Text?`.
-/

namespace Exchange.Text

/-- Whether a byte continues a multi-byte sequence. -/
def isContinuation (b : UInt8) : Bool := 0x80 ≤ b && b ≤ 0xBF

/-- The length of the sequence a lead byte starts, with the range its second
byte must fall in; none for a byte that starts no multi-byte sequence. -/
def leadShape (b : UInt8) : Option (Nat × UInt8 × UInt8) :=
  if 0xC2 ≤ b && b ≤ 0xDF then some (2, 0x80, 0xBF)
  else if b = 0xE0 then some (3, 0xA0, 0xBF)
  else if 0xE1 ≤ b && b ≤ 0xEC then some (3, 0x80, 0xBF)
  else if b = 0xED then some (3, 0x80, 0x9F)
  else if 0xEE ≤ b && b ≤ 0xEF then some (3, 0x80, 0xBF)
  else if b = 0xF0 then some (4, 0x90, 0xBF)
  else if 0xF1 ≤ b && b ≤ 0xF3 then some (4, 0x80, 0xBF)
  else if b = 0xF4 then some (4, 0x80, 0x8F)
  else none

/-- The low six bits of a continuation byte. -/
def payload (b : UInt8) : Nat := b.toNat % 64

/-- The character at the front of the bytes `b :: bs`, and how many of `bs`
it takes besides `b`. -/
def utf8Front (b : UInt8) (bs : List UInt8) : Char × Nat :=
  if b < 0x80 then (Char.ofNat b.toNat, 0)
  else
    match leadShape b, bs with
    | some (2, lo, hi), b1 :: _ =>
      if lo ≤ b1 && b1 ≤ hi then (Char.ofNat ((b.toNat % 32) * 64 + payload b1), 1)
      else ('�', 0)
    | some (3, lo, hi), b1 :: b2 :: _ =>
      if lo ≤ b1 && b1 ≤ hi && isContinuation b2 then
        (Char.ofNat ((b.toNat % 16) * 4096 + payload b1 * 64 + payload b2), 2)
      else ('�', 0)
    | some (4, lo, hi), b1 :: b2 :: b3 :: _ =>
      if lo ≤ b1 && b1 ≤ hi && isContinuation b2 && isContinuation b3 then
        (Char.ofNat ((b.toNat % 8) * 262144 + payload b1 * 4096 + payload b2 * 64 + payload b3), 3)
      else ('�', 0)
    | _, _ => ('�', 0)

/-- The characters a byte list reads as. -/
def decodeChars : List UInt8 → List Char
  | [] => []
  | b :: bs => (utf8Front b bs).1 :: decodeChars (bs.drop (utf8Front b bs).2)
termination_by l => l.length
decreasing_by simp only [List.length_drop, List.length_cons]; omega

/-- The text a byte list reads as. -/
def decodeUtf8 (bs : List UInt8) : String := String.ofList (decodeChars bs)

/-- The text a byte list spells when it is well-formed UTF-8 throughout, and
none otherwise: reading it back gives exactly the bytes. -/
def utf8Text? (bs : List UInt8) : Option String :=
  let s := decodeUtf8 bs
  if s.toUTF8.toList = bs then some s else none

end Exchange.Text
