import Exchange.Text.Printable
import Exchange.Text.Utf8
/-!
# Quoted text

Messages quote values between double quotes so that every character can be
read back: the quote and the backslash get a backslash, printable characters
stand for themselves, the seven control characters with a letter escape get it
(`\a \b \f \n \r \t \v`), other ASCII controls and DEL are written `\xHH`, and
any other character `\uHHHH` or, beyond the basic plane, `\UHHHHHHHH`, in
lower-case hexadecimal.

`Text.quoteRune` puts one character between single quotes the same way, with
the single quote escaped instead of the double one. `Text.quoteUtf8` quotes a
byte string that need not be UTF-8: each byte that starts no well-formed
sequence is written `\xHH`.

`Text.quoteBytes` is the plainer form used for durations: printable ASCII
stands for itself (quote and backslash escaped), every other byte of the UTF-8
text is `\xHH`.

Key definitions: `Text.quote`, `Text.quoteRune`, `Text.quoteUtf8`, `Text.quoteBytes`.
-/

namespace Exchange.Text

/-- The lower-case hexadecimal digit of a number below 16. -/
def hexDigit (n : Nat) : Char :=
  if n < 10 then Char.ofNat (0x30 + n) else Char.ofNat (0x57 + n)

/-- `width` lower-case hexadecimal digits of `n`, most significant first. -/
def hexDigits (n : Nat) : Nat → List Char
  | 0 => []
  | k + 1 => hexDigits (n / 16) k ++ [hexDigit (n % 16)]

/-- The escaped form of one character inside quotes. -/
def escapeChar (c : Char) : List Char :=
  if c = '"' || c = '\\' then ['\\', c]
  else if isPrintable c then [c]
  else match c with
    | '\x07' => ['\\', 'a']
    | '\x08' => ['\\', 'b']
    | '\x0c' => ['\\', 'f']
    | '\n' => ['\\', 'n']
    | '\r' => ['\\', 'r']
    | '\t' => ['\\', 't']
    | '\x0b' => ['\\', 'v']
    | _ =>
      if c.toNat < 0x20 || c.toNat = 0x7F then ['\\', 'x'] ++ hexDigits c.toNat 2
      else if c.toNat < 0x10000 then ['\\', 'u'] ++ hexDigits c.toNat 4
      else ['\\', 'U'] ++ hexDigits c.toNat 8

/-- Text between double quotes with every character escaped as needed. -/
def quote (s : String) : String :=
  String.ofList ('"' :: (s.toList.flatMap escapeChar ++ ['"']))

/-- The UTF-8 bytes of a character. -/
def utf8Bytes (c : Char) : List Nat :=
  (String.utf8EncodeChar c).map UInt8.toNat

/-- A character between single quotes, escaped as in `quote`, except that the
single quote gets a backslash and the double quote none. -/
def quoteRune (c : Char) : String :=
  if c = '\'' then "'\\''"
  else if c = '"' then "'\"'"
  else String.ofList ('\'' :: (escapeChar c ++ ['\'']))

/-- The pieces a byte string reads as: the characters of its well-formed
sequences, and each byte that starts none. -/
def utf8Pieces : List UInt8 → List (Char ⊕ UInt8)
  | [] => []
  | b :: bs =>
    let r := utf8Front b bs
    (if r.1 = '\uFFFD' && r.2 = 0 then .inr b else .inl r.1) :: utf8Pieces (bs.drop r.2)
termination_by l => l.length
decreasing_by simp only [List.length_drop, List.length_cons]; omega

/-- A byte string between double quotes: its characters escaped as in
`quote`, and each byte that starts no well-formed sequence written `\xHH`. -/
def quoteUtf8 (bs : List UInt8) : String :=
  let one : Char ⊕ UInt8 → List Char
    | .inl c => escapeChar c
    | .inr b => ['\\', 'x'] ++ hexDigits b.toNat 2
  String.ofList ('"' :: ((utf8Pieces bs).flatMap one ++ ['"']))

/-- Text between double quotes where printable ASCII stands for itself (quote
and backslash escaped) and every other byte is written `\xHH`. -/
def quoteBytes (s : String) : String :=
  let one (c : Char) : List Char :=
    if c.toNat < 0x20 || c.toNat ≥ 0x80 then
      (utf8Bytes c).flatMap fun b => ['\\', 'x'] ++ hexDigits b 2
    else if c = '"' || c = '\\' then ['\\', c]
    else [c]
  String.ofList ('"' :: (s.toList.flatMap one ++ ['"']))

end Exchange.Text
