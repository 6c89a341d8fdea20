import Exchange.Json.Value
import Exchange.Text.Quoted
import Exchange.Text.White
/-!
# Reading JSON text

`Json.parse` reads a whole text as one JSON document. It reads character by
character with a stack of open containers and stops at the first character
that cannot continue the document, naming that character and what was expected
there. A string refuses a control character below U+0020. A backslash must be
followed by one of `"\\/bfnrt`, or by `u` and four hexadecimal digits; a bad
escape is named by its bytes from the backslash: two of them after a bad
letter, six (or up to the end of the text) after a bad `\u`. At the end of the
text a whole number ends the document; anything else still open, a
half-written literal, number or escape included, is an unexpected end.

Strings are kept as written while reading and unescaped when they close: a
`\u` escape of a surrogate half joins the next escape into one character when
the two form a pair, and otherwise stands for U+FFFD.

Containers nest at most 10000 deep; opening one more is refused as too deep.

Key definitions: `Json.SyntaxError`, `Json.SyntaxError.message`, `Json.parse`.
-/

namespace Exchange.Json

/-- What the reader was looking for when it met a character it refuses. -/
inductive Expecting where
  | value
  | key
  | colon
  | memberEnd
  | elementEnd
  | endOfText
  | stringChar
  | numberDigit
  | literal (word : String) (letter : Char)
  deriving DecidableEq

/-- The words of a place where a character was refused. -/
def Expecting.text : Expecting → String
  | .value => "looking for beginning of value"
  | .key => "looking for beginning of object key string"
  | .colon => "after object key"
  | .memberEnd => "after object key:value pair"
  | .elementEnd => "after array element"
  | .endOfText => "after top-level value"
  | .stringChar => "in string"
  | .numberDigit => "in numeric literal"
  | .literal w l => "in literal " ++ w ++ " (expecting " ++ Text.quoteRune l ++ ")"

/-- Why a text is not one JSON document. -/
inductive SyntaxError where
  | unexpectedEnd
  | invalid (c : Char) (at_ : Expecting)
  /-- A bad escape in a string, by its bytes from the backslash. -/
  | badEscape (what : List UInt8)
  /-- A container opened deeper than `maxDepth`. -/
  | tooDeep
  deriving DecidableEq

/-- Whether the bytes of a bad escape are quoted rather than shown between
backticks: when they hold a backtick, a byte that starts no well-formed
sequence, U+FFFD, white space or a character that is not printable. -/
def escapeNeedsQuotes (what : List UInt8) : Bool :=
  (Text.utf8Pieces what).any fun
    | .inl c => c = '\x60' || c = '\uFFFD' || Text.isWhite c || !Text.isPrintable c
    | .inr _ => true

/-- The message of a syntax error. -/
def SyntaxError.message : SyntaxError → String
  | .unexpectedEnd => "unexpected end of JSON input"
  | .tooDeep => "exceeded max depth"
  | .invalid c e => "invalid character " ++ Text.quoteRune c ++ " " ++ e.text
  | .badEscape what =>
    let shown := if escapeNeedsQuotes what then Text.quoteUtf8 what
      else "\x60" ++ Text.decodeUtf8 what ++ "\x60"
    "invalid escape sequence " ++ shown ++ " in string"

/-- The deepest nesting of containers a document may have. -/
def maxDepth : Nat := 10000

/-- Blanks between tokens: space, tab, line feed and carriage return. -/
def isBlank (c : Char) : Bool := c = ' ' || c = '\t' || c = '\n' || c = '\r'

/-- The value of a hexadecimal digit. -/
def hexValue (c : Char) : Option Nat :=
  if '0' ≤ c && c ≤ '9' then some (c.toNat - '0'.toNat)
  else if 'a' ≤ c && c ≤ 'f' then some (c.toNat - 'a'.toNat + 10)
  else if 'A' ≤ c && c ≤ 'F' then some (c.toNat - 'A'.toNat + 10)
  else none

/-- The number written by four hexadecimal digits. -/
def hex4 (a b c d : Char) : Option Nat := do
  let (a, b, c, d) := (← hexValue a, ← hexValue b, ← hexValue c, ← hexValue d)
  pure (((a * 16 + b) * 16 + c) * 16 + d)

/-- The characters of a string literal's body, escapes resolved. The body has
been checked while reading, so every escape in it is well formed. -/
def unescape : List Char → List Char
  | '\\' :: 'u' :: a :: b :: c :: d :: rest =>
    match hex4 a b c d with
    | none => unescape rest
    | some r =>
      if 0xD800 ≤ r && r < 0xE000 then
        match _hr : rest with
        | '\\' :: 'u' :: e :: f :: g :: k :: rest' =>
          match hex4 e f g k with
          | some s =>
            if r < 0xDC00 && 0xDC00 ≤ s && s < 0xE000 then
              Char.ofNat (0x10000 + (r - 0xD800) * 0x400 + (s - 0xDC00)) :: unescape rest'
            else '�' :: unescape rest
          | none => '�' :: unescape rest
        | _ => '�' :: unescape rest
      else Char.ofNat r :: unescape rest
  | '\\' :: c :: rest =>
    (match c with
      | 'b' => '\x08'
      | 'f' => '\x0c'
      | 'n' => '\n'
      | 'r' => '\r'
      | 't' => '\t'
      | _ => c) :: unescape rest
  | c :: rest => c :: unescape rest
  | [] => []
termination_by l => l.length
decreasing_by all_goals simp_all <;> omega

/-- Where a string's reading stands: plain text, after a backslash, or inside
a `\u` escape with some hexadecimal digits read. -/
inductive Escape where
  | none
  | backslash
  | hex (read : Nat)
  deriving DecidableEq

/-- Where a number's reading stands, after: a minus sign, a leading zero, a
leading non-zero digit and more digits, a decimal point, fraction digits, an
exponent mark, an exponent sign, exponent digits. -/
inductive NumberPart where
  | minus
  | zero
  | integer
  | point
  | fraction
  | exponentMark
  | exponentSign
  | exponent
  deriving DecidableEq

/-- An open container: an array with its items so far, latest first, or an
object with its members so far, latest first, and the key just read. -/
inductive Frame where
  | array (items : List Value)
  | object (members : List (String × Value)) (key : Option String)

/-- What the reader does next. -/
inductive Mode where
  /-- Expects a value; right after `[` a `]` may close the array instead. -/
  | value (orClose : Bool)
  /-- Expects a key; right after `{` a `}` may close the object instead. -/
  | key (orClose : Bool)
  /-- Inside a string, with its body so far, latest first. -/
  | string (body : List Char) (esc : Escape) (isKey : Bool)
  /-- Inside a number, with its text so far, latest first. -/
  | number (text : List Char) (part : NumberPart)
  /-- After a bad `\u` escape, gathering its bytes from the backslash until
  there are six. -/
  | badEscape (what : List UInt8)
  /-- Inside a literal, with the letters still expected. -/
  | literal (word : String) (rest : List Char) (v : Value)
  /-- After a key, expecting the colon. -/
  | colon
  /-- After a value inside a container. -/
  | next
  /-- After the whole document. -/
  | finished (v : Value)

/-- The reader between two characters: the open containers, innermost first,
and what it does next. -/
structure Reader where
  stack : List Frame
  mode : Mode

/-- The reader before the first character. -/
def Reader.start : Reader := ⟨[], .value false⟩

/-- The reader once a value is complete: it joins the innermost container, or
ends the document. -/
def Reader.complete (stack : List Frame) (v : Value) : Reader :=
  match stack with
  | [] => ⟨[], .finished v⟩
  | .array items :: fs => ⟨.array (v :: items) :: fs, .next⟩
  | .object ms (some k) :: fs => ⟨.object ((k, v) :: ms) none :: fs, .next⟩
  | .object ms none :: fs => ⟨.object ms none :: fs, .next⟩

/-- The reader once a string closes: a key waits for its colon, a value is
complete. -/
def Reader.closeString (stack : List Frame) (body : List Char) (isKey : Bool) : Reader :=
  let s := String.ofList (unescape body.reverse)
  if isKey then
    match stack with
    | .object ms _ :: fs => ⟨.object ms (some s) :: fs, .colon⟩
    | _ => complete stack (.str s)
  else complete stack (.str s)

/-- Opens a container, refused beyond the deepest nesting. -/
def Reader.open (stack : List Frame) (f : Frame) (m : Mode) : Except SyntaxError Reader :=
  if stack.length + 1 > maxDepth then .error .tooDeep
  else .ok ⟨f :: stack, m⟩

/-- Adds the bytes of `c` to a bad escape's bytes `what`: refused once there
are six, else gathered on. -/
def Reader.gatherEscape (stack : List Frame) (what : List UInt8) (c : Char) :
    Except SyntaxError Reader :=
  let what := what ++ String.utf8EncodeChar c
  if what.length ≥ 6 then .error (.badEscape (what.take 6)) else .ok ⟨stack, .badEscape what⟩

/-- The start of a value at character `c`. -/
def Reader.beginValue (stack : List Frame) (c : Char) : Except SyntaxError Reader :=
  match c with
  | '{' => Reader.open stack (.object [] none) (.key true)
  | '[' => Reader.open stack (.array []) (.value true)
  | '"' => .ok ⟨stack, .string [] .none false⟩
  | '-' => .ok ⟨stack, .number ['-'] .minus⟩
  | '0' => .ok ⟨stack, .number ['0'] .zero⟩
  | 't' => .ok ⟨stack, .literal "true" ['r', 'u', 'e'] (.bool true)⟩
  | 'f' => .ok ⟨stack, .literal "false" ['a', 'l', 's', 'e'] (.bool false)⟩
  | 'n' => .ok ⟨stack, .literal "null" ['u', 'l', 'l'] .null⟩
  | _ =>
    if '1' ≤ c && c ≤ '9' then .ok ⟨stack, .number [c] .integer⟩
    else .error (.invalid c .value)

/-- A character after a complete value: a separator, a closing bracket, or a
blank. -/
def Reader.afterValue (r : Reader) (c : Char) : Except SyntaxError Reader :=
  if isBlank c then .ok r
  else match r.mode, r.stack with
    | .finished _, _ => .error (.invalid c .endOfText)
    | _, .array items :: fs =>
      if c = ',' then .ok ⟨r.stack, .value false⟩
      else if c = ']' then .ok (Reader.complete fs (.arr items.reverse))
      else .error (.invalid c .elementEnd)
    | _, .object ms _ :: fs =>
      if c = ',' then .ok ⟨r.stack, .key false⟩
      else if c = '}' then .ok (Reader.complete fs (.obj ms.reverse))
      else .error (.invalid c .memberEnd)
    | _, [] => .error (.invalid c .endOfText)

/-- Whether a character is a decimal digit. -/
def isDigit (c : Char) : Bool := '0' ≤ c && c ≤ '9'

/-- One character. -/
def Reader.step (r : Reader) (c : Char) : Except SyntaxError Reader :=
  match r.mode with
  | .value orClose =>
    if isBlank c then .ok r
    else if orClose && c = ']' then
      match r.stack with
      | .array items :: fs => .ok (Reader.complete fs (.arr items.reverse))
      | _ => .error (.invalid c .value)
    else Reader.beginValue r.stack c
  | .key orClose =>
    if isBlank c then .ok r
    else if orClose && c = '}' then
      match r.stack with
      | .object ms _ :: fs => .ok (Reader.complete fs (.obj ms.reverse))
      | _ => .error (.invalid c .key)
    else if c = '"' then .ok ⟨r.stack, .string [] .none true⟩
    else .error (.invalid c .key)
  | .colon =>
    if isBlank c then .ok r
    else if c = ':' then .ok ⟨r.stack, .value false⟩
    else .error (.invalid c .colon)
  | .string body esc isKey =>
    match esc with
    | .none =>
      if c = '"' then .ok (Reader.closeString r.stack body isKey)
      else if c = '\\' then .ok ⟨r.stack, .string (c :: body) .backslash isKey⟩
      else if c.toNat < 0x20 then .error (.invalid c .stringChar)
      else .ok ⟨r.stack, .string (c :: body) .none isKey⟩
    | .backslash =>
      if c = 'u' then .ok ⟨r.stack, .string (c :: body) (.hex 0) isKey⟩
      else if c = 'b' || c = 'f' || c = 'n' || c = 'r' || c = 't' || c = '\\' || c = '/' ||
          c = '"' then
        .ok ⟨r.stack, .string (c :: body) .none isKey⟩
      else .error (.badEscape (0x5C :: (String.utf8EncodeChar c).take 1))
    | .hex n =>
      if (hexValue c).isSome then
        .ok ⟨r.stack, .string (c :: body) (if n = 3 then .none else .hex (n + 1)) isKey⟩
      else
        let digits := (body.take n).reverse.map fun d => d.toNat.toUInt8
        Reader.gatherEscape r.stack ([0x5C, 0x75] ++ digits) c
  | .number text part =>
    let done := Reader.complete r.stack (.num (String.ofList text.reverse))
    match part with
    | .minus =>
      if c = '0' then .ok ⟨r.stack, .number (c :: text) .zero⟩
      else if isDigit c then .ok ⟨r.stack, .number (c :: text) .integer⟩
      else .error (.invalid c .numberDigit)
    | .integer =>
      if isDigit c then .ok ⟨r.stack, .number (c :: text) .integer⟩
      else if c = '.' then .ok ⟨r.stack, .number (c :: text) .point⟩
      else if c = 'e' || c = 'E' then .ok ⟨r.stack, .number (c :: text) .exponentMark⟩
      else done.afterValue c
    | .zero =>
      if c = '.' then .ok ⟨r.stack, .number (c :: text) .point⟩
      else if c = 'e' || c = 'E' then .ok ⟨r.stack, .number (c :: text) .exponentMark⟩
      else done.afterValue c
    | .point =>
      if isDigit c then .ok ⟨r.stack, .number (c :: text) .fraction⟩
      else .error (.invalid c .numberDigit)
    | .fraction =>
      if isDigit c then .ok ⟨r.stack, .number (c :: text) .fraction⟩
      else if c = 'e' || c = 'E' then .ok ⟨r.stack, .number (c :: text) .exponentMark⟩
      else done.afterValue c
    | .exponentMark =>
      if c = '+' || c = '-' then .ok ⟨r.stack, .number (c :: text) .exponentSign⟩
      else if isDigit c then .ok ⟨r.stack, .number (c :: text) .exponent⟩
      else .error (.invalid c .numberDigit)
    | .exponentSign =>
      if isDigit c then .ok ⟨r.stack, .number (c :: text) .exponent⟩
      else .error (.invalid c .numberDigit)
    | .exponent =>
      if isDigit c then .ok ⟨r.stack, .number (c :: text) .exponent⟩
      else done.afterValue c
  | .literal word rest v =>
    match rest with
    | [] => r.afterValue c
    | l :: ls =>
      if c = l then
        if ls.isEmpty then .ok (Reader.complete r.stack v)
        else .ok ⟨r.stack, .literal word ls v⟩
      else .error (.invalid c (.literal word l))
  | .badEscape what => Reader.gatherEscape r.stack what c
  | .next => r.afterValue c
  | .finished _ => r.afterValue c

/-- Whether a number may end after this part: after a digit. -/
def NumberPart.isWhole : NumberPart → Bool
  | .zero | .integer | .fraction | .exponent => true
  | _ => false

/-- The end of the text: the document must be complete, or be a whole number;
a bad escape is named by the bytes it has. -/
def Reader.finish (r : Reader) : Except SyntaxError Value :=
  match r.mode, r.stack with
  | .finished v, _ => .ok v
  | .number text part, [] =>
    if part.isWhole then .ok (.num (String.ofList text.reverse)) else .error .unexpectedEnd
  | .badEscape what, _ => .error (.badEscape what)
  | _, _ => .error .unexpectedEnd

/-- Reads characters from a reader's state until the first refused one. -/
def Reader.run (r : Reader) : List Char → Except SyntaxError Reader
  | [] => .ok r
  | c :: cs => do (← r.step c).run cs

/-- The document a text holds, or the first reason it holds none. -/
def parse (s : String) : Except SyntaxError Value := do
  (← Reader.start.run s.toList).finish

end Exchange.Json
