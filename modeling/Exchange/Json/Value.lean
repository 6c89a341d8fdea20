/-!
# JSON documents

A JSON document as it was written: object members stay in the order written,
repeated keys included, and a number keeps the text of its literal, so that a
reader can tell `1.0` from `1` and a 20-digit integer loses nothing.

`Value.render` writes a document compactly: no blanks, members in order,
strings with the quote, the backslash, the control characters and the two
line separators U+2028 and U+2029 escaped; `\b \f \n \r \t` have short forms,
the other control characters are written `\u00XX` in lower-case hexadecimal.

Key definitions: `Json.Value`, `Json.Value.render`, `Json.escape`.
-/

namespace Exchange.Json

/-- A JSON document, members in the order written and numbers as written. -/
inductive Value where
  | null
  | bool (b : Bool)
  | num (literal : String)
  | str (s : String)
  | arr (items : List Value)
  | obj (members : List (String × Value))
  deriving Inhabited

/-- The JSON escape of one character of a string. -/
def escapeChar (c : Char) : List Char :=
  match c with
  | '"' => ['\\', '"']
  | '\\' => ['\\', '\\']
  | '\n' => ['\\', 'n']
  | '\r' => ['\\', 'r']
  | '\t' => ['\\', 't']
  | '\x08' => ['\\', 'b']
  | '\x0c' => ['\\', 'f']
  | '\u2028' => ['\\', 'u', '2', '0', '2', '8']
  | '\u2029' => ['\\', 'u', '2', '0', '2', '9']
  | _ =>
    if c.toNat < 0x20 then
      let h (n : Nat) : Char := if n < 10 then Char.ofNat (0x30 + n) else Char.ofNat (0x57 + n)
      ['\\', 'u', '0', '0', h (c.toNat / 16), h (c.toNat % 16)]
    else [c]

/-- A string as a JSON string literal. -/
def escape (s : String) : String :=
  String.ofList ('"' :: (s.toList.flatMap escapeChar ++ ['"']))

namespace Value

mutual

/-- The compact text of a document. -/
def render : Value → String
  | .null => "null"
  | .bool true => "true"
  | .bool false => "false"
  | .num t => t
  | .str s => escape s
  | .arr items => "[" ++ ",".intercalate (renderItems items) ++ "]"
  | .obj members => "\x7b" ++ ",".intercalate (renderMembers members) ++ "\x7d"

/-- The texts of the items of an array. -/
def renderItems : List Value → List String
  | [] => []
  | v :: vs => render v :: renderItems vs

/-- The texts of the members of an object. -/
def renderMembers : List (String × Value) → List String
  | [] => []
  | (k, v) :: ms => (escape k ++ ":" ++ render v) :: renderMembers ms

end

/-- A natural number as a JSON number. -/
def ofNat (n : Nat) : Value := .num (toString n)

/-- A 64-bit word as a JSON number. -/
def ofWord (n : UInt64) : Value := ofNat n.toNat

/-- An integer as a JSON number. -/
def ofInt (n : Int) : Value := .num (toString n)

/-- A list of strings as a JSON array. -/
def ofStrings (xs : List String) : Value := .arr (xs.map .str)

/-- The value of the first member with a key, if the document is an object
that has one. -/
def field? (v : Value) (key : String) : Option Value :=
  match v with
  | .obj ms => (ms.find? (·.1 == key)).map (·.2)
  | _ => none

end Value

end Exchange.Json
