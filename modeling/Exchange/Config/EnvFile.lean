import Exchange.Config.Basic
import Exchange.Text.White
/-!
# Env files

An env file assigns variables, one statement at a time. Line breaks `\r\n`
count as `\n`. Blank space and lines starting with `#` between statements are
skipped. A statement is an optional `export ` prefix, a name, `=` or `:`, and a
value.

* A name is made of letters, digits, `_` and `.`, with blanks allowed; blanks
  at its end are dropped. The name is checked byte by byte, each byte of the
  UTF-8 text taken as the Latin-1 character of that code, so a non-ASCII
  letter passes only when all its bytes do. The first byte that fails is
  reported with the rest of the text.
* A value in single or double quotes runs to the first matching quote that
  follows no backslash. A double-quoted value then has `\n` and `\r` turned
  into line breaks, a backslash before any other character except `$` dropped,
  and variables expanded.
* Any other value runs to the end of the line; it is cut before the last `#`
  that follows a blank, trimmed of blanks, and has its variables expanded.

A variable reference is `$` followed by an optional `(`, an optional `{`, a
name of upper-case letters, digits and `_`, and an optional `}`. It stands for
the value assigned to the name earlier in the same file, else nothing: the
environment is not consulted. A backslash before the `$` keeps the reference as written, less the
backslash; a `$` without a name stays as it is.

`EnvFile.reader` reads env files so, for the configuration.

Key definitions: `EnvFile.parse`, `EnvFile.reader`.
-/

namespace Exchange

namespace EnvFile

/-- A blank within a line: tab, vertical tab, form feed, carriage return,
space, U+0085 and U+00A0. -/
def isBlank (c : Char) : Bool :=
  c = '\t' || c = '\x0b' || c = '\x0c' || c = '\r' || c = ' ' || c.toNat = 0x85 ||
    c.toNat = 0xA0

/-- A Latin-1 letter, by code: ASCII letters, ª, µ, º, and À to ÿ but for × and ÷. -/
def isLatinLetter (b : Nat) : Bool :=
  (0x41 ≤ b && b ≤ 0x5A) || (0x61 ≤ b && b ≤ 0x7A) || b = 0xAA || b = 0xB5 || b = 0xBA ||
    (0xC0 ≤ b && b ≤ 0xFF && b != 0xD7 && b != 0xF7)

/-- A Latin-1 number, by code: ASCII digits, ², ³, ¹, ¼, ½, ¾. -/
def isLatinNumber (b : Nat) : Bool :=
  (0x30 ≤ b && b ≤ 0x39) || b = 0xB2 || b = 0xB3 || b = 0xB9 || (0xBC ≤ b && b ≤ 0xBE)

/-- Whether a byte may stand in a name. -/
def nameByte (b : Nat) : Bool :=
  isBlank (Char.ofNat b) || b = 0x5F || isLatinLetter b || isLatinNumber b || b = 0x2E

/-- The text from the next statement on, past white space and comment lines;
none at the end of the text. -/
def statementStart (inComment : Bool) : List Char → Option (List Char)
  | [] => none
  | c :: cs =>
    if inComment then statementStart (c != '\n') cs
    else if Text.isWhite c then statementStart false cs
    else if c = '#' then statementStart true cs
    else some (c :: cs)

/-- Drops an `export` prefix that a blank follows. -/
def dropExport (s : List Char) : List Char :=
  match s with
  | 'e' :: 'x' :: 'p' :: 'o' :: 'r' :: 't' :: c :: rest =>
    if isBlank c then rest.dropWhile isBlank else s
  | _ => s

/-- Reads a name up to `=` or `:`: the name and the text after the mark, or
none when the text has no mark. -/
def nameEnd (near : List Char) (acc : List Char) :
    List Char → Except EnvFileError (Option (List Char × List Char))
  | [] => .ok none
  | c :: cs =>
    if c = '=' || c = ':' then .ok (some (acc.reverse, cs))
    else match (Text.utf8Bytes c).find? (!nameByte ·) with
      | some b => .error (.unexpectedChar (Char.ofNat b) (String.ofList near))
      | none => nameEnd near (c :: acc) cs

/-- The name of a statement and the text of its value. -/
def locateName (src : List Char) : Except EnvFileError (String × List Char) := do
  let src := dropExport (src.dropWhile isBlank)
  let found ← nameEnd src [] src
  if src.isEmpty then throw .zeroLength
  match found with
  | some (name, rest) =>
    pure (String.ofList (name.reverse.dropWhile Text.isWhite).reverse, rest.dropWhile isBlank)
  | none => pure ("", src.dropWhile isBlank)

/-- The first pass over a double-quoted value: `\n` and `\r` become line
breaks; other backslash pairs stay. -/
def lineEscapes : List Char → List Char
  | '\\' :: '\n' :: rest => '\\' :: '\n' :: lineEscapes rest
  | '\\' :: 'n' :: rest => '\n' :: lineEscapes rest
  | '\\' :: 'r' :: rest => '\r' :: lineEscapes rest
  | '\\' :: c :: rest => '\\' :: c :: lineEscapes rest
  | c :: rest => c :: lineEscapes rest
  | [] => []

/-- The second pass: a backslash before anything but `$` is dropped. -/
def dropBackslashes : List Char → List Char
  | '\\' :: '$' :: rest => '\\' :: '$' :: dropBackslashes rest
  | '\\' :: c :: rest => c :: dropBackslashes rest
  | c :: rest => c :: dropBackslashes rest
  | [] => []

/-- A character of a variable name in a reference. -/
def isRefChar (c : Char) : Bool := ('A' ≤ c && c ≤ 'Z') || ('0' ≤ c && c ≤ '9') || c = '_'

/-- What follows a `$` in a reference: optional `(`, optional `{`, a name,
optional `}`; the characters taken and the name. -/
def refTail (s : List Char) : List Char × String :=
  let (a, s) := match s with | '(' :: r => (['('], r) | r => ([], r)
  let (b, s) := match s with | '{' :: r => (['{'], r) | r => ([], r)
  let n := s.takeWhile isRefChar
  let s := s.dropWhile isRefChar
  let d := match s with | '}' :: _ => ['}'] | _ => []
  (a ++ b ++ n ++ d, String.ofList n)

/-- Expands the variable references of a value. -/
def expand (lookup : String → String) : List Char → List Char
  | '\\' :: '$' :: rest =>
    let t := refTail rest
    '$' :: t.1 ++ expand lookup (rest.drop t.1.length)
  | '$' :: rest =>
    let t := refTail rest
    (if t.2.isEmpty then '$' :: t.1 else (lookup t.2).toList) ++
      expand lookup (rest.drop t.1.length)
  | c :: rest => c :: expand lookup rest
  | [] => []
termination_by s => s.length
decreasing_by all_goals simp <;> omega

/-- The index of the quote that closes a quoted value: the first one after the
opening quote that follows no backslash. -/
def closingQuote (q : Char) (prev : Char) (i : Nat) : List Char → Option Nat
  | [] => none
  | c :: cs => if c = q && prev != '\\' then some i else closingQuote q c (i + 1) cs

/-- The value of a statement and the text after it. -/
def extractValue (lookup : String → String) (src : List Char) :
    Except EnvFileError (String × List Char) :=
  match src with
  | q :: body =>
    if q = '"' || q = '\'' then
      match closingQuote q q 1 body with
      | some i =>
        let raw := ((src.take i).reverse.dropWhile (· = q)).reverse.dropWhile (· = q)
        let v := if q = '"' then expand lookup (dropBackslashes (lineEscapes raw)) else raw
        .ok (String.ofList v, src.drop (i + 1))
      | none => .error (.unterminated (String.ofList (src.takeWhile (· != '\n'))))
    else plain
  | [] => plain
where
  /-- An unquoted value: to the end of the line, cut before a comment, trimmed. -/
  plain : Except EnvFileError (String × List Char) :=
    let lineEnd (c : Char) : Bool := c = '\n' || c = '\r'
    let row := src.takeWhile (!lineEnd ·)
    let rest := src.dropWhile (!lineEnd ·)
    let cut := (List.range row.length).reverse.find? fun i =>
      i > 0 && row[i]? = some '#' && (row[i - 1]?.map isBlank).getD false
    let v := row.take (cut.getD row.length)
    let v := (v.dropWhile isBlank).reverse.dropWhile isBlank |>.reverse
    .ok (String.ofList (expand lookup v), rest)

/-- Sets a variable in an assignment list, the last assignment winning. -/
def assign (vars : List (String × String)) (k v : String) : List (String × String) :=
  if vars.any (·.1 == k) then vars.map fun e => if e.1 == k then (k, v) else e
  else vars ++ [(k, v)]

/-- The value a reference stands for: the name's value assigned so far, else
nothing. -/
def lookup (vars : List (String × String)) (n : String) : String :=
  ((vars.find? (·.1 == n)).map (·.2)).getD ""

/-- Reads statements until the text ends. -/
def statements : (fuel : Nat) → List (String × String) → List Char →
    Except EnvFileError (List (String × String))
  | 0, vars, _ => .ok vars
  | fuel + 1, vars, src =>
    match statementStart false src with
    | none => .ok vars
    | some s => do
      let (name, rest) ← locateName s
      let (value, rest) ← extractValue (lookup vars) rest
      statements fuel (assign vars name value) rest

/-- Turns each `\r\n` into `\n`. -/
def joinBreaks : List Char → List Char
  | '\r' :: '\n' :: rest => '\n' :: joinBreaks rest
  | c :: rest => c :: joinBreaks rest
  | [] => []

/-- The assignments of an env file, each name once with its last value. -/
def parse (src : String) : Except EnvFileError (List (String × String)) :=
  let s := joinBreaks src.toList
  statements (s.length + 1) [] s

/-- Env files read as this module says. -/
def reader : EnvReader := ⟨parse⟩

end EnvFile

end Exchange
