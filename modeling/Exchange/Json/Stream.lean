import Exchange.Json.Syntax
/-!
# Reading one value off the front of a stream

A request body is read as a stream of JSON values: `Json.readFront` takes the
first value and leaves the rest of the text. It uses the same reader as
`Json.parse`, with two differences at the edges of the value:

* A value ends as soon as it is complete. A closing bracket, a closing quote or
  the last letter of a literal ends it at once; a number ends before the first
  character that cannot continue it, which is left unread.
* At the end of the text a number in progress still ends, if it is whole. A
  text of blanks only holds no value (`EOF`); a value cut short is an
  unexpected end (`unexpected EOF`), except that a bad escape is named by the
  bytes it has.

Key definitions: `Json.StreamError`, `Json.readFront`.
-/

namespace Exchange.Json

/-- Why no value could be read off the front of a text. -/
inductive StreamError where
  /-- Only blanks were left. -/
  | exhausted
  /-- The text ended inside a value. -/
  | truncated
  /-- A character that cannot continue the value. -/
  | invalid (e : SyntaxError)
  deriving DecidableEq

/-- The message of a stream error. -/
def StreamError.message : StreamError → String
  | .exhausted => "EOF"
  | .truncated => "unexpected EOF"
  | .invalid e => e.message

/-- Whether `c` continues a number whose last part is `part`: only the parts
after which a number may end are asked. -/
def NumberPart.continues (part : NumberPart) (c : Char) : Bool :=
  match part with
  | .integer => isDigit c || c = '.' || c = 'e' || c = 'E'
  | .zero => c = '.' || c = 'e' || c = 'E'
  | .fraction => isDigit c || c = 'e' || c = 'E'
  | .exponent => isDigit c
  | _ => true

/-- The reader once a number in progress ends before `c`, when `c` cannot
continue it and the number is whole; none otherwise. -/
def Reader.endNumber (r : Reader) (c : Char) : Option Reader :=
  match r.mode with
  | .number text part =>
    if part.continues c then none
    else some (Reader.complete r.stack (.num (String.ofList text.reverse)))
  | _ => none

/-- The value a reader holds when the document is complete before `c`. -/
def Reader.doneBefore (r : Reader) (c : Char) : Option Value :=
  match r.mode with
  | .finished v => some v
  | _ =>
    match r.endNumber c with
    | some ⟨_, .finished v⟩ => some v
    | _ => none

/-- Reads on from a reader's state; `seen` tells whether a character other
than a blank has been read. -/
def Reader.front (r : Reader) (seen : Bool) : List Char → Except StreamError (Value × List Char)
  | [] =>
    match r.doneBefore ' ', r.mode with
    | some v, _ => .ok (v, [])
    | none, .badEscape what => .error (.invalid (.badEscape what))
    | none, _ => .error (if seen then .truncated else .exhausted)
  | c :: cs =>
    match r.doneBefore c with
    | some v => .ok (v, c :: cs)
    | none =>
      match r.step c with
      | .error e => .error (.invalid e)
      | .ok r' => r'.front (seen || !isBlank c) cs

/-- The first value of a text and the characters after it. -/
def readFront (cs : List Char) : Except StreamError (Value × List Char) :=
  Reader.start.front false cs

end Exchange.Json
