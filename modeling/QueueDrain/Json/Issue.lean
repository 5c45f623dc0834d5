import QueueDrain.Text.Shown

/-!
# What can be wrong with a JSON text

Reading works on the characters that are left of a text. It stops with an issue and with what was
left at that moment; the line and column are counted only when the message is written, so a reader
that succeeds never deals with them.

## Main definitions

* `Json.Issue`, `Json.Issue.message` — what is wrong
* `Json.Stop` — where reading stopped, and why
* `Json.Position` — line and column
* `Json.Fault`, `Json.Stop.fault` — an issue with its place in a text
-/

namespace QueueDrain

namespace Json

/-! ### Issues -/

/-- What a text has where something else is expected. -/
inductive Found where
  | null
  | boolean (value : Bool)
  /-- A number without fraction and exponent. -/
  | integer (value : Int)
  /-- Any other number, in the form that messages show. -/
  | float (text : String)
  | string (text : String)
  | array
  | object
deriving DecidableEq, Repr

/-- How messages name what was found. -/
def Found.text : Found → String
  | .null => "null"
  | .boolean value => "boolean `" ++ (if value then "true" else "false") ++ "`"
  | .integer value => "integer `" ++ Decimal.signedText value ++ "`"
  | .float text => "floating point `" ++ text ++ "`"
  | .string text => "string " ++ Shown.quoted text
  | .array => "sequence"
  | .object => "map"

/-- What is wrong with a text. The issues up to `trailingText` are about its form, the others about
what it says. -/
inductive Issue where
  | unfinishedArray
  | unfinishedObject
  | unfinishedString
  | unfinishedValue
  | noColon
  | noCommaInArray
  | noCommaInObject
  | noSuchWord
  | noValue
  | badEscape
  | badNumber
  | numberTooLarge
  | controlCharacter
  | keyNotString
  | trailingComma
  | unfinishedSurrogates
  | loneSurrogate
  | trailingText
  | wrongType (found : Found) (expected : String)
  | wrongValue (value : Int) (expected : String)
  | wrongLength (length : Nat) (expected : String)
  | missingField (name : String)
  | duplicateField (name : String)
  | unknownField (name : String) (known : List String)
  | durationTooLong
deriving DecidableEq, Repr

/-- Field names between backticks, with "or" before the last of two. -/
def alternatives : List String → String
  | [] => "there are no fields"
  | [a] => "expected `" ++ a ++ "`"
  | [a, b] => "expected `" ++ a ++ "` or `" ++ b ++ "`"
  | names => "expected one of " ++ ", ".intercalate (names.map fun n => "`" ++ n ++ "`")

/-- The wording of an issue. -/
def Issue.message : Issue → String
  | unfinishedArray => "EOF while parsing a list"
  | unfinishedObject => "EOF while parsing an object"
  | unfinishedString => "EOF while parsing a string"
  | unfinishedValue => "EOF while parsing a value"
  | noColon => "expected `:`"
  | noCommaInArray => "expected `,` or `]`"
  | noCommaInObject => "expected `,` or `\x7d`"
  | noSuchWord => "expected ident"
  | noValue => "expected value"
  | badEscape => "invalid escape"
  | badNumber => "invalid number"
  | numberTooLarge => "number out of range"
  | controlCharacter => "control character (\\u0000-\\u001F) found while parsing a string"
  | keyNotString => "key must be a string"
  | trailingComma => "trailing comma"
  | unfinishedSurrogates => "unexpected end of hex escape"
  | loneSurrogate => "lone leading surrogate in hex escape"
  | trailingText => "trailing characters"
  | wrongType found expected => "invalid type: " ++ found.text ++ ", expected " ++ expected
  | wrongValue value expected =>
    "invalid value: " ++ (Found.integer value).text ++ ", expected " ++ expected
  | wrongLength length expected =>
    "invalid length " ++ Decimal.text length ++ ", expected " ++ expected
  | missingField name => "missing field `" ++ name ++ "`"
  | duplicateField name => "duplicate field `" ++ name ++ "`"
  | unknownField name known => "unknown field `" ++ name ++ "`, " ++ alternatives known
  | durationTooLong => "overflow deserializing Duration"

/-! ### Places -/

/-- A place in a text: the line, from one, and how many octets of it stand before. -/
structure Position where
  line : Nat
  column : Nat
deriving DecidableEq, Repr

/-- The beginning of a text. -/
def Position.start : Position := ⟨1, 0⟩

/-- The place behind a character. -/
def Position.behind (p : Position) (c : Char) : Position :=
  if c = '\n' then ⟨p.line + 1, 0⟩ else ⟨p.line, p.column + c.utf8Size⟩

/-- The place some octets further in a text, at the end of the text if it has fewer. -/
def Position.advance : Position → Nat → List Char → Position
  | p, _, [] => p
  | p, octets, c :: cs =>
    if octets < c.utf8Size then ⟨p.line, p.column + octets⟩
    else (p.behind c).advance (octets - c.utf8Size) cs

/-- An issue with its place. -/
structure Fault where
  issue : Issue
  position : Position
deriving DecidableEq, Repr

/-- The message about a fault. -/
def Fault.message (f : Fault) : String :=
  f.issue.message ++ " at line " ++ Decimal.text f.position.line ++ " column "
    ++ Decimal.text f.position.column

/-- Where reading stopped, and why. -/
structure Stop where
  issue : Issue
  /-- What is left of the text. -/
  rest : List Char
  /-- How many octets of it are past the place of the issue. -/
  octets : Nat := 0
  /-- Whether the issue concerns the array or object that is being read as a whole, so that its
  place is behind the closing bracket if that comes next. -/
  pending : Bool := false
deriving DecidableEq, Repr

/-- The place of a stop in the text that was read. -/
def Stop.position (text : List Char) (s : Stop) : Position :=
  let before := text.take (text.length - s.rest.length)
  (before.foldl Position.behind .start).advance s.octets s.rest

/-- The fault that reading a text stopped with. -/
def Stop.fault (text : List Char) (s : Stop) : Fault := ⟨s.issue, s.position text⟩

/-! ### Readers -/

/-- A value and what is left of the text, or the stop. -/
abbrev Reading (α : Type) := Except Stop (α × List Char)

/-- Stopping at what is left. -/
def stopAt (issue : Issue) (rest : List Char) : Except Stop α := .error { issue, rest }

/-- Stopping behind the next octet, if there is one. -/
def stopBehind (issue : Issue) (rest : List Char) : Except Stop α :=
  .error { issue, rest, octets := 1 }

/-- Stopping with an issue about the array or object as a whole. -/
def stopPending (issue : Issue) (rest : List Char) : Except Stop α :=
  .error { issue, rest, pending := true }

/-- Whether a character is a blank between tokens. -/
def isBlank (c : Char) : Bool := c == ' ' || c == '\n' || c == '\t' || c.toNat == 13

/-- What follows the blanks at the beginning of a text. -/
def skipBlanks (cs : List Char) : List Char := cs.dropWhile isBlank

end Json

end QueueDrain
