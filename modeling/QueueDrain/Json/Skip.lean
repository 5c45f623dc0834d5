import QueueDrain.Json.Number
import QueueDrain.Json.Quoted

/-!
# Passing over JSON values

A value that nobody asks for is passed over: its brackets have to match and its tokens have to be
well formed, but its numbers may be of any size and its strings may name any code point. The
brackets that are open are kept in a list, so nesting may be of any depth.

## Main definitions

* `Json.Bracket` — an open array or object
* `Json.skipWord`, `Json.skipColon` — tokens
* `Json.skipValue` — what follows a value
-/

namespace QueueDrain

namespace Json

/-- An open bracket. -/
inductive Bracket where
  | array
  | object
deriving DecidableEq, Repr

/-- The character that closes a bracket. -/
def Bracket.closing : Bracket → Char
  | array => ']'
  | object => '\x7d'

/-- The issue of a text that ends within a bracket. -/
def Bracket.unfinished : Bracket → Issue
  | array => .unfinishedArray
  | object => .unfinishedObject

/-- The issue of a value that neither a comma nor the end of the bracket follows. -/
def Bracket.noComma : Bracket → Issue
  | array => .noCommaInArray
  | object => .noCommaInObject

/-- What follows the letters of a word. -/
def skipWord : List Char → List Char → Except Stop (List Char)
  | [], cs => .ok cs
  | _ :: _, [] => stopAt .unfinishedValue []
  | w :: word, c :: cs => if w = c then skipWord word cs else stopBehind .noSuchWord (c :: cs)

/-- What follows the colon between a key and its value. -/
def skipColon (cs : List Char) : Except Stop (List Char) :=
  match skipBlanks cs with
  | [] => stopAt .unfinishedObject []
  | c :: rest => if c = ':' then .ok rest else stopBehind .noColon (c :: rest)

/-- What follows a key and its colon, when a key has to come. -/
def skipKey (cs : List Char) : Except Stop (List Char) :=
  match skipBlanks cs with
  | [] => stopAt .unfinishedObject []
  | c :: rest =>
    if c = '"' then (Quoted.skip rest).bind skipColon else stopBehind .keyNotString (c :: rest)

/-- The first token of a value: the bracket that it opens, if it does not end the value, and what
follows. -/
def skipToken (cs : List Char) : Except Stop (Option Bracket × List Char) :=
  match skipBlanks cs with
  | [] => stopAt .unfinishedValue []
  | c :: rest =>
    if c = 'n' then (skipWord "ull".toList rest).map (none, ·)
    else if c = 't' then (skipWord "rue".toList rest).map (none, ·)
    else if c = 'f' then (skipWord "alse".toList rest).map (none, ·)
    else if c = '-' || Number.isDigit c then (Number.skip (c :: rest)).map (none, ·)
    else if c = '"' then (Quoted.skip rest).map (none, ·)
    else if c = '[' then .ok (some .array, rest)
    else if c = '\x7b' then .ok (some .object, rest)
    else stopBehind .noValue (c :: rest)

/-- The brackets that are still open when the next value comes, innermost first, and the text from
there on; no brackets are open at the end of the whole value. A comma is due behind a value and not
behind an opening bracket. -/
def skipToValue (isBehindValue : Bool) :
    List Bracket → List Char → Except Stop (List Bracket × List Char)
  | [], cs => .ok ([], cs)
  | b :: outer, cs =>
    match skipBlanks cs with
    | [] => stopAt b.unfinished []
    | c :: rest =>
      if c = ',' && isBehindValue then .ok (b :: outer, rest)
      else if c = b.closing then skipToValue true outer rest
      else if isBehindValue then stopBehind b.noComma (c :: rest)
      else .ok (b :: outer, c :: rest)

/-- What follows a value within open brackets and the brackets themselves. Every value takes a
character at least, so their number is bounded by that of the characters. -/
def skipWithin : Nat → List Bracket → List Char → Except Stop (List Char)
  | 0, _, cs => stopAt .unfinishedValue cs
  | limit + 1, around, cs =>
    match skipToken cs with
    | .error stop => .error stop
    | .ok (opened, rest) =>
      let next :=
        match opened with
        | some b => skipToValue false (b :: around) rest
        | none => skipToValue true around rest
      match next with
      | .error stop => .error stop
      | .ok ([], rest) => .ok rest
      | .ok (.array :: outer, rest) => skipWithin limit (.array :: outer) rest
      | .ok (.object :: outer, rest) => (skipKey rest).bind (skipWithin limit (.object :: outer))

/-- What follows the value at the beginning of a text. -/
def skipValue (cs : List Char) : Except Stop (List Char) := skipWithin (cs.length + 1) [] cs

end Json

end QueueDrain
