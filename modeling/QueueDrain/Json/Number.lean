import QueueDrain.Binary64
import QueueDrain.Json.Issue

/-!
# Numbers in JSON texts

A number without fraction and exponent that fits 64 bits is an integer; every other number is a
floating-point number, of which at most 64 bits of the digits count.

## Main definitions

* `Json.Number` — a number that was read
* `Json.Number.read` — the number at the beginning of a text
* `Json.Number.skip` — what follows the number at the beginning of a text
-/

namespace QueueDrain

namespace Json

/-- A number that was read. -/
inductive Number where
  | natural (n : Nat)
  /-- The number `-n`, for a positive `n`. -/
  | negative (n : Nat)
  | float (isNegative : Bool) (magnitude : Binary64)
deriving DecidableEq, Repr

namespace Number

/-- How messages name a number. -/
def found : Number → Found
  | natural n => .integer n
  | negative n => .integer (-(n : Int))
  | float isNegative x => .float ((if isNegative then "-" else "") ++ x.text)

/-- Whether a character is a decimal digit. -/
def isDigit (c : Char) : Bool := (Decimal.digitValue? c).isSome

/-- Whether the next character is a digit. -/
def beginsWithDigit : List Char → Bool
  | [] => false
  | c :: _ => isDigit c

/-! ### Reading -/

/-- The largest significand. -/
def significandLimit : Nat := 18446744073709551615

/-- The largest exponent that is told apart from a larger one. -/
def exponentLimit : Nat := 2147483647

/-- The number with the leading digits of a text behind the digits of `n`, as long as it does not
pass `limit`; how many digits that were, and what follows them. -/
def takeDigits (limit : Nat) : Nat → List Char → Nat × Nat × List Char
  | n, [] => (n, 0, [])
  | n, c :: cs =>
    match Decimal.digitValue? c with
    | some d =>
      if n * 10 + d ≤ limit then
        let (m, count, rest) := takeDigits limit (n * 10 + d) cs
        (m, count + 1, rest)
      else (n, 0, c :: cs)
    | none => (n, 0, c :: cs)

/-- The number `n * 10 ^ k` with a sign. -/
def scaled (isNegative : Bool) (n : Nat) (k : Int) (rest : List Char) : Reading Number :=
  match Binary64.scaled? n k with
  | some x => .ok (float isNegative x, rest)
  | none => stopAt .numberTooLarge rest

/-- The number with an exponent, from behind the letter. -/
def readExponent (isNegative : Bool) (n : Nat) (k : Int) (cs : List Char) : Reading Number :=
  let (down, cs) : Bool × List Char :=
    match cs with
    | '+' :: rest => (false, rest)
    | '-' :: rest => (true, rest)
    | rest => (false, rest)
  match cs with
  | [] => stopAt .unfinishedValue []
  | c :: rest =>
    match Decimal.digitValue? c with
    | none => stopBehind .badNumber (c :: rest)
    | some d =>
      let (e, _, rest) := takeDigits exponentLimit d rest
      if beginsWithDigit rest then
        if n ≠ 0 && !down then stopAt .numberTooLarge (rest.drop 1)
        else .ok (float isNegative .zero, rest.dropWhile isDigit)
      else scaled isNegative n (if down then k - e else k + e) rest

/-- The number with what may follow the digits before an exponent. -/
def readScale (isNegative : Bool) (n : Nat) (k : Int) (cs : List Char) : Reading Number :=
  match cs with
  | 'e' :: rest => readExponent isNegative n k rest
  | 'E' :: rest => readExponent isNegative n k rest
  | rest => scaled isNegative n k rest

/-- The number with a fraction, from behind the point. -/
def readFraction (isNegative : Bool) (n : Nat) (k : Int) (cs : List Char) : Reading Number :=
  let (n, count, rest) := takeDigits significandLimit n cs
  if beginsWithDigit rest then readScale isNegative n (k - count) (rest.dropWhile isDigit)
  else if count = 0 then
    stopBehind (if cs.isEmpty then .unfinishedValue else .badNumber) cs
  else readScale isNegative n (k - count) rest

/-- An integer, or a floating-point number if it has no such integer. -/
def ofInteger (isNegative : Bool) (n : Nat) (rest : List Char) : Reading Number :=
  if !isNegative then .ok (natural n, rest)
  else if n = 0 || 9223372036854775808 < n then scaled true n 0 rest
  else .ok (negative n, rest)

/-- The number behind its sign. -/
def readUnsigned (isNegative : Bool) (cs : List Char) : Reading Number :=
  match cs with
  | [] => stopAt .unfinishedValue []
  | c :: rest =>
    match Decimal.digitValue? c with
    | none => stopBehind .badNumber (c :: rest)
    | some d =>
      if d = 0 && beginsWithDigit rest then stopBehind .badNumber rest
      else
        let (n, _, rest) := takeDigits significandLimit d rest
        let extra := rest.takeWhile isDigit
        match rest.dropWhile isDigit with
        | '.' :: rest => readFraction isNegative n extra.length rest
        | rest =>
          if !extra.isEmpty || rest.head? = some 'e' || rest.head? = some 'E' then
            readScale isNegative n extra.length rest
          else ofInteger isNegative n rest

/-- The number at the beginning of a text. -/
def read : List Char → Reading Number
  | '-' :: rest => readUnsigned true rest
  | rest => readUnsigned false rest

/-! ### Skipping -/

/-- What follows an exponent, from behind the letter. -/
def skipExponent (cs : List Char) : Except Stop (List Char) :=
  let cs :=
    match cs with
    | '+' :: rest => rest
    | '-' :: rest => rest
    | rest => rest
  if beginsWithDigit cs then .ok (cs.dropWhile isDigit) else stopBehind .badNumber cs

/-- What follows the digits of a number and its exponent. -/
def skipScale (cs : List Char) : Except Stop (List Char) :=
  match cs with
  | 'e' :: rest => skipExponent rest
  | 'E' :: rest => skipExponent rest
  | rest => .ok rest

/-- What follows a number, from behind its sign. -/
def skipUnsigned (cs : List Char) : Except Stop (List Char) :=
  if !beginsWithDigit cs then stopBehind .badNumber cs
  else if cs.head? = some '0' && beginsWithDigit (cs.drop 1) then stopBehind .badNumber (cs.drop 1)
  else
    match cs.dropWhile isDigit with
    | '.' :: rest =>
      if beginsWithDigit rest then skipScale (rest.dropWhile isDigit)
      else stopBehind .badNumber rest
    | rest => skipScale rest

/-- What follows the number at the beginning of a text. -/
def skip : List Char → Except Stop (List Char)
  | '-' :: rest => skipUnsigned rest
  | rest => skipUnsigned rest

end Number

end Json

end QueueDrain
