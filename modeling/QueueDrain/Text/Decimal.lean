/-!
# Decimal numerals

Natural numbers as digits and back, over lists of characters, and the integer syntax that URIs and
command lines share: an optional plus sign, at least one digit, a bounded value.

## Main definitions

* `Decimal.digits`, `Decimal.value` — a number as its digits, and the number that digits denote
* `Decimal.padded` — digits with leading zeros up to a width
* `Decimal.readBounded` — a signed numeral whose value has to lie in a range

## Main results

* `Decimal.value_digits` — the digits of a number denote it
-/

namespace QueueDrain

namespace Decimal

/-- The digit character of `n % 10`. -/
def digitChar (n : Nat) : Char := Char.ofNat ('0'.toNat + n % 10)

/-- The value of a decimal digit character, and nothing for any other character. -/
def digitValue? (c : Char) : Option Nat :=
  if '0' ≤ c ∧ c ≤ '9' then some (c.toNat - '0'.toNat) else none

/-- The decimal digits of `n`, most significant first, without leading zeros. -/
def digits (n : Nat) : List Char :=
  if n < 10 then [digitChar n] else digits (n / 10) ++ [digitChar n]
termination_by n

/-- The numeral of `n` as a string. -/
def text (n : Nat) : String := String.ofList (digits n)

/-- The numeral of an integer, with a minus sign before a negative one. -/
def signedText (i : Int) : String :=
  if i < 0 then "-" ++ text i.natAbs else text i.natAbs

/-- The digits of `n` behind as many zeros as it takes to reach `width`. -/
def padded (width n : Nat) : List Char :=
  List.replicate (width - (digits n).length) '0' ++ digits n

/-- The number that a list of digits denotes; other characters count as zero, so that reading is
total and the syntax is checked apart. -/
def value (cs : List Char) : Nat :=
  cs.foldl (fun n c => n * 10 + (digitValue? c).getD 0) 0

/-! ### Reading back -/

theorem digitValue?_digitChar (n : Nat) : digitValue? (digitChar n) = some (n % 10) := by
  have h : ∀ k : Fin 10, digitValue? (digitChar k) = some (k : Nat) := by decide
  have := h ⟨n % 10, Nat.mod_lt _ (by decide)⟩
  simpa [digitChar] using this

theorem value_append_singleton (cs : List Char) (c : Char) :
    value (cs ++ [c]) = value cs * 10 + (digitValue? c).getD 0 := by
  simp [value]

/-- **Digits denote their number.** -/
theorem value_digits (n : Nat) : value (digits n) = n := by
  induction n using digits.induct with
  | case1 n h =>
    rw [digits, if_pos h]
    simp [value, digitValue?_digitChar, Nat.mod_eq_of_lt h]
  | case2 n h ih =>
    rw [digits, if_neg h, value_append_singleton, ih, digitValue?_digitChar]
    simp only [Option.getD_some]
    omega

/-! ### Bounded numerals -/

/-- Why a text is no integer of a bounded type. -/
inductive Fault where
  | empty
  | invalidDigit
  | tooLarge
  | tooSmall
deriving DecidableEq, Repr

/-- The wording of a fault. -/
def Fault.message : Fault → String
  | .empty => "cannot parse integer from empty string"
  | .invalidDigit => "invalid digit found in string"
  | .tooLarge => "number too large to fit in target type"
  | .tooSmall => "number too small to fit in target type"

/-- The value of a nonempty run of digits that does not pass `limit`. The digits are looked at from
the left, so of a text that is too long and also malformed the first fault is reported. -/
def readDigits (limit : Nat) : Nat → List Char → Except Fault Nat
  | n, [] => .ok n
  | n, c :: cs =>
    match digitValue? c with
    | none => .error .invalidDigit
    | some d =>
      if limit < n * 10 + d then .error .tooLarge else readDigits limit (n * 10 + d) cs

/-- A natural number up to `limit`: digits behind an optional plus sign. A lone sign has no digit,
and a minus sign is no digit either. -/
def readUpTo (limit : Nat) : List Char → Except Fault Nat
  | [] => .error .empty
  | ['+'] => .error .invalidDigit
  | '+' :: cs => readDigits limit 0 cs
  | cs => readDigits limit 0 cs

/-- An integer from `-(bound + 1)` to `bound`: digits behind an optional sign. -/
def readSigned (bound : Nat) : List Char → Except Fault Int
  | '-' :: c :: cs =>
    match readDigits (bound + 1) 0 (c :: cs) with
    | .ok n => .ok (-(n : Int))
    | .error .tooLarge => .error .tooSmall
    | .error e => .error e
  | cs => (readUpTo bound cs).map Int.ofNat

end Decimal

end QueueDrain
