import QueueDrain.Text.Decimal

/-!
# Binary floating-point numbers

Finite numbers of 53 significant bits without a sign, in exact arithmetic: every operation computes
with natural numbers and rounds once. Their decimal text has the fewest digits that read back.

## Main definitions

* `Binary64` — a number, significand and exponent
* `Binary64.ofRatio?` — the number nearest to a ratio
* `Binary64.mul?`, `Binary64.div?` — rounded product and quotient
* `Binary64.scaled?` — a natural number times a power of ten, in steps that round one by one
* `Binary64.text` — the shortest decimal text
-/

namespace QueueDrain

/-- The number `significand * 2 ^ exponent`. -/
structure Binary64 where
  significand : Nat
  exponent : Int
deriving DecidableEq, Repr

namespace Binary64

/-- The exponent of the smallest numbers. -/
def minExponent : Int := -1074

/-- The exponent of the largest numbers. -/
def maxExponent : Int := 971

/-- The numerator of a number as a ratio. -/
def numerator (x : Binary64) : Nat := x.significand * Nat.pow 2 x.exponent.toNat

/-- The denominator of a number as a ratio. -/
def denominator (x : Binary64) : Nat := Nat.pow 2 (-x.exponent).toNat

/-- Nothing. -/
def zero : Binary64 := ⟨0, minExponent⟩

def isZero (x : Binary64) : Bool := x.significand == 0

/-! ### Rounding -/

/-- The quotient rounded to the nearest natural number, a half to the even one. -/
def roundDiv (n d : Nat) : Nat :=
  if 2 * (n % d) < d then n / d
  else if d < 2 * (n % d) then n / d + 1
  else if n / d % 2 = 0 then n / d
  else n / d + 1

/-- The largest `k` with `2 ^ k ≤ n / d`, for positive `n` and `d`. -/
def log2Ratio (n d : Nat) : Int :=
  let k : Int := (Nat.log2 n : Int) - Nat.log2 d
  if d * Nat.pow 2 k.toNat ≤ n * Nat.pow 2 (-k).toNat then k else k - 1

/-- The number nearest to `n / d`, unless that is too large. -/
def ofRatio? (n d : Nat) : Option Binary64 :=
  if n = 0 then some zero
  else
    let e := max minExponent (log2Ratio n d - 52)
    let m := roundDiv (n * Nat.pow 2 (-e).toNat) (d * Nat.pow 2 e.toNat)
    let (m, e) := if m = Nat.pow 2 53 then (Nat.pow 2 52, e + 1) else (m, e)
    if maxExponent < e then none else some ⟨m, e⟩

/-- The number nearest to a product, unless that is too large. -/
def mul? (x y : Binary64) : Option Binary64 :=
  ofRatio? (x.numerator * y.numerator) (x.denominator * y.denominator)

/-- The number nearest to a quotient, unless that is too large. -/
def div? (x y : Binary64) : Option Binary64 :=
  ofRatio? (x.numerator * y.denominator) (x.denominator * y.numerator)

/-! ### Decimal scaling -/

/-- The largest power of ten that is a number has this exponent. -/
def maxPowerOfTen : Nat := 308

/-- The number nearest to a power of ten. -/
def powerOfTen? (k : Nat) : Option Binary64 := ofRatio? (Nat.pow 10 k) 1

/-- The number divided by a power of ten. -/
def divPower? (x : Binary64) (places : Nat) : Option Binary64 := (powerOfTen? places).bind x.div?

/-- The number divided some times by the largest power of ten. -/
def divLargest? : Nat → Binary64 → Option Binary64
  | 0, x => some x
  | times + 1, x =>
    if x.isZero then some x else (x.divPower? maxPowerOfTen).bind (divLargest? times)

/-- `n * 10 ^ k`, rounded when `n` is made a number and again at every multiplication or division.
It does not exist if it is too large. -/
def scaled? (n : Nat) (k : Int) : Option Binary64 :=
  match ofRatio? n 1 with
  | none => none
  | some x =>
    if k < 0 then
      let times := (k.natAbs - 1) / maxPowerOfTen
      (divLargest? times x).bind fun y => y.divPower? (k.natAbs - times * maxPowerOfTen)
    else if k.toNat ≤ maxPowerOfTen then (powerOfTen? k.toNat).bind x.mul?
    else if x.isZero then some x
    else none

/-! ### Text -/

/-- The `k` with `10 ^ (k - 1) ≤ n / d < 10 ^ k`, for positive `n` and `d`. -/
def decimalPoint (n d : Nat) : Int :=
  if d ≤ n then (Decimal.digits (n / d)).length
  else
    let k := (Decimal.digits (d / n)).length
    if d = n * Nat.pow 10 (k - 1) then 2 - (k : Int) else 1 - (k : Int)

/-- Whether `c * 10 ^ p` reads back as `x`. -/
def readsBack (x : Binary64) (c : Nat) (p : Int) : Bool :=
  ofRatio? (c * Nat.pow 10 p.toNat) (Nat.pow 10 (-p).toNat) == some x

/-- The multiple of `10 ^ p` that reads back as `x` and is nearest to it, of two the even one. -/
def onGrid? (x : Binary64) (p : Int) : Option Nat :=
  let n := x.numerator * Nat.pow 10 (-p).toNat
  let d := x.denominator * Nat.pow 10 p.toNat
  let low := n / d
  let near := roundDiv n d
  let far := if near = low then low + 1 else low
  if x.readsBack near p then some near
  else if x.readsBack far p then some far
  else none

/-- The coarsest of the next `tries` grids, from that of `10 ^ p` on, with a multiple that reads
back, and that multiple. -/
def shortest : Nat → Binary64 → Int → Nat × Int
  | 0, _, p => (0, p)
  | tries + 1, x, p =>
    match x.onGrid? p with
    | some c => (c, p)
    | none => shortest tries x (p - 1)

/-- The fewest digits that read back as `x`, without zeros at the end, and where the point stands
in front of them. -/
def shortestDigits (x : Binary64) : List Char × Int :=
  let (c, p) := shortest 17 x (decimalPoint x.numerator x.denominator - 1)
  let all := Decimal.digits c
  let digits := (all.reverse.dropWhile (· == '0')).reverse
  (digits, p + all.length)

/-- An exponent with its sign and at least two digits. -/
def exponentText (e : Int) : List Char :=
  (if e < 0 then '-' else '+') :: Decimal.padded 2 e.natAbs

/-- Digits with the point behind the first `point` of them: positional between a hundred-thousandth
and ten to the sixteenth, with an exponent elsewhere. -/
def layout (digits : List Char) (point : Int) : List Char :=
  if 0 < point && point ≤ 16 then
    let whole := digits.take point.toNat
    let fraction := digits.drop point.toNat
    whole ++ List.replicate (point.toNat - digits.length) '0' ++ ['.']
      ++ (if fraction.isEmpty then ['0'] else fraction)
  else if -5 < point && point ≤ 0 then
    ['0', '.'] ++ List.replicate (-point).toNat '0' ++ digits
  else
    let fraction := digits.drop 1
    digits.take 1 ++ (if fraction.isEmpty then [] else '.' :: fraction) ++ ['e']
      ++ exponentText (point - 1)

/-- The shortest decimal text that reads back. -/
def text (x : Binary64) : String :=
  if x.isZero then "0.0"
  else
    let (digits, point) := x.shortestDigits
    String.ofList (layout digits point)

end Binary64

end QueueDrain
